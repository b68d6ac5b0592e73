import WPanel.Lib.Machine
import WPanel.Lib.Networks
import WPanel.Lib.Text

namespace WPanel.Storefronts.Webhooks

open WPanel.Lib

/-!
# The pings a storefront is sent

`storefronts/webhooks.py` and `storefronts/tasks.py`: one ping to the address of a storefront, and
the retries of it.

* `assertSafeWebhookUrl` — the guard, which looks the name up;
* `requestsPost` — the request, which looks the name up again and goes where it is sent;
* `send`, `Task.attempt` — one attempt, and the task that makes it until it is over;
* `Public` — every address a connection was opened to is globally reachable;
* `Straight` — a request goes to the addresses the guard has seen, none of which it overlooks, and
  is not sent elsewhere;
* `deliver_public` — under that condition no connection leaves the public network.
-/

/-! ### The network -/

/-- What a server says: an answer with its status, to go elsewhere, or nothing that is read. -/
inductive Answer
  | response (status : ℕ)
  | redirect
  | broken (reason : String)
  deriving DecidableEq, Repr

/-- One request: the addresses the name is looked up as, which of them takes the connection, and
    what it says. -/
structure Hop where
  addresses : List Address
  taken : Option ℕ
  answer : Answer
  deriving DecidableEq, Repr

/-- The addresses a connection is opened to: one after the other, until one takes it. -/
def Hop.opened (hop : Hop) : List Address :=
  match hop.taken with
  | some k => hop.addresses.take (k + 1)
  | none => hop.addresses

/-- The redirects `requests` follows before it gives up. -/
def MAX_REDIRECTS : ℕ := 30

/-- `requests.post`: the connections it opens, and the status of the answer or what it raises. -/
def requestsPost (allowRedirects : Bool) : ℕ → List Hop → List Address × Except String ℕ
  | _, [] => ([], .error "No answer.")
  | left, hop :: hops =>
    match hop.taken, hop.answer with
    | none, _ => (hop.opened, .error "No connection.")
    | some _, .broken reason => (hop.opened, .error reason)
    | some _, .response status => (hop.opened, .ok status)
    | some _, .redirect =>
      match allowRedirects, left with
      | false, _ => (hop.opened, .ok 302)
      | true, 0 => (hop.opened, .error "Exceeded 30 redirects.")
      | true, left + 1 =>
        let (opened, result) := requestsPost allowRedirects left hops
        (hop.opened ++ opened, result)

/-- What `getaddrinfo` gives. -/
inductive Lookup
  | found (addresses : List Address)
  | gaierror
  | raises (reason : String)
  deriving DecidableEq, Repr

/-! ### One attempt -/

/-- What one attempt meets: the address of the storefront as `urlparse` reads it, if it does, the
    storefront's secret, the lookup of the guard, and the requests. -/
structure Attempt where
  url : Option (String × String)
  secret : String
  lookup : Lookup
  hops : List Hop
  deriving DecidableEq, Repr

/-- `WebhookConfigError`, `WebhookDeliveryError`, or any other exception. -/
inductive Failure
  | config (message : String)
  | delivery (message : String)
  | other (message : String)
  deriving DecidableEq, Repr

def Failure.message : Failure → String
  | .config message => message
  | .delivery message => message
  | .other message => message

/-- `str(address)`. -/
def addressText : Address → String
  | .v4 x => String.ofList x.text
  | .v6 x => String.ofList x.text

/-- What the guard asks of an address. -/
def isRefused (a : Address) : Bool :=
  a.isPrivate || a.isLoopback || a.isLinkLocal || a.isReserved || a.isMulticast || a.isUnspecified

/-- `assert_safe_webhook_url`. -/
def assertSafeWebhookUrl (attempt : Attempt) : Except Failure Unit :=
  match attempt.url with
  | none => throw (.other "ValueError: Invalid IPv6 URL")
  | some (scheme, hostname) =>
    if scheme ≠ "https" ∨ hostname = "" then
      throw (.config "Webhook URL must be an https address.")
    else match attempt.lookup with
      | .gaierror => throw (.config ("Could not resolve " ++ hostname ++ "."))
      | .raises reason => throw (.other reason)
      | .found addresses =>
        match addresses.find? isRefused with
        | some a => throw (.config
            ("Webhook URL resolves to a non-public address (" ++ addressText a ++ ")."))
        | none => pure ()

/-- `response.ok`. -/
def isOk (status : ℕ) : Bool := !(decide (400 ≤ status) && decide (status < 600))

/-- `WebhookDeliveryStatus`. -/
inductive DeliveryStatus
  | pending | delivered | failed
  deriving DecidableEq, Repr

/-- `StorefrontWebhookDelivery`. -/
structure Delivery where
  attempts : ℕ
  status : DeliveryStatus
  responseStatus : Option ℕ
  error : String
  deriving DecidableEq, Repr

/-- The delivery as it is saved after a `WebhookError`; another exception leaves it as it was. -/
def Delivery.failedWith (d saved : Delivery) : Failure → Delivery
  | .other _ => d
  | failure => { saved with status := .failed, error := clip 255 failure.message }

/-- What one attempt comes to: the delivery, the connections that were opened, and what was
    raised. -/
structure Outcome where
  delivery : Delivery
  opened : List Address
  raised : Option Failure
  deriving DecidableEq, Repr

/-- `send`. -/
def send (attempt : Attempt) (d : Delivery) : Outcome :=
  let tried := { d with attempts := d.attempts + 1 }
  match assertSafeWebhookUrl attempt with
  | .error failure => ⟨d.failedWith tried failure, [], some failure⟩
  | .ok _ =>
    if attempt.secret = "" then
      let failure := Failure.config "This storefront has no webhook signing secret configured."
      ⟨d.failedWith tried failure, [], some failure⟩
    else
      let (opened, result) := requestsPost true MAX_REDIRECTS attempt.hops
      match result with
      | .error reason =>
        ⟨d.failedWith tried (.delivery reason), opened, some (.delivery reason)⟩
      | .ok status =>
        let answered := { tried with responseStatus := some status }
        if isOk status then ⟨{ answered with status := .delivered, error := "" }, opened, none⟩
        else
          let failure := Failure.delivery ("Storefront responded with HTTP " ++ toString status
            ++ ".")
          ⟨d.failedWith answered failure, opened, some failure⟩

/-! ### The task -/

/-- `max_retries`. -/
def MAX_RETRIES : ℕ := 5

/-- A delivery and the task that makes its attempts: how often it was tried again, whether it is
    over, and every connection that was opened. -/
structure Task where
  delivery : Delivery
  retries : ℕ
  finished : Bool
  opened : List Address
  deriving DecidableEq, Repr

/-- `deliver_webhook_task`: it is tried again unless it went well, the storefront is set up wrong,
    or it was tried often enough. -/
def Task.attempt (attempt : Attempt) (task : Task) : Task :=
  if task.finished then task
  else
    let outcome := send attempt task.delivery
    let task := { task with delivery := outcome.delivery, opened := task.opened ++ outcome.opened }
    match outcome.raised with
    | none | some (.config _) => { task with finished := true }
    | some (.delivery _) | some (.other _) =>
      if task.retries < MAX_RETRIES then { task with retries := task.retries + 1 }
      else { task with finished := true }

/-- The attempts one after the other. -/
def machine : Machine Task Attempt PUnit PUnit where
  exec attempt task := .ok (task.attempt attempt, [])

/-- The task of a delivery that is new. -/
def start : Task := ⟨⟨0, .pending, none, ""⟩, 0, false, []⟩

/-! ### What is promised -/

/-- **Every connection was opened to an address that is globally reachable.** -/
def Public (task : Task) : Prop := ∀ a ∈ task.opened, a.reachable = true

/-- The addresses the guard has seen. -/
def Attempt.seen (attempt : Attempt) : List Address :=
  match attempt.lookup with
  | .found addresses => addresses
  | .gaierror | .raises _ => []

/-- If it comes to a request, the connections go to addresses the guard has seen, none of which it
    overlooks, and the answer is not to go elsewhere. -/
def Straight (attempt : Attempt) : Prop :=
  assertSafeWebhookUrl attempt = .ok () → attempt.secret ≠ "" → ∀ hop ∈ attempt.hops.head?,
    (∀ a ∈ hop.opened, a ∈ attempt.seen ∧ a.overlooked = false)
      ∧ (hop.taken ≠ none → hop.answer ≠ .redirect)

/-! ### One attempt keeps to the public network -/

section

variable {attempt : Attempt} {hop : Hop} {hops : List Hop} {a : Address} {task : Task}

/-- What the guard lets through is public, but for what it overlooks. -/
theorem reachable_of_passed (h : assertSafeWebhookUrl attempt = .ok ()) (hseen : a ∈ attempt.seen)
    (hknown : a.overlooked = false) : a.reachable = true := by
  have hasked : isRefused a = false := by
    unfold assertSafeWebhookUrl at h
    split at h
    · cases h
    · split at h
      · cases h
      · split at h
        · cases h
        · cases h
        · next addresses hlookup =>
          split at h
          · cases h
          · next hnone =>
            rw [Attempt.seen, hlookup] at hseen
            exact Bool.eq_false_iff.mpr (List.find?_eq_none.mp hnone a hseen)
  simp only [isRefused, Bool.or_eq_false_iff] at hasked
  obtain ⟨⟨⟨⟨⟨hprivate, hloopback⟩, hlink⟩, hreserved⟩, hmulticast⟩, hunspecified⟩ := hasked
  by_contra hreach
  have hmissed := (overlooked_iff a).mpr ⟨Bool.eq_false_iff.mpr hreach, hprivate, hmulticast,
    hloopback, hlink, hreserved, hunspecified⟩
  exact absurd (hknown.symm.trans hmissed) Bool.false_ne_true

/-- A request that is not sent elsewhere opens the connections of its first hop. -/
theorem opened_requestsPost (h : hop.taken ≠ none → hop.answer ≠ .redirect) (left : ℕ) :
    (requestsPost true left (hop :: hops)).1 = hop.opened := by
  unfold requestsPost
  split
  · rfl
  · rfl
  · rfl
  · next htaken hanswer =>
    exact absurd hanswer (h (htaken ▸ Option.some_ne_none _))

/-- **An attempt that goes straight opens public connections only.** -/
theorem reachable_of_straight (h : Straight attempt) {d : Delivery}
    (ha : a ∈ (send attempt d).opened) : a.reachable = true := by
  unfold send at ha
  cases hguard : assertSafeWebhookUrl attempt with
  | error failure =>
    rw [hguard] at ha
    cases ha
  | ok u =>
    rw [hguard] at ha
    dsimp only at ha
    split at ha
    · cases ha
    · next hsecret =>
      have hopened : a ∈ (requestsPost true MAX_REDIRECTS attempt.hops).1 := by
        split at ha
        · exact ha
        · split at ha
          · exact ha
          · exact ha
      cases hhops : attempt.hops with
      | nil =>
        rw [hhops] at hopened
        cases hopened
      | cons hop hops =>
        obtain ⟨hgoes, hstays⟩ := h hguard hsecret hop (by rw [hhops]; rfl)
        rw [hhops, opened_requestsPost hstays] at hopened
        obtain ⟨hseen, hknown⟩ := hgoes a hopened
        exact reachable_of_passed hguard hseen hknown

theorem opened_attempt (ha : a ∈ (task.attempt attempt).opened) :
    a ∈ task.opened ∨ task.finished = false ∧ a ∈ (send attempt task.delivery).opened := by
  unfold Task.attempt at ha
  split at ha
  · exact .inl ha
  · next hopen =>
    have hopened : a ∈ task.opened ++ (send attempt task.delivery).opened := by
      dsimp only at ha
      split at ha
      · exact ha
      · exact ha
      · split at ha
        · exact ha
        · exact ha
      · split at ha
        · exact ha
        · exact ha
    exact (List.mem_append.mp hopened).imp_right fun h => ⟨Bool.eq_false_iff.mpr hopen, h⟩

end

/-! ### The whole task -/

/-- **A delivery never opens a connection out of the public network, however often it is tried
    again, where each attempt goes straight.** -/
theorem deliver_public (attempts : List Attempt)
    (h : machine.EachStep (fun task attempt _ => task.finished = false → Straight attempt) attempts
      start) :
    machine.Always Public attempts start := by
  refine Machine.always_of_eachStep (fun _ hpublic => hpublic) ?_ attempts start ?_ h
  · intro attempt task task' out hpublic hstep hstraight a ha
    obtain ⟨rfl, -⟩ := Prod.mk.inj (Except.ok.inj hstep)
    rcases opened_attempt ha with ha | ⟨hopen, ha⟩
    · exact hpublic a ha
    · exact reachable_of_straight (hstraight hopen) ha
  · exact fun a ha => absurd ha List.not_mem_nil

/-- An attempt on `https://uk.example/`, where the guard finds a public address. -/
def exampleAttempt (hops : List Hop) : Attempt :=
  ⟨some ("https", "uk.example"), "secret", .found [.v4 ⟨93, 184, 216, 34⟩], hops⟩

/-- The server is tried again after it was out of order. -/
theorem deliver_public_retried : machine.Always Public
    [exampleAttempt [⟨[.v4 ⟨93, 184, 216, 34⟩], some 0, .response 503⟩],
      exampleAttempt [⟨[.v4 ⟨93, 184, 216, 34⟩], some 0, .response 200⟩]] start := by
  refine deliver_public _ ⟨fun _ _ _ _ => ?_, fun _ _ _ _ => ?_, trivial⟩
  · intro _ _ hop hhop
    obtain rfl := Option.some.inj hhop
    exact ⟨by decide +kernel, fun _ => by decide⟩
  · intro _ _ hop hhop
    obtain rfl := Option.some.inj hhop
    exact ⟨by decide +kernel, fun _ => by decide⟩

/-- **The server sends the request on to an address of the panel's own network.** -/
theorem not_public_redirect : ¬machine.Always Public
    [exampleAttempt [⟨[.v4 ⟨93, 184, 216, 34⟩], some 0, .redirect⟩,
      ⟨[.v4 ⟨169, 254, 169, 254⟩], some 0, .response 200⟩]] start := by
  intro h
  exact absurd (h.last (.v4 ⟨169, 254, 169, 254⟩) (by decide +kernel)) (by decide +kernel)

/-- **The name is looked up as another address after the guard has seen it.** -/
theorem not_public_rebound : ¬machine.Always Public
    [exampleAttempt [⟨[.v4 ⟨127, 0, 0, 1⟩], some 0, .response 200⟩]] start := by
  intro h
  exact absurd (h.last (.v4 ⟨127, 0, 0, 1⟩) (by decide +kernel)) (by decide +kernel)

/-- **The addresses that providers share pass the guard.** -/
theorem not_public_shared : ¬machine.Always Public
    [{ exampleAttempt [⟨[.v4 ⟨100, 64, 0, 1⟩], some 0, .response 200⟩] with
      lookup := .found [.v4 ⟨100, 64, 0, 1⟩] }] start := by
  intro h
  exact absurd (h.last (.v4 ⟨100, 64, 0, 1⟩) (by decide +kernel)) (by decide +kernel)

end WPanel.Storefronts.Webhooks
