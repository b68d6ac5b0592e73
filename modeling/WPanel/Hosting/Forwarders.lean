import WPanel.Hosting.Accounts
import WPanel.Lib.Machine
import WPanel.Lib.Numerals
import WPanel.Lib.Patterns
import WPanel.Lib.Worklist

namespace WPanel.Hosting.Forwarders

open WPanel.Lib

/-!
# Forwarders that cannot loop

The mailboxes and forwarders of one account, as `hosting/adapters/demo_email.py` keeps them.

* `MailData` — what `email.json` holds of them;
* `loops` — the search of `_loops`, which is `searchBack` over the forwarders;
* `createForwarder`, `deleteForwarder`, `createMailbox`, `deleteMailbox` — the calls;
* `RefusesLoops` — a forwarder is refused for looping exactly when it would close a circle;
* `neverInACircle` — no state of a run has a circle, in each of them the refusals are exact, and
  the search ends for every set of forwarders.
-/

/-- `HostingError(message)`, as the gateway passes it on. -/
abbrev hostingError (message : String) : Err := adapterError message

def MAX_MAILBOXES : ℕ := 10

def MAX_FORWARDERS : ℕ := 20

def DEFAULT_QUOTA_MB : ℤ := 1024

def MAX_QUOTA_MB : ℤ := 5120

def PASSWORD_MIN : ℕ := 12

def PASSWORD_MAX : ℕ := 128

/-- A forwarder: from its source to its destination. -/
abbrev Forwarder := String × String

structure MailData where
  domain : String
  /-- The addresses, with their quotas. -/
  mailboxes : List (String × ℤ) := []
  forwarders : List Forwarder := []
  deriving DecidableEq, Repr

/-! ### The calls -/

/-- `LOCAL_RE`, without its anchors. -/
def localPattern : List Char → Bool :=
  flanked isLowerOrDigit (fun c => isLowerOrDigit c || c ∈ ['.', '_', '-']) isLowerOrDigit 38

/-- `_loops`: whether mail from `start` comes back to it. -/
def loops (forwarders : List Forwarder) (start : String) : Option Bool :=
  searchBack forwarders start

/-- `check_password`. -/
def checkPassword (password : String) : Except Err Unit := do
  ensure (PASSWORD_MIN ≤ password.toList.length ∧ password.toList.length ≤ PASSWORD_MAX)
    (hostingError ("Use a password of " ++ toString PASSWORD_MIN ++ " to "
      ++ toString PASSWORD_MAX ++ " characters."))
  ensure (' ' ∉ password.toList ∧ password.toList.any Char.isAlpha = true
      ∧ password.toList.any isDecimal = true)
    (hostingError "The password needs letters and numbers, and no spaces.")

/-- `_quota`. -/
def quota (quotaMb : String) : Except Err ℤ :=
  if quotaMb = "" then pure DEFAULT_QUOTA_MB
  else match parseInt quotaMb with
    | none => throw (hostingError "The quota must be a number of megabytes.")
    | some quota => do
      ensure (10 ≤ quota ∧ quota ≤ MAX_QUOTA_MB) (hostingError
        ("The quota must be between 10 and " ++ intText MAX_QUOTA_MB ++ " MB."))
      return quota

/-- The pair is refused: its source is its destination. -/
def ownAddress : Err := hostingError "A forwarder cannot send mail to its own address."

/-- The pair is refused: it closes a circle. -/
def inACircle : Err := hostingError "That would send mail round in a circle."

section

-- `str.lower`, and whether `validate_email` accepts an address
variable (lower : String → String) (validEmail : String → Bool)

/-- `_address`. -/
def address (domain typed what : String) : Except Err String := do
  let typed := lower (strip typed)
  let parts := partition '@' typed
  -- a bare name means "at this account's domain"
  let parts := if parts.2 = "" then (typed, domain) else parts
  ensure (parts.2 = domain)
    (hostingError ("Only addresses at " ++ domain ++ " can be used here."))
  ensure (matchesLine localPattern parts.1 = true ∧ ¬['.', '.'] <:+: parts.1.toList)
    (hostingError ("The " ++ what ++ " can use letters, numbers, dots, hyphens and underscores, "
      ++ "and must start and end with a letter or number."))
  return parts.1 ++ "@" ++ parts.2

/-- `_mailbox`. -/
def mailbox (data : MailData) (typed : String) : Except Err String := do
  let address ← address lower data.domain typed "address"
  ensure (address ∈ data.mailboxes.map Prod.fst) (hostingError "That mailbox does not exist.")
  return address

/-- `create_mailbox`. -/
def createMailbox (typed password quotaMb : String) (data : MailData) : Except Err MailData := do
  let address ← address lower data.domain typed "address"
  ensure (address ∉ data.mailboxes.map Prod.fst) (hostingError "That mailbox already exists.")
  ensure (data.mailboxes.length < MAX_MAILBOXES) (hostingError ("Your plan allows "
    ++ toString MAX_MAILBOXES ++ " mailboxes. Delete one or upgrade your plan."))
  checkPassword password
  let quota ← quota quotaMb
  return { data with mailboxes := data.mailboxes ++ [(address, quota)] }

/-- `delete_mailbox`. -/
def deleteMailbox (typed : String) (data : MailData) : Except Err MailData := do
  let address ← mailbox lower data typed
  return { data with
    mailboxes := data.mailboxes.filter (·.1 ≠ address)
    forwarders := data.forwarders.filter (·.1 ≠ address) }

/-- The pair that is asked for, once both addresses are accepted. -/
def pairOf (domain source destination : String) : Except Err Forwarder := do
  let source ← address lower domain source "source address"
  let destination := lower (strip destination)
  ensure (validEmail destination = true)
    (hostingError "Enter a valid email address to forward to.")
  return (source, destination)

/-- `create_forwarder`. -/
def createForwarder (source destination : String) (data : MailData) : Except Err MailData := do
  let pair ← pairOf lower validEmail data.domain source destination
  ensure (pair.2 ≠ pair.1) ownAddress
  ensure (pair ∉ data.forwarders) (hostingError "That forwarder already exists.")
  ensure (data.forwarders.length < MAX_FORWARDERS) (hostingError ("Your plan allows "
    ++ toString MAX_FORWARDERS ++ " forwarders."))
  match loops (data.forwarders ++ [pair]) pair.1 with
  | none => throw (.unexpected "still searching")
  | some true => throw inACircle
  | some false => return { data with forwarders := data.forwarders ++ [pair] }

/-- `delete_forwarder`. -/
def deleteForwarder (source destination : String) (data : MailData) : Except Err MailData := do
  let pair := (lower (strip source), lower (strip destination))
  ensure (pair ∈ data.forwarders) (hostingError "That forwarder does not exist.")
  return { data with forwarders := data.forwarders.erase pair }

/-- A call on the mail of the account. -/
inductive MailCall where
  | createForwarder (source destination : String)
  | deleteForwarder (source destination : String)
  | createMailbox (typed password quotaMb : String)
  | deleteMailbox (typed : String)
  deriving DecidableEq, Repr

def MailCall.exec (call : MailCall) (data : MailData) : Except Err MailData :=
  match call with
  | .createForwarder source destination =>
    Forwarders.createForwarder lower validEmail source destination data
  | .deleteForwarder source destination => Forwarders.deleteForwarder lower source destination data
  | .createMailbox typed password quotaMb =>
    Forwarders.createMailbox lower typed password quotaMb data
  | .deleteMailbox typed => Forwarders.deleteMailbox lower typed data

/-- One call after the other. -/
def mail : Machine MailData MailCall PUnit Err where
  exec call data := (call.exec lower validEmail data).map fun data => (data, [])

/-- A forwarder that is asked for while there is room is refused for looping, as one to its own
    address or as one that sends mail round in a circle, exactly when adding it would close a
    circle. -/
def RefusesLoops (data : MailData) : Prop :=
  ∀ source destination pair,
    pairOf lower validEmail data.domain source destination = .ok pair →
    data.forwarders.length < MAX_FORWARDERS →
    (createForwarder lower validEmail source destination data = .error ownAddress
        ∨ createForwarder lower validEmail source destination data = .error inACircle
      ↔ Cyclic (data.forwarders ++ [pair]))

end

/-! ### What a call does to the forwarders -/

section

variable {lower : String → String} {validEmail : String → Bool} {data data' : MailData}
  {source destination : String} {pair : Forwarder}

theorem createForwarder_eq_ok
    (h : createForwarder lower validEmail source destination data = .ok data') :
    ∃ pair, loops (data.forwarders ++ [pair]) pair.1 = some false
      ∧ data' = { data with forwarders := data.forwarders ++ [pair] } := by
  obtain ⟨pair, -, h⟩ := bind_eq_ok.mp h
  obtain ⟨_, -, h⟩ := bind_eq_ok.mp h
  obtain ⟨_, -, h⟩ := bind_eq_ok.mp h
  obtain ⟨_, -, h⟩ := bind_eq_ok.mp h
  split at h
  · cases h
  · cases h
  · next hloops => exact ⟨pair, hloops, ((pure_eq_ok _ _).mp h).symm⟩

/-- No other call adds a forwarder. -/
theorem forwarders_exec {call : MailCall} (h : call.exec lower validEmail data = .ok data') :
    data'.forwarders ⊆ data.forwarders
      ∨ ∃ pair, loops (data.forwarders ++ [pair]) pair.1 = some false
        ∧ data'.forwarders = data.forwarders ++ [pair] := by
  cases call with
  | createForwarder source destination =>
    obtain ⟨pair, hloops, rfl⟩ := createForwarder_eq_ok h
    exact .inr ⟨pair, hloops, rfl⟩
  | deleteForwarder source destination =>
    obtain ⟨_, -, h⟩ := bind_eq_ok.mp h
    obtain rfl := (pure_eq_ok _ _).mp h
    exact .inl List.erase_subset
  | createMailbox typed password quotaMb =>
    obtain ⟨_, -, h⟩ := bind_eq_ok.mp h
    obtain ⟨_, -, h⟩ := bind_eq_ok.mp h
    obtain ⟨_, -, h⟩ := bind_eq_ok.mp h
    obtain ⟨_, -, h⟩ := bind_eq_ok.mp h
    obtain ⟨_, -, h⟩ := bind_eq_ok.mp h
    obtain rfl := (pure_eq_ok _ _).mp h
    exact .inl (List.Subset.refl _)
  | deleteMailbox typed =>
    obtain ⟨_, -, h⟩ := bind_eq_ok.mp h
    obtain rfl := (pure_eq_ok _ _).mp h
    exact .inl (List.filter_subset_self _)

/-- **No call closes a circle**: the search looks for a way back to the source of the new forwarder
    only, and in forwarders without a circle a new one has to go through it. -/
theorem not_cyclic_exec {call : MailCall} (hno : ¬Cyclic data.forwarders)
    (h : call.exec lower validEmail data = .ok data') : ¬Cyclic data'.forwarders := by
  rcases forwarders_exec h with hsub | ⟨pair, hloops, hadded⟩
  · exact fun hcyclic => hno (hcyclic.mono hsub)
  · rw [hadded]
    intro hcyclic
    have hback := (searchBack_iff _ _).mpr ((cyclic_append_iff hno).mp hcyclic)
    rw [loops, hback] at hloops
    cases hloops

private theorem ownAddress_ne_exists :
    hostingError "That forwarder already exists." ≠ ownAddress
      ∧ hostingError "That forwarder already exists." ≠ inACircle := by decide +kernel

/-- **The refusals are exact** where no circle is there yet. -/
theorem refusesLoops (hno : ¬Cyclic data.forwarders) : RefusesLoops lower validEmail data := by
  intro source destination pair hpair hroom
  unfold createForwarder
  rw [hpair, ok_bind]
  by_cases hown : pair.2 = pair.1
  · -- a forwarder to its own address is a circle
    have hself : Cyclic (data.forwarders ++ [pair]) := by
      refine ⟨pair.1, .single (List.mem_append_right _ (List.mem_singleton.mpr ?_))⟩
      exact Prod.ext rfl hown.symm
    rw [ensure, if_neg (not_not.mpr hown), error_bind]
    exact iff_of_true (.inl rfl) hself
  · rw [ensure, if_pos hown, ok_bind]
    by_cases hthere : pair ∈ data.forwarders
    · -- one that is there already closes nothing
      have hsame : ¬Cyclic (data.forwarders ++ [pair]) := by
        refine fun hcyclic => hno (hcyclic.mono fun edge hedge => ?_)
        rcases List.mem_append.mp hedge with hold | hnew
        · exact hold
        · rwa [List.mem_singleton.mp hnew]
      rw [ensure, if_neg (not_not.mpr hthere), error_bind]
      refine iff_of_false ?_ hsame
      rintro (heq | heq)
      · exact ownAddress_ne_exists.1 (Except.error.inj heq)
      · exact ownAddress_ne_exists.2 (Except.error.inj heq)
    · rw [ensure, if_pos hthere, ok_bind, ensure, if_pos hroom, ok_bind, cyclic_append_iff hno]
      rw [← searchBack_iff]
      obtain ⟨found, hfound⟩ := Option.isSome_iff_exists.mp
        (searchBack_ends (data.forwarders ++ [pair]) pair.1)
      rw [loops, hfound]
      cases found with
      | true => exact iff_of_true (.inr rfl) rfl
      | false =>
        refine iff_of_false ?_ (by simp)
        rintro (heq | heq) <;> cases heq

end

example : createForwarder lower (fun _ => true) "b" " A@example.com"
    { domain := "example.com", forwarders := [("a@example.com", "b@example.com")] }
      = .error inACircle := by decide +kernel

/-- **Mail never goes round in a circle**: whatever forwarders and mailboxes are created and
    deleted on an account that begins without forwarders, there is no circle in any state, a
    forwarder is refused for looping exactly when it would close one, and the search for that ends
    for every set of forwarders, with a circle or without. -/
theorem neverInACircle (lower : String → String) (validEmail : String → Bool)
    (calls : List MailCall) (start : MailData) (hstart : start.forwarders = []) :
    (mail lower validEmail).Always
        (fun data => ¬Cyclic data.forwarders ∧ RefusesLoops lower validEmail data) calls start
      ∧ ∀ forwarders source, (loops forwarders source).isSome = true := by
  refine ⟨?_, fun forwarders source => searchBack_ends forwarders source⟩
  have halways :
      (mail lower validEmail).Always (fun data => ¬Cyclic data.forwarders) calls start := by
    refine Machine.always_of_invariant calls ?_ start (by rw [hstart]; exact not_cyclic_nil)
    intro call _ data data' out hno hcommits
    obtain ⟨data₁, hexec, hsame⟩ := map_eq_ok.mp hcommits
    obtain rfl : data₁ = data' := (Prod.mk.inj hsame).1
    exact not_cyclic_exec hno hexec
  exact halways.mono fun data hno => ⟨hno, refusesLoops hno⟩

/-- Two forwarders in a row, and one that would lead back. -/
theorem neverInACircle_threeForwarders :
    (mail lower fun _ => true).Always
        (fun data => ¬Cyclic data.forwarders ∧ RefusesLoops lower (fun _ => true) data)
        [.createForwarder "a" "b@example.com", .createForwarder "b" "c@example.com",
          .createForwarder "c" "a@example.com"] { domain := "example.com" }
      ∧ ∀ forwarders source, (loops forwarders source).isSome = true :=
  neverInACircle _ _ _ _ rfl

end WPanel.Hosting.Forwarders
