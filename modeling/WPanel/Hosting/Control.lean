import WPanel.Core
import WPanel.Lib.Interleaving
import WPanel.Lib.Versioned

namespace WPanel.Hosting.Control

open WPanel.Lib

/-!
# What the panel remembers about a hosting account

`perform` of `hosting/control.py` and `_Io.call` of `hosting/care.py` on one account, with the two
caches between them and the server: what the gateway has just read, and what the adapter itself
remembers (`_remember`, `forget_account` of `adapters/cpanel_api.py`).  Both have a version number
in every key; a change raises the one of the gateway, and then that of the adapter.

* `Request`, `Request.check` — what is asked for, and what the gateway refuses;
* `Call`, `calling` — the calls step by step and in any order, while entries of the caches expire;
  every answer of the server carries the time it was given;
* `Fresh` — no read that has returned holds anything the server gave before a change that was
  completed when the read began;
* `ByPerson` — changes are made for a person, through the gateway;
* `Settled` — no read takes the version of the gateway while a change has raised it and has not yet
  made the adapter forget;
* `StartsOnce` — a version that was missing has not been started by another change meanwhile;
* `always_fresh` — every read of a run that keeps to these is fresh;
* `not_always_fresh` — a change by the daily job, a read between the two, and a version that is set
  back, each leave a stale answer.
-/

/-! ### What is asked for -/

/-- `READ_OPERATIONS`. -/
def readOperations : List String :=
  ["ssh_access_status", "home_path", "statistics_access", "get_status", "get_usage",
    "database_limits", "database_admin_access", "list_tables", "browse_table", "describe_table",
    "list_database_grants", "list_files", "read_file", "search_files", "list_trash",
    "list_databases", "list_database_users", "list_mailboxes", "list_forwarders", "domain_limits",
    "email_limits", "list_autoresponders", "get_mail_routing", "get_spam_settings",
    "webmail_access", "list_messages", "read_message", "message_folders", "get_mail_profile",
    "list_domains", "list_dns_records", "usage_history", "performance_stats", "get_scan_result",
    "list_quarantine", "list_protected_dirs", "ssh_status", "integrity_status", "backup_options",
    "read_log", "ftp_options", "list_ftp_accounts", "list_ip_rules", "cron_options",
    "list_ssl_status", "get_ssl_status", "php_options", "list_php_extensions", "get_php_settings",
    "list_cron_jobs", "list_backups"]

/-- `NOT_CACHED`. -/
def notCached : List String :=
  ["read_file", "read_message", "list_messages", "message_folders", "webmail_access",
    "browse_table", "database_admin_access", "read_log", "open_cpanel_access", "statistics_access"]

/-- A question to the gateway, as its key names it: the digest stands for the arguments. -/
structure Question where
  capability : String
  operation : String
  digest : String
  deriving DecidableEq, Repr

/-- A call, with what the checks find. -/
structure Request where
  /-- For a customer or a member of the staff, and not for the daily job (`user` is None). -/
  forPerson : Bool
  question : Question
  /-- The operation is one of `OPERATIONS[capability]`. -/
  listed : Bool
  /-- `_authorize`. -/
  permitted : Bool
  /-- `account.status in LIVE_STATUSES`. -/
  live : Bool
  hasServer : Bool
  /-- `capability in supported_capabilities(adapter)`. -/
  supported : Bool
  deriving DecidableEq, Repr

namespace Request

variable (r : Request)

def changing : Bool := !readOperations.contains r.question.operation

/-- What is refused before anything is asked of the server. -/
def check : Except Err Unit := do
  ensure (r.listed = true)
    (serviceError "That operation is not available." "operation_not_allowed")
  if r.forPerson then
    ensure (r.permitted = true) denied
    ensure (r.live = true)
      (serviceError "This hosting account is not active." "account_not_live")
    ensure (r.hasServer = true)
      (serviceError "This account has no server assigned." "no_server_assigned")
    ensure (r.supported = true)
      (.service "This hosting account does not support that feature yet." "capability_not_supported"
        501)
  else
    ensure (r.hasServer = true) (.unexpected "'NoneType' object has no attribute 'provider'")
    ensure (r.supported = true)
      (serviceError "This server does not support that." "capability_not_supported")

/-- How long the answer may be remembered, by an adapter with these `read_cache_seconds`. -/
def ttl (seconds : ℕ) : ℕ :=
  if r.changing ∨ notCached.contains r.question.operation then 0 else seconds

/-- The gateway looks for a remembered answer. -/
def isRemembered (seconds : ℕ) : Bool := r.forPerson && r.ttl seconds != 0

end Request

/-! ### The calls -/

/-- One account: how often the server's side of it has changed, the newest change that has been
    completed, and the two caches.  Of an answer they hold when the server gave the oldest part. -/
structure Remembered where
  epoch : ℕ := 0
  completed : ℕ := 0
  gateway : Versioned Question (Option ℕ) := {}
  adapter : Versioned String ℕ := {}
  deriving DecidableEq, Repr

/-- How far a call has come. -/
inductive Call.Phase where
  /-- `_cache_version`. -/
  | opening (step : Lookup)
  /-- The key is known. -/
  | keyed
  /-- The adapter is at work. -/
  | running
  /-- `_memory_key`. -/
  | recalling (fact : String) (step : Lookup)
  | recalled (fact : String) (version : ℕ)
  /-- The adapter asks the server for a fact it does not remember. -/
  | making (fact : String) (version : ℕ)
  | made (fact : String) (version given : ℕ)
  /-- `_forget`, where the version was missing. -/
  | unremembering
  /-- The answer of a read is there. -/
  | storing
  /-- `_bump_cache_version`. -/
  | bumping
  /-- The version was missing. -/
  | starting
  /-- `forget_account`. -/
  | forgetting
  /-- The version was missing. -/
  | forgettingFirst
  /-- It is over, and has returned what it was asked for. -/
  | returned
  | refused (e : Err)
  deriving DecidableEq, Repr

/-- A call, with the newest change completed when it began. -/
structure Call where
  request : Request
  since : ℕ
  /-- The version in its key. -/
  key : Option ℕ := none
  /-- When the server gave the oldest part of what it has read. -/
  oldest : Option ℕ := none
  /-- Its own newest change. -/
  changed : ℕ := 0
  /-- The error it is to raise. -/
  error : Option Err := none
  phase : Call.Phase
  deriving DecidableEq, Repr

/-- How the adapter ends. -/
inductive Answer where
  | done
  /-- `HostingError`. -/
  | failed (message : String)
  /-- `CapabilityNotSupported`. -/
  | unsupported
  /-- Any other exception. -/
  | raised
  deriving DecidableEq, Repr

/-- The steps of a call. -/
inductive Call.Step where
  | go
  /-- The adapter asks the server. -/
  | ask
  /-- The adapter asks its own memory. -/
  | recall (fact : String)
  /-- The server changes the account. -/
  | effect
  /-- `_forget`. -/
  | forget
  | finish (answer : Answer)
  deriving DecidableEq, Repr

/-- The older of two times. -/
def earliest (oldest : Option ℕ) (given : ℕ) : Option ℕ :=
  some (match oldest with
    | some t => min t given
    | none => given)

/-- The last step of a call: the change it made is completed, and it answers. -/
def Call.complete (s : Remembered) (w : Call) : Remembered × Call :=
  ({ s with completed := max s.completed w.changed },
    { w with phase := match w.error with
        | some e => .refused e
        | none => .returned })

/-- What the gateway, or the daily job, makes of the end of the adapter. -/
def Call.finish (answer : Answer) (s : Remembered) (w : Call) : Remembered × Call :=
  let adapterError message :=
    serviceError ("The hosting server could not complete that: " ++ message) "adapter_error"
  match answer with
  | .done =>
    if w.request.changing = false then
      (s, { w with phase := if w.key.isSome then .storing else .returned })
    else if w.request.forPerson then (s, { w with phase := .bumping })
    else w.complete s
  | .failed message =>
    if w.request.changing = false then (s, { w with phase := .refused (adapterError message) })
    else if w.request.forPerson then
      (s, { w with phase := .bumping, error := some (adapterError message) })
    else Call.complete s { w with error := some (adapterError message) }
  | .unsupported =>
    (s, { w with phase := .refused (if w.request.forPerson then
      .service "This hosting account does not support that feature yet." "capability_not_supported"
        501
      else serviceError "This server does not support that." "capability_not_supported") })
  | .raised => (s, { w with phase := .refused (.unexpected "raised by the adapter") })

/-- After the version of the gateway has been raised. -/
def Call.afterBump (seconds : ℕ) (s : Remembered) (w : Call) : Remembered × Call :=
  if seconds = 0 then w.complete s else (s, { w with phase := .forgetting })

/-- A step of a call, by an adapter with these `read_cache_seconds`. -/
def Call.next (seconds : ℕ) (a : Call.Step) (s : Remembered) (w : Call) :
    Except Err (Remembered × Call) :=
  match a, w.phase with
  | .go, .opening step =>
    let (gateway, after) := s.gateway.lookup step
    pure ({ s with gateway }, match after with
      | .inl step => { w with phase := .opening step }
      | .inr v => { w with key := some v, phase := .keyed })
  | .go, .keyed =>
    pure (s, match w.key.bind (s.gateway.recalled · w.request.question) with
      | some oldest => { w with oldest, phase := .returned }
      | none => { w with phase := .running })
  | .ask, .running => pure (s, { w with oldest := earliest w.oldest s.epoch })
  | .effect, .running => do
    ensure (w.request.changing = true) (.unexpected "a read changes nothing")
    return ({ s with epoch := s.epoch + 1 }, { w with changed := s.epoch + 1 })
  | .recall fact, .running => pure (s, { w with phase := .recalling fact .get })
  | .go, .recalling fact step =>
    let (adapter, after) := s.adapter.lookup step
    pure ({ s with adapter }, { w with phase := match after with
      | .inl step => .recalling fact step
      | .inr v => .recalled fact v })
  | .go, .recalled fact v =>
    pure (s, match s.adapter.recalled v fact with
      | some given => { w with oldest := earliest w.oldest given, phase := .running }
      | none => { w with phase := .making fact v })
  | .ask, .making fact v => pure (s, { w with phase := .made fact v s.epoch })
  | .go, .made fact v given =>
    pure ({ s with adapter := s.adapter.remember v fact given },
      { w with oldest := earliest w.oldest given, phase := .running })
  | .forget, .running =>
    match s.adapter.incr with
    | some adapter => pure ({ s with adapter }, w)
    | none => pure (s, { w with phase := .unremembering })
  | .go, .unremembering =>
    pure ({ s with adapter := s.adapter.setTwo }, { w with phase := .running })
  | .finish answer, .running => pure (w.finish answer s)
  | .finish answer, .making _ _ => do
    ensure (answer ≠ .done) (.unexpected "the fact is not there")
    return w.finish answer s
  | .go, .storing =>
    pure (match w.key with
      | some v => { s with gateway := s.gateway.remember v w.request.question w.oldest }
      | none => s, { w with phase := .returned })
  | .go, .bumping =>
    match s.gateway.incr with
    | some gateway => pure (w.afterBump seconds { s with gateway })
    | none => pure (s, { w with phase := .starting })
  | .go, .starting => pure (w.afterBump seconds { s with gateway := s.gateway.setTwo })
  | .go, .forgetting =>
    match s.adapter.incr with
    | some adapter => pure (w.complete { s with adapter })
    | none => pure (s, { w with phase := .forgettingFirst })
  | .go, .forgettingFirst => pure (w.complete { s with adapter := s.adapter.setTwo })
  | _, _ => throw (.unexpected "not the next step")

/-- An entry of a cache goes. -/
inductive Expiry where
  | gateway (version : ℕ) (question : Question)
  | adapter (version : ℕ) (fact : String)
  deriving DecidableEq, Repr

/-- The calls about one account, in any order, while entries of the caches go. -/
def calling (seconds : ℕ) : Interleaving Remembered Call Request Call.Step Expiry Err where
  start r s := do
    r.check
    return (s, {
      request := r
      since := s.completed
      phase := if r.isRemembered seconds then .opening .get else .running })
  step a s w := w.next seconds a s
  outside
    | .gateway v question, s => pure { s with gateway := s.gateway.drop v question }
    | .adapter v fact, s => pure { s with adapter := s.adapter.drop v fact }
  absent := .unexpected "there is no such call"

/-! ### Fresh answers -/

/-- A read that has returned holds nothing that the server gave before a change that was completed
    when it began. -/
def Call.Fresh (w : Call) : Prop :=
  w.phase = .returned → w.request.changing = false → ∀ given ∈ w.oldest, w.since ≤ given

/-- No read has returned anything stale. -/
def Fresh (s : System Remembered Call) : Prop := s.workers.Forall fun _ w => w.Fresh

/-- It has raised the version of the gateway, and has not yet made the adapter forget. -/
def Call.isForgetting (w : Call) : Bool := w.phase == .forgetting || w.phase == .forgettingFirst

/-- Its next step reads the version of the gateway. -/
def Call.takesVersion (s : Remembered) (w : Call) : Bool :=
  match w.phase with
  | .opening step => (s.gateway.lookup step).2.isRight
  | _ => false

/-- Changes are made for a person, through the gateway. -/
def ByPerson (w : Call) (a : Call.Step) : Prop := a = .effect → w.request.forPerson = true

/-- A version that was missing has not been started by another change meanwhile. -/
def StartsOnce (s : Remembered) (w : Call) (a : Call.Step) : Prop :=
  a = .go → (w.phase = .starting → s.gateway.current = 1)
    ∧ (w.phase = .forgettingFirst ∨ w.phase = .unremembering → s.adapter.current = 1)

/-- No read takes the version of the gateway while a change has raised it and has not yet made the
    adapter forget. -/
def Settled : Discipline Remembered Call Call.Step Expiry where
  step s w a other := a = .go → w.takesVersion s = true → other.isForgetting = false
  outside _ _ _ := True

/-- The conditions on a step and its own call. -/
def Guarded (s : Remembered) (w : Call) (a : Call.Step) : Prop := ByPerson w a ∧ StartsOnce s w a

instance (s : Remembered) (w : Call) (a : Call.Step) : Decidable (Guarded s w a) :=
  inferInstanceAs (Decidable ((_ → _) ∧ (_ → (_ → _) ∧ (_ → _))))

instance (s : Remembered) (w : Call) (a : Call.Step) (other : Call) :
    Decidable (Settled.step s w a other) :=
  inferInstanceAs (Decidable (_ → _ → _))

instance (s : Remembered) (e : Expiry) (other : Call) : Decidable (Settled.outside s e other) :=
  isTrue trivial

instance (w : Call) : Decidable w.Fresh := inferInstanceAs (Decidable (_ → _ → _))

/-! ### Why they are fresh -/

/-- The version of the adapter's memory it works with. -/
def Call.Phase.version : Call.Phase → Option ℕ
  | .recalled _ v => some v
  | .making _ v => some v
  | .made _ v _ => some v
  | _ => none

/-- When the fact it is to remember was given. -/
def Call.Phase.given : Call.Phase → Option ℕ
  | .made _ _ given => some given
  | _ => none

/-- Nothing it has read was given before this: what its key promises, where it has one. -/
def Call.floor (g : ℕ → ℕ) (w : Call) : ℕ :=
  match w.key with
  | some v => g v
  | none => w.since

/-- What is known of a call, where nothing under the version `v` of the gateway was given before
    `g v`, and nothing under that of the adapter before `m v`. -/
structure Knows (s : Remembered) (g m : ℕ → ℕ) (w : Call) : Prop where
  since : w.since ≤ s.completed
  key : ∀ v ∈ w.key, v ≤ s.gateway.current ∧ w.since ≤ g v
  opening : ∀ step, w.phase = .opening step → w.key = none ∧ w.oldest = none
  oldest : ∀ t ∈ w.oldest, w.floor g ≤ t
  version : ∀ v ∈ w.phase.version, v ≤ s.adapter.current ∧ w.floor g ≤ m v
  given : ∀ t ∈ w.phase.given, w.floor g ≤ t ∧ ∀ v ∈ w.phase.version, m v ≤ t
  changed : w.changed ≤ s.epoch
  daily : w.request.forPerson = false → w.changed = 0

/-- No call has the version of the gateway that counts. -/
def Untaken (s : System Remembered Call) : Prop :=
  s.shared.gateway.Unused ∧ s.workers.Forall fun _ w => ∀ v ∈ w.key, v ≠ s.shared.gateway.current

/-- A version of the gateway is not taken while a change is between raising it and making the
    adapter forget. -/
def Held (s : System Remembered Call) : Prop :=
  (∃ i w, s.workers.get? i = some w ∧ w.isForgetting = true) → Untaken s

/-- **The two caches**: what is under the version that counts was given after every change that is
    completed, and what the adapter remembers is at least as new. -/
structure SoundAt (g m : ℕ → ℕ) (s : System Remembered Call) : Prop where
  gateway : s.shared.gateway.Keeps fun v oldest => ∀ t ∈ oldest, g v ≤ t
  adapter : s.shared.adapter.Keeps fun v t => m v ≤ t
  completed : s.shared.completed ≤ g s.shared.gateway.current
  gateway_le : ∀ v, g v ≤ m s.shared.adapter.current
  adapter_le : ∀ v, m v ≤ s.shared.epoch
  knows : s.workers.Forall fun _ w => Knows s.shared g m w
  held : Held s

/-- For some such times. -/
def Sound (s : System Remembered Call) : Prop := ∃ g m, SoundAt g m s

section

variable {s s' : Remembered} {g g' m m' : ℕ → ℕ} {w w' : Call} {workers : Table Call} {i : ℕ}

theorem Knows.since_le_floor (h : Knows s g m w) : w.since ≤ w.floor g := by
  unfold Call.floor
  split
  · next v hkey => exact (h.key v hkey).2
  · exact le_rfl

/-- What it has returned is fresh. -/
theorem Knows.fresh (h : Knows s g m w) : w.Fresh :=
  fun _ _ t ht => h.since_le_floor.trans (h.oldest t ht)

theorem SoundAt.fresh {s : System Remembered Call} (h : SoundAt g m s) : Fresh s :=
  fun i w hw => (h.knows i w hw).fresh

private theorem floor_congr (hg : ∀ v ∈ w.key, g' v = g v) : w.floor g' = w.floor g := by
  unfold Call.floor
  split
  · next v hkey => exact hg v hkey
  · rfl

/-- What is known of a call stays known, while time goes on and the promises of the versions it
    works with stay as they are. -/
theorem Knows.mono (h : Knows s g m w) (hcompleted : s.completed ≤ s'.completed)
    (hgateway : s.gateway.current ≤ s'.gateway.current)
    (hadapter : s.adapter.current ≤ s'.adapter.current) (hepoch : s.epoch ≤ s'.epoch)
    (hg : ∀ v ∈ w.key, g' v = g v) (hm : ∀ v ∈ w.phase.version, m' v = m v) :
    Knows s' g' m' w where
  since := h.since.trans hcompleted
  key := fun v hv => ⟨(h.key v hv).1.trans hgateway, hg v hv ▸ (h.key v hv).2⟩
  opening := h.opening
  oldest := fun t ht => by rw [floor_congr hg]; exact h.oldest t ht
  version := fun v hv => by
    rw [floor_congr hg, hm v hv]
    exact ⟨(h.version v hv).1.trans hadapter, (h.version v hv).2⟩
  given := fun t ht => by
    rw [floor_congr hg]
    exact ⟨(h.given t ht).1, fun v hv => by rw [hm v hv]; exact (h.given t ht).2 v hv⟩
  changed := h.changed.trans hepoch
  daily := h.daily

/-- What it reads now was given late enough. -/
theorem SoundAt.floor_le (h : SoundAt g m ⟨s, workers⟩) (hknows : Knows s g m w) :
    w.floor g ≤ m s.adapter.current := by
  unfold Call.floor
  split
  · exact h.gateway_le _
  · exact hknows.since.trans (h.completed.trans (h.gateway_le _))

/-- The next version of the gateway, which nothing is under yet. -/
theorem SoundAt.raiseGateway (h : SoundAt g m ⟨s, workers⟩)
    {gateway : Versioned Question (Option ℕ)} (hraised : Versioned.Raised s.gateway gateway) :
    SoundAt (fun v => g (min v s.gateway.current)) m ⟨{ s with gateway }, workers⟩
      ∧ Untaken ⟨{ s with gateway }, workers⟩ := by
  have hsucc : gateway.current = s.gateway.current + 1 := hraised.current
  have hold : ∀ v, v ≤ s.gateway.current → g (min v s.gateway.current) = g v := by
    intro v hv
    rw [min_eq_left hv]
  have huntaken : Untaken ⟨{ s with gateway }, workers⟩ := by
    refine ⟨hraised.unused h.gateway, fun j c hc v hv => ?_⟩
    have hle : v ≤ s.gateway.current := ((h.knows j c hc).key v hv).1
    show v ≠ gateway.current
    omega
  refine ⟨⟨?_, h.adapter, ?_, fun v => h.gateway_le _, h.adapter_le, fun j c hc => ?_,
    fun _ => huntaken⟩, huntaken⟩
  · refine hraised.keeps h.gateway fun v oldest hv hgood t ht => ?_
    rw [hold v hv]
    exact hgood t ht
  · show s.completed ≤ g (min gateway.current s.gateway.current)
    rw [min_eq_right (by omega)]
    exact h.completed
  · exact (h.knows j c hc).mono le_rfl (by show s.gateway.current ≤ gateway.current; omega) le_rfl
      le_rfl (fun v hv => hold v ((h.knows j c hc).key v hv).1) fun _ _ => rfl

/-- The adapter forgets: what it remembers from now on is as new as can be. -/
theorem SoundAt.raiseAdapter (h : SoundAt g m ⟨s, workers⟩) {adapter : Versioned String ℕ}
    (hraised : Versioned.Raised s.adapter adapter) :
    SoundAt g (fun v => if v ≤ s.adapter.current then m v else s.epoch)
      ⟨{ s with adapter }, workers⟩ := by
  have hsucc : adapter.current = s.adapter.current + 1 := hraised.current
  have hnew : (if adapter.current ≤ s.adapter.current then m adapter.current else s.epoch)
      = s.epoch := if_neg (by omega)
  refine ⟨h.gateway, ?_, h.completed, fun v => ?_, fun v => ?_, fun j c hc => ?_, h.held⟩
  · refine hraised.keeps h.adapter fun v t hv hgood => ?_
    rw [if_pos hv]
    exact hgood
  · show g v ≤ (if adapter.current ≤ s.adapter.current then m adapter.current else s.epoch)
    rw [hnew]
    exact (h.gateway_le v).trans (h.adapter_le _)
  · show (if v ≤ s.adapter.current then m v else s.epoch) ≤ s.epoch
    split
    · exact h.adapter_le v
    · exact le_rfl
  · exact (h.knows j c hc).mono le_rfl le_rfl (by show s.adapter.current ≤ adapter.current; omega)
      le_rfl (fun _ _ => rfl) fun v hv => if_pos ((h.knows j c hc).version v hv).1

/-- What nothing is under may promise as much as the adapter. -/
theorem SoundAt.promise (h : SoundAt g m ⟨s, workers⟩) (huntaken : Untaken ⟨s, workers⟩) :
    SoundAt (fun v => if v = s.gateway.current then m s.adapter.current else g v) m
      ⟨s, workers⟩ := by
  refine ⟨?_, h.adapter, ?_, fun v => ?_, h.adapter_le, fun j c hc => ?_, h.held⟩
  · refine huntaken.1.keeps h.gateway fun v oldest hv hgood t ht => ?_
    rw [if_neg hv]
    exact hgood t ht
  · show s.completed ≤ (if s.gateway.current = s.gateway.current then _ else _)
    rw [if_pos rfl]
    exact h.completed.trans (h.gateway_le _)
  · show (if v = s.gateway.current then m s.adapter.current else g v) ≤ m s.adapter.current
    split
    · exact le_rfl
    · exact h.gateway_le v
  · exact (h.knows j c hc).mono le_rfl le_rfl le_rfl le_rfl
      (fun v hv => if_neg (huntaken.2 j c hc v hv)) fun _ _ => rfl

/-- **A step that raises no version.** -/
theorem SoundAt.put (h : SoundAt g m ⟨s, workers⟩)
    (hgateway : s'.gateway.Keeps fun v oldest => ∀ t ∈ oldest, g v ≤ t)
    (hadapter : s'.adapter.Keeps fun v t => m v ≤ t)
    (hsameGateway : s'.gateway.current = s.gateway.current)
    (hsameAdapter : s'.adapter.current = s.adapter.current)
    (hcompleted : s.completed ≤ s'.completed) (hle : s'.completed ≤ g s.gateway.current)
    (hepoch : s.epoch ≤ s'.epoch) (hknows : Knows s' g m w')
    (hheld : Held ⟨s', workers.put i w'⟩) : SoundAt g m ⟨s', workers.put i w'⟩ where
  gateway := hgateway
  adapter := hadapter
  completed := hle.trans_eq (congrArg g hsameGateway.symm)
  gateway_le := fun v => (h.gateway_le v).trans_eq (congrArg m hsameAdapter.symm)
  adapter_le := fun v => (h.adapter_le v).trans hepoch
  knows := Table.Forall.put (fun j c hc => (h.knows j c hc).mono hcompleted hsameGateway.ge
    hsameAdapter.ge hepoch (fun _ _ => rfl) fun _ _ => rfl) hknows
  held := hheld

/-- A call that takes no version leaves it free. -/
theorem Held.put (h : Held ⟨s, workers⟩) (hget : workers.get? i = some w)
    (hsameGateway : s'.gateway.current = s.gateway.current)
    (hunused : Untaken ⟨s, workers⟩ → s'.gateway.Unused)
    (hforgetting : w'.isForgetting = true → w.isForgetting = true) (hkey : w'.key = w.key) :
    Held ⟨s', workers.put i w'⟩ := by
  rintro ⟨j, c, hc, hisForgetting⟩
  have huntaken : Untaken ⟨s, workers⟩ := by
    refine h ?_
    rw [Table.get?_put hget] at hc
    split at hc
    · cases hc
      exact ⟨i, w, hget, hforgetting hisForgetting⟩
    · exact ⟨j, c, hc, hisForgetting⟩
  have hothers : workers.Forall fun _ c => ∀ v ∈ c.key, v ≠ s'.gateway.current :=
    fun j c hc v hv => (huntaken.2 j c hc v hv).trans_eq hsameGateway.symm
  refine ⟨hunused huntaken, hothers.put fun v hv => ?_⟩
  rw [hkey] at hv
  exact hothers i w hget v hv

/-- **A step of a call that leaves the caches as they are.** -/
theorem SoundAt.goes (h : SoundAt g m ⟨s, workers⟩) (hget : workers.get? i = some w)
    (hknows : Knows s g m w') (hforgetting : w'.isForgetting = true → w.isForgetting = true)
    (hkey : w'.key = w.key) : SoundAt g m ⟨s, workers.put i w'⟩ :=
  h.put h.gateway h.adapter rfl rfl le_rfl h.completed le_rfl hknows
    (h.held.put hget rfl And.left hforgetting hkey)

/-- What is known of a call that goes on. -/
theorem Knows.goes (h : Knows s g m w) {phase : Call.Phase}
    (hopening : ∀ step, phase ≠ .opening step)
    (hversion : ∀ v ∈ phase.version, v ≤ s.adapter.current ∧ w.floor g ≤ m v)
    (hgiven : ∀ t ∈ phase.given, w.floor g ≤ t ∧ ∀ v ∈ phase.version, m v ≤ t) :
    Knows s g m { w with phase } where
  since := h.since
  key := h.key
  opening := fun step hphase => absurd hphase (hopening step)
  oldest := h.oldest
  version := hversion
  given := hgiven
  changed := h.changed
  daily := h.daily

/-- It goes on without the adapter's memory. -/
theorem Knows.plain (h : Knows s g m w) {phase : Call.Phase}
    (hopening : ∀ step, phase ≠ .opening step) (hversion : phase.version = none)
    (hgiven : phase.given = none) : Knows s g m { w with phase } :=
  h.goes hopening (by rw [hversion]; nofun) (by rw [hgiven]; nofun)

/-- It has read something more, that was given late enough. -/
theorem Knows.reads (h : Knows s g m w) (hopening : ∀ step, w.phase ≠ .opening step) {t : ℕ}
    (ht : w.floor g ≤ t) : Knows s g m { w with oldest := earliest w.oldest t } where
  since := h.since
  key := h.key
  opening := fun step hphase => absurd hphase (hopening step)
  oldest := by
    intro t' ht'
    cases Option.mem_some_iff.mp ht'
    split
    · next t₀ holdest => exact le_min (h.oldest t₀ holdest) ht
    · exact ht
  version := h.version
  given := h.given
  changed := h.changed
  daily := h.daily

/-- **A step of `_cache_version`.** -/
theorem SoundAt.opens (h : SoundAt g m ⟨s, workers⟩) (hget : workers.get? i = some w)
    {step : Lookup} (hphase : w.phase = .opening step)
    (hsettled : (s.gateway.lookup step).2.isRight = true → ∀ j c, j ≠ i →
      workers.get? j = some c → c.isForgetting = false)
    (hw' : w' = match (s.gateway.lookup step).2 with
      | .inl step => { w with phase := .opening step }
      | .inr v => { w with key := some v, phase := .keyed }) :
    SoundAt g m ⟨{ s with gateway := (s.gateway.lookup step).1 }, workers.put i w'⟩ := by
  have hknows := h.knows i w hget
  obtain ⟨hkey, holdest⟩ := hknows.opening step hphase
  have hsame : (s.gateway.lookup step).1.current = s.gateway.current :=
    Versioned.current_lookup step
  refine h.put (h.gateway.lookup step) h.adapter hsame rfl le_rfl h.completed le_rfl ?_ ?_
  · have hmono : Knows { s with gateway := (s.gateway.lookup step).1 } g m w :=
      hknows.mono le_rfl hsame.ge le_rfl le_rfl (fun _ _ => rfl) fun _ _ => rfl
    cases hlookup : (s.gateway.lookup step).2 with
    | inl next =>
      rw [hlookup] at hw'
      subst hw'
      exact { hmono with
        opening := fun _ _ => ⟨hkey, holdest⟩
        version := nofun
        given := nofun }
    | inr v =>
      rw [hlookup] at hw'
      subst hw'
      have hv : v = s.gateway.current := Versioned.eq_current_of_lookup hlookup
      exact { hmono with
        key := fun v' hv' => by
          cases Option.mem_some_iff.mp hv'
          exact ⟨(hv.trans hsame.symm).le, hv ▸ hknows.since.trans h.completed⟩
        opening := fun _ hopening => by cases hopening
        oldest := fun t ht => by rw [show w.oldest = none from holdest] at ht; cases ht
        version := nofun
        given := nofun }
  · cases hlookup : (s.gateway.lookup step).2 with
    | inl next =>
      rw [hlookup] at hw'
      subst hw'
      exact h.held.put hget hsame (fun huntaken => huntaken.1.lookup step) nofun rfl
    | inr v =>
      -- no change is between raising the version and making the adapter forget
      rw [hlookup] at hw'
      subst hw'
      rintro ⟨j, c, hc, hforgetting⟩
      rw [Table.get?_put hget] at hc
      split at hc
      · cases hc
        cases hforgetting
      · next hj =>
        rw [hsettled (by rw [hlookup]; rfl) j c hj hc] at hforgetting
        cases hforgetting

/-- **A step of `_memory_key`.** -/
theorem SoundAt.recalls (h : SoundAt g m ⟨s, workers⟩) (hget : workers.get? i = some w)
    {fact : String} {step : Lookup}
    (hw' : w' = { w with phase := match (s.adapter.lookup step).2 with
      | .inl step => .recalling fact step
      | .inr v => .recalled fact v }) :
    SoundAt g m ⟨{ s with adapter := (s.adapter.lookup step).1 }, workers.put i w'⟩ := by
  have hknows := h.knows i w hget
  have hsame : (s.adapter.lookup step).1.current = s.adapter.current :=
    Versioned.current_lookup step
  have hmono : Knows { s with adapter := (s.adapter.lookup step).1 } g m w :=
    hknows.mono le_rfl le_rfl hsame.ge le_rfl (fun _ _ => rfl) fun _ _ => rfl
  have hput : Knows { s with adapter := (s.adapter.lookup step).1 } g m w' →
      w'.isForgetting = false → w'.key = w.key →
      SoundAt g m ⟨{ s with adapter := (s.adapter.lookup step).1 }, workers.put i w'⟩ := by
    intro hknows' hforgetting hkey
    refine h.put h.gateway (h.adapter.lookup step) rfl hsame le_rfl h.completed le_rfl hknows'
      (h.held.put hget rfl And.left (fun hf => ?_) hkey)
    rw [hforgetting] at hf
    cases hf
  cases hlookup : (s.adapter.lookup step).2 with
  | inl next =>
    rw [hlookup] at hw'
    subst hw'
    exact hput (hmono.plain (fun _ => nofun) rfl rfl) rfl rfl
  | inr v =>
    rw [hlookup] at hw'
    subst hw'
    have hv : v = s.adapter.current := Versioned.eq_current_of_lookup hlookup
    refine hput (hmono.goes (fun _ => nofun) (fun v' hv' => ?_) nofun) rfl rfl
    cases Option.mem_some_iff.mp hv'
    exact ⟨(hv.trans hsame.symm).le, hv ▸ h.floor_le hknows⟩

/-- **The last step of a call**, whose change everything under the version that counts comes
    after. -/
theorem SoundAt.completes (h : SoundAt g m ⟨s, workers⟩) (hget : workers.get? i = some w)
    (hknows : Knows s g m w') (hchanged : w'.changed ≤ g s.gateway.current)
    (hkey : w'.key = w.key) :
    SoundAt g m ⟨(w'.complete s).1, workers.put i (w'.complete s).2⟩ := by
  have hmono : Knows (w'.complete s).1 g m w' :=
    hknows.mono (le_max_left _ _) le_rfl le_rfl le_rfl (fun _ _ => rfl) fun _ _ => rfl
  have hover : ∀ phase, (phase = .returned ∨ ∃ e, phase = .refused e) →
      SoundAt g m ⟨(w'.complete s).1, workers.put i { w' with phase }⟩ := by
    intro phase hphase
    refine h.put h.gateway h.adapter rfl rfl (le_max_left _ _) (max_le h.completed hchanged)
      le_rfl ?_ (h.held.put hget rfl And.left ?_ hkey)
    · rcases hphase with rfl | ⟨e, rfl⟩
      · exact hmono.plain (fun _ => nofun) rfl rfl
      · exact hmono.plain (fun _ => nofun) rfl rfl
    · rcases hphase with rfl | ⟨e, rfl⟩
      · exact nofun
      · exact nofun
  refine hover _ ?_
  cases w'.error with
  | some e => exact .inr ⟨e, rfl⟩
  | none => exact .inl rfl

/-- **The adapter ends.** -/
theorem SoundAt.finishes (h : SoundAt g m ⟨s, workers⟩) (hget : workers.get? i = some w)
    (answer : Answer) :
    SoundAt g m ⟨(w.finish answer s).1, workers.put i (w.finish answer s).2⟩ := by
  have hknows := h.knows i w hget
  have hplain : ∀ phase, (∀ step, phase ≠ .opening step) → phase.version = none →
      phase.given = none → { w with phase }.isForgetting = false →
      SoundAt g m ⟨s, workers.put i { w with phase }⟩ := by
    intro phase hopening hversion hgiven hforgetting
    refine h.goes hget (hknows.plain hopening hversion hgiven) (fun hf => ?_) rfl
    rw [hforgetting] at hf
    cases hf
  have hdaily : ¬ w.request.forPerson = true → w.changed ≤ g s.gateway.current := by
    intro hnot
    rw [hknows.daily (by simpa using hnot)]
    exact Nat.zero_le _
  have herror : ∀ error, Knows s g m { w with error } := fun error => { hknows with }
  cases answer with
  | done =>
    unfold Call.finish
    dsimp only
    split
    · split
      · exact hplain .storing (fun _ => nofun) rfl rfl rfl
      · exact hplain .returned (fun _ => nofun) rfl rfl rfl
    · split
      · exact hplain .bumping (fun _ => nofun) rfl rfl rfl
      · next hnot => exact h.completes hget hknows (hdaily hnot) rfl
  | failed message =>
    unfold Call.finish
    dsimp only
    split
    · exact hplain (.refused _) (fun _ => nofun) rfl rfl rfl
    · split
      · have hbumping : ∀ error, Knows s g m { w with phase := .bumping, error } :=
          fun error => (herror error).plain (fun _ => nofun) rfl rfl
        exact h.goes hget (hbumping _) (fun hf => by cases hf) rfl
      · next hnot => exact h.completes hget (herror _) (hdaily hnot) rfl
  | unsupported => exact hplain (.refused _) (fun _ => nofun) rfl rfl rfl
  | raised => exact hplain (.refused _) (fun _ => nofun) rfl rfl rfl

/-- **A change raises the version of the gateway.** -/
theorem SoundAt.bumps (h : SoundAt g m ⟨s, workers⟩) (hget : workers.get? i = some w)
    {gateway : Versioned Question (Option ℕ)} (hraised : Versioned.Raised s.gateway gateway)
    {seconds : ℕ} (hseconds : 0 < seconds) :
    Sound ⟨(w.afterBump seconds { s with gateway }).1,
      workers.put i (w.afterBump seconds { s with gateway }).2⟩ := by
  obtain ⟨hsound, huntaken⟩ := h.raiseGateway hraised
  have hknows := hsound.knows i w hget
  have hafter : w.afterBump seconds { s with gateway }
      = ({ s with gateway }, { w with phase := .forgetting }) := if_neg (by omega)
  rw [hafter]
  refine ⟨_, m, hsound.put hsound.gateway hsound.adapter rfl rfl le_rfl hsound.completed le_rfl
    (hknows.plain (fun _ => nofun) rfl rfl) fun _ => ⟨huntaken.1, huntaken.2.put ?_⟩⟩
  exact huntaken.2 i w hget

/-- **A change makes the adapter forget**, and is completed. -/
theorem SoundAt.forgets (h : SoundAt g m ⟨s, workers⟩) (hget : workers.get? i = some w)
    (hforgetting : w.isForgetting = true) {adapter : Versioned String ℕ}
    (hraised : Versioned.Raised s.adapter adapter) :
    Sound ⟨(w.complete { s with adapter }).1, workers.put i (w.complete { s with adapter }).2⟩ := by
  have hsound := (h.raiseAdapter hraised).promise
    ((h.raiseAdapter hraised).held ⟨i, w, hget, hforgetting⟩)
  have hsucc : adapter.current = s.adapter.current + 1 := hraised.current
  refine ⟨_, _, hsound.completes hget (hsound.knows i w hget) ?_ rfl⟩
  -- from here on the version promises what is given now, its own change included
  dsimp only
  rw [if_pos rfl, if_neg (by omega)]
  exact (hsound.knows i w hget).changed

/-- **A new call.** -/
theorem SoundAt.start (h : SoundAt g m ⟨s, workers⟩) (r : Request) (seconds : ℕ) :
    SoundAt g m ⟨s, workers.insert {
      request := r
      since := s.completed
      phase := if r.isRemembered seconds then .opening .get else .running }⟩ := by
  have hadded : ∀ phase : Call.Phase, phase.version = none → phase.given = none →
      ({ request := r, since := s.completed, phase } : Call).isForgetting = false →
      SoundAt g m ⟨s, workers.insert { request := r, since := s.completed, phase }⟩ := by
    intro phase hversion hgiven hforgetting
    refine ⟨h.gateway, h.adapter, h.completed, h.gateway_le, h.adapter_le,
      Table.Forall.insert h.knows ⟨le_rfl, nofun, fun _ _ => ⟨rfl, rfl⟩, nofun, ?_, ?_,
        Nat.zero_le _, fun _ => rfl⟩, ?_⟩
    · rw [hversion]
      nofun
    · rw [hgiven]
      nofun
    · rintro ⟨j, c, hc, hisForgetting⟩
      rw [Table.get?_insert] at hc
      split at hc
      · cases hc
        rw [hforgetting] at hisForgetting
        cases hisForgetting
      · have huntaken := h.held ⟨j, c, hc, hisForgetting⟩
        exact ⟨huntaken.1, Table.Forall.insert huntaken.2 nofun⟩
  split
  · exact hadded (.opening .get) rfl rfl rfl
  · exact hadded .running rfl rfl rfl

/-- **A step of a call keeps the caches sound**, within the conditions. -/
theorem SoundAt.next (h : SoundAt g m ⟨s, workers⟩) (hget : workers.get? i = some w) {seconds : ℕ}
    (hseconds : 0 < seconds) {a : Call.Step} (hnext : w.next seconds a s = .ok (s', w'))
    (hguarded : Guarded s w a)
    (hsettled : ∀ j c, j ≠ i → workers.get? j = some c → Settled.step s w a c) :
    Sound ⟨s', workers.put i w'⟩ := by
  have hknows := h.knows i w hget
  have hfloor := h.floor_le hknows
  obtain ⟨hperson, hstarts⟩ := hguarded
  unfold Call.next at hnext
  split at hnext
  · next step hphase =>
    cases hnext
    refine ⟨g, m, h.opens hget hphase (fun htakes j c hj hc => hsettled j c hj hc rfl ?_) rfl⟩
    unfold Call.takesVersion
    rw [hphase]
    exact htakes
  · next hphase =>
    cases hnext
    have hopening : ∀ step, w.phase ≠ .opening step := by rw [hphase]; rintro _ ⟨⟩
    split
    · next oldest hrecall =>
      -- a remembered answer is as new as its version promises
      obtain ⟨v, hkey, hentry⟩ := Option.bind_eq_some_iff.mp hrecall
      have hread : Knows s g m { w with oldest } := { hknows with
        opening := fun step hstep => absurd hstep (hopening step)
        oldest := fun t ht => by
          unfold Call.floor
          rw [show w.key = some v from hkey]
          exact h.gateway.recalled hentry t ht }
      exact ⟨g, m, h.goes hget (hread.plain (by rintro _ ⟨⟩) rfl rfl) (by rintro ⟨⟩) rfl⟩
    · exact ⟨g, m, h.goes hget (hknows.plain (by rintro _ ⟨⟩) rfl rfl) (by rintro ⟨⟩) rfl⟩
  · next hphase =>
    cases hnext
    have hopening : ∀ step, w.phase ≠ .opening step := by rw [hphase]; rintro _ ⟨⟩
    exact ⟨g, m, h.goes hget (hknows.reads hopening (hfloor.trans (h.adapter_le _))) id rfl⟩
  · next hphase =>
    simp only [bind_eq_ok, pure_eq_ok] at hnext
    obtain ⟨_, _, hnext⟩ := hnext
    cases hnext
    have hmono : Knows { s with epoch := s.epoch + 1 } g m w :=
      hknows.mono le_rfl le_rfl le_rfl (Nat.le_succ _) (fun _ _ => rfl) fun _ _ => rfl
    refine ⟨g, m, h.put h.gateway h.adapter rfl rfl le_rfl h.completed (Nat.le_succ _)
      { hmono with
        changed := le_rfl
        daily := fun hdaily => ?_ } (h.held.put hget rfl And.left id rfl)⟩
    rw [hperson rfl] at hdaily
    cases hdaily
  · next fact hphase =>
    cases hnext
    exact ⟨g, m, h.goes hget (hknows.plain (by rintro _ ⟨⟩) rfl rfl) (by rintro ⟨⟩) rfl⟩
  · next fact step hphase =>
    cases hnext
    exact ⟨g, m, h.recalls hget rfl⟩
  · next fact v hphase =>
    cases hnext
    have hversion := hknows.version v (by rw [hphase]; rfl)
    have hopening : ∀ step, w.phase ≠ .opening step := by rw [hphase]; rintro _ ⟨⟩
    split
    · next given hrecall =>
      -- a remembered fact is as new as its version promises
      have hgiven : w.floor g ≤ given := hversion.2.trans (h.adapter.recalled hrecall)
      exact ⟨g, m, h.goes hget ((hknows.reads hopening hgiven).plain (by rintro _ ⟨⟩) rfl rfl)
        (by rintro ⟨⟩) rfl⟩
    · refine ⟨g, m, h.goes hget (hknows.goes (by rintro _ ⟨⟩) (fun v' hv' => ?_) (by rintro _ ⟨⟩))
        (by rintro ⟨⟩) rfl⟩
      cases Option.mem_some_iff.mp hv'
      exact hversion
  · next fact v hphase =>
    cases hnext
    have hversion := hknows.version v (by rw [hphase]; rfl)
    refine ⟨g, m, h.goes hget (hknows.goes (by rintro _ ⟨⟩) (fun v' hv' => ?_) fun t ht => ?_)
      (by rintro ⟨⟩) rfl⟩
    · cases Option.mem_some_iff.mp hv'
      exact hversion
    · cases Option.mem_some_iff.mp ht
      refine ⟨hfloor.trans (h.adapter_le _), fun v' _ => h.adapter_le v'⟩
  · next fact v given hphase =>
    cases hnext
    have hversion := hknows.version v (by rw [hphase]; rfl)
    have hopening : ∀ step, w.phase ≠ .opening step := by rw [hphase]; rintro _ ⟨⟩
    obtain ⟨hgiven, hpromise⟩ := hknows.given given (by rw [hphase]; rfl)
    have hkeeps := h.adapter.remember fact hversion.1 (hpromise v (by rw [hphase]; rfl))
    have hreads : Knows s g m
        { w with phase := .running, oldest := earliest w.oldest given } :=
      (hknows.reads hopening hgiven).plain (by rintro _ ⟨⟩) rfl rfl
    exact ⟨g, m, h.put h.gateway hkeeps rfl rfl le_rfl h.completed le_rfl
      (hreads.mono le_rfl le_rfl le_rfl le_rfl (fun _ _ => rfl) fun _ _ => rfl)
      (h.held.put hget rfl And.left (by rintro ⟨⟩) rfl)⟩
  · next hphase =>
    split at hnext
    · next adapter hincr =>
      cases hnext
      have hsound := h.raiseAdapter (Versioned.raised_of_incr hincr)
      exact ⟨g, _, hsound.goes hget (hsound.knows i w hget) id rfl⟩
    · cases hnext
      exact ⟨g, m, h.goes hget (hknows.plain (by rintro _ ⟨⟩) rfl rfl) (by rintro ⟨⟩) rfl⟩
  · next hphase =>
    cases hnext
    have hsound := h.raiseAdapter (Versioned.raised_setTwo ((hstarts rfl).2 (.inr hphase)))
    exact ⟨g, _, hsound.goes hget ((hsound.knows i w hget).plain (by rintro _ ⟨⟩) rfl rfl)
      (by rintro ⟨⟩)
      rfl⟩
  · next answer hphase =>
    have hfinish := h.finishes hget answer
    rw [Except.ok.inj hnext] at hfinish
    exact ⟨g, m, hfinish⟩
  · next answer fact v hphase =>
    simp only [bind_eq_ok, pure_eq_ok] at hnext
    obtain ⟨_, _, hnext⟩ := hnext
    have hfinish := h.finishes hget answer
    rw [hnext] at hfinish
    exact ⟨g, m, hfinish⟩
  · next hphase =>
    cases hnext
    have hover : Knows s g m { w with phase := .returned } :=
      hknows.plain (by rintro _ ⟨⟩) rfl rfl
    split
    · next v hkey =>
      have hv := hknows.key v hkey
      refine ⟨g, m, h.put (h.gateway.remember _ hv.1 fun t ht => ?_) h.adapter rfl rfl le_rfl
        h.completed le_rfl
        (hover.mono le_rfl le_rfl le_rfl le_rfl (fun _ _ => rfl) fun _ _ => rfl)
        (h.held.put hget rfl (fun huntaken => ?_) (by rintro ⟨⟩) rfl)⟩
      · have ht' := hknows.oldest t ht
        unfold Call.floor at ht'
        rwa [hkey] at ht'
      · exact huntaken.1.remember _ _ (huntaken.2 i w hget v hkey)
    · exact ⟨g, m, h.goes hget hover (by rintro ⟨⟩) rfl⟩
  · next hphase =>
    split at hnext
    · next gateway hincr =>
      have hbumps := h.bumps hget (Versioned.raised_of_incr hincr) hseconds
      rw [Except.ok.inj hnext] at hbumps
      exact hbumps
    · cases hnext
      exact ⟨g, m, h.goes hget (hknows.plain (by rintro _ ⟨⟩) rfl rfl) (by rintro ⟨⟩) rfl⟩
  · next hphase =>
    have hbumps := h.bumps hget (Versioned.raised_setTwo ((hstarts rfl).1 hphase)) hseconds
    rw [Except.ok.inj hnext] at hbumps
    exact hbumps
  · next hphase =>
    have hforgetting : w.isForgetting = true := by rw [Call.isForgetting, hphase]; rfl
    split at hnext
    · next adapter hincr =>
      cases hnext
      exact h.forgets hget hforgetting (Versioned.raised_of_incr hincr)
    · cases hnext
      exact ⟨g, m, h.goes hget (hknows.plain (by rintro _ ⟨⟩) rfl rfl) (fun _ => hforgetting) rfl⟩
  · next hphase =>
    cases hnext
    have hforgetting : w.isForgetting = true := by rw [Call.isForgetting, hphase]; rfl
    exact h.forgets hget hforgetting (Versioned.raised_setTwo ((hstarts rfl).2 (.inl hphase)))
  · cases hnext

end

/-- **A turn within the conditions keeps the caches sound.** -/
theorem Sound.commits {seconds : ℕ} (hseconds : 0 < seconds) {s s' : System Remembered Call}
    {turn : Turn Request Call.Step Expiry} {out : List PUnit} (h : Sound s)
    (hcommits : (calling seconds).machine.Commits turn s s' out)
    (hkept : turn.Meets Guarded s ∧ Settled.Respected s turn) : Sound s' := by
  obtain ⟨g, m, h⟩ := h
  obtain ⟨shared, workers⟩ := s
  obtain ⟨shared', workers'⟩ := s'
  cases turn with
  | start r =>
    obtain ⟨w, hstart, hworkers⟩ := Interleaving.start_eq_ok hcommits
    simp only [calling, bind_eq_ok, pure_eq_ok] at hstart
    obtain ⟨_, _, hstart⟩ := hstart
    cases hstart
    cases hworkers
    exact ⟨g, m, h.start r seconds⟩
  | step i a =>
    obtain ⟨w, w', hget, hnext, hworkers⟩ := Interleaving.step_eq_ok hcommits
    cases hworkers
    exact h.next hget hseconds hnext (hkept.1 w hget) (hkept.2 w hget)
  | outside e =>
    obtain ⟨hdrop, hworkers⟩ := Interleaving.outside_eq_ok hcommits
    cases hworkers
    cases e with
    | gateway v question =>
      cases hdrop
      exact ⟨g, m, h.gateway.drop v question, h.adapter, h.completed, h.gateway_le, h.adapter_le,
        fun j c hc => (h.knows j c hc).mono le_rfl le_rfl le_rfl le_rfl (fun _ _ => rfl)
          fun _ _ => rfl,
        fun hforgetting => ⟨(h.held hforgetting).1.drop v question, (h.held hforgetting).2⟩⟩
    | adapter v fact =>
      cases hdrop
      exact ⟨g, m, h.gateway, h.adapter.drop v fact, h.completed, h.gateway_le, h.adapter_le,
        fun j c hc => (h.knows j c hc).mono le_rfl le_rfl le_rfl le_rfl (fun _ _ => rfl)
          fun _ _ => rfl,
        h.held⟩

/-- **No read returns anything stale**, in any run in which every change is made for a person, no
    read takes the version of the gateway between a change's raising it and making the adapter
    forget, and a version that was missing is not started by two changes at once. -/
theorem always_fresh (seconds : ℕ) (hseconds : 0 < seconds)
    (turns : List (Turn Request Call.Step Expiry))
    (hkept : (calling seconds).machine.EachStep
      (fun s turn _ => turn.Meets Guarded s ∧ Settled.Respected s turn) turns ⟨{}, {}⟩) :
    (calling seconds).machine.Always Fresh turns ⟨{}, {}⟩ := by
  have hfirst : Sound ⟨{}, {}⟩ := by
    refine ⟨fun _ => 0, fun _ => 0, .empty, .empty, le_rfl, fun _ => le_rfl, fun _ => le_rfl,
      .empty, ?_⟩
    rintro ⟨j, c, hc, _⟩
    rw [Table.get?_empty] at hc
    cases hc
  exact Machine.always_of_eachStep (fun _ h => h.elim fun _ h => h.elim fun _ h => h.fresh)
    (fun _ _ _ _ h hcommits hstep => h.commits hseconds hcommits hstep) turns _ hfirst hkept

/-- A call that passes the checks. -/
private def allowedCall (forPerson : Bool) (capability operation : String) : Request where
  forPerson
  question := ⟨capability, operation, "97d170e1550eee4afc0af065b78cda302a97674c"⟩
  listed := true
  permitted := true
  live := true
  hasServer := true
  supported := true

/-- The number of a call, and its steps. -/
private def steps (i : ℕ) (as : List Call.Step) : List (Turn Request Call.Step Expiry) :=
  as.map (.step i)

/-- A customer lists the domains of an account for the first time, adds one, and lists them
    again. -/
private def listAddList : List (Turn Request Call.Step Expiry) :=
  .start (allowedCall true "domains" "list_domains")
    :: steps 0 [.go, .go, .go, .go, .recall "domains", .go, .go, .go, .go, .ask, .go, .finish .done,
      .go]
    ++ .start (allowedCall true "domains" "add_domain")
    :: steps 1 [.effect, .finish .done, .go, .go]
    ++ .start (allowedCall true "domains" "list_domains")
    :: steps 2 [.go, .go, .recall "domains", .go, .go, .ask, .go, .finish .done, .go]

theorem always_fresh_listAddList : (calling 45).machine.Always Fresh listAddList ⟨{}, {}⟩ :=
  always_fresh 45 (by decide) listAddList (Machine.eachStep_of_trace (by decide +kernel))

/-- A customer looks at the backups, the daily job takes one, and the customer looks again. -/
private def dailyBackup : List (Turn Request Call.Step Expiry) :=
  .start (allowedCall true "backups" "list_backups")
    :: steps 0 [.go, .go, .go, .go, .ask, .finish .done, .go]
    ++ .start (allowedCall false "backups" "create_backup") :: steps 1 [.effect, .finish .done]
    ++ .start (allowedCall true "backups" "list_backups") :: steps 2 [.go, .go]

/-- The domains are listed while the change that added one has raised the version of the gateway,
    and has not yet made the adapter forget. -/
private def listedBetween : List (Turn Request Call.Step Expiry) :=
  .start (allowedCall true "domains" "list_domains")
    :: steps 0 [.go, .go, .go, .go, .recall "domains", .go, .go, .go, .go, .ask, .go, .finish .done,
      .go]
    ++ .start (allowedCall true "domains" "add_domain") :: steps 1 [.effect, .finish .done, .go]
    ++ .start (allowedCall true "domains" "list_domains")
    :: steps 2 [.go, .go, .recall "domains", .go, .go, .finish .done, .go]
    ++ steps 1 [.go]
    ++ .start (allowedCall true "domains" "list_domains") :: steps 3 [.go, .go]

/-- Two changes find no version; the one that is slow to start it sets it back. -/
private def setBack : List (Turn Request Call.Step Expiry) :=
  .start (allowedCall true "domains" "add_domain") :: steps 0 [.effect, .finish .done, .go]
    ++ .start (allowedCall true "domains" "add_domain")
    :: steps 1 [.effect, .finish .done, .go, .go, .go, .go]
    ++ .start (allowedCall true "domains" "list_domains")
    :: steps 2 [.go, .go, .ask, .finish .done, .go]
    ++ .start (allowedCall true "domains" "remove_domain")
    :: steps 3 [.effect, .finish .done, .go, .go]
    ++ steps 0 [.go]
    ++ .start (allowedCall true "domains" "list_domains") :: steps 4 [.go, .go]

/-- **A stale answer** is returned after a change by the daily job, which raises no version; after a
    read that took the version of the gateway before the adapter forgot; and after a version that
    was missing has been set back. -/
theorem not_always_fresh :
    ¬ (calling 45).machine.Always Fresh dailyBackup ⟨{}, {}⟩
      ∧ ¬ (calling 45).machine.Always Fresh listedBetween ⟨{}, {}⟩
      ∧ ¬ (calling 45).machine.Always Fresh setBack ⟨{}, {}⟩ := by
  refine ⟨fun h => ?_, fun h => ?_, fun h => ?_⟩
  · have hfresh : ((calling 45).machine.run dailyBackup ⟨{}, {}⟩).workers.Forall
        fun _ w => w.Fresh := h.last
    revert hfresh
    decide +kernel
  · have hfresh : ((calling 45).machine.run listedBetween ⟨{}, {}⟩).workers.Forall
        fun _ w => w.Fresh := h.last
    revert hfresh
    decide +kernel
  · have hfresh : ((calling 45).machine.run setBack ⟨{}, {}⟩).workers.Forall
        fun _ w => w.Fresh := h.last
    revert hfresh
    decide +kernel

end WPanel.Hosting.Control
