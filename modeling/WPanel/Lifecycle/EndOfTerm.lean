import WPanel.Lifecycle.Refunding
import WPanel.Lifecycle.SafetyNet

namespace WPanel.Lifecycle.EndOfTerm

open WPanel.Lib WPanel.Renewals WPanel.Lifecycle.SafetyNet

/-!
# Cancellations at the end of the paid period

A hosting account whose cancellation is approved for the end of its term is ended by the daily job
on the day that was the last when the request was approved.  That day stays what it was when the
account is paid for once more.

Every server answers, no one is asked for a reason, and messages do not say which account it is.

* `Desk`, `Act` — requests, accounts and the clock, and what customers, staff and the job do;
* `PaidTimeKept` — a step ends no account that way while its paid period still runs;
* `Scheduled` — the day of every approved request is not before the end of the paid period;
* `always_paidTimeKept` — in a run of steps that keep to the day the first holds of every step.
-/

inductive Timing where
  | immediate
  | endOfTerm
  deriving DecidableEq

/-- The records with the timing of each request, the settings and the time. -/
structure Desk where
  clock : ℤ
  settings : Settings
  panel : Panel := {}
  timing : ℕ → Timing := fun _ => .endOfTerm

inductive Act where
  | wait (micros : ℕ)
  | settle (settings : Settings)
  | runLifecycle (awaiting : ℕ → Bool)
  /-- An account that was provisioned, or was not. -/
  | create (status : HostingStatus) (server : Option ℕ)
  | account (pk : ℕ) (act : AccountAct)
  | requestCancellation (pk : ℕ) (timing : Timing)
  | approve (pk : ℕ) (timing : Option Timing)
  | reject (pk : ℕ)
  | withdraw (pk : ℕ)
  | retry (pk : ℕ)

/-- What a job or a call that begins now is told. -/
def Desk.world (s : Desk) (awaiting : ℕ → Bool) : World := ⟨s.clock, s.clock, s.settings, awaiting⟩

def Desk.putRequest (s : Desk) (pk : ℕ) (request : Request) : Desk :=
  { s with panel := { s.panel with requests := s.panel.requests.put pk request } }

def lockRequest (s : Desk) (pk : ℕ) : Except Err Request :=
  match s.panel.requests.get? pk with
  | some request => .ok request
  | none => .error (.doesNotExist "CancellationRequest")

/-- `_lock(cr.service)`; nobody asks for a domain here. -/
def lockService (s : Desk) : Service → Except Err Account
  | .hosting pk =>
    match s.panel.accounts.get? pk with
    | some account => .ok account
    | none => .error (.doesNotExist "HostingAccount")
  | .domain _ => .error (.doesNotExist "HostingAccount")

/-- The one table of legal moves for a request. -/
def canTransition : CancellationStatus → CancellationStatus → Bool
  | .pending, .approved | .pending, .rejected | .pending, .withdrawn => true
  | .approved, .completed | .approved, .withdrawn => true
  | _, _ => false

/-- `transition`. -/
def transition (request : Request) (status : CancellationStatus) : Except Err Request := do
  ensure (canTransition request.status status = true)
    (serviceError ("A cancellation request that is "
      ++ (Refunding.CancellationStatus.label request.status).map Char.toLower ++ " cannot be "
      ++ (Refunding.CancellationStatus.label status).map Char.toLower ++ ".") "invalid_status")
  return { request with status }

/-- `is_live`. -/
def IsLive (account : Account) : Prop := account.status = .active ∨ account.status = .suspended

instance (account : Account) : Decidable (IsLive account) := inferInstanceAs (Decidable (_ ∨ _))

/-- `open_request_for`: pending or approved. -/
def isOpen (service : Service) (request : Request) : Bool :=
  request.service = service ∧ (request.status = .pending ∨ request.status = .approved)

/-- `request_cancellation`. -/
def requestCancellation (s : Desk) (pk : ℕ) (timing : Timing) : Except Err Desk := do
  let account ← lockService s (.hosting pk)
  ensure (IsLive account)
    (serviceError ("The account is " ++ account.status.label.map Char.toLower
      ++ " and cannot be cancelled.") "service_not_live")
  ensure ((s.panel.requests.entries.any fun entry => isOpen (.hosting pk) entry.2) = false)
    (serviceError "There is already a cancellation request for this service." "already_requested")
  let request : Request := { service := .hosting pk, status := .pending, effectiveAt := none }
  return { s with
    panel := { s.panel with requests := s.panel.requests.insert request }
    timing := Function.update s.timing s.panel.requests.nextPk timing }

/-- The day the service is to end. -/
def endsOn (now : ℤ) (timing : Timing) (account : Account) : ℤ :=
  match timing with
  | .immediate => now
  | .endOfTerm => (remaining now account).getD now

/-- `execute`. -/
def Desk.execute (s : Desk) (pk : ℕ) (request : Request) : Desk :=
  { s with panel := (Lifecycle.execute (s.world fun _ => false) (pk, request) s.panel).1 }

/-- `approve`: the day is fixed, and where it is today the service ends. -/
def approve (s : Desk) (pk : ℕ) (timing : Option Timing) : Except Err Desk := do
  let request ← lockRequest s pk
  ensure (request.status = .pending)
    (serviceError "This request has already been dealt with." "invalid_status")
  let account ← lockService s request.service
  ensure (IsLive account)
    (serviceError ("The account is " ++ account.status.label.map Char.toLower
      ++ ", so there is nothing to cancel.") "service_not_live")
  let timing := timing.getD (s.timing pk)
  let ends := endsOn s.clock timing account
  let approved := { request with status := .approved, effectiveAt := some ends, lastError := "" }
  let s := { s.putRequest pk approved with timing := Function.update s.timing pk timing }
  return if ends ≤ s.clock then s.execute pk approved else s

/-- `reject`. -/
def reject (s : Desk) (pk : ℕ) : Except Err Desk := do
  let request ← lockRequest s pk
  let request ← transition request .rejected
  return s.putRequest pk request

/-- `withdraw`, while it is waiting or scheduled and no one is carrying it out. -/
def withdraw (s : Desk) (pk : ℕ) : Except Err Desk := do
  let request ← lockRequest s pk
  ensure (¬(request.status = .approved ∧ ∃ claimed ∈ request.claimedAt,
      s.clock - claimTimeout < claimed))
    (serviceError "This is being carried out right now, so it can no longer be withdrawn."
      "in_progress")
  let request ← transition request .withdrawn
  return s.putRequest pk request

/-- `retry`: staff carry an approved request out, due or not. -/
def retry (s : Desk) (pk : ℕ) : Except Err Desk := do
  let request ← lockRequest s pk
  ensure (request.status = .approved)
    (serviceError "Only an approved request can be retried." "invalid_status")
  return s.execute pk request

section

-- `add_months`, where the calendar has the day
variable (addMonths : ℤ → ℕ → Option ℤ)

def next : Act → Desk → Except Err Desk
  | .wait micros, s => .ok { s with clock := s.clock + micros }
  | .settle settings, s => .ok { s with settings }
  | .runLifecycle awaiting, s =>
    .ok { s with panel := (runLifecycle false (s.world awaiting) s.panel).1 }
  | .create status server, s =>
    let account : Account := { status, server, billingCycle := "", expiresAt := none }
    .ok { s with panel := { s.panel with accounts := s.panel.accounts.insert account } }
  | .account pk act, s => do
    let account ← lockService s (.hosting pk)
    let account ← act.exec addMonths s.clock account
    return { s with panel := s.panel.putAccount pk account }
  | .requestCancellation pk timing, s => requestCancellation s pk timing
  | .approve pk timing, s => approve s pk timing
  | .reject pk, s => reject s pk
  | .withdraw pk, s => withdraw s pk
  | .retry pk, s => retry s pk

def machine : Machine Desk Act Unit Err where
  exec a s := (next addMonths a s).map fun s => (s, [])

end

/-! ### What a step ends -/

/-- In this step an end-of-term request is completed, and the account it is about ends. -/
structure Ended (s s' : Desk) (pk q : ℕ) (account : Account) : Prop where
  timing : s'.timing pk = .endOfTerm
  completed : ∃ request ∈ s'.panel.requests.get? pk,
    request.service = .hosting q ∧ request.status = .completed
  before : ∀ request ∈ s.panel.requests.get? pk, request.status ≠ .completed
  found : s.panel.accounts.get? q = some account
  live : account.status ≠ .terminated
  terminated : ∃ account' ∈ s'.panel.accounts.get? q, account'.status = .terminated

/-- No end-of-term request ends an account whose paid period still runs. -/
def PaidTimeKept (s s' : Desk) : Prop :=
  ∀ pk q account, Ended s s' pk q account → ∀ expires ∈ account.expiresAt, expires ≤ s.clock

/-- An approved end-of-term request about the account. -/
def Desk.Cancelling (s : Desk) (q pk : ℕ) (request : Request) : Prop :=
  s.timing pk = .endOfTerm ∧ request.status = .approved ∧ request.service = .hosting q

instance (s : Desk) (q pk : ℕ) (request : Request) : Decidable (s.Cancelling q pk request) :=
  inferInstanceAs (Decidable (_ ∧ _))

/-- The account may be paid for longer than it was. -/
def Extends (now : ℤ) : AccountAct → Account → Prop
  | .setTerm _ _ expiresAt, account => ¬∃ expires ∈ account.expiresAt, expiresAt ≤ expires
  | .startTerm _ _, account => account.expiresAt = none
  | .renew _, _ => True
  | .upgrade _, account => remaining now account = none
  | _, _ => False

/-- No account is paid for longer that is to end at the end of its term, and no request is carried
    out before its day. -/
def KeepsToTheDay (s : Desk) : Act → Prop
  | .account q act => ∀ account ∈ s.panel.accounts.get? q, Extends s.clock act account →
      s.panel.requests.Forall fun pk request => ¬s.Cancelling q pk request
  | .retry pk => ∀ request ∈ s.panel.requests.get? pk, s.timing pk = .endOfTerm →
      ∀ effective ∈ request.effectiveAt, effective ≤ s.clock
  | _ => True

/-- The day of every approved end-of-term request is not before the end of the paid period. -/
def Scheduled (s : Desk) : Prop :=
  ∀ pk request, s.panel.requests.get? pk = some request → s.timing pk = .endOfTerm →
    request.status = .approved → ∃ effective ∈ request.effectiveAt, ∀ q account,
      request.service = .hosting q → s.panel.accounts.get? q = some account →
        ∀ expires ∈ account.expiresAt, expires ≤ effective

/-- What is left of a request after it was carried out, or was tried to be. -/
structure Carried (request request' : Request) : Prop where
  service : request'.service = request.service
  effectiveAt : request'.effectiveAt = request.effectiveAt
  status : request'.status = request.status ∨ request'.status = .completed

section

variable {addMonths : ℤ → ℕ → Option ℤ} {account account' : Account} {now : ℤ} {w : World}
  {p : Panel} {pk q : ℕ} {request request' : Request} {s s' : Desk}

/-! ### Requests that are carried out -/

theorem endService_requests {service : Service} {p' : Panel} (h : endService service p = .ok p') :
    p'.requests = p.requests := by
  cases service with
  | hosting q =>
    unfold endService at h
    dsimp only at h
    split at h
    · cases h
    · split at h
      · simp only [bind_eq_ok, pure_eq_ok] at h
        obtain ⟨_, -, rfl⟩ := h
        rfl
      · split at h
        · cases h
        · cases h
          rfl
  | domain q =>
    unfold endService at h
    dsimp only at h
    split at h
    · cases h
    · split at h
      · cases h
        rfl
      · split at h
        · cases h
        · cases h
          rfl

theorem execute_requests {entry : ℕ × Request}
    (h : (execute w entry p).1.requests.get? pk = some request') :
    p.requests.get? pk = some request' ∨ pk = entry.1 ∧ Carried entry.2 request' := by
  have hput : ∀ {t : Table Request} {r : Request}, (t.put entry.1 r).get? pk = some request' →
      t.get? pk = some request' ∨ pk = entry.1 ∧ request' = r := by
    intro t r hr
    exact Table.Forall.put (t := t)
      (P := fun q b => t.get? q = some b ∨ q = entry.1 ∧ b = r)
      (fun _ _ hb => .inl hb) (.inr ⟨rfl, rfl⟩) pk request' hr
  unfold execute at h
  dsimp only at h
  split at h
  · split at h
    · next p' hend =>
      rcases hput h with hold | ⟨hpk, rfl⟩
      · exact .inl (endService_requests hend ▸ hold)
      · exact .inr ⟨hpk, rfl, rfl, .inr rfl⟩
    · rcases hput h with hold | ⟨hpk, rfl⟩
      · exact .inl hold
      · exact .inr ⟨hpk, rfl, rfl, .inl rfl⟩
  · exact .inl h

/-- The first part of a sweep; the induction is on the requests still to be carried out. -/
theorem executes_requests {entries : List (ℕ × Request)}
    (h : (inTurn (execute w) entries p).1.requests.get? pk = some request') :
    p.requests.get? pk = some request'
      ∨ ∃ entry ∈ entries, pk = entry.1 ∧ Carried entry.2 request' := by
  induction entries generalizing p with
  | nil => exact .inl h
  | cons entry rest ih =>
    rcases ih h with hold | ⟨later, hmem, hlater⟩
    · rcases execute_requests hold with hold | hnow
      · exact .inl hold
      · exact .inr ⟨entry, List.mem_cons_self, hnow⟩
    · exact .inr ⟨later, List.mem_cons_of_mem entry hmem, hlater⟩

theorem lapse_requests (entry : ℕ × Account) (p : Panel) :
    (lapse false w entry p).1.requests = p.requests := by
  have hnotice : ∀ pk account, (notice false w pk account p).1.requests = p.requests := by
    intro pk account
    unfold notice sendGraceNotice
    split
    · simp only [Bool.false_eq_true, if_false]
      split <;> rfl
    · rfl
  unfold lapse
  simp only [Bool.false_eq_true, if_false]
  split
  · split
    · exact hnotice _ _
    · exact hnotice _ _
  · exact hnotice _ _

theorem finish_requests (entry : ℕ × Account) (p : Panel) :
    (finish false w entry p).1.requests = p.requests := by
  unfold finish
  simp only [Bool.false_eq_true, if_false]
  split
  · split <;> rfl
  · split <;> rfl

/-- **What a sweep makes of a request**: it is left as it is, or it was due. -/
theorem runLifecycle_requests
    (h : (runLifecycle false w p).1.requests.get? pk = some request') :
    p.requests.get? pk = some request'
      ∨ ∃ request, p.requests.get? pk = some request ∧ request.Due w
        ∧ Carried request request' := by
  have hlapses : ∀ (entries : List (ℕ × Account)) (p : Panel),
      (inTurn (lapse false w) entries p).1.requests = p.requests := fun entries p =>
    inTurn_invariant (P := fun p' => p'.requests = p.requests)
      (fun entry p' hp => (lapse_requests entry p').trans hp) entries p rfl
  have hfinishes : ∀ (entries : List (ℕ × Account)) (p : Panel),
      (inTurn (finish false w) entries p).1.requests = p.requests := fun entries p =>
    inTurn_invariant (P := fun p' => p'.requests = p.requests)
      (fun entry p' hp => (finish_requests entry p').trans hp) entries p rfl
  have hrun : (runLifecycle false w p).1.requests = (runDueCancellations w p).1.requests := by
    unfold runLifecycle
    simp only [Bool.false_eq_true, if_false]
    split
    · exact (hfinishes _ _).trans (hlapses _ _)
    · exact hlapses _ _
  rw [hrun] at h
  rcases executes_requests h with hold | ⟨⟨_, request⟩, hmem, rfl, hcarried⟩
  · exact .inl hold
  · rw [List.mem_filter, Table.mem_entries, decide_eq_true_eq] at hmem
    exact .inr ⟨request, hmem.1, hmem.2, hcarried⟩

/-- No sweep changes how long an account is paid for. -/
theorem runLifecycle_expiresAt
    (h : (runLifecycle false w p).1.accounts.get? q = some account') :
    ∃ before, p.accounts.get? q = some before ∧ account'.expiresAt = before.expiresAt := by
  obtain ⟨before, hbefore, hcases⟩ := runLifecycle_get? h
  obtain ⟨-, hexpires⟩ := reached_same (w := w) (p := p) q before
  refine ⟨before, hbefore, ?_⟩
  rcases hcases with rfl | ⟨-, rfl | ⟨-, -, hexpires'⟩⟩
  · exact hexpires
  · exact hexpires
  · exact hexpires'.trans hexpires

theorem execute_expiresAt {entry : ℕ × Request}
    (h : (execute w entry p).1.accounts.get? q = some account') :
    ∃ before, p.accounts.get? q = some before ∧ account'.expiresAt = before.expiresAt := by
  rw [(execute_ended entry).accounts q, Option.map_eq_some_iff] at h
  obtain ⟨before, hbefore, rfl⟩ := h
  refine ⟨before, hbefore, ?_⟩
  split
  · rfl
  · rfl

/-! ### Days that are kept -/

/-- A step that approves nothing, and after which an account is paid for no longer than before, or
    is not to end at the end of its term. -/
theorem Scheduled.of_step (hs : Scheduled s)
    (hrequests : ∀ pk request', s'.panel.requests.get? pk = some request' →
      request'.status = .approved → s'.timing pk = s.timing pk ∧ ∃ request,
        s.panel.requests.get? pk = some request ∧ request.status = .approved
          ∧ request'.service = request.service ∧ request'.effectiveAt = request.effectiveAt)
    (haccounts : ∀ q account', s'.panel.accounts.get? q = some account' →
      ∀ expires' ∈ account'.expiresAt,
        (∃ account, s.panel.accounts.get? q = some account
          ∧ ∃ expires ∈ account.expiresAt, expires' ≤ expires)
        ∨ s.panel.requests.Forall fun pk request => ¬s.Cancelling q pk request) :
    Scheduled s' := by
  intro pk request' hget' htiming' happroved'
  obtain ⟨htiming, request, hget, happroved, hservice, heffective⟩ :=
    hrequests pk request' hget' happroved'
  obtain ⟨effective, hmem, hends⟩ := hs pk request hget (htiming ▸ htiming') happroved
  refine ⟨effective, heffective ▸ hmem, fun q account' hq haccount' expires' hexpires' => ?_⟩
  rcases haccounts q account' haccount' expires' hexpires' with
    ⟨account, haccount, expires, hexpires, hle⟩ | hnone
  · exact hle.trans (hends q account (hservice ▸ hq) haccount expires hexpires)
  · exact absurd ⟨htiming ▸ htiming', happroved, hservice ▸ hq⟩ (hnone pk request hget)

/-- Accounts that are paid for as long as they were. -/
theorem same_expiresAt (h : ∃ before, s.panel.accounts.get? q = some before
      ∧ account'.expiresAt = before.expiresAt) :
    ∀ expires' ∈ account'.expiresAt,
      (∃ account, s.panel.accounts.get? q = some account
        ∧ ∃ expires ∈ account.expiresAt, expires' ≤ expires)
      ∨ s.panel.requests.Forall fun pk request => ¬s.Cancelling q pk request := by
  obtain ⟨before, hbefore, hexpires⟩ := h
  exact fun expires' hmem => .inl ⟨before, hbefore, expires', hexpires ▸ hmem, le_refl expires'⟩

/-- What is done to an account lets it be paid for no longer, or may. -/
theorem exec_expiresAt {a : AccountAct} (h : a.exec addMonths now account = .ok account') :
    (∀ expires' ∈ account'.expiresAt, ∃ expires ∈ account.expiresAt, expires' ≤ expires)
      ∨ Extends now a account := by
  have hsame : account'.expiresAt = account.expiresAt →
      (∀ expires' ∈ account'.expiresAt, ∃ expires ∈ account.expiresAt, expires' ≤ expires)
        ∨ Extends now a account :=
    fun heq => .inl fun expires' hmem => ⟨expires', heq ▸ hmem, le_refl expires'⟩
  cases a with
  | suspend forNonpayment => exact hsame (suspendAccount_same h).2
  | unsuspend => exact hsame (unsuspendAccount_same h).2
  | backup =>
    cases backupAccount_eq_ok h
    exact hsame rfl
  | terminate => exact hsame (terminateAccount_same h).2
  | setTerm billingCycle termStart expiresAt =>
    simp only [AccountAct.exec, SafetyNet.setHostingTerm, bind_eq_ok, pure_eq_ok] at h
    obtain ⟨_, -, rfl⟩ := h
    by_cases hlater : ∃ expires ∈ account.expiresAt, expiresAt ≤ expires
    · exact .inl fun _ hmem => Option.some.inj hmem ▸ hlater
    · exact .inr hlater
  | startTerm billingCycle months =>
    simp only [AccountAct.exec, SafetyNet.startHostingTerm] at h
    split at h
    · next hnone => exact .inr hnone
    · cases h
      exact hsame rfl
  | renew months => exact .inr trivial
  | upgrade months =>
    simp only [AccountAct.exec, applyUpgrade, bind_eq_ok] at h
    obtain ⟨_, -, h⟩ := h
    split at h
    · next hnone => exact .inr hnone
    · cases h
      exact hsame rfl

/-- A request that is carried out was approved, and stays on its day. -/
theorem Scheduled.execute (hs : Scheduled s) (hget : s.panel.requests.get? pk = some request) :
    Scheduled (s.execute pk request) := by
  refine hs.of_step (fun q request' hget' happroved' => ⟨rfl, ?_⟩)
    fun q account' haccount' => same_expiresAt (execute_expiresAt haccount')
  rcases execute_requests hget' with hold | ⟨rfl, hcarried⟩
  · exact ⟨request', hold, happroved', rfl, rfl⟩
  · refine ⟨request, hget, ?_, hcarried.service, hcarried.effectiveAt⟩
    rcases hcarried.status with hstatus | hstatus
    · exact hstatus.symm.trans happroved'
    · cases hstatus.symm.trans happroved'

theorem Scheduled.runLifecycle {awaiting : ℕ → Bool} (hs : Scheduled s) :
    Scheduled { s with panel := (runLifecycle false (s.world awaiting) s.panel).1 } := by
  refine hs.of_step (fun q request' hget' happroved' => ⟨rfl, ?_⟩)
    fun q account' haccount' => same_expiresAt (runLifecycle_expiresAt haccount')
  rcases runLifecycle_requests hget' with hold | ⟨request, hget, -, hcarried⟩
  · exact ⟨request', hold, happroved', rfl, rfl⟩
  · refine ⟨request, hget, ?_, hcarried.service, hcarried.effectiveAt⟩
    rcases hcarried.status with hstatus | hstatus
    · exact hstatus.symm.trans happroved'
    · cases hstatus.symm.trans happroved'

/-- A request that is put is not approved. -/
theorem Scheduled.putRequest (hs : Scheduled s) (hstatus : request'.status ≠ .approved) :
    Scheduled (s.putRequest pk request') := by
  refine hs.of_step (fun q request hget happroved => ⟨rfl, ?_⟩)
    fun q account' haccount' => same_expiresAt ⟨account', haccount', rfl⟩
  have hput := Table.Forall.put (t := s.panel.requests)
    (P := fun q b => s.panel.requests.get? q = some b ∨ b = request')
    (fun _ _ hb => .inl hb) (.inr rfl) q request hget
  rcases hput with hold | rfl
  · exact ⟨request, hold, happroved, rfl, rfl⟩
  · exact absurd happroved hstatus

/-- The day of an approval is not before the end of the paid period. -/
theorem expires_le_endsOn {expires : ℤ} (h : expires ∈ account.expiresAt) :
    expires ≤ endsOn now .endOfTerm account := by
  have hexpires : account.expiresAt = some expires := h
  unfold endsOn remaining
  rw [hexpires]
  by_cases hlt : now < expires
  · simp [Option.filter, hlt]
  · simpa [Option.filter, hlt] using not_lt.mp hlt

theorem lockService_eq_ok {service : Service} (h : lockService s service = .ok account)
    (hservice : service = .hosting q) : s.panel.accounts.get? q = some account := by
  subst hservice
  unfold lockService at h
  dsimp only at h
  split at h
  · next hget =>
    cases h
    exact hget
  · cases h

theorem lockRequest_eq_ok (h : lockRequest s pk = .ok request) :
    s.panel.requests.get? pk = some request := by
  unfold lockRequest at h
  split at h
  · next hget =>
    cases h
    exact hget
  · cases h

/-- What an approval does: the day is fixed, and where it is today the request is carried out. -/
theorem approve_eq_ok {timing : Option Timing} (h : approve s pk timing = .ok s') :
    ∃ request account sched, s.panel.requests.get? pk = some request ∧ request.status = .pending
      ∧ lockService s request.service = .ok account
      ∧ sched = { request with
          status := .approved
          effectiveAt := some (endsOn s.clock (timing.getD (s.timing pk)) account)
          lastError := "" }
      ∧ let s₁ := { s.putRequest pk sched with
          timing := Function.update s.timing pk (timing.getD (s.timing pk)) }
        (s' = s₁ ∨ endsOn s.clock (timing.getD (s.timing pk)) account ≤ s.clock
          ∧ s' = s₁.execute pk sched) := by
  simp only [approve, bind_eq_ok, ensure_eq_ok, exists_and_left, exists_const, pure_eq_ok] at h
  obtain ⟨request, hlock, hpending, account, haccount, -, rfl⟩ := h
  refine ⟨request, account, _, lockRequest_eq_ok hlock, hpending, haccount, rfl, ?_⟩
  dsimp only
  split
  · next hnow => exact .inr ⟨hnow, rfl⟩
  · exact .inl rfl

theorem Scheduled.approve {timing : Option Timing} (hs : Scheduled s)
    (h : approve s pk timing = .ok s') : Scheduled s' := by
  obtain ⟨request, account, sched, hget, -, haccount, rfl, hcases⟩ := approve_eq_ok h
  have hself : ∀ r : Request, (s.panel.requests.put pk r).get? pk = some r :=
    fun r => Table.get?_put_self hget r
  have hfixed : Scheduled { s.putRequest pk { request with
      status := .approved
      effectiveAt := some (endsOn s.clock (timing.getD (s.timing pk)) account)
      lastError := "" } with
        timing := Function.update s.timing pk (timing.getD (s.timing pk)) } := by
    intro i r hr htiming happroved
    by_cases hi : i = pk
    · subst hi
      cases (hself _).symm.trans hr
      dsimp only at htiming
      rw [Function.update_self] at htiming
      refine ⟨_, rfl, fun q account' hq haccount' expires hexpires => ?_⟩
      cases (lockService_eq_ok haccount hq).symm.trans haccount'
      rw [htiming]
      exact expires_le_endsOn hexpires
    · have hold : s.panel.requests.get? i = some r :=
        (Table.get?_put_of_ne hi _).symm.trans hr
      dsimp only at htiming
      rw [Function.update_of_ne hi] at htiming
      exact hs i r hold htiming happroved
  rcases hcases with rfl | ⟨-, rfl⟩
  · exact hfixed
  · exact hfixed.execute (hself _)

/-- What a request for a cancellation does. -/
theorem Scheduled.requestCancellation {timing : Timing} (hs : Scheduled s)
    (h : requestCancellation s pk timing = .ok s') : Scheduled s' := by
  simp only [EndOfTerm.requestCancellation, bind_eq_ok, ensure_eq_ok, exists_and_left,
    exists_const, pure_eq_ok] at h
  obtain ⟨account, -, -, -, rfl⟩ := h
  refine hs.of_step (fun i r hr happroved => ?_)
    fun q account' haccount' => same_expiresAt ⟨account', haccount', rfl⟩
  dsimp only at hr
  rw [Table.get?_insert] at hr
  split at hr
  · cases hr
    cases happroved
  · next hi => exact ⟨Function.update_of_ne hi _ _, r, hr, happroved, rfl, rfl⟩

/-- **One step of a run.** -/
theorem Scheduled.next {a : Act} (hs : Scheduled s) (h : next addMonths a s = .ok s')
    (hday : KeepsToTheDay s a) : Scheduled s' := by
  cases a with
  | wait micros =>
    cases h
    exact hs
  | settle settings =>
    cases h
    exact hs
  | runLifecycle awaiting =>
    cases h
    exact hs.runLifecycle
  | create status server =>
    cases h
    refine hs.of_step (fun i r hr happroved => ⟨rfl, r, hr, happroved, rfl, rfl⟩)
      fun q account' haccount' => ?_
    dsimp only at haccount'
    rw [Table.get?_insert] at haccount'
    split at haccount'
    · cases haccount'
      rintro _ ⟨⟩
    · exact same_expiresAt ⟨account', haccount', rfl⟩
  | account q act =>
    simp only [EndOfTerm.next, bind_eq_ok, pure_eq_ok] at h
    obtain ⟨account, hlock, account', hexec, rfl⟩ := h
    have hget := lockService_eq_ok hlock rfl
    refine hs.of_step (fun i r hr happroved => ⟨rfl, r, hr, happroved, rfl, rfl⟩)
      fun i account'' haccount'' => ?_
    dsimp only [Panel.putAccount] at haccount''
    rw [Table.get?_put hget] at haccount''
    split at haccount''
    · next hi =>
      subst hi
      cases haccount''
      intro expires' hexpires'
      rcases exec_expiresAt hexec with hkept | hextends
      · exact .inl ⟨account, hget, hkept expires' hexpires'⟩
      · exact .inr (hday account hget hextends)
    · exact same_expiresAt ⟨account'', haccount'', rfl⟩
  | requestCancellation q timing => exact hs.requestCancellation h
  | approve i timing => exact hs.approve h
  | reject i =>
    simp only [EndOfTerm.next, reject, transition, bind_eq_ok, pure_eq_ok] at h
    obtain ⟨_, -, _, ⟨_, -, rfl⟩, rfl⟩ := h
    exact hs.putRequest (by simp)
  | withdraw i =>
    simp only [EndOfTerm.next, withdraw, transition, bind_eq_ok, pure_eq_ok] at h
    obtain ⟨_, -, _, -, _, ⟨_, -, rfl⟩, rfl⟩ := h
    exact hs.putRequest (by simp)
  | retry i =>
    simp only [EndOfTerm.next, retry, bind_eq_ok, pure_eq_ok] at h
    obtain ⟨request, hlock, _, -, rfl⟩ := h
    exact hs.execute (lockRequest_eq_ok hlock)

/-! ### Accounts that end -/

/-- A step that completes no request ends no account that way. -/
theorem paidTimeKept_of_not_completed
    (h : ∀ pk request', s'.panel.requests.get? pk = some request' → request'.status = .completed →
      s.panel.requests.get? pk = some request') : PaidTimeKept s s' := by
  rintro pk q account ⟨-, ⟨request', hget', -, hcompleted⟩, hbefore, -, -, -⟩
  exact absurd hcompleted (hbefore request' (h pk request' hget' hcompleted))

theorem paidTimeKept_putRequest (hstatus : request'.status ≠ .completed) :
    PaidTimeKept s (s.putRequest pk request') := by
  refine paidTimeKept_of_not_completed fun i r hr hcompleted => ?_
  have hput := Table.Forall.put (t := s.panel.requests)
    (P := fun q b => s.panel.requests.get? q = some b ∨ b = request')
    (fun _ _ hb => .inl hb) (.inr rfl) i r hr
  rcases hput with hold | rfl
  · exact hold
  · exact absurd hcompleted hstatus

/-- A request that is carried out on its day, or later, ends no account that is still paid for. -/
theorem paidTimeKept_execute (hs : Scheduled s) (hget : s.panel.requests.get? pk = some request)
    (happroved : request.status = .approved)
    (hday : s.timing pk = .endOfTerm → ∀ effective ∈ request.effectiveAt, effective ≤ s.clock) :
    PaidTimeKept s (s.execute pk request) := by
  rintro i q account ⟨htiming, ⟨request', hget', hservice, hcompleted⟩, hbefore, hfound, -, -⟩
  by_cases hi : i = pk
  · subst hi
    obtain ⟨effective, hmem, hends⟩ := hs i request hget htiming happroved
    have hcarried : request'.service = request.service := by
      rcases execute_requests hget' with hold | ⟨-, hcarried⟩
      · cases hget.symm.trans hold
        rfl
      · exact hcarried.service
    intro expires hexpires
    exact (hends q account (hcarried ▸ hservice) hfound expires hexpires).trans
      (hday htiming effective hmem)
  · rcases execute_requests hget' with hold | ⟨hpk, -⟩
    · exact absurd hcompleted (hbefore request' hold)
    · exact absurd hpk hi

theorem paidTimeKept_runLifecycle {awaiting : ℕ → Bool} (hs : Scheduled s) :
    PaidTimeKept s { s with panel := (runLifecycle false (s.world awaiting) s.panel).1 } := by
  rintro i q account ⟨htiming, ⟨request', hget', hservice, hcompleted⟩, hbefore, hfound, -, -⟩
  rcases runLifecycle_requests hget' with hold | ⟨request, hget, ⟨happroved, hdue⟩, hcarried⟩
  · exact absurd hcompleted (hbefore request' hold)
  · obtain ⟨effective, hmem, hends⟩ := hs i request hget htiming happroved
    obtain ⟨effective', hmem', hdue⟩ := hdue
    cases hmem.symm.trans hmem'
    intro expires hexpires
    exact (hends q account (hcarried.service ▸ hservice) hfound expires hexpires).trans hdue

theorem paidTimeKept_approve {timing : Option Timing} (hs : Scheduled s)
    (h : approve s pk timing = .ok s') : PaidTimeKept s s' := by
  have hs' := hs.approve h
  obtain ⟨request, account, sched, hget, -, haccount, rfl, hcases⟩ := approve_eq_ok h
  have hself : ∀ r : Request, (s.panel.requests.put pk r).get? pk = some r :=
    fun r => Table.get?_put_self hget r
  have hother : ∀ (r : Request) i, i ≠ pk →
      (s.panel.requests.put pk r).get? i = s.panel.requests.get? i :=
    fun r i hi => Table.get?_put_of_ne hi r
  rcases hcases with rfl | ⟨hnow, rfl⟩
  · refine paidTimeKept_of_not_completed fun i r hr hcompleted => ?_
    by_cases hi : i = pk
    · subst hi
      cases (hself _).symm.trans hr
      cases hcompleted
    · exact (hother _ i hi).symm.trans hr
  · -- the day is today, and the paid period ended no later
    rintro i q account' ⟨htiming, ⟨r, hr, hservice, hcompleted⟩, hbefore, hfound, -, -⟩
    rcases execute_requests hr with hold | ⟨rfl, hcarried⟩
    · by_cases hi : i = pk
      · subst hi
        cases (hself _).symm.trans hold
        cases hcompleted
      · exact absurd hcompleted (hbefore r ((hother _ i hi).symm.trans hold))
    · intro expires hexpires
      have hq : request.service = .hosting q := hcarried.service.symm.trans hservice
      cases (lockService_eq_ok haccount hq).symm.trans hfound
      have htiming' : timing.getD (s.timing i) = .endOfTerm :=
        (Function.update_self i _ s.timing).symm.trans htiming
      rw [htiming'] at hnow
      exact (expires_le_endsOn hexpires).trans hnow

/-- **One step of a run** ends no account that is still paid for. -/
theorem paidTimeKept_next {a : Act} (hs : Scheduled s) (h : next addMonths a s = .ok s')
    (hday : KeepsToTheDay s a) : PaidTimeKept s s' := by
  cases a with
  | wait micros =>
    cases h
    exact paidTimeKept_of_not_completed fun _ _ hget _ => hget
  | settle settings =>
    cases h
    exact paidTimeKept_of_not_completed fun _ _ hget _ => hget
  | runLifecycle awaiting =>
    cases h
    exact paidTimeKept_runLifecycle hs
  | create status server =>
    cases h
    exact paidTimeKept_of_not_completed fun _ _ hget _ => hget
  | account q act =>
    simp only [EndOfTerm.next, bind_eq_ok, pure_eq_ok] at h
    obtain ⟨_, -, _, -, rfl⟩ := h
    exact paidTimeKept_of_not_completed fun _ _ hget _ => hget
  | requestCancellation q timing =>
    simp only [EndOfTerm.next, EndOfTerm.requestCancellation, bind_eq_ok, ensure_eq_ok,
      exists_and_left, exists_const, pure_eq_ok] at h
    obtain ⟨_, -, -, -, rfl⟩ := h
    refine paidTimeKept_of_not_completed fun i r hr hcompleted => ?_
    dsimp only at hr
    rw [Table.get?_insert] at hr
    split at hr
    · cases hr
      cases hcompleted
    · exact hr
  | approve i timing => exact paidTimeKept_approve hs h
  | reject i =>
    simp only [EndOfTerm.next, reject, transition, bind_eq_ok, pure_eq_ok] at h
    obtain ⟨_, -, _, ⟨_, -, rfl⟩, rfl⟩ := h
    exact paidTimeKept_putRequest (by simp)
  | withdraw i =>
    simp only [EndOfTerm.next, withdraw, transition, bind_eq_ok, pure_eq_ok] at h
    obtain ⟨_, -, _, -, _, ⟨_, -, rfl⟩, rfl⟩ := h
    exact paidTimeKept_putRequest (by simp)
  | retry i =>
    simp only [EndOfTerm.next, retry, bind_eq_ok, ensure_eq_ok, exists_and_left, exists_const,
      pure_eq_ok] at h
    obtain ⟨request, hlock, happroved, rfl⟩ := h
    have hget := lockRequest_eq_ok hlock
    exact paidTimeKept_execute hs hget happroved (hday request hget)

end

/-- Before the first account. -/
def founded (clock : ℤ) (settings : Settings) : Desk := { clock, settings }

theorem next_of_commits {addMonths : ℤ → ℕ → Option ℤ} {a : Act} {s s' : Desk} {out : List Unit}
    (h : (machine addMonths).Commits a s s' out) : next addMonths a s = .ok s' := by
  unfold Machine.Commits machine at h
  dsimp only at h
  cases hnext : next addMonths a s with
  | error e =>
    rw [hnext] at h
    cases h
  | ok t =>
    rw [hnext] at h
    cases h
    rfl

/-- **No end-of-term cancellation ends an account that is still paid for**, in any step of a run
    that keeps to the day each was approved for. -/
theorem always_paidTimeKept (addMonths : ℤ → ℕ → Option ℤ) (clock : ℤ) (settings : Settings)
    (acts : List Act) (h : (machine addMonths).EachStep (fun s a _ => KeepsToTheDay s a) acts
      (founded clock settings)) :
    (machine addMonths).EachStep (fun s _ s' => PaidTimeKept s s') acts
      (founded clock settings) := by
  refine Machine.eachStep_of_eachStep (I := Scheduled)
    (fun _ _ _ _ hs hc hday => hs.next (next_of_commits hc) hday)
    (fun _ _ _ _ hs hc hday => paidTimeKept_next hs (next_of_commits hc) hday) acts _ ?_ h
  intro pk request hget
  cases (Table.get?_empty (α := Request) pk).symm.trans hget

/-! ### An invoice that was partly paid -/

/-- An account that is paid for until day 31, and is then to end. -/
def scheduled : List Act :=
  [.create .active (some 0), .account 0 (.startTerm "monthly" 1),
    .requestCancellation 0 .endOfTerm, .approve 0 none]

def waitDays (days : ℕ) : Act := .wait (days * microsPerDay)

/-- The job runs on that day. -/
def carriedOut : List Act := scheduled ++ [waitDays 31, .runLifecycle fun _ => false]

/-- The rest of a renewal invoice is paid before. -/
def renewed : List Act := scheduled ++ [.account 0 (.renew 1), waitDays 31]

instance (now : ℤ) (a : AccountAct) (account : Account) : Decidable (Extends now a account) :=
  match a with
  | .setTerm _ _ expiresAt =>
    inferInstanceAs (Decidable ¬∃ expires ∈ account.expiresAt, expiresAt ≤ expires)
  | .startTerm _ _ => inferInstanceAs (Decidable (account.expiresAt = none))
  | .renew _ => isTrue trivial
  | .upgrade _ => inferInstanceAs (Decidable (remaining now account = none))
  | .suspend _ | .unsuspend | .backup | .terminate => inferInstanceAs (Decidable False)

instance (s : Desk) (a : Act) : Decidable (KeepsToTheDay s a) :=
  match a with
  | .account q act =>
    inferInstanceAs (Decidable (∀ account ∈ s.panel.accounts.get? q, Extends s.clock act account →
      s.panel.requests.Forall fun pk request => ¬s.Cancelling q pk request))
  | .retry pk =>
    inferInstanceAs (Decidable (∀ request ∈ s.panel.requests.get? pk, s.timing pk = .endOfTerm →
      ∀ effective ∈ request.effectiveAt, effective ≤ s.clock))
  | .wait _ | .settle _ | .runLifecycle _ | .create _ _ => isTrue trivial
  | .requestCancellation _ _ | .approve _ _ | .reject _ | .withdraw _ => isTrue trivial

theorem always_paidTimeKept_carriedOut :
    (((machine longMonths).run carriedOut (founded 0 endingWorld.settings)).panel.accounts.get?
        0).map (·.status) = some .terminated
      ∧ (machine longMonths).EachStep (fun s _ s' => PaidTimeKept s s') carriedOut
        (founded 0 endingWorld.settings) :=
  ⟨by decide +kernel, always_paidTimeKept longMonths 0 endingWorld.settings carriedOut
    (Machine.eachStep_of_trace (by decide +kernel))⟩

/-- **An account that was paid for once more is ended all the same.** -/
theorem not_always_paidTimeKept :
    ¬∀ (addMonths : ℤ → ℕ → Option ℤ) (clock : ℤ) (settings : Settings) (acts : List Act),
      (machine addMonths).EachStep (fun s _ s' => PaidTimeKept s s') acts
        (founded clock settings) := by
  intro h
  have hlast := (h longMonths 0 endingWorld.settings
    (renewed ++ [.runLifecycle fun _ => false])).last rfl
  have hended := hlast 0 0 {
    status := .active, server := some 0, billingCycle := "monthly", expiresAt := some (62 * day) }
    ⟨by decide +kernel, by decide +kernel, by decide +kernel, by decide +kernel, by decide +kernel,
      by decide +kernel⟩ (62 * day) rfl
  exact absurd hended (by decide +kernel)

end WPanel.Lifecycle.EndOfTerm
