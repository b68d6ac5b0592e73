import WPanel.Lib.InTurn
import WPanel.Renewals.Models

namespace WPanel.Lifecycle

open WPanel.Lib WPanel.Renewals

/-!
# The daily sweep

`run_lifecycle` of `lifecycle/services.py`: carry out the cancellations that are due, send final
notices, suspend accounts that stayed unpaid, and end those that stayed suspended.  A dry run is to
report what would happen.

Every server answers, and nothing else runs meanwhile.  Instants are in microseconds.  Texts of
reasons and notices, refunds and the record of the audit are left out.

* `runLifecycle` — the sweep, as a dry run or not;
* `Agrees` — the dry run changes nothing and counts what the sweep counts;
* `Foreseen` — nothing the sweep does changes what it goes on to look at;
* `agrees_iff` — the first holds exactly where the second does.
-/

/-- `LifecycleSettings`, where the steps are in order. -/
structure Settings where
  graceAfterDays : ℕ := 3
  suspendAfterDays : ℕ := 7
  terminateAfterDays : ℕ := 30
  autoSuspend : Bool := true
  autoTerminate : Bool := false
  backupBeforeTerminate : Bool := true
  ordered : graceAfterDays < suspendAfterDays ∧ suspendAfterDays < terminateAfterDays := by decide

/-- `HostingAccount`, as far as the sweep reads and writes it. -/
structure Account where
  status : HostingStatus
  server : Option ℕ
  billingCycle : String
  expiresAt : Option ℤ
  suspendedForNonpayment : Bool := false
  backupRequestedAt : Option ℤ := none
  lastError : String := ""
  deriving DecidableEq, Repr

/-- `Domain`, as far as a cancellation reads and writes it. -/
structure DomainRow where
  status : DomainStatus
  autoRenew : Bool := false
  deriving DecidableEq, Repr

/-- `get_status_display` of a domain. -/
def domainLabel : DomainStatus → String
  | .pendingRegistration => "Pending Registration"
  | .pendingTransferIn => "Pending Transfer"
  | .active => "Active"
  | .expired => "Expired"
  | .cancelled => "Cancelled"
  | .failed => "Failed"

inductive CancellationStatus where
  | pending
  | approved
  | completed
  | rejected
  | withdrawn
  deriving DecidableEq, Repr

/-- `CancellationRequest`. -/
structure Request where
  service : Service
  status : CancellationStatus
  effectiveAt : Option ℤ
  claimedAt : Option ℤ := none
  lastError : String := ""
  completedAt : Option ℤ := none
  deriving DecidableEq, Repr

/-- The records; a notice names the account and the term it was sent for. -/
structure Panel where
  accounts : Table Account := {}
  domains : Table DomainRow := {}
  requests : Table Request := {}
  notices : List (ℕ × ℤ) := []
  deriving DecidableEq

def Panel.putAccount (p : Panel) (pk : ℕ) (account : Account) : Panel :=
  { p with accounts := p.accounts.put pk account }

/-- What the sweep is told: the time it is for, the time on the clock, the settings, and which
    accounts have a payment that staff have not confirmed yet. -/
structure World where
  now : ℤ
  clock : ℤ
  settings : Settings := {}
  awaiting : ℕ → Bool := fun _ => false

def day : ℤ := microsPerDay

/-- `CLAIM_TIMEOUT`. -/
def claimTimeout : ℤ := 10 * 60 * microsPerSecond

/-! ### The hosting services -/

/-- `get_adapter(account.server)`, which reads `server.kind`. -/
def getAdapter (server : Option ℕ) : Except Err ℕ :=
  match server with
  | some server => .ok server
  | none => .error (.unexpected "'NoneType' object has no attribute 'kind'")

def suspendAccount (account : Account) (forNonpayment : Bool) : Except Err Account := do
  ensure (account.status = .active)
    (serviceError "Only an active account can be suspended." "invalid_status")
  let _ ← getAdapter account.server
  return { account with
    status := .suspended, lastError := "", suspendedForNonpayment := forNonpayment }

def backupAccount (clock : ℤ) (account : Account) : Except Err Account := do
  ensure (account.server ≠ none)
    (serviceError "This account has no server assigned." "no_server_assigned")
  let _ ← getAdapter account.server
  return { account with backupRequestedAt := some clock }

def terminateAccount (account : Account) : Except Err Account := do
  ensure (account.status = .active ∨ account.status = .suspended)
    (serviceError "Only an active or suspended account can be terminated." "invalid_status")
  let _ ← getAdapter account.server
  return { account with status := .terminated, lastError := "" }

/-! ### What a run reports -/

/-- The counts of a run and what went wrong. -/
structure Result where
  cancelled : ℕ := 0
  notices : ℕ := 0
  suspended : ℕ := 0
  terminated : ℕ := 0
  backedUp : ℕ := 0
  errors : List String := []
  deriving DecidableEq, Repr

def Result.add (r r' : Result) : Result where
  cancelled := r.cancelled + r'.cancelled
  notices := r.notices + r'.notices
  suspended := r.suspended + r'.suspended
  terminated := r.terminated + r'.terminated
  backedUp := r.backedUp + r'.backedUp
  errors := r.errors ++ r'.errors

/-- One report after the other. -/
def Result.total (reports : List Result) : Result := reports.foldr Result.add {}

/-- What is noted about a failure. -/
def noteOf (unexpected : String) : Err → String
  | .service message _ _ => message
  | _ => unexpected

/-- The report about an account that failed, after so many notices. -/
def Result.failed (pk notices : ℕ) (e : Err) : Result where
  notices := notices
  errors := ["hosting " ++ toString pk ++ ": " ++ noteOf "unexpected error" e]

/-! ### Cancellations -/

/-- `_claim`: approved, and no one is carrying it out. -/
def Request.Claimable (w : World) (request : Request) : Prop :=
  request.status = .approved ∧ ∀ claimed ∈ request.claimedAt, claimed < w.clock - claimTimeout

instance (w : World) (request : Request) : Decidable (request.Claimable w) :=
  inferInstanceAs (Decidable (_ ∧ _))

/-- `_end_service`. -/
def endService (service : Service) (p : Panel) : Except Err Panel :=
  match service with
  | .hosting pk =>
    match p.accounts.get? pk with
    | none => .error (.doesNotExist "HostingAccount")
    | some account =>
      if account.status = .active ∨ account.status = .suspended then do
        let account ← terminateAccount account
        return p.putAccount pk account
      else if account.status ≠ .terminated ∧ account.status ≠ .cancelled then
        .error (serviceError ("The account is " ++ account.status.label.map Char.toLower
          ++ " and cannot be ended.") "invalid_status")
      else .ok p
  | .domain pk =>
    match p.domains.get? pk with
    | none => .error (.doesNotExist "Domain")
    | some domain =>
      if domain.status = .active ∨ domain.status = .expired then
        .ok { p with domains := p.domains.put pk { status := .cancelled, autoRenew := false } }
      else if domain.status ≠ .cancelled then
        .error (serviceError ("The domain is " ++ (domainLabel domain.status).map Char.toLower
          ++ " and cannot be ended.") "invalid_status")
      else .ok p

/-- `execute`, and what the daily job makes of its outcome. -/
def execute (w : World) (entry : ℕ × Request) (p : Panel) : Panel × Result :=
  let (pk, request) := entry
  if request.Claimable w then
    match endService request.service p with
    | .ok p =>
      let done := { request with
        status := .completed, completedAt := some w.clock, claimedAt := none, lastError := "" }
      ({ p with requests := p.requests.put pk done }, { cancelled := 1 })
    | .error e =>
      let kept := { request with
        claimedAt := none, lastError := clip 500 (noteOf "An unexpected error occurred." e) }
      ({ p with requests := p.requests.put pk kept },
        { errors := ["C" ++ zeroPad 6 pk ++ ": "
          ++ noteOf "An unexpected error occurred while ending the service." e] })
  else (p, {})

/-- An approved request whose day has come. -/
def Request.Due (w : World) (request : Request) : Prop :=
  request.status = .approved ∧ ∃ effective ∈ request.effectiveAt, effective ≤ w.now

instance (w : World) (request : Request) : Decidable (request.Due w) :=
  inferInstanceAs (Decidable (_ ∧ _))

/-- Carry out the approved requests whose day has come. -/
def runDueCancellations (w : World) (p : Panel) : Panel × List Result :=
  inTurn (execute w) (p.requests.entries.filter fun entry => entry.2.Due w) p

/-! ### The lifecycle of an unpaid account -/

/-- `(now - account.expires_at).days`. -/
def World.daysPast (w : World) (account : Account) : ℤ :=
  (w.now - account.expiresAt.getD w.now) / day

/-- An active account whose paid period has ended. -/
def Account.Lapsed (w : World) (account : Account) : Prop :=
  account.status = .active ∧ (∃ expires ∈ account.expiresAt, expires ≤ w.now)
    ∧ account.billingCycle ≠ ""

instance (w : World) (account : Account) : Decidable (account.Lapsed w) :=
  inferInstanceAs (Decidable (_ ∧ _))

/-- The final notice for this term was sent. -/
def Panel.noticed (p : Panel) (pk : ℕ) (account : Account) : Bool :=
  account.expiresAt.any fun expires => (pk, expires) ∈ p.notices

/-- `_send_grace_notice`: once for each term. -/
def sendGraceNotice (pk : ℕ) (account : Account) (p : Panel) : Panel × ℕ :=
  if p.noticed pk account then (p, 0)
  else
    let sent := account.expiresAt.toList.map fun expires => (pk, expires)
    ({ p with notices := p.notices ++ sent }, 1)

/-- An account that stayed unpaid so many days, and that no payment awaits. -/
def World.unpaid (w : World) (days pk : ℕ) (account : Account) : Bool :=
  days ≤ w.daysPast account && !w.awaiting pk

/-- The final notice of one lapsed account. -/
def notice (dryRun : Bool) (w : World) (pk : ℕ) (account : Account) (p : Panel) : Panel × ℕ :=
  if w.unpaid w.settings.graceAfterDays pk account then
    if dryRun then (p, if p.noticed pk account then 0 else 1) else sendGraceNotice pk account p
  else (p, 0)

/-- One lapsed account. -/
def lapse (dryRun : Bool) (w : World) (entry : ℕ × Account) (p : Panel) : Panel × Result :=
  let (pk, account) := entry
  let (p, notices) := notice dryRun w pk account p
  if w.settings.autoSuspend && w.unpaid w.settings.suspendAfterDays pk account then
    if dryRun then (p, { notices, suspended := 1 })
    else
      match suspendAccount account true with
      | .ok account => (p.putAccount pk account, { notices, suspended := 1 })
      | .error e => (p, .failed pk notices e)
  else (p, { notices })

/-- An account suspended for non-payment that stayed so. -/
def Account.Stale (w : World) (account : Account) : Prop :=
  account.status = .suspended ∧ account.suspendedForNonpayment = true
    ∧ ∃ expires ∈ account.expiresAt, expires ≤ w.now - w.settings.terminateAfterDays * day

instance (w : World) (account : Account) : Decidable (account.Stale w) :=
  inferInstanceAs (Decidable (_ ∧ _))

/-- A backup comes first. -/
def World.backsUp (w : World) (account : Account) : Bool :=
  w.settings.backupBeforeTerminate && account.backupRequestedAt.isNone

/-- One account that stayed suspended: a backup first, and its end on a later run. -/
def finish (dryRun : Bool) (w : World) (entry : ℕ × Account) (p : Panel) : Panel × Result :=
  let (pk, account) := entry
  if w.backsUp account then
    if dryRun then (p, { backedUp := 1 })
    else
      match backupAccount w.clock account with
      | .ok account => (p.putAccount pk account, { backedUp := 1 })
      | .error e => (p, .failed pk 0 e)
  else if dryRun then (p, { terminated := 1 })
  else
    match terminateAccount account with
    | .ok account => (p.putAccount pk account, { terminated := 1 })
    | .error e => (p, .failed pk 0 e)

/-- `run_lifecycle`. -/
def runLifecycle (dryRun : Bool) (w : World) (p : Panel) : Panel × Result :=
  let (p, cancelled) := if dryRun then (p, []) else runDueCancellations w p
  let (p, lapsed) :=
    inTurn (lapse dryRun w) (p.accounts.entries.filter fun entry => entry.2.Lapsed w) p
  let (p, stale) := if w.settings.autoTerminate then
      inTurn (finish dryRun w) (p.accounts.entries.filter fun entry => entry.2.Stale w) p
    else (p, [])
  (p, .total (cancelled ++ lapsed ++ stale))


/-- The dry run changes nothing and counts what the sweep counts. -/
structure Agrees (w : World) (p : Panel) : Prop where
  unchanged : (runLifecycle true w p).1 = p
  notices : (runLifecycle true w p).2.notices = (runLifecycle false w p).2.notices
  suspended : (runLifecycle true w p).2.suspended = (runLifecycle false w p).2.suspended
  backedUp : (runLifecycle true w p).2.backedUp = (runLifecycle false w p).2.backedUp
  terminated : (runLifecycle true w p).2.terminated = (runLifecycle false w p).2.terminated

/-! ### What a sweep comes upon -/

/-- An account that can be ended. -/
def Account.endable (account : Account) : Bool :=
  (account.status = .active ∨ account.status = .suspended) && account.server.isSome

/-- No one is carrying the request out, and it is about this account. -/
def Request.aims (w : World) (pk : ℕ) (request : Request) : Bool :=
  request.Claimable w ∧ request.service = .hosting pk

/-- The account is ended by a cancellation that is due. -/
def Panel.ends (w : World) (p : Panel) (pk : ℕ) (account : Account) : Bool :=
  account.endable && (p.requests.entries.filter fun entry => entry.2.Due w).any fun entry =>
    entry.2.aims w pk

/-- A final notice is to be sent. -/
def noticeDue (w : World) (p : Panel) (pk : ℕ) (account : Account) : Bool :=
  account.Lapsed w && (w.unpaid w.settings.graceAfterDays pk account && !p.noticed pk account)

/-- The account is to be suspended. -/
def suspendDue (w : World) (pk : ℕ) (account : Account) : Bool :=
  account.Lapsed w && (w.settings.autoSuspend && w.unpaid w.settings.suspendAfterDays pk account)

/-- The account has stayed suspended long enough to be ended. -/
def endDue (w : World) (account : Account) : Bool := w.settings.autoTerminate && account.Stale w

/-- The account is to be suspended, and by then long enough unpaid to be ended. -/
def joins (w : World) (pk : ℕ) (account : Account) : Bool :=
  suspendDue w pk account && (w.settings.autoTerminate && account.expiresAt.any fun expires =>
    expires ≤ w.now - w.settings.terminateAfterDays * day)

/-- The account can still be worked on when the sweep comes to it. -/
def Panel.stays (w : World) (p : Panel) (pk : ℕ) (account : Account) : Bool :=
  account.server.isSome && !p.ends w pk account

/-- Nothing the sweep does changes what it goes on to look at: no account it would warn or suspend
    is ended first, or has no server; and of the accounts to be backed up, and of those to be ended,
    as many join by being suspended as drop out. -/
structure Foreseen (w : World) (p : Panel) : Prop where
  notices : ∀ pk account, p.accounts.get? pk = some account → noticeDue w p pk account = true →
    p.ends w pk account = false
  suspended : ∀ pk account, p.accounts.get? pk = some account → suspendDue w pk account = true →
    p.stays w pk account = true
  /-- Those that are backed up first, and those that are not. -/
  ended : ∀ first : Bool, p.accounts.tally (fun pk account =>
      (endDue w account && (w.backsUp account == first)) && !p.stays w pk account)
    = p.accounts.tally fun pk account =>
      joins w pk account && ((w.backsUp account == first) && p.stays w pk account)

/-! ### Counting reports -/

theorem total_append (rs rs' : List Result) (f : Result → ℕ)
    (hf : ∀ r r', f (r.add r') = f r + f r') (hzero : f {} = 0) :
    f (.total (rs ++ rs')) = f (.total rs) + f (.total rs') := by
  induction rs with
  | nil => simp [Result.total, hzero]
  | cons r rest ih =>
    show f (r.add (.total (rest ++ rs'))) = f (r.add (.total rest)) + _
    rw [hf, hf, ih, Nat.add_assoc]

/-- Reports that count one for the rows a test picks. -/
theorem total_filter {keep : ℕ × Account → Bool} {report : ℕ × Account → Result}
    {test : ℕ → Account → Bool} (f : Result → ℕ) (hf : ∀ r r', f (r.add r') = f r + f r')
    (hzero : f {} = 0)
    (hreport : ∀ entry, keep entry = true →
      f (report entry) = if test entry.1 entry.2 then 1 else 0) (t : Table Account) :
    f (.total ((t.entries.filter keep).map report))
      = t.tally fun pk account => keep (pk, account) && test pk account := by
  unfold Table.tally
  induction t.entries with
  | nil => exact hzero
  | cons entry rest ih =>
    rw [List.countP_cons, ← ih]
    cases hkeep : keep entry with
    | false => simp [hkeep]
    | true =>
      rw [List.filter_cons, if_pos hkeep, List.map_cons]
      show f ((report entry).add (.total _)) = _
      rw [hf, hreport entry hkeep, Nat.add_comm]
      simp [hkeep]

/-! ### The cancellations of a sweep -/

/-- What is left of an account that was ended. -/
def Account.ended (account : Account) : Account :=
  { account with status := .terminated, lastError := "" }

section

variable {w : World} {p p' : Panel}

/-- An account is ended where it can be. -/
theorem terminateAccount_of_endable {account : Account} (h : account.endable = true) :
    terminateAccount account = .ok account.ended := by
  unfold Account.endable at h
  rw [Bool.and_eq_true, decide_eq_true_eq, Option.isSome_iff_exists] at h
  obtain ⟨hlive, server, hserver⟩ := h
  simp [terminateAccount, ensure, hlive, getAdapter, hserver, Account.ended, pure, Except.pure]

theorem endable_of_terminateAccount {account account' : Account}
    (h : terminateAccount account = .ok account') : account.endable = true := by
  unfold terminateAccount at h
  simp only [bind_eq_ok, ensure_eq_ok, exists_and_left, exists_const] at h
  obtain ⟨hlive, _, hadapter, _⟩ := h
  unfold Account.endable
  cases hserver : account.server with
  | none =>
    rw [hserver] at hadapter
    cases hadapter
  | some server => simp [hlive]

/-- The accounts, where those that a test picks and that can be have ended. -/
structure EndedWhere (pick : ℕ → Bool) (p p' : Panel) : Prop where
  accounts : ∀ q, p'.accounts.get? q = (p.accounts.get? q).map fun account =>
    if (account.endable && pick q) = true then account.ended else account
  nextPk : p'.accounts.nextPk = p.accounts.nextPk
  notices : p'.notices = p.notices

/-- Nothing that can be ended is picked. -/
theorem EndedWhere.of_same {pick : ℕ → Bool}
    (hpick : ∀ q account, p.accounts.get? q = some account → account.endable = true →
      pick q = false)
    (haccounts : p'.accounts = p.accounts) (hnotices : p'.notices = p.notices) :
    EndedWhere pick p p' := by
  refine ⟨fun q => ?_, by rw [haccounts], hnotices⟩
  rw [haccounts]
  cases hget : p.accounts.get? q with
  | none => rfl
  | some account =>
    rw [Option.map_some, if_neg]
    rw [Bool.and_eq_true]
    rintro ⟨hendable, hpicked⟩
    rw [hpick q account hget hendable] at hpicked
    cases hpicked

theorem endService_ok {service : Service} (h : endService service p = .ok p') :
    EndedWhere (fun q => service = .hosting q) p p' := by
  cases service with
  | domain pk =>
    -- the end of a domain is no account's
    have hsame : p'.accounts = p.accounts ∧ p'.notices = p.notices := by
      unfold endService at h
      dsimp only at h
      cases hget : p.domains.get? pk with
      | none =>
        rw [hget] at h
        cases h
      | some domain =>
        rw [hget] at h
        dsimp only at h
        split at h
        · cases h
          exact ⟨rfl, rfl⟩
        · split at h
          · cases h
          · cases h
            exact ⟨rfl, rfl⟩
    exact .of_same (fun q _ _ _ => by simp) hsame.1 hsame.2
  | hosting pk =>
    unfold endService at h
    dsimp only at h
    cases hget : p.accounts.get? pk with
    | none =>
      rw [hget] at h
      cases h
    | some account =>
      rw [hget] at h
      dsimp only at h
      split at h
      · obtain ⟨account', hend, hput⟩ := bind_eq_ok.mp h
        have hendable := endable_of_terminateAccount hend
        rw [terminateAccount_of_endable hendable] at hend
        cases hend
        cases hput
        refine ⟨fun q => ?_, Table.nextPk_put _ _ _, rfl⟩
        show (p.accounts.put pk account.ended).get? q = _
        rw [Table.get?_put hget]
        by_cases hq : q = pk
        · subst hq
          simp [hget, hendable]
        · have hne : Service.hosting pk ≠ .hosting q := fun heq => hq (by cases heq; rfl)
          rw [if_neg hq]
          cases p.accounts.get? q <;> simp [hne]
      · next hnot =>
        split at h
        · cases h
        · cases h
          refine .of_same (fun q other hother hendable => ?_) rfl rfl
          rw [decide_eq_false_iff_not]
          rintro heq
          cases heq
          cases hget.symm.trans hother
          unfold Account.endable at hendable
          simp [hnot] at hendable

theorem endService_error {service : Service} {e : Err} (h : endService service p = .error e)
    {q : ℕ} {account : Account} (hservice : service = .hosting q)
    (hget : p.accounts.get? q = some account) : account.endable = false := by
  subst hservice
  cases hendable : account.endable with
  | false => rfl
  | true =>
    have hlive : account.status = .active ∨ account.status = .suspended := by
      unfold Account.endable at hendable
      rw [Bool.and_eq_true, decide_eq_true_eq] at hendable
      exact hendable.1
    unfold endService at h
    dsimp only at h
    rw [hget] at h
    dsimp only at h
    rw [if_pos hlive, terminateAccount_of_endable hendable] at h
    cases h

/-- What carrying out one request does to the accounts. -/
theorem execute_ended (entry : ℕ × Request) :
    EndedWhere (fun q => entry.2.aims w q) p (execute w entry p).1 := by
  obtain ⟨pk, request⟩ := entry
  unfold execute Request.aims
  dsimp only
  by_cases hclaim : request.Claimable w
  · rw [if_pos hclaim]
    simp only [hclaim, true_and]
    cases hend : endService request.service p with
    | ok p' =>
      obtain ⟨haccounts, hnext, hnotices⟩ := endService_ok hend
      exact ⟨haccounts, hnext, hnotices⟩
    | error e =>
      refine .of_same (fun q account hget hendable => ?_) rfl rfl
      rw [decide_eq_false_iff_not]
      intro hservice
      rw [endService_error hend hservice hget] at hendable
      cases hendable
  · rw [if_neg hclaim]
    exact .of_same (fun q _ _ _ => by simp [hclaim]) rfl rfl

/-- What has ended can be ended no more. -/
theorem endable_ended (account : Account) : account.ended.endable = false := by
  simp [Account.endable, Account.ended]

/-- **What the cancellations of a sweep do to the accounts.**  The induction is on the requests
    still to be carried out. -/
theorem executes_ended (entries : List (ℕ × Request)) (p : Panel) :
    EndedWhere (fun q => entries.any fun entry => entry.2.aims w q) p
      (inTurn (execute w) entries p).1 := by
  induction entries generalizing p with
  | nil => exact .of_same (fun _ _ _ _ => rfl) rfl rfl
  | cons entry rest ih =>
    obtain ⟨hfirst, hnext, hnotices⟩ := execute_ended (w := w) (p := p) entry
    obtain ⟨hrest, hnext', hnotices'⟩ := ih (execute w entry p).1
    refine ⟨fun q => ?_, hnext'.trans hnext, hnotices'.trans hnotices⟩
    refine (hrest q).trans ?_
    rw [hfirst q, Option.map_map]
    refine congrArg (Option.map · _) (funext fun account => ?_)
    simp only [Function.comp_apply, List.any_cons]
    by_cases hpick : (account.endable && entry.2.aims w q) = true
    · have hboth := Bool.and_eq_true_iff.mp hpick
      rw [if_pos hpick, if_neg (by simp [endable_ended])]
      exact (if_pos (by simp [hboth])).symm
    · rw [if_neg hpick]
      refine if_congr ?_ rfl rfl
      rw [Bool.and_or_distrib_left, Bool.eq_false_iff.mpr hpick, Bool.false_or]

end

/-! ### The passes over the accounts -/

/-- What the sweep keeps about one account: its row and the notices about it. -/
def partOf (pk : ℕ) (p : Panel) : Option (Option Account) × List (ℕ × ℤ) :=
  (p.accounts.rows[pk]?, p.notices.filter fun entry => entry.1 = pk)

section

variable {w : World} {p p' : Panel}

theorem get?_of_partOf {pk : ℕ} (h : partOf pk p = partOf pk p') :
    p.accounts.get? pk = p'.accounts.get? pk := by
  have hrow := congrArg Prod.fst h
  simp only [partOf] at hrow
  unfold Table.get?
  rw [List.getD_eq_getElem?_getD, List.getD_eq_getElem?_getD, hrow]

theorem noticed_of_partOf {pk : ℕ} (h : partOf pk p = partOf pk p') (account : Account) :
    p.noticed pk account = p'.noticed pk account := by
  have hnotices := congrArg Prod.snd h
  simp only [partOf] at hnotices
  have hmem : ∀ expires, (pk, expires) ∈ p.notices ↔ (pk, expires) ∈ p'.notices := by
    intro expires
    have hfilter : (pk, expires) ∈ p.notices.filter (fun entry => entry.1 = pk)
        ↔ (pk, expires) ∈ p'.notices.filter (fun entry => entry.1 = pk) := by rw [hnotices]
    simpa using hfilter
  unfold Panel.noticed
  simp only [hmem]

/-- Writing an account is seen under its own key. -/
theorem partOf_putAccount (pk q : ℕ) (account : Account) (h : partOf q p = partOf q p') :
    partOf q (p.putAccount pk account) = partOf q (p'.putAccount pk account) := by
  obtain ⟨hrow, hnotices⟩ := Prod.mk.inj h
  refine Prod.ext ?_ hnotices
  show (p.accounts.rows.set pk (some account))[q]? = (p'.accounts.rows.set pk (some account))[q]?
  by_cases hq : pk = q
  · subst hq
    rw [List.getElem?_set_self', List.getElem?_set_self', hrow]
  · rw [List.getElem?_set_ne hq, List.getElem?_set_ne hq, hrow]

theorem partOf_putAccount_of_ne {pk q : ℕ} (hq : q ≠ pk) (account : Account) :
    partOf q (p.putAccount pk account) = partOf q p := by
  simp only [partOf, Panel.putAccount, Table.put, List.getElem?_set_ne (Ne.symm hq)]

/-- The notice of one lapsed account. -/
theorem notice_own (pk : ℕ) (account : Account) (h : partOf pk p = partOf pk p') :
    (notice false w pk account p).2 = (notice false w pk account p').2
      ∧ partOf pk (notice false w pk account p).1 = partOf pk (notice false w pk account p').1 := by
  unfold notice
  split
  · have hnoticed := noticed_of_partOf h account
    obtain ⟨hrow, hnotices⟩ := Prod.mk.inj h
    simp only [Bool.false_eq_true, if_false, sendGraceNotice]
    rw [hnoticed]
    split
    · exact ⟨rfl, h⟩
    · refine ⟨rfl, Prod.ext hrow ?_⟩
      show List.filter _ (p.notices ++ _) = List.filter _ (p'.notices ++ _)
      rw [List.filter_append, List.filter_append]
      exact congrArg (· ++ _) hnotices
  · exact ⟨rfl, h⟩

theorem notice_of_ne {pk q : ℕ} (hq : q ≠ pk) (account : Account) (p : Panel) :
    partOf q (notice false w pk account p).1 = partOf q p := by
  unfold notice
  split
  · simp only [Bool.false_eq_true, if_false, sendGraceNotice]
    split
    · rfl
    · refine Prod.ext rfl ?_
      show List.filter _ (p.notices ++ _) = List.filter _ p.notices
      rw [List.filter_append, List.append_right_eq_self, List.filter_eq_nil_iff]
      intro entry hmem
      obtain ⟨expires, _, rfl⟩ := List.mem_map.mp hmem
      simpa using Ne.symm hq
  · rfl

/-- **One lapsed account is worked on by itself.** -/
theorem lapse_ownPart (w : World) : OwnPart Prod.fst partOf (lapse false w) := by
  constructor
  · rintro ⟨pk, account⟩ p p' h
    obtain ⟨hcount, hpart⟩ := notice_own (w := w) pk account h
    unfold lapse
    dsimp only
    rw [hcount]
    split
    · simp only [Bool.false_eq_true, if_false]
      split
      · exact ⟨rfl, partOf_putAccount pk pk _ hpart⟩
      · exact ⟨rfl, hpart⟩
    · exact ⟨rfl, hpart⟩
  · rintro ⟨pk, account⟩ q p hq
    have hnotice := notice_of_ne (w := w) hq account p
    unfold lapse
    dsimp only
    split
    · simp only [Bool.false_eq_true, if_false]
      split
      · exact (partOf_putAccount_of_ne hq _).trans hnotice
      · exact hnotice
    · exact hnotice

/-- **So is one that stayed suspended.** -/
theorem finish_ownPart (w : World) : OwnPart Prod.fst partOf (finish false w) := by
  constructor
  · rintro ⟨pk, account⟩ p p' h
    unfold finish
    simp only [Bool.false_eq_true, if_false]
    split
    · split
      · exact ⟨rfl, partOf_putAccount pk pk _ h⟩
      · exact ⟨rfl, h⟩
    · split
      · exact ⟨rfl, partOf_putAccount pk pk _ h⟩
      · exact ⟨rfl, h⟩
  · rintro ⟨pk, account⟩ q p hq
    unfold finish
    simp only [Bool.false_eq_true, if_false]
    split
    · split
      · exact partOf_putAccount_of_ne hq _
      · rfl
    · split
      · exact partOf_putAccount_of_ne hq _
      · rfl

end

/-! ### A dry run -/

section

variable {w : World} {p : Panel}

theorem lapse_dry (entry : ℕ × Account) (p : Panel) : (lapse true w entry p).1 = p := by
  unfold lapse notice
  simp only [if_true]
  split <;> split <;> rfl

theorem finish_dry (entry : ℕ × Account) (p : Panel) : (finish true w entry p).1 = p := by
  unfold finish
  simp only [if_true]
  split <;> rfl

/-- A pass that writes nothing reports what each item reports of the state it began in. -/
theorem inTurn_dry {step : ℕ × Account → Panel → Panel × Result}
    (hstep : ∀ entry p, (step entry p).1 = p) (entries : List (ℕ × Account)) (p : Panel) :
    inTurn step entries p = (p, entries.map fun entry => (step entry p).2) := by
  induction entries with
  | nil => rfl
  | cons entry rest ih =>
    simp only [inTurn, hstep, ih, List.map_cons]

/-- What a dry run does. -/
theorem runLifecycle_dry (w : World) (p : Panel) :
    runLifecycle true w p = (p, .total
      (((p.accounts.entries.filter fun entry => entry.2.Lapsed w).map
          fun entry => (lapse true w entry p).2)
        ++ if w.settings.autoTerminate = true then
            (p.accounts.entries.filter fun entry => entry.2.Stale w).map
              fun entry => (finish true w entry p).2
          else [])) := by
  unfold runLifecycle
  simp only [if_true, inTurn_dry lapse_dry, inTurn_dry finish_dry, List.nil_append]
  split <;> rfl

end

/-! ### The reports -/

/-- A count of a report that adds up, and that cancellations leave alone. -/
structure Counts (f : Result → ℕ) : Prop where
  add : ∀ r r', f (r.add r') = f r + f r'
  zero : f {} = 0
  execute : ∀ w entry p, f (Lifecycle.execute w entry p).2 = 0

private theorem execute_report {f : Result → ℕ} (hzero : f {} = 0)
    (hdone : f { cancelled := 1 } = 0) (hfailed : ∀ errors, f { errors := errors } = 0) (w : World)
    (entry : ℕ × Request) (p : Panel) : f (execute w entry p).2 = 0 := by
  unfold execute
  dsimp only
  split
  · split
    · exact hdone
    · exact hfailed _
  · exact hzero

theorem counts_notices : Counts Result.notices :=
  ⟨fun _ _ => rfl, rfl, execute_report rfl rfl fun _ => rfl⟩

theorem counts_suspended : Counts Result.suspended :=
  ⟨fun _ _ => rfl, rfl, execute_report rfl rfl fun _ => rfl⟩

theorem counts_backedUp : Counts Result.backedUp :=
  ⟨fun _ _ => rfl, rfl, execute_report rfl rfl fun _ => rfl⟩

theorem counts_terminated : Counts Result.terminated :=
  ⟨fun _ _ => rfl, rfl, execute_report rfl rfl fun _ => rfl⟩

section

variable {w : World} {p : Panel} {f : Result → ℕ}

theorem Counts.append (hf : Counts f) (rs rs' : List Result) :
    f (.total (rs ++ rs')) = f (.total rs) + f (.total rs') :=
  total_append rs rs' f hf.add hf.zero

/-- Cancellations count for nothing here. -/
theorem Counts.executes (hf : Counts f) (entries : List (ℕ × Request)) (p : Panel) :
    f (.total (inTurn (Lifecycle.execute w) entries p).2) = 0 := by
  induction entries generalizing p with
  | nil => exact hf.zero
  | cons entry rest ih =>
    show f ((Lifecycle.execute w entry p).2.add
      (.total (inTurn (Lifecycle.execute w) rest _).2)) = 0
    rw [hf.add, hf.execute, ih]

theorem notice_count (dryRun : Bool) (pk : ℕ) (account : Account) :
    (notice dryRun w pk account p).2
      = if w.unpaid w.settings.graceAfterDays pk account && !p.noticed pk account
        then 1 else 0 := by
  unfold notice sendGraceNotice
  cases w.unpaid w.settings.graceAfterDays pk account <;> cases dryRun <;>
    cases p.noticed pk account <;> rfl

theorem lapse_notices (dryRun : Bool) (entry : ℕ × Account) :
    (lapse dryRun w entry p).2.notices
      = if w.unpaid w.settings.graceAfterDays entry.1 entry.2 && !p.noticed entry.1 entry.2
        then 1 else 0 := by
  rw [← notice_count dryRun]
  unfold lapse
  dsimp only
  split
  · split
    · rfl
    · split <;> rfl
  · rfl

theorem suspendAccount_active {account : Account} (h : account.status = .active) :
    suspendAccount account true = if account.server.isSome = true
      then .ok { account with
        status := .suspended, lastError := "", suspendedForNonpayment := true }
      else .error (.unexpected "'NoneType' object has no attribute 'kind'") := by
  unfold suspendAccount getAdapter
  rw [ensure, if_pos h, ok_bind]
  cases account.server <;> rfl

/-- What is suspended, of the accounts that are active. -/
theorem lapse_suspended (dryRun : Bool) (entry : ℕ × Account) (h : entry.2.status = .active) :
    (lapse dryRun w entry p).2.suspended
      = if (w.settings.autoSuspend && w.unpaid w.settings.suspendAfterDays entry.1 entry.2)
          && (dryRun || entry.2.server.isSome) then 1 else 0 := by
  unfold lapse
  dsimp only
  rw [suspendAccount_active h]
  split
  · next hdue =>
    rw [hdue]
    cases dryRun <;> cases entry.2.server <;> rfl
  · next hdue =>
    rw [Bool.eq_false_iff.mpr hdue]
    rfl

theorem lapse_backedUp (dryRun : Bool) (entry : ℕ × Account) :
    (lapse dryRun w entry p).2.backedUp = 0 ∧ (lapse dryRun w entry p).2.terminated = 0 := by
  unfold lapse
  dsimp only
  split
  · split
    · exact ⟨rfl, rfl⟩
    · split <;> exact ⟨rfl, rfl⟩
  · exact ⟨rfl, rfl⟩

theorem finish_notices (dryRun : Bool) (entry : ℕ × Account) :
    (finish dryRun w entry p).2.notices = 0 ∧ (finish dryRun w entry p).2.suspended = 0 := by
  unfold finish
  dsimp only
  split
  · split
    · exact ⟨rfl, rfl⟩
    · split <;> exact ⟨rfl, rfl⟩
  · split
    · exact ⟨rfl, rfl⟩
    · split <;> exact ⟨rfl, rfl⟩

theorem backupAccount_eq (clock : ℤ) (account : Account) :
    (∃ account', backupAccount clock account = .ok account') ↔ account.server.isSome = true := by
  unfold backupAccount getAdapter
  cases account.server <;> simp [bind_eq_ok]

/-- What is backed up. -/
theorem finish_backedUp (dryRun : Bool) (entry : ℕ × Account) :
    (finish dryRun w entry p).2.backedUp
      = if w.backsUp entry.2 && (dryRun || entry.2.server.isSome) then 1 else 0 := by
  have hok := backupAccount_eq w.clock entry.2
  unfold finish
  dsimp only
  cases w.backsUp entry.2 with
  | false =>
    cases dryRun with
    | true => rfl
    | false =>
      simp only [Bool.false_eq_true, if_false]
      split <;> rfl
  | true =>
    cases dryRun with
    | true => rfl
    | false =>
      simp only [Bool.false_eq_true, if_true, if_false, Bool.true_and, Bool.false_or]
      cases hrun : backupAccount w.clock entry.2 with
      | ok account' => rw [if_pos (hok.mp ⟨account', hrun⟩)]
      | error e =>
        rw [if_neg]
        · rfl
        · intro hserver
          obtain ⟨account', hrun'⟩ := hok.mpr hserver
          rw [hrun] at hrun'
          cases hrun'

/-- What is ended, of the accounts that are suspended. -/
theorem finish_terminated (dryRun : Bool) (entry : ℕ × Account) (h : entry.2.status = .suspended) :
    (finish dryRun w entry p).2.terminated
      = if !w.backsUp entry.2 && (dryRun || entry.2.server.isSome) then 1 else 0 := by
  have hend : entry.2.endable = entry.2.server.isSome := by simp [Account.endable, h]
  unfold finish
  dsimp only
  cases w.backsUp entry.2 with
  | true =>
    cases dryRun with
    | true => rfl
    | false =>
      simp only [Bool.false_eq_true, if_true, if_false]
      split <;> rfl
  | false =>
    cases dryRun with
    | true => rfl
    | false =>
      simp only [Bool.false_eq_true, if_false, Bool.not_false, Bool.true_and, Bool.false_or]
      rw [← hend]
      cases hrun : terminateAccount entry.2 with
      | ok account' => rw [if_pos (endable_of_terminateAccount hrun)]
      | error e =>
        rw [if_neg]
        · rfl
        · intro hendable
          rw [terminateAccount_of_endable hendable] at hrun
          cases hrun

end

/-! ### The accounts on the way -/

/-- What is left of an account that was suspended. -/
def Account.suspendedNow (account : Account) : Account :=
  { account with status := .suspended, lastError := "", suspendedForNonpayment := true }

section

variable {w : World} {p : Panel}

theorem keys_nodup (keep : ℕ × Account → Bool) (t : Table Account) :
    ((t.entries.filter keep).map Prod.fst).Nodup :=
  t.nodup_keys_entries.sublist (List.filter_sublist.map Prod.fst)

theorem notice_accounts (pk : ℕ) (account : Account) (p : Panel) :
    (notice false w pk account p).1.accounts = p.accounts := by
  unfold notice sendGraceNotice
  split
  · simp only [Bool.false_eq_true, if_false]
    split <;> rfl
  · rfl

theorem lapse_nextPk (entry : ℕ × Account) (p : Panel) :
    (lapse false w entry p).1.accounts.nextPk = p.accounts.nextPk := by
  unfold lapse
  simp only [Bool.false_eq_true, if_false]
  split
  · split
    · rw [Panel.putAccount, Table.nextPk_put, notice_accounts]
    · rw [notice_accounts]
  · rw [notice_accounts]

/-- **The accounts after the lapsed ones were gone through**: those that could be suspended
    are. -/
theorem lapses_get? (q : ℕ) :
    (inTurn (lapse false w) (p.accounts.entries.filter fun entry => entry.2.Lapsed w)
        p).1.accounts.get? q
      = (p.accounts.get? q).map fun account =>
        if (suspendDue w q account && account.server.isSome) = true then account.suspendedNow
        else account := by
  have hnodup := keys_nodup (fun entry => decide (entry.2.Lapsed w)) p.accounts
  -- an account that has not lapsed is left alone
  have hleft : (∀ account, p.accounts.get? q = some account → ¬account.Lapsed w) →
      (inTurn (lapse false w) (p.accounts.entries.filter fun entry => entry.2.Lapsed w)
        p).1.accounts.get? q = p.accounts.get? q := by
    intro hnot
    apply get?_of_partOf
    refine view_inTurn_of_not_mem (lapse_ownPart w) _ p fun entry hmem hkey => ?_
    simp only [List.mem_filter, decide_eq_true_eq] at hmem
    exact hnot entry.2 (hkey ▸ Table.mem_entries.mp hmem.1) hmem.2
  cases hget : p.accounts.get? q with
  | none =>
    rw [hleft fun account h => absurd (hget.symm.trans h) (by simp), hget]
    rfl
  | some account =>
    rw [Option.map_some]
    by_cases hlapsed : account.Lapsed w
    · have hmem : (q, account) ∈ p.accounts.entries.filter fun entry => entry.2.Lapsed w := by
        simp only [List.mem_filter, decide_eq_true_eq]
        exact ⟨Table.mem_entries.mpr hget, hlapsed⟩
      have hpart := get?_of_partOf (view_inTurn_of_mem (lapse_ownPart w) _ hnodup hmem p)
      refine hpart.trans ?_
      show (lapse false w (q, account) p).1.accounts.get? q = _
      unfold lapse suspendDue
      rw [decide_eq_true hlapsed, Bool.true_and]
      simp only [Bool.false_eq_true, if_false]
      rw [suspendAccount_active hlapsed.1]
      split
      · next hdue =>
        rw [hdue, Bool.true_and]
        cases account.server.isSome with
        | false =>
          show (notice false w q account p).1.accounts.get? q = _
          rw [notice_accounts, hget]
          rfl
        | true =>
          show ((notice false w q account p).1.accounts.put q account.suspendedNow).get? q = _
          rw [notice_accounts, Table.get?_put_self hget]
          rfl
      · next hdue =>
        rw [Bool.eq_false_iff.mpr hdue, Bool.false_and, notice_accounts, hget]
        rfl
    · rw [hleft fun other h => by cases hget.symm.trans h; exact hlapsed, hget]
      rw [if_neg]
      unfold suspendDue
      rw [decide_eq_false hlapsed, Bool.false_and, Bool.false_and]
      exact Bool.false_ne_true

theorem lapses_nextPk (entries : List (ℕ × Account)) (p : Panel) :
    (inTurn (lapse false w) entries p).1.accounts.nextPk = p.accounts.nextPk :=
  inTurn_invariant (P := fun p' => p'.accounts.nextPk = p.accounts.nextPk)
    (fun entry p' h => (lapse_nextPk entry p').trans h) entries p rfl

end

/-! ### Both runs, count by count -/

section

variable {w : World} {p : Panel} {f : Result → ℕ}

/-- The state after the cancellations. -/
def afterCancellations (w : World) (p : Panel) : Panel := (runDueCancellations w p).1

/-- The state after the lapsed accounts. -/
def afterLapses (w : World) (p : Panel) : Panel :=
  let p := afterCancellations w p
  (inTurn (lapse false w) (p.accounts.entries.filter fun entry => entry.2.Lapsed w) p).1

theorem afterCancellations_ended (w : World) (p : Panel) :
    (∀ q, (afterCancellations w p).accounts.get? q = (p.accounts.get? q).map fun account =>
        if p.ends w q account = true then account.ended else account)
      ∧ (afterCancellations w p).accounts.nextPk = p.accounts.nextPk
      ∧ (afterCancellations w p).notices = p.notices := by
  obtain ⟨haccounts, hnext, hnotices⟩ := executes_ended (w := w)
    (p.requests.entries.filter fun entry => entry.2.Due w) p
  exact ⟨haccounts, hnext, hnotices⟩

/-- What the sweep counts. -/
theorem runLifecycle_real (hf : Counts f) :
    f (runLifecycle false w p).2
      = f (.total (((afterCancellations w p).accounts.entries.filter fun entry =>
            entry.2.Lapsed w).map fun entry => (lapse false w entry (afterCancellations w p)).2))
        + if w.settings.autoTerminate = true then
            f (.total (((afterLapses w p).accounts.entries.filter fun entry =>
              entry.2.Stale w).map fun entry => (finish false w entry (afterLapses w p)).2))
          else 0 := by
  unfold runLifecycle
  simp only [Bool.false_eq_true, if_false]
  rw [hf.append, hf.append]
  have hcancelled : f (.total (runDueCancellations w p).2) = 0 := hf.executes _ p
  have hlapses := inTurn_reports (lapse_ownPart w) _
    (keys_nodup (fun entry => decide (entry.2.Lapsed w)) (afterCancellations w p).accounts)
    (afterCancellations w p)
  have hfinishes := inTurn_reports (finish_ownPart w) _
    (keys_nodup (fun entry => decide (entry.2.Stale w)) (afterLapses w p).accounts)
    (afterLapses w p)
  rw [hcancelled, Nat.zero_add]
  refine congrArg₂ (· + ·) ?_ ?_
  · exact congrArg (fun rs => f (.total rs)) hlapses
  · split
    · exact congrArg (fun rs => f (.total rs)) hfinishes
    · exact hf.zero

end

section

variable {w : World} {p : Panel} {f : Result → ℕ}

/-- What a dry run counts. -/
theorem runLifecycle_dry_count (hf : Counts f) :
    f (runLifecycle true w p).2
      = f (.total ((p.accounts.entries.filter fun entry => entry.2.Lapsed w).map
          fun entry => (lapse true w entry p).2))
        + if w.settings.autoTerminate = true then
            f (.total ((p.accounts.entries.filter fun entry => entry.2.Stale w).map
              fun entry => (finish true w entry p).2))
          else 0 := by
  rw [runLifecycle_dry, hf.append]
  congr 1
  split
  · rfl
  · exact hf.zero

/-- The counts of the lapsed accounts. -/
theorem count_lapses (hf : Counts f) (dryRun : Bool) (test : ℕ → Account → Bool) (p : Panel)
    (hlapse : ∀ entry, entry.2.status = .active →
      f (lapse dryRun w entry p).2 = if test entry.1 entry.2 then 1 else 0) :
    f (.total ((p.accounts.entries.filter fun entry => entry.2.Lapsed w).map
        fun entry => (lapse dryRun w entry p).2))
      = p.accounts.tally fun pk account => account.Lapsed w && test pk account :=
  total_filter f hf.add hf.zero
    (fun entry hkeep => hlapse entry (of_decide_eq_true hkeep).1) p.accounts

/-- The counts of those that stayed suspended. -/
theorem count_finishes (hf : Counts f) (dryRun : Bool) (test : ℕ → Account → Bool) (p : Panel)
    (hfinish : ∀ entry, entry.2.status = .suspended →
      f (finish dryRun w entry p).2 = if test entry.1 entry.2 then 1 else 0) :
    (if w.settings.autoTerminate = true then
        f (.total ((p.accounts.entries.filter fun entry => entry.2.Stale w).map
          fun entry => (finish dryRun w entry p).2))
      else 0)
      = p.accounts.tally fun pk account => endDue w account && test pk account := by
  unfold endDue
  split
  · next hauto =>
    rw [hauto]
    simp only [Bool.true_and]
    exact total_filter f hf.add hf.zero
      (fun entry hkeep => hfinish entry (of_decide_eq_true hkeep).1) p.accounts
  · next hauto =>
    rw [Bool.eq_false_iff.mpr hauto]
    simp only [Bool.false_and]
    exact (Table.tally_eq_zero.mpr fun _ _ _ => rfl).symm

/-- Nothing is picked where the test never holds. -/
theorem tally_never (test : ℕ → Account → Bool) (t : Table Account) :
    t.tally (fun pk account => test pk account && (fun _ _ => false) pk account) = 0 :=
  Table.tally_eq_zero.mpr fun _ _ _ => Bool.and_false _

/-! ### The notices -/

theorem dry_notices : (runLifecycle true w p).2.notices = p.accounts.tally (noticeDue w p) := by
  rw [runLifecycle_dry_count counts_notices,
    count_lapses counts_notices true (fun pk account =>
      w.unpaid w.settings.graceAfterDays pk account && !p.noticed pk account) p
      fun entry _ => lapse_notices true entry,
    count_finishes counts_notices true (fun _ _ => false) p
      fun entry _ => (finish_notices true entry).1, tally_never]
  rfl

theorem real_notices : (runLifecycle false w p).2.notices
    = p.accounts.tally fun pk account => noticeDue w p pk account && !p.ends w pk account := by
  obtain ⟨haccounts, hnext, hnotices⟩ := afterCancellations_ended w p
  rw [runLifecycle_real counts_notices,
    count_lapses counts_notices false (fun pk account =>
      w.unpaid w.settings.graceAfterDays pk account && !p.noticed pk account) _
      fun entry _ => ?_,
    count_finishes counts_notices false (fun _ _ => false) _
      fun entry _ => (finish_notices false entry).1, tally_never, Nat.add_zero]
  · refine Table.tally_congr hnext fun pk => ?_
    rw [haccounts pk]
    cases p.accounts.get? pk with
    | none => rfl
    | some account =>
      simp only [Option.map_some, Option.any_some]
      split
      · next hends => simp [Account.Lapsed, Account.ended, hends]
      · next hends => simp [noticeDue, hends]
  · have hsame : p.noticed entry.1 entry.2
        = (afterCancellations w p).noticed entry.1 entry.2 := by
      unfold Panel.noticed
      rw [hnotices]
    rw [hsame]
    exact lapse_notices false entry

/-! ### The suspensions -/

theorem dry_suspended : (runLifecycle true w p).2.suspended
    = p.accounts.tally (suspendDue w) := by
  rw [runLifecycle_dry_count counts_suspended,
    count_lapses counts_suspended true (fun pk account =>
      w.settings.autoSuspend && w.unpaid w.settings.suspendAfterDays pk account) p
      fun entry hactive => ?_,
    count_finishes counts_suspended true (fun _ _ => false) p
      fun entry _ => (finish_notices true entry).2, tally_never]
  · rfl
  · rw [lapse_suspended true entry hactive, Bool.true_or, Bool.and_true]

theorem real_suspended : (runLifecycle false w p).2.suspended
    = p.accounts.tally fun pk account => suspendDue w pk account && p.stays w pk account := by
  obtain ⟨haccounts, hnext, _⟩ := afterCancellations_ended w p
  rw [runLifecycle_real counts_suspended,
    count_lapses counts_suspended false (fun pk account =>
      (w.settings.autoSuspend && w.unpaid w.settings.suspendAfterDays pk account)
        && (false || account.server.isSome)) _
      fun entry hactive => lapse_suspended false entry hactive,
    count_finishes counts_suspended false (fun _ _ => false) _
      fun entry _ => (finish_notices false entry).2, tally_never, Nat.add_zero]
  refine Table.tally_congr hnext fun pk => ?_
  rw [haccounts pk]
  cases p.accounts.get? pk with
  | none => rfl
  | some account =>
    simp only [Option.map_some, Option.any_some]
    split
    · next hends => simp [Account.Lapsed, Account.ended, Panel.stays, hends]
    · next hends => simp [suspendDue, Panel.stays, hends, Bool.and_assoc]

/-! ### What stayed suspended -/

/-- An account as it is when the sweep comes to those that stayed suspended. -/
def Panel.reached (w : World) (p : Panel) (pk : ℕ) (account : Account) : Account :=
  if p.ends w pk account = true then account.ended
  else if (suspendDue w pk account && account.server.isSome) = true then account.suspendedNow
  else account

theorem afterLapses_get? (w : World) (p : Panel) (q : ℕ) :
    (afterLapses w p).accounts.get? q = (p.accounts.get? q).map (p.reached w q) := by
  obtain ⟨haccounts, _⟩ := afterCancellations_ended w p
  refine (lapses_get? q).trans ?_
  rw [haccounts q, Option.map_map]
  refine congrArg (Option.map · _) (funext fun account => ?_)
  simp only [Function.comp_apply, Panel.reached]
  split
  · rw [if_neg]
    simp [suspendDue, Account.Lapsed, Account.ended]
  · rfl

theorem afterLapses_nextPk (w : World) (p : Panel) :
    (afterLapses w p).accounts.nextPk = p.accounts.nextPk := by
  obtain ⟨_, hnext, _⟩ := afterCancellations_ended w p
  exact (lapses_nextPk _ _).trans hnext

/-- Whether it is then to be ended, or backed up first. -/
theorem reached_due (pk : ℕ) (account : Account) (first : Bool) :
    (endDue w (p.reached w pk account)
        && ((w.backsUp (p.reached w pk account) == first)
          && (p.reached w pk account).server.isSome))
      = ((endDue w account || joins w pk account)
        && ((w.backsUp account == first) && p.stays w pk account)) := by
  unfold Panel.reached
  split
  · next hends => simp [endDue, Account.Stale, Account.ended, Panel.stays, hends]
  · next hends =>
    have hstays : p.stays w pk account = account.server.isSome := by
      simp [Panel.stays, hends]
    rw [hstays]
    split
    · next hsuspends =>
      obtain ⟨hdue, hserver⟩ := Bool.and_eq_true_iff.mp hsuspends
      have hactive : account.status = .active := by
        unfold suspendDue at hdue
        rw [Bool.and_eq_true, decide_eq_true_eq] at hdue
        exact hdue.1.1
      have hstale : endDue w account = false := by
        simp [endDue, Account.Stale, hactive]
      have hjoins : endDue w account.suspendedNow = joins w pk account := by
        unfold endDue joins Account.Stale Account.suspendedNow
        rw [hdue]
        cases account.expiresAt <;> simp
      rw [hstale, hjoins, Bool.false_or]
      rfl
    · next hnot =>
      cases hserver : account.server.isSome with
      | false => simp
      | true =>
        have hdue : suspendDue w pk account = false := by simpa [hserver] using hnot
        simp [joins, hdue]

/-- Both counts of the accounts that are backed up first, or of those that are ended. -/
theorem count_ended (hf : Counts f) (first : Bool)
    (hlapse : ∀ dryRun p entry, f (lapse dryRun w entry p).2 = 0)
    (hfinish : ∀ dryRun p entry, entry.2.status = .suspended →
      f (finish dryRun w entry p).2
        = if (w.backsUp entry.2 == first) && (dryRun || entry.2.server.isSome) then 1 else 0) :
    f (runLifecycle true w p).2
        = p.accounts.tally (fun _ account => endDue w account && (w.backsUp account == first)) ∧
      f (runLifecycle false w p).2
        = p.accounts.tally fun pk account => (endDue w account || joins w pk account)
          && ((w.backsUp account == first) && p.stays w pk account) := by
  constructor
  · rw [runLifecycle_dry_count hf,
      count_lapses hf true (fun _ _ => false) p fun entry _ => hlapse true p entry, tally_never,
      count_finishes hf true (fun _ account => w.backsUp account == first) p
        fun entry h => ?_, Nat.zero_add]
    rw [hfinish true p entry h, Bool.true_or, Bool.and_true]
  · rw [runLifecycle_real hf,
      count_lapses hf false (fun _ _ => false) _ fun entry _ => hlapse false _ entry, tally_never,
      count_finishes hf false
        (fun _ account => (w.backsUp account == first) && (false || account.server.isSome)) _
        fun entry h => hfinish false _ entry h, Nat.zero_add]
    refine Table.tally_congr (afterLapses_nextPk w p) fun pk => ?_
    rw [afterLapses_get?]
    cases p.accounts.get? pk with
    | none => rfl
    | some account => exact reached_due pk account first

/-- An account that is suspended now did not stay so before. -/
theorem endDue_of_joins {pk : ℕ} {account : Account} (h : joins w pk account = true) :
    endDue w account = false := by
  unfold joins suspendDue at h
  simp only [Bool.and_eq_true, decide_eq_true_eq] at h
  simp [endDue, Account.Stale, h.1.1.1]

/-- The counts agree exactly where as many join as drop out. -/
theorem ended_iff (first : Bool) :
    p.accounts.tally (fun _ account => endDue w account && (w.backsUp account == first))
        = p.accounts.tally (fun pk account => (endDue w account || joins w pk account)
          && ((w.backsUp account == first) && p.stays w pk account))
      ↔ p.accounts.tally (fun pk account =>
          (endDue w account && (w.backsUp account == first)) && !p.stays w pk account)
        = p.accounts.tally fun pk account =>
          joins w pk account && ((w.backsUp account == first) && p.stays w pk account) := by
  have hdry := Table.tally_split
    (fun _ account => endDue w account && (w.backsUp account == first)) (p.stays w) p.accounts
  have hreal := Table.tally_split
    (fun pk account => (endDue w account || joins w pk account)
      && ((w.backsUp account == first) && p.stays w pk account))
    (fun _ account => endDue w account) p.accounts
  -- those that were due before, and are still there
  have hold : p.accounts.tally (fun pk account => ((endDue w account || joins w pk account)
        && ((w.backsUp account == first) && p.stays w pk account)) && endDue w account)
      = p.accounts.tally fun pk account =>
        (endDue w account && (w.backsUp account == first)) && p.stays w pk account := by
    congr 1
    funext pk account
    cases endDue w account <;> simp
  -- those that joined
  have hnew : p.accounts.tally (fun pk account => ((endDue w account || joins w pk account)
        && ((w.backsUp account == first) && p.stays w pk account)) && !endDue w account)
      = p.accounts.tally fun pk account =>
        joins w pk account && ((w.backsUp account == first) && p.stays w pk account) := by
    congr 1
    funext pk account
    cases hjoins : joins w pk account with
    | false => cases endDue w account <;> simp
    | true => simp [endDue_of_joins hjoins]
  omega

/-- **A dry run reports what the sweep does exactly where nothing the sweep does changes what it
    goes on to look at.** -/
theorem agrees_iff (w : World) (p : Panel) : Agrees w p ↔ Foreseen w p := by
  have hbacked := count_ended (p := p) (w := w) counts_backedUp true
    (fun dryRun p entry => (lapse_backedUp dryRun entry).1)
    (fun dryRun p entry _ => by rw [finish_backedUp, beq_true])
  have hended := count_ended (p := p) (w := w) counts_terminated false
    (fun dryRun p entry => (lapse_backedUp dryRun entry).2)
    (fun dryRun p entry h => by rw [finish_terminated dryRun entry h, beq_false])
  constructor
  · intro h
    have hnotices := h.notices
    have hsuspended := h.suspended
    have hbacked' := h.backedUp
    have hended' := h.terminated
    rw [dry_notices, real_notices] at hnotices
    rw [dry_suspended, real_suspended] at hsuspended
    rw [hbacked.1, hbacked.2] at hbacked'
    rw [hended.1, hended.2] at hended'
    refine ⟨fun pk account hget hdue => ?_, Table.tally_eq_and_iff.mp hsuspended, fun first => ?_⟩
    · have hnot := Table.tally_eq_and_iff (q := fun pk account => !p.ends w pk account)
        |>.mp hnotices pk account hget hdue
      simpa using hnot
    · cases first with
      | false => exact (ended_iff false).mp hended'
      | true => exact (ended_iff true).mp hbacked'
  · intro h
    refine ⟨by rw [runLifecycle_dry], ?_, ?_, ?_, ?_⟩
    · rw [dry_notices, real_notices]
      refine Table.tally_eq_and_iff.mpr fun pk account hget hdue => ?_
      rw [h.notices pk account hget hdue]
      rfl
    · rw [dry_suspended, real_suspended]
      exact Table.tally_eq_and_iff.mpr h.suspended
    · rw [hbacked.1, hbacked.2]
      exact (ended_iff true).mpr (h.ended true)
    · rw [hended.1, hended.2]
      exact (ended_iff false).mpr (h.ended false)

end

/-! ### An account that was forgotten for a while -/

/-- An active account whose term ended fifty days ago. -/
def fiftyDaysPast : Panel where
  accounts := Table.insert {} {
    status := .active, server := some 0, billingCycle := "monthly", expiresAt := some 0 }

/-- Staff let accounts be ended automatically. -/
def endingWorld : World where
  now := 50 * day
  clock := 50 * day
  settings := { autoTerminate := true }

/-- **It is suspended and backed up in one sweep**; the dry run foresees no backup. -/
theorem fiftyDaysPast_disagrees : ¬Agrees endingWorld fiftyDaysPast := by
  intro h
  have hbacked := h.backedUp
  revert hbacked
  decide +kernel

end WPanel.Lifecycle
