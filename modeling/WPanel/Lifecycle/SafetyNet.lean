import WPanel.Lib.Machine
import WPanel.Lifecycle.Sweep
import WPanel.Renewals.Services

namespace WPanel.Lifecycle.SafetyNet

open WPanel.Lib WPanel.Renewals

/-!
# Backups before an account is ended

With `backup_before_terminate` the daily sweep ends an account only once a backup of it was
requested, by an earlier sweep or by staff.  What is left of a request is one instant on the
account, and nothing clears it when the account is paid for again.

Every server answers.  Who may do what is left out, and so is what a term costs.

* `Hosting`, `Act` — the records and the clock, and everything that happens to accounts;
* `BackedUpFirst` — a sweep ends an account only where the backup is of the lapse it ends;
* `Timely` — no one pays for an account that was backed up, or backs one up that is paid for;
* `always_backedUpFirst` — in a run that keeps to the second the first holds of every sweep.
-/

/-- The records, and the time. -/
structure Hosting where
  clock : ℤ
  panel : Panel := {}

/-- What is done to one account. -/
inductive AccountAct where
  | suspend (forNonpayment : Bool)
  | unsuspend
  | backup
  | terminate
  | setTerm (billingCycle : String) (termStart expiresAt : ℤ)
  | startTerm (billingCycle : String) (months : ℕ)
  | renew (months : ℕ)
  | upgrade (months : ℕ)

inductive Act where
  | wait (micros : ℕ)
  /-- The daily job, which is so far behind the clock when it comes to the last accounts. -/
  | runLifecycle (settings : Settings) (awaiting : ℕ → Bool) (took : ℕ)
  /-- An account that was provisioned, or was not. -/
  | create (status : HostingStatus) (server : Option ℕ)
  /-- Cancellations are asked for, decided and withdrawn. -/
  | cancellations (requests : Table Request)
  | account (pk : ℕ) (act : AccountAct)

def unsuspendAccount (account : Account) : Except Err Account := do
  ensure (account.status = .suspended)
    (serviceError "Only a suspended account can be unsuspended." "invalid_status")
  let _ ← getAdapter account.server
  return { account with status := .active, lastError := "", suspendedForNonpayment := false }

section

-- `add_months`, where the calendar has the day
variable (addMonths : ℤ → ℕ → Option ℤ)

/-- `add_months`: there is no date past year 9999. -/
def laterBy (instant : ℤ) (months : ℕ) : Except Err ℤ :=
  match addMonths instant months with
  | some later => .ok later
  | none => .error (.unexpected "year is out of range")

/-- `set_hosting_term`. -/
def setHostingTerm (billingCycle : String) (termStart expiresAt : ℤ) (account : Account) :
    Except Err Account := do
  ensure (termStart < expiresAt)
    (.field "expires_at" "The paid-through date must be after the term start.")
  return { account with billingCycle, expiresAt := some expiresAt }

/-- `start_hosting_term`: an account that has a term keeps it. -/
def startHostingTerm (now : ℤ) (billingCycle : String) (months : ℕ) (account : Account) :
    Except Err Account :=
  if account.expiresAt = none then do
    let expires ← laterBy addMonths now months
    return { account with billingCycle, expiresAt := some expires }
  else .ok account

/-- The paid period that still runs. -/
def remaining (now : ℤ) (account : Account) : Option ℤ :=
  account.expiresAt.filter fun expires => now < expires

/-- `_apply_hosting` of a renewal: the term grows, or begins anew. -/
def applyRenewal (now : ℤ) (months : ℕ) (account : Account) : Except Err Account := do
  ensure (account.status = .active ∨ account.status = .suspended)
    (plainError ("The account is " ++ account.status.label.map Char.toLower
      ++ " and cannot be renewed."))
  let expires ← laterBy addMonths ((remaining now account).getD now) months
  return { account with expiresAt := some expires }

/-- `_apply_hosting` of an upgrade: what remains of the term stays as it is. -/
def applyUpgrade (now : ℤ) (months : ℕ) (account : Account) : Except Err Account := do
  ensure (account.status = .active)
    (plainError ("The service changed after this invoice was issued, so the upgrade was not "
      ++ "applied. Refund the invoice or issue a new upgrade."))
  if remaining now account = none then
    let expires ← laterBy addMonths now months
    return { account with expiresAt := some expires }
  else return account

def AccountAct.exec (now : ℤ) : AccountAct → Account → Except Err Account
  | .suspend forNonpayment, account => suspendAccount account forNonpayment
  | .unsuspend, account => unsuspendAccount account
  | .backup, account => backupAccount now account
  | .terminate, account => terminateAccount account
  | .setTerm billingCycle termStart expiresAt, account =>
    setHostingTerm billingCycle termStart expiresAt account
  | .startTerm billingCycle months, account =>
    startHostingTerm addMonths now billingCycle months account
  | .renew months, account => applyRenewal addMonths now months account
  | .upgrade months, account => applyUpgrade addMonths now months account

/-- What a sweep that begins now is told. -/
def Hosting.world (s : Hosting) (settings : Settings) (awaiting : ℕ → Bool) (took : ℕ) : World where
  now := s.clock
  clock := s.clock + took
  settings := settings
  awaiting := awaiting

def exec : Act → Hosting → Except Err (Hosting × List Unit)
  | .wait micros, s => .ok ({ s with clock := s.clock + micros }, [])
  | .runLifecycle settings awaiting took, s =>
    .ok (⟨s.clock + took, (runLifecycle false (s.world settings awaiting took) s.panel).1⟩, [])
  | .create status server, s =>
    let account : Account := { status, server, billingCycle := "", expiresAt := none }
    .ok ({ s with panel := { s.panel with accounts := s.panel.accounts.insert account } }, [])
  | .cancellations requests, s => .ok ({ s with panel := { s.panel with requests } }, [])
  | .account pk act, s =>
    match s.panel.accounts.get? pk with
    | none => .error (.doesNotExist "HostingAccount")
    | some account => do
      let account ← act.exec addMonths s.clock account
      return ({ s with panel := s.panel.putAccount pk account }, [])

def machine : Machine Hosting Act Unit Err := ⟨exec addMonths⟩

end

/-! ### What a sweep ends -/

/-- The last part of a sweep ends an account that it finds like this. -/
def Ends (w : World) (p : Panel) (pk : ℕ) (account : Account) : Prop :=
  account.status ≠ .terminated
    ∧ ∃ account' ∈ (runLifecycle false w p).1.accounts.get? pk, account'.status = .terminated

instance (w : World) (p : Panel) (pk : ℕ) (account : Account) : Decidable (Ends w p pk account) :=
  inferInstanceAs (Decidable (_ ∧ _))

/-- Before the sweep a backup was requested, after the paid period that lapsed had ended. -/
def BackedUp (p : Panel) (pk : ℕ) (account : Account) : Prop :=
  ∃ before ∈ p.accounts.get? pk, ∃ requested ∈ before.backupRequestedAt,
    ∃ expires ∈ account.expiresAt, expires ≤ requested

instance (p : Panel) (pk : ℕ) (account : Account) : Decidable (BackedUp p pk account) :=
  inferInstanceAs (Decidable (∃ before ∈ _, ∃ requested ∈ _, ∃ expires ∈ _, _))

/-- With `backup_before_terminate` a sweep ends only accounts that were backed up. -/
def BackedUpFirst (s : Hosting) : Act → Prop
  | .runLifecycle settings awaiting took =>
    settings.backupBeforeTerminate = true →
      (afterLapses (s.world settings awaiting took) s.panel).accounts.Forall fun pk account =>
        Ends (s.world settings awaiting took) s.panel pk account → BackedUp s.panel pk account
  | _ => True

instance (s : Hosting) (a : Act) : Decidable (BackedUpFirst s a) :=
  match a with
  | .runLifecycle _ _ _ => inferInstanceAs (Decidable (_ → Table.Forall _ _))
  | .wait _ | .create _ _ | .cancellations _ | .account _ _ => isTrue trivial

/-! ### Backups of the lapse they are for -/

/-- A backed-up account is paid for no longer than until the backup. -/
def Settled (account : Account) : Prop :=
  ∀ requested ∈ account.backupRequestedAt, ∀ expires ∈ account.expiresAt, expires ≤ requested

/-- No paid period is set to end after the backup, and no backup is taken before the paid period
    has ended. -/
def AccountAct.Timely (now : ℤ) : AccountAct → Account → Prop
  | .backup, account => ∀ expires ∈ account.expiresAt, expires ≤ now
  | .setTerm _ _ expiresAt, account =>
    ∀ requested ∈ account.backupRequestedAt, expiresAt ≤ requested
  | .startTerm _ _, account => account.expiresAt = none → account.backupRequestedAt = none
  | .renew _, account => account.backupRequestedAt = none
  | .upgrade _, account => remaining now account = none → account.backupRequestedAt = none
  | _, _ => True

instance (now : ℤ) (a : AccountAct) (account : Account) : Decidable (a.Timely now account) :=
  match a with
  | .backup => inferInstanceAs (Decidable (∀ expires ∈ account.expiresAt, expires ≤ now))
  | .setTerm _ _ expiresAt =>
    inferInstanceAs (Decidable (∀ requested ∈ account.backupRequestedAt, expiresAt ≤ requested))
  | .startTerm _ _ =>
    inferInstanceAs (Decidable (account.expiresAt = none → account.backupRequestedAt = none))
  | .renew _ => inferInstanceAs (Decidable (account.backupRequestedAt = none))
  | .upgrade _ =>
    inferInstanceAs (Decidable (remaining now account = none → account.backupRequestedAt = none))
  | .suspend _ | .unsuspend | .terminate => isTrue trivial

/-- What is done to an account is timely. -/
def Timely (s : Hosting) : Act → Prop
  | .account pk act => ∀ account ∈ s.panel.accounts.get? pk, act.Timely s.clock account
  | _ => True

instance (s : Hosting) (a : Act) : Decidable (Timely s a) :=
  match a with
  | .account pk act =>
    inferInstanceAs (Decidable (∀ account ∈ s.panel.accounts.get? pk, act.Timely s.clock account))
  | .wait _ | .runLifecycle _ _ _ | .create _ _ | .cancellations _ => isTrue trivial

/-- An account the last part of a sweep went on with was backed up, or it was ended and no backup
    was to come before. -/
def Finished (w : World) (account account' : Account) : Prop :=
  account' = { account with backupRequestedAt := some w.clock }
    ∨ w.backsUp account = false ∧ account'.backupRequestedAt = account.backupRequestedAt
      ∧ account'.expiresAt = account.expiresAt

section

variable {addMonths : ℤ → ℕ → Option ℤ} {account account' : Account} {now : ℤ} {w : World}
  {p : Panel}

theorem Settled.of_same (h : Settled account)
    (hbackup : account'.backupRequestedAt = account.backupRequestedAt)
    (hexpires : account'.expiresAt = account.expiresAt) : Settled account' := by
  unfold Settled
  rw [hbackup, hexpires]
  exact h

theorem settled_of_none (h : account.backupRequestedAt = none) : Settled account := by
  intro requested hrequested
  rw [h] at hrequested
  cases hrequested

theorem suspendAccount_same {forNonpayment : Bool}
    (h : suspendAccount account forNonpayment = .ok account') :
    account'.backupRequestedAt = account.backupRequestedAt
      ∧ account'.expiresAt = account.expiresAt := by
  simp only [suspendAccount, bind_eq_ok, pure_eq_ok] at h
  obtain ⟨_, -, _, -, rfl⟩ := h
  exact ⟨rfl, rfl⟩

theorem unsuspendAccount_same (h : unsuspendAccount account = .ok account') :
    account'.backupRequestedAt = account.backupRequestedAt
      ∧ account'.expiresAt = account.expiresAt := by
  simp only [unsuspendAccount, bind_eq_ok, pure_eq_ok] at h
  obtain ⟨_, -, _, -, rfl⟩ := h
  exact ⟨rfl, rfl⟩

theorem terminateAccount_same (h : terminateAccount account = .ok account') :
    account'.backupRequestedAt = account.backupRequestedAt
      ∧ account'.expiresAt = account.expiresAt := by
  simp only [terminateAccount, bind_eq_ok, pure_eq_ok] at h
  obtain ⟨_, -, _, -, rfl⟩ := h
  exact ⟨rfl, rfl⟩

/-- An account is backed up now, and nothing else of it changes. -/
theorem backupAccount_eq_ok (h : backupAccount now account = .ok account') :
    account' = { account with backupRequestedAt := some now } := by
  simp only [backupAccount, bind_eq_ok, pure_eq_ok] at h
  obtain ⟨_, -, _, -, rfl⟩ := h
  rfl

theorem Settled.backup (hexpires : ∀ expires ∈ account.expiresAt, expires ≤ now) :
    Settled { account with backupRequestedAt := some now } := by
  intro requested hrequested
  cases hrequested
  exact hexpires

/-- **One thing done to an account**, case by case. -/
theorem Settled.exec {a : AccountAct} (hs : Settled account) (hnow : a.Timely now account)
    (h : a.exec addMonths now account = .ok account') : Settled account' := by
  cases a with
  | suspend forNonpayment =>
    obtain ⟨hbackup, hexpires⟩ := suspendAccount_same h
    exact hs.of_same hbackup hexpires
  | unsuspend =>
    obtain ⟨hbackup, hexpires⟩ := unsuspendAccount_same h
    exact hs.of_same hbackup hexpires
  | backup =>
    cases backupAccount_eq_ok h
    exact .backup hnow
  | terminate =>
    obtain ⟨hbackup, hexpires⟩ := terminateAccount_same h
    exact hs.of_same hbackup hexpires
  | setTerm billingCycle termStart expiresAt =>
    simp only [AccountAct.exec, setHostingTerm, bind_eq_ok, pure_eq_ok] at h
    obtain ⟨_, -, rfl⟩ := h
    rintro requested hrequested _ ⟨⟩
    exact hnow requested hrequested
  | startTerm billingCycle months =>
    simp only [AccountAct.exec, startHostingTerm] at h
    split at h
    · next hnone =>
      simp only [bind_eq_ok, pure_eq_ok] at h
      obtain ⟨_, -, rfl⟩ := h
      exact settled_of_none (hnow hnone)
    · cases h
      exact hs
  | renew months =>
    simp only [AccountAct.exec, applyRenewal, bind_eq_ok, pure_eq_ok] at h
    obtain ⟨_, -, _, -, rfl⟩ := h
    exact settled_of_none hnow
  | upgrade months =>
    simp only [AccountAct.exec, applyUpgrade, bind_eq_ok] at h
    obtain ⟨_, -, h⟩ := h
    split at h
    · next hnone =>
      simp only [bind_eq_ok, pure_eq_ok] at h
      obtain ⟨_, -, rfl⟩ := h
      exact settled_of_none (hnow hnone)
    · cases h
      exact hs

/-- An account as the last part of a sweep finds it was backed up when it was before the sweep. -/
theorem reached_same (pk : ℕ) (account : Account) :
    (p.reached w pk account).backupRequestedAt = account.backupRequestedAt
      ∧ (p.reached w pk account).expiresAt = account.expiresAt := by
  unfold Panel.reached
  split
  · exact ⟨rfl, rfl⟩
  · split
    · exact ⟨rfl, rfl⟩
    · exact ⟨rfl, rfl⟩

theorem finish_get? {entry : ℕ × Account} {q : ℕ}
    (h : (finish false w entry p).1.accounts.get? q = some account') :
    p.accounts.get? q = some account' ∨ q = entry.1 ∧ Finished w entry.2 account' := by
  have hput : ∀ a : Account, (p.putAccount entry.1 a).accounts.get? q = some account' →
      p.accounts.get? q = some account' ∨ q = entry.1 ∧ account' = a := by
    intro a ha
    exact Table.Forall.put (t := p.accounts)
      (P := fun q b => p.accounts.get? q = some b ∨ q = entry.1 ∧ b = a)
      (fun _ _ hb => .inl hb) (.inr ⟨rfl, rfl⟩) q account' ha
  unfold finish at h
  simp only [Bool.false_eq_true, if_false] at h
  split at h
  · split at h
    · next hrun =>
      rcases hput _ h with hold | ⟨hq, rfl⟩
      · exact .inl hold
      · exact .inr ⟨hq, .inl (backupAccount_eq_ok hrun)⟩
    · exact .inl h
  · next hbacks =>
    split at h
    · next hrun =>
      rcases hput _ h with hold | ⟨hq, rfl⟩
      · exact .inl hold
      · exact .inr ⟨hq, .inr ⟨Bool.eq_false_iff.mpr hbacks, terminateAccount_same hrun⟩⟩
    · exact .inl h

/-- The last part of a sweep; the induction is on the accounts still to be gone through. -/
theorem finishes_get? {entries : List (ℕ × Account)} {q : ℕ}
    (h : (inTurn (finish false w) entries p).1.accounts.get? q = some account') :
    p.accounts.get? q = some account'
      ∨ ∃ entry ∈ entries, q = entry.1 ∧ Finished w entry.2 account' := by
  induction entries generalizing p with
  | nil => exact .inl h
  | cons entry rest ih =>
    rcases ih h with hold | ⟨later, hmem, hlater⟩
    · rcases finish_get? hold with hold | hnow
      · exact .inl hold
      · exact .inr ⟨entry, List.mem_cons_self, hnow⟩
    · exact .inr ⟨later, List.mem_cons_of_mem entry hmem, hlater⟩

/-- **What a sweep makes of an account.** -/
theorem runLifecycle_get? {pk : ℕ}
    (h : (runLifecycle false w p).1.accounts.get? pk = some account') :
    ∃ before, p.accounts.get? pk = some before ∧ (account' = p.reached w pk before
      ∨ (p.reached w pk before).Stale w ∧ Finished w (p.reached w pk before) account') := by
  have hsplit : (afterLapses w p).accounts.get? pk = some account'
      ∨ ∃ entry ∈ (afterLapses w p).accounts.entries.filter fun entry => entry.2.Stale w,
        pk = entry.1 ∧ Finished w entry.2 account' := by
    cases hauto : w.settings.autoTerminate with
    | false =>
      have hrun : (runLifecycle false w p).1 = afterLapses w p := by
        unfold runLifecycle
        rw [hauto]
        rfl
      exact .inl (hrun ▸ h)
    | true =>
      have hrun : (runLifecycle false w p).1 = (inTurn (finish false w)
          ((afterLapses w p).accounts.entries.filter fun entry => entry.2.Stale w)
          (afterLapses w p)).1 := by
        unfold runLifecycle
        rw [hauto]
        rfl
      exact finishes_get? (hrun ▸ h)
  rcases hsplit with hsame | ⟨⟨q, account⟩, hmem, rfl, hfinished⟩
  · rw [afterLapses_get?, Option.map_eq_some_iff] at hsame
    obtain ⟨before, hbefore, rfl⟩ := hsame
    exact ⟨before, hbefore, .inl rfl⟩
  · rw [List.mem_filter, Table.mem_entries, decide_eq_true_eq, afterLapses_get?,
      Option.map_eq_some_iff] at hmem
    obtain ⟨⟨before, hbefore, rfl⟩, hstale⟩ := hmem
    exact ⟨before, hbefore, .inr ⟨hstale, hfinished⟩⟩

/-- An account that is to be ended has not been paid for since long before now. -/
theorem expired_of_stale (h : account.Stale w) :
    ∀ expires ∈ account.expiresAt, expires ≤ w.now := by
  obtain ⟨-, -, ended, hended, hlong⟩ := h
  intro expires hexpires
  cases hended.symm.trans hexpires
  have hdays : (0 : ℤ) ≤ w.settings.terminateAfterDays * day :=
    mul_nonneg (Int.natCast_nonneg _) (by decide)
  omega

/-- **One sweep backs accounts up only after they lapsed.** -/
theorem settled_runLifecycle (hclock : w.now ≤ w.clock)
    (hs : p.accounts.Forall fun _ account => Settled account) :
    (runLifecycle false w p).1.accounts.Forall fun _ account => Settled account := by
  intro pk account' h
  obtain ⟨before, hbefore, hcases⟩ := runLifecycle_get? h
  obtain ⟨hbackup, hexpires⟩ := reached_same (w := w) (p := p) pk before
  have hreached := (hs pk before hbefore).of_same hbackup hexpires
  rcases hcases with rfl | ⟨hstale, rfl | ⟨-, hbackup', hexpires'⟩⟩
  · exact hreached
  · exact .backup fun expires hmem => (expired_of_stale hstale expires hmem).trans hclock
  · exact hreached.of_same hbackup' hexpires'

/-- **One sweep ends only accounts that were backed up** for the lapse it ends. -/
theorem backedUp_of_ends {pk : ℕ} (hfirst : w.settings.backupBeforeTerminate = true)
    (hs : p.accounts.Forall fun _ account => Settled account)
    (hget : (afterLapses w p).accounts.get? pk = some account) (h : Ends w p pk account) :
    BackedUp p pk account := by
  obtain ⟨hlive, account', hget', hended⟩ := h
  obtain ⟨before, hbefore, hcases⟩ := runLifecycle_get? hget'
  rw [afterLapses_get?, hbefore, Option.map_some] at hget
  cases hget
  obtain ⟨hbackup, hexpires⟩ := reached_same (w := w) (p := p) pk before
  rcases hcases with rfl | ⟨hstale, rfl | ⟨hbacks, -, -⟩⟩
  · exact absurd hended hlive
  · exact absurd hended hlive
  · unfold World.backsUp at hbacks
    rw [hfirst, Bool.true_and, hbackup, Option.isNone_eq_false_iff,
      Option.isSome_iff_exists] at hbacks
    obtain ⟨requested, hrequested⟩ := hbacks
    obtain ⟨-, -, expires, hmem, -⟩ := hstale
    exact ⟨before, hbefore, requested, hrequested, expires, hmem,
      hs pk before hbefore requested hrequested expires (hexpires ▸ hmem)⟩

/-- **One step of a history.** -/
theorem settled_exec {a : Act} {s s' : Hosting} {out : List Unit}
    (hs : s.panel.accounts.Forall fun _ account => Settled account)
    (h : (machine addMonths).Commits a s s' out) (htimely : Timely s a) :
    s'.panel.accounts.Forall fun _ account => Settled account := by
  unfold Machine.Commits machine at h
  cases a with
  | wait micros =>
    cases h
    exact hs
  | runLifecycle settings awaiting took =>
    cases h
    exact settled_runLifecycle (Int.le_add_of_nonneg_right (Int.natCast_nonneg took)) hs
  | create status server =>
    cases h
    exact hs.insert (settled_of_none rfl)
  | cancellations requests =>
    cases h
    exact hs
  | account pk act =>
    dsimp only [exec] at h
    cases hget : s.panel.accounts.get? pk with
    | none =>
      rw [hget] at h
      cases h
    | some account =>
      rw [hget] at h
      simp only [bind_eq_ok, pure_eq_ok, Prod.mk.injEq] at h
      obtain ⟨account', hact, rfl, -⟩ := h
      exact hs.put ((hs pk account hget).exec (htimely account hget) hact)

end

/-- Before the first account. -/
def founded (clock : ℤ) : Hosting := { clock }

/-- **Every sweep of a history ends only accounts that were backed up for the lapse it ends**, by
    an earlier sweep or by staff, where what is done to the accounts is timely. -/
theorem always_backedUpFirst (addMonths : ℤ → ℕ → Option ℤ) (clock : ℤ) (acts : List Act)
    (h : (machine addMonths).EachStep (fun s a _ => Timely s a) acts (founded clock)) :
    (machine addMonths).EachStep (fun s a _ => BackedUpFirst s a) acts (founded clock) := by
  refine Machine.eachStep_of_eachStep
    (I := fun s => s.panel.accounts.Forall fun _ account => Settled account)
    (fun _ _ _ _ hs hc htimely => settled_exec hs hc htimely) (fun a s _ _ hs _ _ => ?_) acts _
    .empty h
  cases a with
  | runLifecycle settings awaiting took =>
    exact fun hfirst pk account hget hends => backedUp_of_ends hfirst hs hget hends
  | wait micros => trivial
  | create status server => trivial
  | cancellations requests => trivial
  | account pk act => trivial

/-! ### A backup of an earlier lapse -/

/-- Months of thirty-one days. -/
def longMonths (instant : ℤ) (months : ℕ) : Option ℤ := some (instant + 31 * months * day)

def waitDays (days : ℕ) : Act := .wait (days * microsPerDay)

/-- The daily job, where staff let accounts be ended automatically. -/
def sweep : Act := .runLifecycle endingWorld.settings endingWorld.awaiting 0

/-- An account is paid for a month, and is suspended and backed up fifty days later. -/
def lapsedOnce : List Act :=
  [.create .active (some 0), .account 0 (.startTerm "monthly" 1), waitDays 81, sweep]

/-- It is renewed then, and lapses again. -/
def lapsedTwice : List Act :=
  lapsedOnce ++ [.account 0 (.renew 1), .account 0 .unsuspend, waitDays 81]

theorem always_backedUpFirst_lapsedOnce :
    (((machine longMonths).run (lapsedOnce ++ [sweep]) (founded 0)).panel.accounts.get? 0).map
        (·.status) = some .terminated
      ∧ (machine longMonths).EachStep (fun s a _ => BackedUpFirst s a) (lapsedOnce ++ [sweep])
        (founded 0) :=
  ⟨by decide +kernel, always_backedUpFirst longMonths 0 (lapsedOnce ++ [sweep])
    (Machine.eachStep_of_trace (by decide +kernel))⟩

/-- **The second time no backup comes before the end.** -/
theorem not_always_backedUpFirst :
    ¬∀ (addMonths : ℤ → ℕ → Option ℤ) (clock : ℤ) (acts : List Act),
      (machine addMonths).EachStep (fun s a _ => BackedUpFirst s a) acts (founded clock) := by
  intro h
  have hlast := (h longMonths 0 (lapsedTwice ++ [sweep])).last rfl
  exact absurd hlast (by decide +kernel)

end WPanel.Lifecycle.SafetyNet
