import WPanel.Lifecycle.EndOfTerm

namespace WPanel.Lifecycle.Pass

open WPanel.Lib WPanel.Renewals WPanel.Lifecycle.SafetyNet
open WPanel.Lifecycle.EndOfTerm (Extends exec_expiresAt)

/-!
# A sweep while customers pay

`run_lifecycle` reads the accounts that lapsed, and later those that stayed suspended, and goes
through each list on the copies it holds, one slow call after the other.  A call to the server and
the save of the row after its answer are steps of their own.  Meanwhile renewals are paid,
suspensions are lifted, and staff do what they do.  The cancellations a sweep carries out first are
in `Refunding` and `EndOfTerm`.

* `Phase`, `step` — how far a sweep has come, and what it does next;
* `passes` — sweeps with everything else that happens to accounts between their steps;
* `EndsUnpaid` — a step suspends or ends no account whose paid period still runs;
* `Undisturbed` — no account is paid for while a sweep that listed it has not done with it, which it
  has only once the row is saved;
* `always_endsUnpaid` — in a run of steps that are undisturbed the first holds of every step.
-/

/-- The records, the settings and the time. -/
structure Office where
  clock : ℤ
  settings : Settings
  panel : Panel

/-- How far a sweep has come, with the time it began and the copies still to be gone through. -/
inductive Phase where
  | begun (w : World)
  | lapsing (w : World) (queue : List (ℕ × Account))
  /-- The final notice of an account was sent, or was not due. -/
  | noticed (w : World) (entry : ℕ × Account) (queue : List (ℕ × Account))
  /-- The server was asked to suspend an account, and has not answered yet. -/
  | suspending (w : World) (entry : ℕ × Account) (queue : List (ℕ × Account))
  | ending (w : World) (queue : List (ℕ × Account))
  /-- The server was asked to back an account up, or to end it, and has not answered yet. -/
  | finishing (w : World) (entry : ℕ × Account) (queue : List (ℕ × Account))
  | closed

/-- What a step of a sweep meets: whether the sweep is killed before, whether a payment awaits
    confirmation, and what the server says where it refuses. -/
structure Advance where
  killed : Bool := false
  awaiting : Bool := false
  refusal : Option String := none

/-- `save(update_fields=…)`: the row is written, whatever the copy says of the other fields. -/
def saveAccount (pk : ℕ) (write : Account → Account) (p : Panel) : Panel :=
  match p.accounts.get? pk with
  | some row => p.putAccount pk (write row)
  | none => p

/-- The answer of the server of the account, and what is written where it agrees. -/
def answered (a : Advance) (pk : ℕ) (account : Account) (write : Account → Account) (p : Panel) :
    Panel :=
  match getAdapter account.server, a.refusal with
  | .error _, _ => p
  | .ok _, some refusal => saveAccount pk (fun row => { row with lastError := refusal }) p
  | .ok _, none => saveAccount pk write p

/-- What `suspend_account(for_nonpayment=True)` writes. -/
def suspended (row : Account) : Account :=
  { row with status := .suspended, lastError := "", suspendedForNonpayment := true }

/-- What `backup_account` writes. -/
def backedUp (clock : ℤ) (row : Account) : Account := { row with backupRequestedAt := some clock }

/-- What `terminate_account` writes. -/
def terminated (row : Account) : Account := { row with status := .terminated, lastError := "" }

/-- A payment the customer has reported may await confirmation. -/
def World.asking (w : World) (a : Advance) : World := { w with awaiting := fun _ => a.awaiting }

/-- What is saved of an account that stayed suspended, once the server has answered. -/
def finish (a : Advance) (clock : ℤ) (w : World) (pk : ℕ) (account : Account) (p : Panel) : Panel :=
  if w.backsUp account then
    -- a refusal to back up leaves no trace on the account
    if a.refusal = none then answered a pk account (backedUp clock) p else p
  else answered a pk account terminated p

/-- The next part of a sweep, up to its next query, call or save. -/
def advance (a : Advance) (s : Office) : Phase → Except Err (Office × Phase)
  | .begun w => .ok (s, .lapsing w (s.panel.accounts.entries.filter fun entry => entry.2.Lapsed w))
  | .lapsing w ((pk, account) :: rest) =>
    .ok ({ s with panel := (notice false (World.asking w a) pk account s.panel).1 },
      .noticed w (pk, account) rest)
  | .noticed w (pk, account) rest =>
    .ok (s, if w.settings.autoSuspend
        && (World.asking w a).unpaid w.settings.suspendAfterDays pk account then
      .suspending w (pk, account) rest else .lapsing w rest)
  | .suspending w (pk, account) rest =>
    .ok ({ s with panel := answered a pk account suspended s.panel }, .lapsing w rest)
  | .lapsing w [] =>
    .ok (s, if w.settings.autoTerminate then
      .ending w (s.panel.accounts.entries.filter fun entry => entry.2.Stale w) else .closed)
  | .ending w (entry :: rest) => .ok (s, .finishing w entry rest)
  | .finishing w (pk, account) rest =>
    .ok ({ s with panel := finish a s.clock w pk account s.panel }, .ending w rest)
  | .ending _ [] => .ok (s, .closed)
  | .closed => .error (.unexpected "the sweep has come to its end")

/-- The next step of a sweep, which may be killed instead. -/
def step (a : Advance) (s : Office) (t : Phase) : Except Err (Office × Phase) :=
  if a.killed then .ok (s, .closed) else advance a s t

/-- What else goes on. -/
inductive Change where
  | wait (micros : ℕ)
  | settle (settings : Settings)
  /-- An account that was provisioned, or was not. -/
  | create (status : HostingStatus) (server : Option ℕ)
  | account (pk : ℕ) (act : AccountAct)

section

-- `add_months`, where the calendar has the day
variable (addMonths : ℤ → ℕ → Option ℤ)

def change : Change → Office → Except Err Office
  | .wait micros, s => .ok { s with clock := s.clock + micros }
  | .settle settings, s => .ok { s with settings }
  | .create status server, s =>
    let account : Account := { status, server, billingCycle := "", expiresAt := none }
    .ok { s with panel := { s.panel with accounts := s.panel.accounts.insert account } }
  | .account pk act, s =>
    match s.panel.accounts.get? pk with
    | none => .error (.doesNotExist "HostingAccount")
    | some account => do
      let account ← act.exec addMonths s.clock account
      return { s with panel := s.panel.putAccount pk account }

/-- Sweeps, and everything else that happens between their steps. -/
def passes : Interleaving Office Phase Unit Advance Change Err where
  start _ s := .ok (s, .begun ⟨s.clock, s.clock, s.settings, fun _ => false⟩)
  step := step
  outside := change addMonths
  absent := .unexpected "there is no such sweep"

end

/-! ### What a step ends -/

/-- What a sweep may take from an account. -/
def standing (account : Account) : HostingStatus × Bool :=
  (account.status, account.suspendedForNonpayment)

/-- A step of a sweep suspends or ends no account whose paid period still runs. -/
def EndsUnpaid (x : System Office Phase) (turn : Turn Unit Advance Change)
    (x' : System Office Phase) : Prop :=
  match turn with
  | .step _ _ => ∀ pk row row', x.shared.panel.accounts.get? pk = some row →
      x'.shared.panel.accounts.get? pk = some row' → standing row' ≠ standing row →
        ∀ expires ∈ row.expiresAt, expires ≤ x.shared.clock
  | _ => True

/-- The copies a sweep has not done with, the one it is at first. -/
def Phase.queue : Phase → List (ℕ × Account)
  | .lapsing _ queue => queue
  | .noticed _ entry queue => entry :: queue
  | .suspending _ entry queue => entry :: queue
  | .ending _ queue => queue
  | .finishing _ entry queue => entry :: queue
  | _ => []

/-- An account is paid for only while no sweep that listed it has still to save what it does with
    it. -/
def Undisturbed (x : System Office Phase) : Turn Unit Advance Change → Prop
  | .outside (.account pk act) => ∀ row ∈ x.shared.panel.accounts.get? pk,
      Extends x.shared.clock act row →
        x.workers.Forall fun _ w => ∀ entry ∈ w.queue, entry.1 ≠ pk
  | _ => True

/-- The time a sweep began. -/
def Phase.began : Phase → Option ℤ
  | .begun w => some w.now
  | .lapsing w _ => some w.now
  | .noticed w _ _ => some w.now
  | .suspending w _ _ => some w.now
  | .ending w _ => some w.now
  | .finishing w _ _ => some w.now
  | .closed => none

/-- No account that a sweep has not done with is paid for. -/
structure Waiting (s : Office) (w : Phase) : Prop where
  began : ∀ now ∈ w.began, now ≤ s.clock
  unpaid : ∀ entry ∈ w.queue, ∀ row, s.panel.accounts.get? entry.1 = some row →
    ∀ expires ∈ row.expiresAt, expires ≤ s.clock

section

variable {addMonths : ℤ → ℕ → Option ℤ} {a : Advance} {account row' : Account} {p : Panel}
  {pk q : ℕ} {w w' : Phase} {s s' : Office} {x x' : System Office Phase}

/-- A row that a sweep has written to, or has not. -/
structure Written (p : Panel) (pk q : ℕ) (row' : Account) : Prop where
  row : ∃ row, p.accounts.get? q = some row ∧ row'.expiresAt = row.expiresAt ∧ (row' = row ∨ q = pk)

theorem Written.of_same (h : p.accounts.get? q = some row') : Written p pk q row' :=
  ⟨row', h, rfl, .inl rfl⟩

theorem saveAccount_get? {write : Account → Account}
    (h : (saveAccount pk write p).accounts.get? q = some row')
    (hwrite : ∀ row, (write row).expiresAt = row.expiresAt) : Written p pk q row' := by
  unfold saveAccount at h
  split at h
  · next row hget =>
    unfold Panel.putAccount at h
    rw [Table.get?_put hget] at h
    split at h
    · next hq =>
      cases h
      exact ⟨row, hq ▸ hget, hwrite row, .inr hq⟩
    · exact .of_same h
  · exact .of_same h

theorem answered_get? {write : Account → Account}
    (h : (answered a pk account write p).accounts.get? q = some row')
    (hwrite : ∀ row, (write row).expiresAt = row.expiresAt) : Written p pk q row' := by
  unfold answered at h
  split at h
  · exact .of_same h
  · exact saveAccount_get? h fun _ => rfl
  · exact saveAccount_get? h hwrite

theorem finish_get? {clock : ℤ} {world : World}
    (h : (finish a clock world pk account p).accounts.get? q = some row') :
    Written p pk q row' := by
  unfold finish at h
  split at h
  · split at h
    · exact answered_get? h fun _ => rfl
    · exact .of_same h
  · exact answered_get? h fun _ => rfl

/-- **What a step of a sweep does**: it writes to the account that is next, which is paid for as
    long as before. -/
theorem step_get? (h : step a s w = .ok (s', w')) :
    s'.clock = s.clock ∧ ∀ q row', s'.panel.accounts.get? q = some row' →
      ∃ row, s.panel.accounts.get? q = some row ∧ row'.expiresAt = row.expiresAt
        ∧ (row' = row ∨ ∃ entry ∈ w.queue, q = entry.1) := by
  have hsame : ∀ q row', s.panel.accounts.get? q = some row' →
      ∃ row, s.panel.accounts.get? q = some row ∧ row'.expiresAt = row.expiresAt
        ∧ (row' = row ∨ ∃ entry ∈ w.queue, q = entry.1) :=
    fun q row' hget => ⟨row', hget, rfl, .inl rfl⟩
  unfold Pass.step at h
  split at h
  · cases h
    exact ⟨rfl, hsame⟩
  · cases w with
    | begun world =>
      cases h
      exact ⟨rfl, hsame⟩
    | lapsing world queue =>
      cases queue with
      | nil =>
        cases h
        exact ⟨rfl, hsame⟩
      | cons entry rest =>
        cases h
        -- a notice is no account
        exact ⟨rfl, fun q row' hget => hsame q row' (notice_accounts (w := World.asking world a)
          entry.1 entry.2 s.panel ▸ hget)⟩
    | noticed world entry rest =>
      cases h
      exact ⟨rfl, hsame⟩
    | suspending world entry rest =>
      cases h
      refine ⟨rfl, fun q row' hget => ?_⟩
      obtain ⟨row, hrow, hexpires, hkept⟩ := answered_get? hget fun _ => rfl
      exact ⟨row, hrow, hexpires, hkept.imp_right fun hq => ⟨entry, List.mem_cons_self, hq⟩⟩
    | ending world queue =>
      cases queue with
      | nil =>
        cases h
        exact ⟨rfl, hsame⟩
      | cons entry rest =>
        cases h
        exact ⟨rfl, hsame⟩
    | finishing world entry rest =>
      cases h
      refine ⟨rfl, fun q row' hget => ?_⟩
      obtain ⟨row, hrow, hexpires, hkept⟩ := finish_get? hget
      exact ⟨row, hrow, hexpires, hkept.imp_right fun hq => ⟨entry, List.mem_cons_self, hq⟩⟩
    | closed => cases h

/-- Time passes, and the accounts a sweep has not done with are paid for no longer. -/
theorem Waiting.of_accounts (hw : Waiting s w) (hclock : s.clock ≤ s'.clock)
    (haccounts : ∀ q row', s'.panel.accounts.get? q = some row' → ∀ expires' ∈ row'.expiresAt,
      (∃ row, s.panel.accounts.get? q = some row ∧ ∃ expires ∈ row.expiresAt, expires' ≤ expires)
        ∨ ∀ entry ∈ w.queue, entry.1 ≠ q) : Waiting s' w := by
  refine ⟨fun now hnow => (hw.began now hnow).trans hclock,
    fun entry hmem row' hrow' expires' hexpires' => ?_⟩
  rcases haccounts entry.1 row' hrow' expires' hexpires' with
    ⟨row, hrow, expires, hexpires, hle⟩ | hother
  · exact (hle.trans (hw.unpaid entry hmem row hrow expires hexpires)).trans hclock
  · exact absurd rfl (hother entry hmem)

theorem Waiting.closed (s : Office) : Waiting s .closed := by
  constructor
  · intro now hnow
    cases hnow
  · intro entry hmem
    cases hmem

/-- What a sweep has not done with when it is done with some of it. -/
theorem Waiting.of_queue (hw : Waiting s w) (hbegan : w'.began = w.began)
    (hqueue : ∀ entry ∈ w'.queue, entry ∈ w.queue) : Waiting s w' :=
  ⟨hbegan ▸ hw.began, fun entry hmem => hw.unpaid entry (hqueue entry hmem)⟩

/-- A sweep after its step; what it lists has lapsed by then. -/
theorem Waiting.step (hw : Waiting s w) (h : step a s w = .ok (s', w')) : Waiting s' w' := by
  obtain ⟨hclock, hrows⟩ := step_get? h
  have hself : Waiting s' w := by
    refine hw.of_accounts hclock.ge fun q row' hrow' expires' hexpires' => ?_
    obtain ⟨row, hrow, hexpires, -⟩ := hrows q row' hrow'
    exact .inl ⟨row, hrow, expires', hexpires ▸ hexpires', le_refl expires'⟩
  unfold Pass.step at h
  split at h
  · cases h
    exact .closed s
  · cases w with
    | begun world =>
      cases h
      refine ⟨hw.began, fun entry hmem row hrow expires hexpires => ?_⟩
      simp only [Phase.queue, List.mem_filter, decide_eq_true_eq] at hmem
      obtain ⟨hentry, -, ⟨expires', hexpires', hle⟩, -⟩ := hmem
      cases (Table.mem_entries.mp hentry).symm.trans hrow
      cases hexpires'.symm.trans hexpires
      exact hle.trans (hw.began world.now rfl)
    | lapsing world queue =>
      cases queue with
      | nil =>
        cases h
        split
        · refine ⟨hw.began, fun entry hmem row hrow expires hexpires => ?_⟩
          simp only [Phase.queue, List.mem_filter, decide_eq_true_eq] at hmem
          cases (Table.mem_entries.mp hmem.1).symm.trans hrow
          exact (expired_of_stale hmem.2 expires hexpires).trans (hw.began world.now rfl)
        · exact .closed s
      | cons entry rest =>
        cases h
        exact hself.of_queue rfl fun _ => id
    | noticed world entry rest =>
      cases h
      split
      · exact hself.of_queue rfl fun _ => id
      · exact hself.of_queue rfl fun _ => List.mem_cons_of_mem entry
    | suspending world entry rest =>
      cases h
      exact hself.of_queue rfl fun _ => List.mem_cons_of_mem entry
    | ending world queue =>
      cases queue with
      | nil =>
        cases h
        exact .closed s
      | cons entry rest =>
        cases h
        exact hself.of_queue rfl fun _ => id
    | finishing world entry rest =>
      cases h
      exact hself.of_queue rfl fun _ => List.mem_cons_of_mem entry
    | closed => cases h

/-- What else goes on, case by case. -/
theorem Waiting.change {c : Change} (hw : Waiting s w) (h : change addMonths c s = .ok s')
    (hquiet : ∀ pk act, c = .account pk act → ∀ row ∈ s.panel.accounts.get? pk,
      Extends s.clock act row → ∀ entry ∈ w.queue, entry.1 ≠ pk) : Waiting s' w := by
  have hsame : ∀ q row', s.panel.accounts.get? q = some row' → ∀ expires' ∈ row'.expiresAt,
      (∃ row, s.panel.accounts.get? q = some row ∧ ∃ expires ∈ row.expiresAt, expires' ≤ expires)
        ∨ ∀ entry ∈ w.queue, entry.1 ≠ q :=
    fun q row' hrow' expires' hexpires' =>
      .inl ⟨row', hrow', expires', hexpires', le_refl expires'⟩
  cases c with
  | wait micros =>
    cases h
    exact hw.of_accounts (Int.le_add_of_nonneg_right (Int.natCast_nonneg micros)) hsame
  | settle settings =>
    cases h
    exact hw.of_accounts (le_refl s.clock) hsame
  | create status server =>
    cases h
    refine hw.of_accounts (le_refl s.clock) fun q row' hrow' => ?_
    dsimp only at hrow'
    rw [Table.get?_insert] at hrow'
    split at hrow'
    · cases hrow'
      rintro _ ⟨⟩
    · exact hsame q row' hrow'
  | account pk act =>
    dsimp only [Pass.change] at h
    split at h
    · cases h
    · next row hrow =>
      simp only [bind_eq_ok, pure_eq_ok] at h
      obtain ⟨account', hexec, rfl⟩ := h
      refine hw.of_accounts (le_refl s.clock) fun q row' hrow' => ?_
      dsimp only [Panel.putAccount] at hrow'
      rw [Table.get?_put hrow] at hrow'
      split at hrow'
      · next hq =>
        subst hq
        cases hrow'
        intro expires' hexpires'
        rcases exec_expiresAt hexec with hkept | hextends
        · exact .inl ⟨row, hrow, hkept expires' hexpires'⟩
        · exact .inr (hquiet q act rfl row hrow hextends)
      · exact hsame q row' hrow'

/-- **One turn of a run.** -/
theorem waiting_turn {turn : Turn Unit Advance Change} {out : List PUnit}
    (hx : x.workers.Forall fun _ w => Waiting x.shared w)
    (h : (passes addMonths).machine.Commits turn x x' out) (hturn : Undisturbed x turn) :
    x'.workers.Forall fun _ w => Waiting x'.shared w := by
  obtain ⟨shared', workers'⟩ := x'
  cases turn with
  | start b =>
    obtain ⟨w, hstart, hworkers⟩ := Interleaving.start_eq_ok h
    cases hstart
    dsimp only at hworkers
    subst hworkers
    refine hx.insert ⟨fun now hnow => ?_, fun entry hmem => (by cases hmem)⟩
    cases hnow
    exact le_refl _
  | step i a =>
    obtain ⟨w, w', hw, hstep, hworkers⟩ := Interleaving.step_eq_ok h
    dsimp only at hworkers hstep
    subst hworkers
    obtain ⟨hclock, hrows⟩ := step_get? hstep
    have hothers : x.workers.Forall fun _ w => Waiting shared' w := fun j v hv => by
      refine (hx j v hv).of_accounts hclock.ge fun q row' hrow' expires' hexpires' => ?_
      obtain ⟨row, hrow, hexpires, -⟩ := hrows q row' hrow'
      exact .inl ⟨row, hrow, expires', hexpires ▸ hexpires', le_refl expires'⟩
    exact hothers.put ((hx i w hw).step hstep)
  | outside c =>
    obtain ⟨houtside, hworkers⟩ := Interleaving.outside_eq_ok h
    dsimp only at hworkers houtside
    subst hworkers
    refine fun i w hw => (hx i w hw).change houtside ?_
    rintro pk act rfl row hrow hextends
    exact hturn row hrow hextends i w hw

theorem endsUnpaid_turn {turn : Turn Unit Advance Change} {out : List PUnit}
    (hx : x.workers.Forall fun _ w => Waiting x.shared w)
    (h : (passes addMonths).machine.Commits turn x x' out) : EndsUnpaid x turn x' := by
  cases turn with
  | start b => trivial
  | step i a =>
    obtain ⟨w, w', hw, hstep, -⟩ := Interleaving.step_eq_ok h
    intro pk row row' hrow hrow' hstanding
    obtain ⟨-, hrows⟩ := step_get? hstep
    obtain ⟨before, hbefore, -, rfl | ⟨entry, hmem, rfl⟩⟩ := hrows pk row' hrow'
    · cases hbefore.symm.trans hrow
      exact absurd rfl hstanding
    · exact (hx i w hw).unpaid entry hmem row hrow
  | outside c => trivial

end

/-- Before the first sweep. -/
def opened (clock : ℤ) (settings : Settings) (panel : Panel) : System Office Phase :=
  ⟨{ clock, settings, panel }, {}⟩

/-- **No sweep suspends or ends an account whose paid period still runs**, in any run in which no
    account is paid for while a sweep that listed it has still to save what it does with it. -/
theorem always_endsUnpaid (addMonths : ℤ → ℕ → Option ℤ) (clock : ℤ) (settings : Settings)
    (panel : Panel) (turns : List (Turn Unit Advance Change))
    (h : (passes addMonths).machine.EachStep (fun x turn _ => Undisturbed x turn) turns
      (opened clock settings panel)) :
    (passes addMonths).machine.EachStep EndsUnpaid turns (opened clock settings panel) :=
  Machine.eachStep_of_eachStep (I := fun x => x.workers.Forall fun _ w => Waiting x.shared w)
    (fun _ _ _ _ hx hc hturn => waiting_turn hx hc hturn)
    (fun _ _ _ _ hx hc _ => endsUnpaid_turn hx hc) turns _ .empty h

/-! ### A payment that comes in between -/

/-- Two accounts whose terms ended forty days ago. -/
def twoLapsed : Panel where
  accounts := (Table.insert {} {
    status := .active, server := some 0, billingCycle := "monthly", expiresAt := some 0 }).insert {
    status := .active, server := some 0, billingCycle := "monthly", expiresAt := some 0 }

/-- A sweep that reads its list and suspends the first account. -/
def firstSuspended : List (Turn Unit Advance Change) :=
  .start () :: List.replicate 4 (.step 0 {})

instance (x : System Office Phase) (turn : Turn Unit Advance Change) :
    Decidable (Undisturbed x turn) :=
  match turn with
  | .outside (.account pk act) =>
    inferInstanceAs (Decidable (∀ row ∈ x.shared.panel.accounts.get? pk,
      Extends x.shared.clock act row →
        x.workers.Forall fun _ w => ∀ entry ∈ w.queue, entry.1 ≠ pk))
  | .start _ | .step _ _ => isTrue trivial
  | .outside (.wait _) | .outside (.settle _) | .outside (.create _ _) => isTrue trivial

theorem always_endsUnpaid_firstSuspended :
    (((passes longMonths).machine.run firstSuspended
        (opened (40 * day) endingWorld.settings twoLapsed)).shared.panel.accounts.get? 0).map
        standing = some (.suspended, true)
      ∧ (passes longMonths).machine.EachStep EndsUnpaid firstSuspended
        (opened (40 * day) endingWorld.settings twoLapsed) :=
  ⟨by decide +kernel, always_endsUnpaid longMonths (40 * day) endingWorld.settings twoLapsed
    firstSuspended (Machine.eachStep_of_trace (by decide +kernel))⟩

/-- **The second account is renewed meanwhile, and suspended all the same.** -/
theorem not_always_endsUnpaid :
    ¬∀ (addMonths : ℤ → ℕ → Option ℤ) (clock : ℤ) (settings : Settings) (panel : Panel)
      (turns : List (Turn Unit Advance Change)),
      (passes addMonths).machine.EachStep EndsUnpaid turns (opened clock settings panel) := by
  intro h
  have hlast := (h longMonths (40 * day) endingWorld.settings twoLapsed
    (firstSuspended ++ [.outside (.account 1 (.renew 1)), .step 0 {}, .step 0 {}]
      ++ [.step 0 {}])).last rfl
  have hexpired := hlast 1
    { status := .active, server := some 0, billingCycle := "monthly", expiresAt := some (71 * day) }
    { status := .suspended, server := some 0, billingCycle := "monthly"
      expiresAt := some (71 * day), suspendedForNonpayment := true }
    (by decide +kernel) (by decide +kernel) (by decide) (71 * day) rfl
  exact absurd hexpired (by decide +kernel)

end WPanel.Lifecycle.Pass
