import WPanel.Affiliates.Refunds
import WPanel.Lib.Interleaving

namespace WPanel.Affiliates

open WPanel.Lib WPanel.Billing WPanel.Site

/-!
# Two payments at once

A payment that completes an invoice earns in its own transaction: `on_invoice_paid` reads what
is committed, and inserts the commission.  The transaction holds the lock of its invoice and of
nothing else, so two invoices of one client may be paid at the same time.

Here the programme pays only the first invoice of a client: `recurring_months` is `0`
throughout.

* `Payment`, `earning` — the transactions, step by step;
* `alone_eq_onInvoicePaid` — one of them alone does what `onInvoicePaid` does;
* `FirstOnly` — a referral has earned one commission at most;
* `NoRace` — no payment looks whether a referral has earned while another one has found that it
  has not and is not through;
* `first_only` — a run without such a race earns one commission at most for every referral.
-/

/-! ### The transactions -/

/-- How far a payment is. -/
inductive Phase where
  /-- The referral, the settings and the affiliate were read. -/
  | looked (seen : Store)
  /-- The commissions were read: this one is to be inserted, or none. -/
  | checked (found : Option Commission)
  | over
  deriving DecidableEq

/-- A transaction in which the invoice `pk` is paid in full. -/
structure Payment where
  pk : ℕ
  invoice : Invoice
  phase : Phase
  deriving DecidableEq

/-- What is committed, and the invoices that are locked. -/
structure Committed where
  program : Store := {}
  locked : List ℕ := []
  deriving DecidableEq

/-- What a payment does next. -/
inductive Payment.Step where
  | check (now : Moment)
  | commit
  | rollback

/-- What else is committed meanwhile. -/
inductive Meanwhile where
  | program (call : ProgramCall)
  | refunded (now : Moment) (pk : ℕ) (invoice : Invoice)

/-- A step that is not due. -/
def notDue : Err := .unexpected "This step is not due."

/-- A payment locks its invoice. -/
def Payment.start (pk : ℕ) (invoice : Invoice) (s : Committed) :
    Except Err (Committed × Payment) := do
  ensure (pk ∉ s.locked) notDue
  return ({ s with locked := pk :: s.locked }, ⟨pk, invoice, .looked s.program⟩)

/-- The steps of `on_invoice_paid`, and the end of the transaction. -/
def Payment.next (step : Payment.Step) (s : Committed) (w : Payment) :
    Except Err (Committed × Payment) :=
  match step, w.phase with
  | .check now, .looked seen => do
    let found ← earned now w.pk w.invoice { seen with commissions := s.program.commissions }
    return (s, { w with phase := .checked found })
  | .commit, .checked none =>
    .ok ({ s with locked := s.locked.erase w.pk }, { w with phase := .over })
  | .commit, .checked (some commission) =>
    .ok ({ program := s.program.addCommission commission, locked := s.locked.erase w.pk },
      { w with phase := .over })
  | .rollback, .looked _ =>
    .ok ({ s with locked := s.locked.erase w.pk }, { w with phase := .over })
  | .rollback, .checked _ =>
    .ok ({ s with locked := s.locked.erase w.pk }, { w with phase := .over })
  | _, _ => .error notDue

/-- The other calls of the programme; a refund takes the lock of its invoice as well. -/
def Meanwhile.exec (call : Meanwhile) (s : Committed) : Except Err Committed :=
  match call with
  | .program call => do
    let program ← call.exec s.program
    ensure (program.settings.recurringMonths = 0) notDue
    return { s with program }
  | .refunded now pk invoice => do
    ensure (pk ∉ s.locked) notDue
    return { s with program := onInvoiceRefunded now pk invoice s.program }

/-- Payments of any invoices, in any order of their steps. -/
def earning : Interleaving Committed Payment (ℕ × Invoice) Payment.Step Meanwhile Err where
  start b s := Payment.start b.1 b.2 s
  step := Payment.next
  outside := Meanwhile.exec
  absent := notDue

/-- A payment whose steps nothing comes between. -/
def Payment.alone (now : Moment) (pk : ℕ) (invoice : Invoice) (s : Committed) :
    Except Err Committed := do
  let (s, w) ← Payment.start pk invoice s
  let (s, w) ← Payment.next (.check now) s w
  let (s, _) ← Payment.next .commit s w
  return s

/-- **A payment on its own does what `onInvoicePaid` does.** -/
theorem alone_eq_onInvoicePaid (now : Moment) (pk : ℕ) (invoice : Invoice) (s : Committed)
    (hlocked : pk ∉ s.locked) : Payment.alone now pk invoice s
      = (onInvoicePaid now pk invoice s.program).map fun program => { s with program } := by
  have hstart : Payment.start pk invoice s
      = .ok ({ s with locked := pk :: s.locked }, ⟨pk, invoice, .looked s.program⟩) := by
    rw [Payment.start, ensure, if_pos hlocked]
    rfl
  rw [Payment.alone, hstart, ok_bind]
  unfold onInvoicePaid Payment.next
  dsimp only
  cases earned now pk invoice s.program with
  | error e => rfl
  | ok found =>
    cases found with
    | none => simp [Except.map, pure, Except.pure]
    | some commission => simp [Except.map, pure, Except.pure]

/-! ### One commission for each referral -/

/-- A referral has earned one commission at most. -/
def FirstOnly (commissions : Table Commission) : Prop :=
  ∀ k k' c c', commissions.get? k = some c → commissions.get? k' = some c' →
    c.referral = c'.referral → k = k'

/-- The commission a payment has found it is to insert. -/
def Payment.found (w : Payment) : Option Commission :=
  match w.phase with
  | .checked found => found
  | _ => none

/-- The referral a payment is about to look up. -/
def Payment.checks (w : Payment) : Option ℕ :=
  match w.phase with
  | .looked seen => (seen.referralOf w.invoice.client).map Prod.fst
  | _ => none

/-- No payment looks whether a referral has earned while another one has found that it has not,
    and is neither committed nor rolled back. -/
def NoRace : Discipline Committed Payment Payment.Step Meanwhile where
  step _ w a other := match a with
    | .check _ => ∀ c ∈ other.found, w.checks ≠ some c.referral
    | _ => True
  outside _ _ _ := True

instance (s : Committed) (w : Payment) (a : Payment.Step) (other : Payment) :
    Decidable (NoRace.step s w a other) :=
  match a with
  | .check _ => inferInstanceAs (Decidable (∀ c ∈ other.found, w.checks ≠ some c.referral))
  | .commit => isTrue trivial
  | .rollback => isTrue trivial

instance (s : Committed) (call : Meanwhile) (other : Payment) :
    Decidable (NoRace.outside s call other) := isTrue trivial

section

variable {s s' : Store} {c : Commission} {commissions : Table Commission}

/-- Every commission was there before, with the same referral. -/
def SameReferrals (commissions commissions' : Table Commission) : Prop :=
  ∀ k c', commissions'.get? k = some c' →
    ∃ c, commissions.get? k = some c ∧ c'.referral = c.referral

theorem FirstOnly.of_same {commissions' : Table Commission} (h : FirstOnly commissions)
    (hsame : SameReferrals commissions commissions') : FirstOnly commissions' := by
  intro k k' c c' hc hc' hreferral
  obtain ⟨b, hb, heq⟩ := hsame k c hc
  obtain ⟨b', hb', heq'⟩ := hsame k' c' hc'
  exact h k k' b b' hb hb' (heq.symm.trans (hreferral.trans heq'))

theorem Reviewed.same {commissions' : Table Commission} (h : Reviewed commissions commissions') :
    SameReferrals commissions commissions' := by
  intro k c' hc'
  obtain ⟨c, hc, _, hreferral, _⟩ := h k c' hc'
  exact ⟨c, hc, hreferral⟩

theorem refunded_same (now : Moment) (pk : ℕ) (invoice : Invoice) :
    SameReferrals s.commissions (onInvoiceRefunded now pk invoice s).commissions := by
  unfold onInvoiceRefunded
  split
  · exact fun k c hc => ⟨c, hc, rfl⟩
  · next k c hfound =>
    obtain ⟨hc, _⟩ := commissionOn_eq_some hfound
    intro j b hb
    rw [Table.get?_put hc] at hb
    split at hb
    · next hj =>
      subst hj
      cases hb
      refine ⟨c, hc, ?_⟩
      unfold Commission.refunded
      dsimp only
      split
      · rfl
      · split
        · rfl
        · split
          · rfl
          · split <;> rfl
    · exact ⟨b, hb, rfl⟩

/-- A commission is added, or its invoice has one already. -/
theorem addCommission_cases (s : Store) (c : Commission) :
    (s.addCommission c).settings = s.settings ∧ ∀ k b,
      (s.addCommission c).commissions.get? k = some b →
        (k = s.commissions.nextPk ∧ b = c) ∨ s.commissions.get? k = some b := by
  unfold Store.addCommission
  split
  · exact ⟨rfl, fun _ _ hb => .inr hb⟩
  · refine ⟨rfl, fun k b hb => ?_⟩
    rw [Table.get?_insert] at hb
    split at hb
    · next hk => exact .inl ⟨hk, (Option.some.inj hb).symm⟩
    · exact .inr hb

theorem FirstOnly.add (h : FirstOnly s.commissions)
    (hnew : ∀ k b, s.commissions.get? k = some b → b.referral ≠ c.referral) :
    FirstOnly (s.addCommission c).commissions := by
  have hget := (addCommission_cases s c).2
  intro k k' b b' hb hb' hreferral
  rcases hget k b hb with ⟨rfl, rfl⟩ | hold <;> rcases hget k' b' hb' with ⟨rfl, rfl⟩ | hold'
  · rfl
  · exact absurd hreferral.symm (hnew k' b' hold')
  · exact absurd hreferral (hnew k b hold)
  · exact h k k' b b' hold hold' hreferral

/-- With no months to earn in, only a referral that has not earned yet does. -/
theorem earned_first {now : Moment} {pk : ℕ} {invoice : Invoice}
    (h : earned now pk invoice s = .ok (some c)) (hrecurring : s.settings.recurringMonths = 0) :
    (s.referralOf invoice.client).map Prod.fst = some c.referral
      ∧ ∀ k b, s.commissions.get? k = some b → b.referral ≠ c.referral := by
  obtain ⟨referral, _, hreferral, _, _, _, _, hwithin, _⟩ := earned_eq_some h
  refine ⟨by rw [hreferral]; rfl, fun k b hb heq => ?_⟩
  rw [withinTerm, if_neg (not_not.mpr hrecurring)] at hwithin
  have hnot : ¬s.hasEarned c.referral = true := by simpa using hwithin
  refine hnot (List.any_eq_true.mpr ⟨(k, b), Table.mem_entries.mpr hb, ?_⟩)
  exact decide_eq_true heq

end

/-! ### Without a race -/

/-- What a payment knows: only first invoices earn, and a referral it found to have earned
    nothing has still earned nothing. -/
structure Payment.Knows (s : Committed) (w : Payment) : Prop where
  zero : ∀ seen, w.phase = .looked seen → seen.settings.recurringMonths = 0
  fresh : ∀ c ∈ w.found, ∀ k b, s.program.commissions.get? k = some b → b.referral ≠ c.referral

/-- Two payments that are to insert commissions do so for different referrals. -/
def Payment.Apart (w w' : Payment) : Prop :=
  ∀ c ∈ w.found, ∀ c' ∈ w'.found, c.referral ≠ c'.referral

section

variable {s s' : Committed} {w w' other : Payment}

theorem Payment.Knows.over (s : Committed) (w : Payment) :
    Payment.Knows s { w with phase := .over } :=
  ⟨fun seen hseen => (by cases hseen), fun c hc => (by cases hc)⟩

theorem Payment.Knows.of_same (h : w.Knows s)
    (hsame : SameReferrals s.program.commissions s'.program.commissions) : w.Knows s' := by
  refine ⟨h.1, fun c hc k b hb => ?_⟩
  obtain ⟨b', hb', heq⟩ := hsame k b hb
  rw [heq]
  exact h.2 c hc k b' hb'

theorem Meanwhile.exec_same {call : Meanwhile} (h : call.exec s = .ok s')
    (hs : s.program.settings.recurringMonths = 0) :
    SameReferrals s.program.commissions s'.program.commissions
      ∧ s'.program.settings.recurringMonths = 0 := by
  cases call with
  | program call =>
    simp only [Meanwhile.exec, bind_eq_ok, ensure_eq_ok, exists_and_left, exists_const,
      pure_eq_ok] at h
    obtain ⟨program, hcall, hzero, rfl⟩ := h
    exact ⟨(programCall_reviewed hcall).same, hzero⟩
  | refunded now pk invoice =>
    simp only [Meanwhile.exec, bind_eq_ok, ensure_eq_ok, exists_and_left, exists_const,
      pure_eq_ok] at h
    obtain ⟨_, rfl⟩ := h
    refine ⟨refunded_same now pk invoice, ?_⟩
    show (onInvoiceRefunded now pk invoice s.program).settings.recurringMonths = 0
    unfold onInvoiceRefunded
    split <;> exact hs

/-- What a step of a payment does: it looks and finds, it inserts, or it ends. -/
theorem Payment.next_cases {a : Payment.Step} (h : Payment.next a s w = .ok (s', w')) :
    (∃ now seen found, a = .check now ∧ w.phase = .looked seen ∧ s' = s
      ∧ w' = { w with phase := .checked found }
      ∧ earned now w.pk w.invoice { seen with commissions := s.program.commissions } = .ok found) ∨
    (∃ c, w.phase = .checked (some c) ∧ w' = { w with phase := .over }
      ∧ s'.program = s.program.addCommission c) ∨
    (w' = { w with phase := .over } ∧ s'.program = s.program) := by
  unfold Payment.next at h
  split at h
  · next now seen hphase =>
    simp only [bind_eq_ok, pure_eq_ok, Prod.mk.injEq] at h
    obtain ⟨found, hearned, rfl, rfl⟩ := h
    exact .inl ⟨now, seen, found, rfl, hphase, rfl, rfl, hearned⟩
  · cases h; exact .inr (.inr ⟨rfl, rfl⟩)
  · next c hphase => cases h; exact .inr (.inl ⟨c, hphase, rfl, rfl⟩)
  · cases h; exact .inr (.inr ⟨rfl, rfl⟩)
  · cases h; exact .inr (.inr ⟨rfl, rfl⟩)
  · cases h

/-- Why payments without a race earn once for each referral. -/
def earningOutline : Outline earning NoRace where
  shared s := s.program.settings.recurringMonths = 0 ∧ FirstOnly s.program.commissions
  own s w := w.Knows s
  pair := Payment.Apart
  pair_symm := fun w w' h c hc c' hc' heq => h c' hc' c hc heq.symm
  start_own := by
    rintro ⟨pk, invoice⟩ s s' w h ⟨hzero, hfirst⟩
    simp only [earning, Payment.start, bind_eq_ok, ensure_eq_ok, exists_and_left, exists_const,
      pure_eq_ok, Prod.mk.injEq] at h
    obtain ⟨_, rfl, rfl⟩ := h
    refine ⟨⟨hzero, hfirst⟩, fun seen hseen => ?_, fun c hc => by cases hc⟩
    cases hseen
    exact hzero
  start_other := by
    rintro ⟨pk, invoice⟩ s s' w other h _ hother
    simp only [earning, Payment.start, bind_eq_ok, ensure_eq_ok, exists_and_left, exists_const,
      pure_eq_ok, Prod.mk.injEq] at h
    obtain ⟨_, rfl, rfl⟩ := h
    exact ⟨hother.of_same fun k c hc => ⟨c, hc, rfl⟩, fun c hc => by cases hc⟩
  step_own := by
    rintro a s s' w w' h ⟨hzero, hfirst⟩ hown
    rcases Payment.next_cases h with ⟨now, seen, found, _, hphase, rfl, rfl, hearned⟩ |
      ⟨c, hphase, rfl, hprogram⟩ | ⟨rfl, hprogram⟩
    · refine ⟨⟨hzero, hfirst⟩, ⟨fun seen hseen => (by cases hseen), fun c hc => ?_⟩⟩
      obtain rfl : found = some c := hc
      exact (earned_first hearned (hown.zero seen hphase)).2
    · have hnew := hown.fresh c (by rw [Payment.found, hphase]; rfl)
      rw [hprogram]
      refine ⟨⟨?_, hfirst.add hnew⟩, .over _ _⟩
      rw [(addCommission_cases _ _).1]
      exact hzero
    · rw [hprogram]
      exact ⟨⟨hzero, hfirst⟩, .over _ _⟩
  step_other := by
    rintro a s s' w w' other h _ hown hother hpair hrace
    rcases Payment.next_cases h with ⟨now, seen, found, rfl, hphase, rfl, rfl, hearned⟩ |
      ⟨c, hphase, rfl, hprogram⟩ | ⟨rfl, hprogram⟩
    · -- the other payment may have found something, but for another referral
      refine ⟨hother, fun c hc c' hc' heq => ?_⟩
      obtain rfl : found = some c := hc
      refine hrace c' hc' ?_
      rw [Payment.checks, hphase, ← heq]
      exact (earned_first hearned (hown.zero seen hphase)).1
    · have hfound : c ∈ w.found := by rw [Payment.found, hphase]; rfl
      refine ⟨⟨hother.1, fun c' hc' k b hb => ?_⟩, fun c hc => by cases hc⟩
      rw [hprogram] at hb
      rcases (addCommission_cases _ _).2 k b hb with ⟨_, rfl⟩ | hold
      · exact hpair b hfound c' hc'
      · exact hother.2 c' hc' k b hold
    · refine ⟨⟨hother.1, ?_⟩, fun c hc => by cases hc⟩
      rw [hprogram]
      exact hother.2
  outside_shared := fun call s s' h hs =>
    have hsame := Meanwhile.exec_same h hs.1
    ⟨hsame.2, hs.2.of_same hsame.1⟩
  outside_other := fun call s s' other h hs hother _ =>
    hother.of_same (Meanwhile.exec_same h hs.1).1

end

/-- **Without a race a referral earns one commission at most**, in every state, however the
    payments of different invoices interleave. -/
theorem first_only (ts : List (Turn (ℕ × Invoice) Payment.Step Meanwhile))
    (h : earning.machine.EachStep (fun s t _ => NoRace.Respected s t) ts ⟨{}, {}⟩) :
    earning.machine.Always (fun s => FirstOnly s.shared.program.commissions) ts ⟨{}, {}⟩ := by
  refine earningOutline.always (fun s hs => hs.shared.2) ts _ (.start _ ⟨rfl, ?_⟩) h
  intro k k' c c' hc
  rw [Table.get?_empty] at hc
  cases hc

/-! ### Two invoices of one client -/

/-- An affiliate joins and is credited with a client. -/
def credited : List (Turn (ℕ × Invoice) Payment.Step Meanwhile) := [
  .outside (.program (.join { user := 1, code := "friend", status := .active })),
  .outside (.program (.attributeClient smallEnv.now staff (fun _ => []) 0 0))]

private abbrev EarnTurns : Type := List (Turn (ℕ × Invoice) Payment.Step Meanwhile)

/-- An invoice of 100.00 of that client, paid in full. -/
def paidInvoice : Invoice where
  client := 0
  status := .paid
  currency := "USD"
  subtotal := 10000
  total := 10000
  amountPaid := 10000

/-- The second invoice is paid when the first payment is through: it earns nothing. -/
theorem first_only_in_turn : earning.machine.Always
    (fun s => FirstOnly s.shared.program.commissions)
    (credited ++ ([.start (0, paidInvoice), .step 0 (.check smallEnv.now), .step 0 .commit,
      .start (1, paidInvoice), .step 1 (.check smallEnv.now), .step 1 .commit] : EarnTurns))
    ⟨{}, {}⟩ :=
  first_only _ (Machine.eachStep_of_trace (by decide +kernel))

/-- Both are paid at once: each payment finds that nothing was earned yet. -/
def paidAtOnce : List (Turn (ℕ × Invoice) Payment.Step Meanwhile) := credited ++ ([
  .start (0, paidInvoice), .start (1, paidInvoice),
  .step 0 (.check smallEnv.now), .step 1 (.check smallEnv.now),
  .step 0 .commit, .step 1 .commit] : EarnTurns)

/-- One referral has earned two commissions. -/
theorem earned_twice : ¬earning.machine.Always
    (fun s => FirstOnly s.shared.program.commissions) paidAtOnce ⟨{}, {}⟩ := by
  intro h
  have hrun : let commissions :=
        (earning.machine.run paidAtOnce ⟨{}, {}⟩).shared.program.commissions
      ∃ c ∈ commissions.get? 0, ∃ c' ∈ commissions.get? 1, c.referral = c'.referral := by
    decide +kernel
  obtain ⟨c, hc, c', hc', hreferral⟩ := hrun
  cases h.last 0 1 c c' hc hc' hreferral

end WPanel.Affiliates
