import WPanel.Billing.InvoiceMoves
import WPanel.Lib.Machine
import WPanel.Lib.Numerals

namespace WPanel.Billing.Numbering

open WPanel.Lib

/-!
# Invoice numbers and the checker that reads them

An issued invoice gets the prefix of the settings and the next number of a sequence.  The
checker of `billing/integrity.py` takes the digits at the end of each number and wants them to
be a run from 1.  Digits at the end of a prefix are read as part of the number.

* `readBack`, `sequenceProblems` — the checker;
* `office` — issuing and saving a prefix, in any order, with whatever else goes on;
* `Kept` — what every run keeps: the counter counts the numbers issued;
* `sequenceProblems_eq_nil_iff` — a run of issues is read back exactly when no prefix it used
  ends in a digit other than zero.
-/

/-! ### The checker -/

/-- `int(match.group(1)) if match else -1`. -/
def readBack (number : String) : ℤ :=
  match searchTrailing number with
  | some digits => digitsValue digits
  | none => -1

/-- `list(range(1, n + 1))`. -/
def runFromOne (n : ℕ) : List ℤ := (List.range n).map fun i : ℕ => (i : ℤ) + 1

/-- `_sequence_problems(key, model)`, of the numbers stored and the counter. -/
def sequenceProblems (key : String) (numbers : List String) (last : ℕ) : List String :=
  let values := numbers.map readBack
  problem (values.mergeSort ≠ runFromOne values.length)
    ("The " ++ key ++ " numbers are not a gap-free run from 1.")
  ++ problem (last ≠ values.length)
    ("The " ++ key ++ " sequence counter (" ++ toString last ++ ") differs from the "
      ++ toString values.length ++ " numbers issued.")

/-- `Invoice.objects.exclude(number="").values_list("number")`. -/
def issuedNumbers (s : Store) : List String :=
  (s.invoices.entries.filter fun entry => entry.2.invoice.number ≠ "").map
    fun entry => entry.2.invoice.number

/-! ### Issuing -/

/-- The prefix in the settings, and the stored documents. -/
structure Office where
  invoicePrefix : String := "INV-"
  billing : Store := {}

/-- A number that was issued: the prefix and the counter it was made of. -/
structure Issued where
  pre : String
  counter : ℕ
  number : String
  deriving DecidableEq, Repr

inductive Act where
  /-- Staff save the settings with this prefix. -/
  | savePrefix (actor : Actor) (pre : String)
  | issue (env : Env) (pk : ℕ)
  /-- Everything else leaves the documents like this: the numbers and the counter as they
      were, and no draft with a number. -/
  | meanwhile (billing : Store)

/-- A draft has no number yet. -/
def Unnumbered (l : Ledger) : Prop := l.invoice.status = .draft → l.invoice.number = ""

instance (l : Ledger) : Decidable (Unnumbered l) :=
  inferInstanceAs (Decidable (l.invoice.status = .draft → l.invoice.number = ""))

def exec : Act → Office → Except Err (Office × List Issued)
  | .savePrefix actor pre, s => do
    requirePerm actor .manageBilling
    ensure (pre.toList.length ≤ 10) (.invalid "BillingSettings" ["invoice_prefix"])
    return ({ s with invoicePrefix := pre }, [])
  | .issue env pk, s => do
    let env := { env with settings := { env.settings with invoicePrefix := s.invoicePrefix } }
    let (billing, _) ← issueDraftInvoice env pk s.billing
    let l ← lockInvoice billing pk
    return ({ s with billing }, [⟨s.invoicePrefix, billing.invoiceSequence, l.invoice.number⟩])
  | .meanwhile billing, s => do
    ensure (issuedNumbers billing = issuedNumbers s.billing
        ∧ billing.invoiceSequence = s.billing.invoiceSequence
        ∧ ∀ entry ∈ billing.invoices.entries, Unnumbered entry.2)
      (.unexpected "a number is only written by issuing")
    return ({ s with billing }, [])

/-- The documents as a machine. -/
def office : Machine Office Act Issued Err := ⟨exec⟩

/-! ### What is read back -/

/-- No digit at the end of the prefix counts. -/
def EndsPlain (pre : String) : Prop := ∀ c ∈ trailingDigits pre.toList, decimalDigit c = some 0

instance (pre : String) : Decidable (EndsPlain pre) :=
  inferInstanceAs (Decidable (∀ c ∈ trailingDigits pre.toList, decimalDigit c = some 0))

/-- **The checker reads the digits of the prefix in front of the counter.** -/
theorem readBack_numberAfter (pre : String) (last : ℕ) :
    readBack (numberAfter pre last)
      = (digitsValue (trailingDigits pre.toList) : ℤ)
          * 10 ^ (zeroPad 6 (last + 1)).toList.length + (last + 1) := by
  have hdigits : ∀ c ∈ (zeroPad 6 (last + 1)).toList, isDecimal c = true :=
    fun c hc => isDecimal_of_isDigit (isDigit_of_mem_zeroPad hc)
  have hne : (zeroPad 6 (last + 1)).toList ≠ [] := by
    intro hnil
    have := le_length_zeroPad 6 (last + 1)
    rw [hnil] at this
    exact absurd this (by decide)
  have hnumber : numberAfter pre last
      = String.ofList (pre.toList ++ (zeroPad 6 (last + 1)).toList) := by
    rw [numberAfter, ← String.toList_append, String.ofList_toList]
  unfold readBack
  rw [hnumber, searchTrailing_append hne hdigits]
  dsimp only
  rw [digitsValue_append, digitsValue_zeroPad]
  push_cast
  rfl

/-- The counter is read back where the prefix ends plain. -/
theorem readBack_eq_iff (pre : String) (last : ℕ) :
    readBack (numberAfter pre last) = (last + 1 : ℕ) ↔ EndsPlain pre := by
  rw [readBack_numberAfter]
  have hpow : (10 : ℤ) ^ (zeroPad 6 (last + 1)).toList.length ≠ 0 := by positivity
  have hzero : digitsValue (trailingDigits pre.toList) = 0 ↔ EndsPlain pre :=
    digitsValue_eq_zero fun c hc => isDecimal_of_mem_trailingDigits hc
  rw [← hzero]
  constructor
  · intro h
    push_cast at h
    have hmul : (digitsValue (trailingDigits pre.toList) : ℤ)
        * 10 ^ (zeroPad 6 (last + 1)).toList.length = 0 := by linarith
    rcases mul_eq_zero.mp hmul with hvalue | hten
    · exact_mod_cast hvalue
    · exact absurd hten hpow
  · intro h
    rw [h]
    push_cast
    ring

/-! ### Runs of issues -/

/-- What every run keeps: the counter counts the numbers issued, and the stored numbers are
    those that were issued. -/
structure Kept (p : Office × List Issued) : Prop where
  counted : p.1.billing.invoiceSequence = p.2.length
  counters : p.2.map (·.counter) = (List.range p.2.length).map (· + 1)
  numbers : ∀ issued ∈ p.2, issued.number = numberAfter issued.pre (issued.counter - 1)
  stored : (issuedNumbers p.1.billing).Perm (p.2.map (·.number))
  drafts : p.1.billing.invoices.Forall fun _ l => Unnumbered l

theorem Kept.empty : Kept ({}, []) :=
  ⟨rfl, rfl, fun _ h => by simp at h, .refl _, .empty⟩

/-- What issuing writes: the number made of the prefix and the counter, on a draft. -/
theorem issueDraftInvoice_number {env : Env} {pk : ℕ} {s s' : Store} {out : List Signal}
    (h : issueDraftInvoice env pk s = .ok (s', out)) :
    ∃ l l', s.invoices.get? pk = some l ∧ l.invoice.status = .draft
      ∧ s'.invoices = s.invoices.put pk l' ∧ s'.invoiceSequence = s.invoiceSequence + 1
      ∧ l'.invoice.number = numberAfter env.settings.invoicePrefix s.invoiceSequence
      ∧ l'.invoice.status ≠ .draft := by
  unfold issueDraftInvoice issue at h
  simp only [bind_eq_ok, lockInvoice_eq_ok, requireDraft_eq_ok, ensure_eq_ok, liftCalc_eq_ok,
    exists_and_left, exists_const, pure_eq_ok, Prod.mk.injEq] at h
  obtain ⟨l, hl, hdraft, -, totals, -, -, -, -, -, rfl, -⟩ := h
  refine ⟨l, _, hl, hdraft, rfl, rfl, rfl, ?_⟩
  dsimp only
  split <;> simp

/-- A draft that gets a number joins the numbers issued. -/
theorem issuedNumbers_put {s s' : Store} {pk : ℕ} {l l' : Ledger}
    (hl : s.invoices.get? pk = some l) (hs' : s'.invoices = s.invoices.put pk l')
    (hnone : l.invoice.number = "") (hnumber : l'.invoice.number ≠ "") :
    (issuedNumbers s').Perm (l'.invoice.number :: issuedNumbers s) := by
  obtain ⟨before, after, hold, hnew⟩ := Table.entries_put hl l'
  unfold issuedNumbers
  rw [hs', hold, hnew, List.filter_append, List.filter_append,
    List.filter_cons_of_pos (by simpa using hnumber),
    List.filter_cons_of_neg (by simpa using hnone), List.map_append, List.map_append, List.map_cons]
  exact List.perm_middle

/-- **One step.** A number issued is the next of the sequence; nothing else writes one. -/
theorem Kept.step {act : Act} {p p' : Office × List Issued} {out : List Issued} (hp : Kept p)
    (h : office.recorded.Commits act p p' out) : Kept p' := by
  obtain ⟨hexec, hlog⟩ := Machine.recorded_commits.mp h
  obtain ⟨s, issues⟩ := p
  obtain ⟨s', issues'⟩ := p'
  dsimp only at hexec hlog
  unfold Machine.Commits office at hexec
  cases act with
  | savePrefix actor pre =>
    simp only [exec, bind_eq_ok, ensure_eq_ok, exists_and_left, exists_const, pure_eq_ok,
      Prod.mk.injEq] at hexec
    obtain ⟨-, -, -, rfl, rfl⟩ := hexec
    rw [List.append_nil] at hlog
    subst hlog
    exact ⟨hp.counted, hp.counters, hp.numbers, hp.stored, hp.drafts⟩
  | issue env pk =>
    simp only [exec, bind_eq_ok, lockInvoice_eq_ok, Prod.exists, pure_eq_ok, Prod.mk.injEq] at hexec
    obtain ⟨billing, _, hissue, l', hl', rfl, rfl⟩ := hexec
    obtain ⟨l, written, hl, hdraft, hput, hsequence, hnumber, hopen⟩ :=
      issueDraftInvoice_number hissue
    rw [hput, Table.get?_put_self hl] at hl'
    obtain rfl := Option.some.inj hl'
    subst hlog
    -- the next number is one more than those issued
    have hcount : billing.invoiceSequence = issues.length + 1 := by
      rw [hsequence, hp.counted]
    refine ⟨?_, ?_, ?_, ?_, ?_⟩
    · rw [List.length_append, hcount]
      rfl
    · rw [List.map_append, hp.counters, List.length_append, List.length_singleton,
        List.range_succ, List.map_append]
      simp only [List.map_cons, List.map_nil, hcount]
    · intro issued hissued
      rcases List.mem_append.mp hissued with hold | hnew
      · exact hp.numbers issued hold
      · obtain rfl := List.mem_singleton.mp hnew
        show written.invoice.number = numberAfter s.invoicePrefix (billing.invoiceSequence - 1)
        rw [hnumber, hsequence, Nat.add_sub_cancel]
    · have hne : written.invoice.number ≠ "" := by
        rw [hnumber]
        exact numberAfter_ne_empty _ _
      refine (issuedNumbers_put hl hput (hp.drafts pk l hl hdraft) hne).trans ?_
      rw [List.map_append]
      exact (hp.stored.cons _).trans (List.perm_append_singleton _ _).symm
    · show billing.invoices.Forall _
      rw [hput]
      exact hp.drafts.put fun hdraft' => absurd hdraft' hopen
  | meanwhile billing =>
    simp only [exec, bind_eq_ok, ensure_eq_ok, exists_and_left, exists_const, pure_eq_ok,
      Prod.mk.injEq] at hexec
    obtain ⟨⟨hnumbers, hsequence, hdrafts⟩, rfl, rfl⟩ := hexec
    rw [List.append_nil] at hlog
    subst hlog
    refine ⟨hsequence.trans hp.counted, hp.counters, hp.numbers, ?_, ?_⟩
    · show (issuedNumbers billing).Perm _
      rw [hnumbers]
      exact hp.stored
    · intro q l hl
      exact hdrafts (q, l) (Table.mem_entries.mpr hl)

/-- Every run keeps the numbers it issued. -/
theorem kept_run (acts : List Act) : Kept (office.run acts {}, office.log acts {}) := by
  have hrun := Machine.run_invariant (m := office.recorded) (I := Kept)
    (fun _ _ _ _ hp h => hp.step h) acts ({}, []) .empty
  rw [Machine.run_recorded, List.nil_append] at hrun
  exact hrun

/-! ### What the checker says -/

/-- The numbers of a run, where each reads as its counter, are a run from 1. -/
theorem sequenceProblems_of_read {p : Office × List Issued} (hp : Kept p)
    (hread : ∀ issued ∈ p.2, readBack issued.number = issued.counter) (key : String) :
    sequenceProblems key (issuedNumbers p.1.billing) p.1.billing.invoiceSequence = [] := by
  have hvalues : ((issuedNumbers p.1.billing).map readBack).Perm (runFromOne p.2.length) := by
    refine (hp.stored.map readBack).trans (.of_eq ?_)
    calc (p.2.map (·.number)).map readBack
        = p.2.map fun issued => (issued.counter : ℤ) := by
          rw [List.map_map]
          exact List.map_congr_left hread
      _ = (p.2.map (·.counter)).map fun n : ℕ => (n : ℤ) := by
          rw [List.map_map]
          rfl
      _ = runFromOne p.2.length := by
          rw [hp.counters, List.map_map]
          unfold runFromOne
          exact List.map_congr_left fun i _ => Nat.cast_succ i
  have hlength : ((issuedNumbers p.1.billing).map readBack).length = p.2.length := by
    rw [hvalues.length_eq, runFromOne, List.length_map, List.length_range]
  have hsorted : (runFromOne p.2.length).Pairwise (· ≤ ·) := by
    unfold runFromOne
    rw [List.pairwise_map]
    exact List.pairwise_lt_range.imp fun hlt => by omega
  unfold sequenceProblems
  dsimp only
  rw [List.append_eq_nil_iff, problem_eq_nil, problem_eq_nil, hlength, not_not, not_not]
  refine ⟨?_, hp.counted⟩
  -- the run from 1 is the only ascending list of these values
  have hascending := List.pairwise_mergeSort' (· ≤ ·) ((issuedNumbers p.1.billing).map readBack)
  exact ((List.mergeSort_perm _ _).trans hvalues).eq_of_pairwise' hascending hsorted

/-- Every number issued reads as its counter exactly where its prefix ends plain. -/
theorem Kept.readBack_iff {p : Office × List Issued} (hp : Kept p) {issued : Issued}
    (h : issued ∈ p.2) : readBack issued.number = issued.counter ↔ EndsPlain issued.pre := by
  have hcounter : issued.counter ∈ (List.range p.2.length).map (· + 1) := by
    rw [← hp.counters]
    exact List.mem_map_of_mem h
  obtain ⟨last, -, hlast⟩ := List.mem_map.mp hcounter
  rw [hp.numbers issued h, ← hlast, Nat.add_sub_cancel]
  exact readBack_eq_iff issued.pre last

/-- **When the checker reads back what was issued.** Each number of a run reads as its counter,
    and the checker finds no problem, exactly when no prefix that was in force at an issue ends
    in a digit other than zero. -/
theorem sequenceProblems_eq_nil_iff (acts : List Act) :
    ((∀ issued ∈ office.log acts {}, readBack issued.number = issued.counter)
        ∧ sequenceProblems "invoice" (issuedNumbers (office.run acts {}).billing)
            (office.run acts {}).billing.invoiceSequence = [])
      ↔ ∀ issued ∈ office.log acts {}, EndsPlain issued.pre := by
  have hkept := kept_run acts
  constructor
  · rintro ⟨hread, -⟩ issued h
    exact (hkept.readBack_iff h).mp (hread issued h)
  · intro hplain
    have hread : ∀ issued ∈ office.log acts {}, readBack issued.number = issued.counter :=
      fun issued h => (hkept.readBack_iff h).mpr (hplain issued h)
    exact ⟨hread, sequenceProblems_of_read hkept hread "invoice"⟩

/-! ### A prefix with a year -/

def accountant : Actor where
  pk := 0
  hasPerm := fun _ => true
  contactOf := fun _ => false
  isStaff := true

private theorem firstMonth_valid : 1 ≤ 1 ∧ 1 ≤ 12 := by decide

private theorem firstDay_valid : 1 ≤ 1 ∧ 1 ≤ daysInMonth 2026 1 := by decide

def newYear : Env where
  now := ⟨⟨2026, 1, 1, firstMonth_valid, firstDay_valid⟩, 0⟩
  localdate := fun moment => moment.date.toOrdinal
  isoDay := fun _ => "2026-01-01"
  clients := fun _ => { currency := "USD" }

/-- A draft over 10.00. -/
def oneDraft : Store where
  invoices := Table.insert {} {
    invoice := { client := 0, currency := "USD", subtotal := 1000, total := 1000 }
    items := [{ description := "Hosting", unitPrice := 1000, amount := 1000, total := 1000 }] }

/-- The first invoice is issued under a prefix that ends in the year. -/
def issueUnder (pre : String) : List Act :=
  [.savePrefix accountant pre, .meanwhile oneDraft, .issue newYear 0]

example : (office.log (issueUnder "INV-") {}).map (·.number) = ["INV-000001"] := by decide +kernel

/-- **The year is read as part of the number**: the checker reports a gap where there is none. -/
theorem not_sequenceProblems_eq_nil :
    ¬∀ acts : List Act,
      (∀ issued ∈ office.log acts {}, readBack issued.number = issued.counter)
        ∧ sequenceProblems "invoice" (issuedNumbers (office.run acts {}).billing)
            (office.run acts {}).billing.invoiceSequence = [] := by
  intro h
  have hread := (h (issueUnder "INV2026")).1 ⟨"INV2026", 1, "INV2026000001"⟩
  have hlog : office.log (issueUnder "INV2026") {} = [⟨"INV2026", 1, "INV2026000001"⟩] := by
    decide +kernel
  rw [hlog] at hread
  exact absurd (hread (List.mem_singleton_self _)) (by decide +kernel)

end WPanel.Billing.Numbering
