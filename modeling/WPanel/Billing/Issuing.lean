import WPanel.Billing.Calls
import WPanel.Billing.Numbering
import WPanel.Lib.Transactions

namespace WPanel.Billing.Issuing

open WPanel.Lib WPanel.Billing.Numbering

/-!
# Invoices that are issued at the same time

Issuing an invoice locks its draft, reads the settings and takes the next number of the sequence,
whose row stays locked until the transaction ends.  An order or an accepted quote is invoiced by a
transaction that makes the invoice itself.  Any number of them run at once, each may fail wherever
it is, which gives its number back, and the other services go on meanwhile.

* `Quiet`, `quiet_of_exec` — the services that issue nothing leave the numbers alone;
* `Phase`, `step` — how far a transaction has come, and what its next step does;
* `Change` — everything else that is committed meanwhile;
* `issuing` — every interleaving of them, over the rows they lock;
* `GapFree` — the numbers that are stored are those of the counters from 1 to the last one taken;
* `always_gapFree` — they are in every state of every run.
-/

/-! ### Services that issue nothing -/

/-- Every change of an invoice but issuing it. -/
def Unissued : Policy := fun _ act _ => act ≠ .issue

/-- Nothing is issued, and the sequence stays where it is. -/
structure Quiet (s s' : Store) : Prop where
  moves : ∃ out, Moves Unissued s.invoices s'.invoices out
  sequence : s'.invoiceSequence = s.invoiceSequence

/-- The services that issue an invoice. -/
def issuesInvoice : Call → Bool
  | .issueInvoice .. => true
  | .acceptQuote .. => true
  | _ => false

/-- A change other than issuing leaves the number, and makes no draft. -/
theorem number_of_step {pk : ℕ} {act : Billing.Act} {l l' : Ledger} {out : List Signal}
    (h : Billing.Step pk act l l' out) (hact : act ≠ .issue) :
    l'.invoice.number = l.invoice.number
      ∧ (l'.invoice.status = .draft → l.invoice.status = .draft) := by
  cases h with
  | edit => exact ⟨rfl, id⟩
  | issue => exact absurd rfl hact
  | request => exact ⟨rfl, id⟩
  | fail => exact ⟨rfl, id⟩
  | receive => exact ⟨rfl, (book_status_draft _ _ _ _).mp⟩
  | confirm => exact ⟨rfl, (book_status_draft _ _ _ _).mp⟩
  | settle => exact ⟨rfl, (book_status_draft _ _ _ _).mp⟩
  | refund => exact ⟨rfl, (book_status_draft _ _ _ _).mp⟩
  | cancel => exact ⟨rfl, fun h => by cases h⟩

/-- **Where nothing is issued, the numbers stored stay as they are.** -/
theorem numbers_of_moves {t t' : Table Ledger} {out : List Signal} (h : Moves Unissued t t' out)
    (ht : t.Forall fun _ l => Unnumbered l) :
    issuedNumbers { invoices := t' } = issuedNumbers { invoices := t }
      ∧ t'.Forall fun _ l => Unnumbered l := by
  induction h with
  | refl t => exact ⟨rfl, ht⟩
  | @create t l hborn hmay =>
    refine ⟨?_, ht.insert fun _ => hborn.number⟩
    unfold issuedNumbers
    rw [Table.entries_insert, List.filter_append, List.map_append]
    simp [hborn.number]
  | @step t pk act l l' out hl hstep hmay =>
    obtain ⟨hnumber, hdraft⟩ := number_of_step hstep hmay
    have hkept : Unnumbered l' := fun h => hnumber.trans (ht pk l hl (hdraft h))
    refine ⟨?_, ht.put hkept⟩
    exact Table.map_filter_entries_put hl (by dsimp only; rw [hnumber]) fun _ => hnumber
  | @delete t pk l hl hdraft =>
    refine ⟨?_, ht.erase pk⟩
    unfold issuedNumbers
    rw [Table.filter_entries_congr]
    -- a draft had no number to lose
    intro q a ha
    rw [Table.get?_erase]
    split
    · next heq =>
      subst heq
      refine ⟨fun h => (by cases h), fun h => ?_⟩
      cases hl.symm.trans h
      exact absurd (ht q l hl hdraft) (of_decide_eq_true ha)
    · rfl
  | trans _ _ ih ih' =>
    obtain ⟨hnumbers, hdrafts⟩ := ih ht
    obtain ⟨hnumbers', hdrafts'⟩ := ih' hdrafts
    exact ⟨hnumbers'.trans hnumbers, hdrafts'⟩

section

variable {env : Env} {actor : Actor} {pk client : ℕ} {id : TxId} {s s' : Store} {out : List Signal}

theorem Quiet.of_same (hinvoices : s'.invoices = s.invoices)
    (hsequence : s'.invoiceSequence = s.invoiceSequence) : Quiet s s' :=
  ⟨⟨[], hinvoices ▸ .refl _⟩, hsequence⟩

/-- **A service that issues nothing leaves the numbers alone.** -/
theorem quiet_of_exec {call : Call} (h : call.exec env s = .ok (s', out))
    (hcall : issuesInvoice call = false) : Quiet s s' := by
  obtain ⟨hmoves, hsequence, _⟩ := Call.exec_unissuing h (by rintro _ _ rfl; cases hcall)
    (by rintro _ _ rfl; cases hcall)
  exact ⟨⟨out, hmoves.mono fun _ _ _ => And.right⟩, hsequence⟩

end

/-! ### The transactions -/

/-- What an invoice is issued for. -/
inductive Target where
  /-- A stored draft. -/
  | draft (pk : ℕ)
  /-- An order, whose invoice the transaction makes. -/
  | order (figures : OrderFigures)
  /-- A quote that is accepted. -/
  | quote (actor : Actor) (pk : ℕ)

/-- A row that can be locked: of an invoice, of a quote, or the one of `NumberSequence`. -/
inductive Row where
  | invoice (pk : ℕ)
  | quote (pk : ℕ)
  | sequence
  deriving DecidableEq

/-- How far a transaction has come. -/
inductive Phase where
  | begun (target : Target)
  /-- Its draft or quote is locked. -/
  | holding (target : Target)
  /-- The settings are read. -/
  | ready (target : Target) (pre : String)
  /-- The sequence is locked too, and the invoice written with its number. -/
  | numbered (target : Target) (pre : String) (counter : ℕ) (l : Ledger)

def Target.rows : Target → List Row
  | .draft pk => [.invoice pk]
  | .order _ => []
  | .quote _ pk => [.quote pk]

/-- The rows a transaction has locked. -/
def Phase.rows : Phase → List Row
  | .begun _ => []
  | .holding target => target.rows
  | .ready target _ => target.rows
  | .numbered target _ _ _ => .sequence :: target.rows

inductive Advance where
  | next (env : Env)
  /-- Something fails, and everything is undone. -/
  | fail

/-- What is checked before anything is written. -/
def Target.check (env : Env) (s : Store) : Target → Except Err Unit
  | .draft pk => do
    let l ← lockInvoice s pk
    requireDraft l.invoice
  | .order figures => do
    let _ ← orderTotals figures
    return ()
  | .quote actor pk => do
    let _ ← lockQuoteForDecision env actor pk s
    return ()

/-- `BillingSettings.load()`, with the prefix as it was then. -/
def withPrefix (env : Env) (pre : String) : Env :=
  { env with settings := { env.settings with invoicePrefix := pre } }

/-- The documents as the transaction sees them once its invoice is issued, under the prefix it has
    read, and the key of the invoice. -/
def issued (env : Env) (pre : String) (s : Store) : Target → Except Err (ℕ × Store)
  | .draft pk => do
    let (s, _) ← issueDraftInvoice (withPrefix env pre) pk s
    return (pk, s)
  | .order figures => do
    let (pk, s, _) ← createInvoiceForOrder (withPrefix env pre) figures s
    return (pk, s)
  | .quote actor pk => do
    let (pk, s, _) ← acceptQuote (withPrefix env pre) actor pk s
    return (pk, s)

/-- What a transaction commits: its invoice and the sequence, and its quote as accepted, whatever
    the others have written. -/
def written (counter : ℕ) (l : Ledger) (s : Store) : Target → Store
  | .draft pk => { s with invoices := s.invoices.put pk l, invoiceSequence := counter }
  | .order _ => { s with invoices := s.invoices.insert l, invoiceSequence := counter }
  | .quote _ pk => { s with
      invoices := s.invoices.insert l
      invoiceSequence := counter
      quotes := s.quotes.updateKeys [pk] fun quote => { quote with status := .accepted } }

/-- The next step of a transaction. -/
def step : Advance → Office → Phase → Except Err (Stage Office Phase)
  | .fail, _, _ => .ok .rollsBack
  | .next env, s, .begun target => do
    target.check env s.billing
    return .goes (.holding target)
  | .next _, s, .holding target => .ok (.goes (.ready target s.invoicePrefix))
  | .next env, s, .ready target pre => do
    let (pk, billing) ← issued env pre s.billing target
    let l ← lockInvoice billing pk
    return .goes (.numbered target pre billing.invoiceSequence l)
  | .next _, s, .numbered target _ counter l =>
    .ok (.commits { s with billing := written counter l s.billing target })

/-- What else is committed. -/
inductive Change where
  /-- Staff save the settings with this prefix. -/
  | savePrefix (actor : Actor) (pre : String)
  /-- A service that issues nothing, with the rows it locks. -/
  | service (env : Env) (call : Call) (rows : List Row)

def Change.touches : Change → List Row
  | .savePrefix _ _ => []
  | .service _ _ rows => rows

/-- Invoices that are not among these rows stay as they are. -/
def Within (rows : List Row) (s s' : Store) : Prop :=
  ∀ entry ∈ s.invoices.entries,
    Row.invoice entry.1 ∈ rows ∨ s'.invoices.get? entry.1 = some entry.2

instance (rows : List Row) (s s' : Store) : Decidable (Within rows s s') :=
  inferInstanceAs (Decidable (∀ entry ∈ s.invoices.entries,
    Row.invoice entry.1 ∈ rows ∨ s'.invoices.get? entry.1 = some entry.2))

def change : Change → Office → Except Err Office
  | .savePrefix actor pre, s => do
    requirePerm actor .manageBilling
    ensure (pre.toList.length ≤ 10) (.invalid "BillingSettings" ["invoice_prefix"])
    return { s with invoicePrefix := pre }
  | .service env call rows, s => do
    ensure (issuesInvoice call = false) (.unexpected "an invoice is issued by a transaction")
    let (billing, _) ← call.exec env s.billing
    ensure (Within rows s.billing billing) (.unexpected "an invoice is locked before it is changed")
    return { s with billing }

theorem rows_begun (target : Target) : (Phase.begun target).rows = [] := rfl

/-- Invoices are issued, by any number of transactions at once. -/
def issuing : Transactions Office Row Phase Target Advance Change Err where
  start := .begun
  holds := Phase.rows
  holds_start := rows_begun
  step := step
  outside := change
  touches := Change.touches
  busy := .unexpected "the row is locked"
  gone := .unexpected "the transaction is over"

/-! ### What a transaction knows -/

/-- The numbers that are stored are those of the counters from 1 to the last one taken. -/
def GapFree (s : Store) : Prop :=
  ∃ issues : List Issued,
    issues.map (·.counter) = (List.range s.invoiceSequence).map (· + 1)
    ∧ (∀ issued ∈ issues, issued.number = numberAfter issued.pre (issued.counter - 1))
    ∧ (issuedNumbers s).Perm (issues.map (·.number))

/-- With the sequence locked, the number stays the next one, and the draft a draft. -/
def Phase.Knows (s : Office) : Phase → Prop
  | .numbered target pre counter l =>
    counter = s.billing.invoiceSequence + 1
    ∧ l.invoice.number = numberAfter pre s.billing.invoiceSequence
    ∧ l.invoice.status ≠ .draft
    ∧ ∀ pk, target = .draft pk →
      ∃ draft, s.billing.invoices.get? pk = some draft ∧ draft.invoice.status = .draft
  | _ => True

/-- An invoice that is made and issued at once gets the next number. -/
theorem issue_saved {env : Env} {s s₁ s₂ : Store} {invoice : Invoice} {items : List LineItem}
    {pk : ℕ} {l₀ : Ledger} {out : List Signal} (hsave : saveInvoice s invoice items = .ok (pk, s₁))
    (hissue : issue env pk l₀ s₁ = .ok (s₂, out)) :
    ∃ l, s₂.invoices.get? pk = some l ∧ s₂.invoiceSequence = s.invoiceSequence + 1
      ∧ l.invoice.number = numberAfter env.settings.invoicePrefix s.invoiceSequence
      ∧ l.invoice.status ≠ .draft := by
  obtain ⟨rfl, rfl, -, -⟩ := saveInvoice_eq_ok hsave
  unfold issue at hissue
  simp only [bind_eq_ok, pure_eq_ok, Prod.mk.injEq] at hissue
  obtain ⟨-, -, rfl, -⟩ := hissue
  refine ⟨_, Table.get?_put_self (Table.get?_insert_self _ _) _, rfl, rfl, ?_⟩
  dsimp only
  split <;> simp

/-- What a transaction has written once its invoice is issued. -/
theorem issued_spec {env : Env} {pre : String} {s s' : Store} {target : Target} {pk : ℕ}
    (h : issued env pre s target = .ok (pk, s')) :
    (∃ l, s'.invoices.get? pk = some l ∧ s'.invoiceSequence = s.invoiceSequence + 1
      ∧ l.invoice.number = numberAfter pre s.invoiceSequence ∧ l.invoice.status ≠ .draft)
    ∧ ∀ q, target = .draft q →
        ∃ draft, s.invoices.get? q = some draft ∧ draft.invoice.status = .draft := by
  cases target with
  | draft q =>
    simp only [issued, bind_eq_ok, pure_eq_ok, Prod.exists, Prod.mk.injEq] at h
    obtain ⟨s₁, signals, hissue, rfl, rfl⟩ := h
    obtain ⟨draft, l, hdraft, hstatus, hput, hsequence, hnumber, hopen⟩ :=
      issueDraftInvoice_number hissue
    refine ⟨⟨l, ?_, hsequence, hnumber, hopen⟩, fun q' hq => ?_⟩
    · rw [hput, Table.get?_put_self hdraft]
    · cases hq
      exact ⟨draft, hdraft, hstatus⟩
  | order figures =>
    refine ⟨?_, fun q hq => by cases hq⟩
    simp only [issued, createInvoiceForOrder, bind_eq_ok, pure_eq_ok, Prod.exists,
      Prod.mk.injEq] at h
    obtain ⟨_, _, _, ⟨totals, -, _, s₁, hsave, s₂, out, hissue, rfl, rfl, rfl⟩, rfl, rfl⟩ := h
    exact issue_saved hsave hissue
  | quote actor q =>
    refine ⟨?_, fun q hq => by cases hq⟩
    simp only [issued, acceptQuote, bind_eq_ok, pure_eq_ok, Prod.exists, Prod.mk.injEq] at h
    obtain ⟨_, _, _, ⟨quote, -, totals, -, _, s₁, hsave, s₂, out, hissue, rfl, rfl, rfl⟩, rfl,
      rfl⟩ := h
    exact issue_saved hsave hissue

/-- What a transaction knows after a step. -/
theorem knows_of_goes {a : Advance} {s : Office} {t t' : Phase}
    (h : step a s t = .ok (.goes t')) : t'.Knows s := by
  cases a with
  | fail => cases h
  | next env =>
    cases t with
    | begun target =>
      simp only [step, bind_eq_ok, pure_eq_ok, Stage.goes.injEq] at h
      obtain ⟨_, _, rfl⟩ := h
      trivial
    | holding target =>
      cases h
      trivial
    | ready target pre =>
      simp only [step, bind_eq_ok, pure_eq_ok, Prod.exists, Stage.goes.injEq] at h
      obtain ⟨pk, billing, hissued, l, hl, rfl⟩ := h
      obtain ⟨⟨l', hl', hsequence, hnumber, hopen⟩, hdraft⟩ := issued_spec hissued
      cases hl'.symm.trans (lockInvoice_eq_ok.mp hl)
      exact ⟨hsequence, hnumber, hopen, hdraft⟩
    | numbered target pre counter l => cases h

/-- Only a transaction that holds the sequence commits, and what it has written. -/
theorem numbered_of_commits {a : Advance} {s s' : Office} {t : Phase}
    (h : step a s t = .ok (.commits s')) :
    ∃ target pre counter l, t = .numbered target pre counter l
      ∧ s' = { s with billing := written counter l s.billing target } := by
  cases a with
  | fail => cases h
  | next env =>
    cases t with
    | begun target =>
      simp only [step, bind_eq_ok, pure_eq_ok, reduceCtorEq, and_false, exists_false] at h
    | holding target => cases h
    | ready target pre =>
      simp only [step, bind_eq_ok, pure_eq_ok, reduceCtorEq, and_false, exists_false] at h
    | numbered target pre counter l =>
      cases h
      exact ⟨target, pre, counter, l, rfl, rfl⟩

/-! ### What is committed -/

/-- A number that is written is the next of the sequence. -/
theorem kept_append {s : Office} {issues : List Issued} {billing : Store} {pre number : String}
    (hp : Numbering.Kept (s, issues))
    (hsequence : billing.invoiceSequence = s.billing.invoiceSequence + 1)
    (hnumber : number = numberAfter pre s.billing.invoiceSequence)
    (hstored : (issuedNumbers billing).Perm (number :: issuedNumbers s.billing))
    (hdrafts : billing.invoices.Forall fun _ l => Unnumbered l) :
    Numbering.Kept
      ({ s with billing }, issues ++ [⟨pre, s.billing.invoiceSequence + 1, number⟩]) := by
  have hcounted : s.billing.invoiceSequence = issues.length := hp.counted
  refine ⟨?_, ?_, ?_, ?_, hdrafts⟩
  · show billing.invoiceSequence = _
    rw [hsequence, hcounted, List.length_append, List.length_singleton]
  · show (issues ++ _).map _ = _
    rw [List.map_append, hp.counters, List.length_append, List.length_singleton, List.range_succ,
      List.map_append, hcounted]
    rfl
  · intro issued hissued
    rcases List.mem_append.mp hissued with hold | hnew
    · exact hp.numbers issued hold
    · cases List.mem_singleton.mp hnew
      exact hnumber
  · show (issuedNumbers billing).Perm ((issues ++ _).map _)
    rw [List.map_append]
    exact hstored.trans ((hp.stored.cons _).trans (List.perm_append_singleton _ _).symm)

/-- An invoice that is made with its number joins the numbers issued. -/
theorem issuedNumbers_insert {s s' : Store} {l : Ledger}
    (hs' : s'.invoices = s.invoices.insert l) (hnumber : l.invoice.number ≠ "") :
    (issuedNumbers s').Perm (l.invoice.number :: issuedNumbers s) := by
  have happend : issuedNumbers s' = issuedNumbers s ++ [l.invoice.number] := by
    unfold issuedNumbers
    rw [hs', Table.entries_insert, List.filter_append, List.map_append]
    simp [hnumber]
  rw [happend]
  exact List.perm_append_singleton _ _

/-- **What is committed takes the next counter.** -/
theorem sound_of_commits {a : Advance} {s s' : Office} {t : Phase}
    (h : step a s t = .ok (.commits s')) (hs : ∃ issues, Numbering.Kept (s, issues))
    (hknows : t.Knows s) : ∃ issues, Numbering.Kept (s', issues) := by
  obtain ⟨issues, hp⟩ := hs
  obtain ⟨target, pre, counter, l, rfl, rfl⟩ := numbered_of_commits h
  obtain ⟨rfl, hnumber, hopen, hdraft⟩ := hknows
  have hne : l.invoice.number ≠ "" := hnumber ▸ numberAfter_ne_empty _ _
  have hdrafts : s.billing.invoices.Forall fun _ l => Unnumbered l := hp.drafts
  have hnew : Unnumbered l := fun hdraft' => absurd hdraft' hopen
  refine ⟨_, kept_append hp ?_ hnumber ?_ ?_⟩
  · cases target <;> rfl
  · cases target with
    | draft pk =>
      obtain ⟨draft, hget, hstatus⟩ := hdraft pk rfl
      exact issuedNumbers_put hget rfl (hdrafts pk draft hget hstatus) hne
    | order figures => exact issuedNumbers_insert rfl hne
    | quote actor pk => exact issuedNumbers_insert rfl hne
  · cases target with
    | draft pk => exact hdrafts.put hnew
    | order figures => exact hdrafts.insert hnew
    | quote actor pk => exact hdrafts.insert hnew

/-- What another change leaves: the numbers and the sequence as they were, and the invoices it
    has not locked. -/
theorem change_spec {c : Change} {s s' : Office} (h : change c s = .ok s') :
    Quiet s.billing s'.billing ∧ Within c.touches s.billing s'.billing := by
  cases c with
  | savePrefix actor pre =>
    simp only [change, bind_eq_ok, ensure_eq_ok, exists_and_left, exists_const, pure_eq_ok] at h
    obtain ⟨-, -, -, rfl⟩ := h
    exact ⟨.of_same rfl rfl, fun entry hentry => .inr (Table.mem_entries.mp hentry)⟩
  | service env call rows =>
    simp only [change, bind_eq_ok, ensure_eq_ok, exists_and_left, exists_const, pure_eq_ok,
      Prod.exists] at h
    obtain ⟨hcall, billing, out, hexec, hwithin, rfl⟩ := h
    exact ⟨quiet_of_exec hexec hcall, hwithin⟩

/-- **Another change leaves the numbers alone.** -/
theorem sound_of_change {c : Change} {s s' : Office} (h : change c s = .ok s')
    (hs : ∃ issues, Numbering.Kept (s, issues)) : ∃ issues, Numbering.Kept (s', issues) := by
  obtain ⟨issues, hp⟩ := hs
  obtain ⟨⟨⟨out, hmoves⟩, hsequence⟩, -⟩ := change_spec h
  obtain ⟨hnumbers, hdrafts⟩ := numbers_of_moves hmoves hp.drafts
  refine ⟨issues, hsequence.trans hp.counted, hp.counters, hp.numbers, ?_, hdrafts⟩
  exact (List.Perm.of_eq hnumbers).trans hp.stored

/-- It leaves a locked draft alone too. -/
theorem knows_of_change {c : Change} {s s' : Office} {t : Phase} (h : change c s = .ok s')
    (hknows : t.Knows s) (hapart : c.touches.Disjoint t.rows) : t.Knows s' := by
  cases t with
  | begun target => trivial
  | holding target => trivial
  | ready target pre => trivial
  | numbered target pre counter l =>
    obtain ⟨⟨-, hsequence⟩, hwithin⟩ := change_spec h
    obtain ⟨hcounter, hnumber, hopen, hdraft⟩ := hknows
    refine ⟨?_, ?_, hopen, fun pk htarget => ?_⟩
    · rw [hsequence]
      exact hcounter
    · rw [hsequence]
      exact hnumber
    · obtain ⟨draft, hget, hstatus⟩ := hdraft pk htarget
      refine ⟨draft, ?_, hstatus⟩
      cases htarget
      rcases hwithin (pk, draft) (Table.mem_entries.mpr hget) with hmine | hsame
      · exact absurd (List.mem_cons_of_mem _ (List.mem_singleton_self _)) (hapart hmine)
      · exact hsame

/-- What holds of the documents, and what a transaction knows of them. -/
def rules : issuing.Rules where
  sound s := ∃ issues, Numbering.Kept (s, issues)
  knows := Phase.Knows
  knows_start _ _ _ := trivial
  knows_goes _ _ _ _ h _ _ := knows_of_goes h
  sound_commits _ _ _ _ := sound_of_commits
  knows_commits _ _ _ _ other h _ _ _ hapart := by
    obtain ⟨target, pre, counter, l, rfl, -⟩ := numbered_of_commits h
    cases other with
    | begun target => trivial
    | holding target => trivial
    | ready target pre => trivial
    | numbered target pre counter l =>
      -- the other one would hold the sequence as well
      exact absurd List.mem_cons_self (hapart List.mem_cons_self)
  sound_outside _ _ _ := sound_of_change
  knows_outside _ _ _ _ h _ hknows hapart := knows_of_change h hknows hapart

/-- **No counter is left out and none is taken twice**, in every state of every run, whichever
    transactions overlap, wherever they fail, and whatever else is done with the documents. -/
theorem always_gapFree (turns : List (Turn Target Advance Change)) :
    issuing.interleaving.machine.Always (fun x => GapFree x.shared.committed.billing) turns
      ⟨⟨{}, []⟩, {}⟩ := by
  refine (rules.always turns (s := {}) ⟨[], Numbering.Kept.empty⟩).mono fun x hsound => ?_
  obtain ⟨issues, hp⟩ := hsound
  refine ⟨issues, ?_, hp.numbers, hp.stored⟩
  rw [hp.counters, ← hp.counted]

end WPanel.Billing.Issuing
