import Mathlib.Order.Bounds.Basic
import WPanel.Billing.Models
import WPanel.Lib.Machine
import WPanel.Lib.Numerals

namespace WPanel.Billing.Reminders

open WPanel.Lib

/-!
# Payment reminders

`billing/reminders.py`: a daily job reminds the customer of every open invoice, on days counted
from its due date.  Only the most advanced day reached is reminded of, and a row of its own
keeps each day from being reminded of twice.

* `dueReminder`, `sendInvoiceReminders` — the job;
* `daily` — runs of the job on any days, with whatever happens to the invoices between them;
* `Kept` — what the runs so far leave behind for one invoice;
* `reminders_increasing` — its reminders go out in order, one a run, none twice.
-/

/-! ### The job -/

/-- How sending goes. -/
inductive Sending where
  /-- The notifications are written, and the email is queued. -/
  | done
  /-- They are written, and the queue fails after that: the email waits for the next sweep. -/
  | notQueued
  /-- Something fails on the way: all that was written is rolled back. -/
  | failed
  deriving DecidableEq, Repr

/-- A reminder that went out. -/
structure Sent where
  invoice : ℕ
  offset : ℤ
  daysOverdue : ℤ
  deriving DecidableEq, Repr

/-- What a run reports. -/
structure Result where
  sent : ℕ := 0
  skipped : ℕ := 0
  disabled : Bool := false
  deriving DecidableEq, Repr

/-- The rows of `InvoiceReminder`: an invoice and the day it was reminded of, as text. -/
abbrev Rows := List (ℕ × String)

/-- The configured day an invoice is due a reminder for, and the days it is overdue. -/
def dueReminder (dueDate today : ℕ) (schedule : List ℤ) : Option ℤ × ℤ :=
  let days : ℤ := (today : ℤ) - dueDate
  let eligible := schedule.filter fun offset => offset ≤ days
  match eligible.max? with
  | some offset => (some offset, max days 0)
  | none => (none, 0)

/-- One run of the job. -/
structure Run where
  today : ℕ
  /-- `BillingSettings.send_payment_reminders`. -/
  enabled : Bool := true
  /-- How sending goes for each invoice. -/
  sending : ℕ → Sending := fun _ => .done

/-- One invoice of a run: the rows after it, what went out, and whether it was counted as sent
    or as skipped. -/
def remind (schedule : List ℤ) (run : Run) (pk dueDate : ℕ) (rows : Rows) :
    Rows × List Sent × Result :=
  match dueReminder dueDate run.today schedule with
  | (none, _) => (rows, [], {})
  | (some offset, daysOverdue) =>
    let row := (pk, intText offset)
    if row ∈ rows then (rows, [], { skipped := 1 })
    else match run.sending pk with
      | .done => (rows ++ [row], [⟨pk, offset, daysOverdue⟩], { sent := 1 })
      | .notQueued => (rows ++ [row], [⟨pk, offset, daysOverdue⟩], {})
      | .failed => (rows, [], {})

/-- The loop over the invoices. -/
def remindAll (schedule : List ℤ) (run : Run) : List (ℕ × ℕ) → Rows → Rows × List Sent × Result
  | [], rows => (rows, [], {})
  | (pk, dueDate) :: rest, rows =>
    let (rows, out, result) := remind schedule run pk dueDate rows
    let (rows, out', result') := remindAll schedule run rest rows
    (rows, out ++ out',
      { sent := result.sent + result'.sent, skipped := result.skipped + result'.skipped })

/-- The open invoices with a balance and a due date. -/
def remindable (s : Store) : List (ℕ × ℕ) :=
  s.invoices.entries.filterMap fun entry =>
    if entry.2.invoice.status ∈ openStatuses ∧ ¬entry.2.invoice.balanceDue ≤ 0 then
      entry.2.invoice.dueDate.map fun dueDate => (entry.1, dueDate)
    else none

/-- `send_invoice_reminders(today=today)`. -/
def sendInvoiceReminders (schedule : List ℤ) (run : Run) (s : Store) (rows : Rows) :
    Rows × List Sent × Result :=
  if run.enabled then remindAll schedule run (remindable s) rows
  else (rows, [], { disabled := true })

/-! ### Days and days -/

/-- The invoices and the reminders. -/
structure Desk where
  billing : Store := {}
  rows : Rows := []

inductive Act where
  | run (run : Run)
  /-- Payments, refunds and whatever else happens to the invoices leave them like this. -/
  | meanwhile (billing : Store)

/-- The job on any days, under one schedule. -/
def daily (schedule : List ℤ) : Machine Desk Act Sent Err where
  exec
    | .run run, s =>
      let (rows, out, _) := sendInvoiceReminders schedule run s.billing s.rows
      .ok ({ s with rows }, out)
    | .meanwhile billing, s => .ok ({ s with billing }, [])

/-- The days of the runs. -/
def days : List Act → List ℕ :=
  List.filterMap fun act => match act with
    | .run run => some run.today
    | .meanwhile _ => none

/-- An invoice that is not a draft is due on this day. -/
def DueOn (pk dueDate : ℕ) (s : Store) : Prop :=
  ∀ l, s.invoices.get? pk = some l → ∀ d ∈ l.invoice.dueDate, d = dueDate

/-- The due date of the invoice stays what it is. -/
def Act.KeepsDue (pk dueDate : ℕ) : Act → Prop
  | .run _ => True
  | .meanwhile billing => DueOn pk dueDate billing

/-- The reminders of one invoice. -/
def sentTo (pk : ℕ) (out : List Sent) : List ℤ :=
  (out.filter fun sent => sent.invoice = pk).map (·.offset)

/-- The most advanced day of the schedule that is reached. -/
def MostAdvanced (schedule : List ℤ) (dueDate today : ℕ) (offset : ℤ) : Prop :=
  IsGreatest { o | o ∈ schedule ∧ o ≤ (today : ℤ) - dueDate } offset

/-! ### One run -/

section Run

variable {schedule : List ℤ} {run : Run} {pk dueDate : ℕ} {rows : Rows}

theorem sentTo_append (pk : ℕ) (out out' : List Sent) :
    sentTo pk (out ++ out') = sentTo pk out ++ sentTo pk out' := by
  unfold sentTo
  rw [List.filter_append, List.map_append]

theorem sentTo_remindAll_cons (schedule : List ℤ) (run : Run) (pk q due : ℕ)
    (rest : List (ℕ × ℕ)) (rows : Rows) :
    sentTo pk (remindAll schedule run ((q, due) :: rest) rows).2.1
      = sentTo pk (remind schedule run q due rows).2.1
        ++ sentTo pk (remindAll schedule run rest (remind schedule run q due rows).1).2.1 :=
  sentTo_append pk _ _

/-- The reminder that is due is for the most advanced day. -/
theorem dueReminder_spec {today : ℕ} {offset overdue : ℤ}
    (h : dueReminder dueDate today schedule = (some offset, overdue)) :
    MostAdvanced schedule dueDate today offset := by
  unfold dueReminder at h
  dsimp only at h
  split at h
  · next best hmax =>
    obtain rfl := Option.some.inj (Prod.mk.inj h).1
    obtain ⟨hmem, hupper⟩ := List.max?_eq_some_iff.mp hmax
    rw [List.mem_filter, decide_eq_true_eq] at hmem
    refine ⟨hmem, fun o ho => hupper o ?_⟩
    rw [List.mem_filter, decide_eq_true_eq]
    exact ho
  · cases h

/-- **What one invoice of a run comes to**: nothing, or the most advanced day, which was not
    reminded of before. -/
theorem remind_cases (schedule : List ℤ) (run : Run) (pk dueDate : ℕ) (rows : Rows) :
    ((remind schedule run pk dueDate rows).1 = rows
        ∧ (remind schedule run pk dueDate rows).2.1 = [])
      ∨ ∃ offset overdue, MostAdvanced schedule dueDate run.today offset
        ∧ (pk, intText offset) ∉ rows
        ∧ (remind schedule run pk dueDate rows).1 = rows ++ [(pk, intText offset)]
        ∧ (remind schedule run pk dueDate rows).2.1 = [⟨pk, offset, overdue⟩] := by
  unfold remind
  split
  · exact .inl ⟨rfl, rfl⟩
  · next offset overdue hdue =>
    dsimp only
    split
    · exact .inl ⟨rfl, rfl⟩
    · next hnew =>
      split
      · exact .inr ⟨offset, overdue, dueReminder_spec hdue, hnew, rfl, rfl⟩
      · exact .inr ⟨offset, overdue, dueReminder_spec hdue, hnew, rfl, rfl⟩
      · exact .inl ⟨rfl, rfl⟩

/-- The same rows of one invoice. -/
def SameRows (pk : ℕ) (rows rows' : Rows) : Prop := ∀ kind, (pk, kind) ∈ rows' ↔ (pk, kind) ∈ rows

/-- The reminder of another invoice leaves the rows of this one alone. -/
theorem remind_other {other : ℕ} (schedule : List ℤ) (run : Run) (dueDate : ℕ) (rows : Rows)
    (h : other ≠ pk) :
    SameRows pk rows (remind schedule run other dueDate rows).1
      ∧ sentTo pk (remind schedule run other dueDate rows).2.1 = [] := by
  rcases remind_cases schedule run other dueDate rows with
    ⟨hrows, hout⟩ | ⟨offset, overdue, -, -, hrows, hout⟩
  · rw [hrows, hout]
    exact ⟨fun _ => Iff.rfl, rfl⟩
  · rw [hrows, hout]
    constructor
    · intro kind
      rw [List.mem_append, List.mem_singleton, Prod.mk.injEq]
      exact or_iff_left fun heq => h heq.1.symm
    · unfold sentTo
      rw [List.filter_cons_of_neg (by simpa using h)]
      rfl

/-- An invoice the loop does not come by gets nothing. -/
theorem remindAll_absent (schedule : List ℤ) (run : Run) {entries : List (ℕ × ℕ)}
    (h : ∀ entry ∈ entries, entry.1 ≠ pk) (rows : Rows) :
    SameRows pk rows (remindAll schedule run entries rows).1
      ∧ sentTo pk (remindAll schedule run entries rows).2.1 = [] := by
  induction entries generalizing rows with
  | nil => exact ⟨fun _ => Iff.rfl, rfl⟩
  | cons entry rest ih =>
    obtain ⟨other, due⟩ := entry
    have hother : other ≠ pk := h (other, due) List.mem_cons_self
    obtain ⟨hrows, hout⟩ := remind_other schedule run due rows hother
    obtain ⟨hrows', hout'⟩ := ih (fun e he => h e (List.mem_cons_of_mem _ he))
      (remind schedule run other due rows).1
    refine ⟨fun kind => (hrows' kind).trans (hrows kind), ?_⟩
    rw [sentTo_remindAll_cons, hout, hout']
    rfl

/-- What a run comes to for one invoice: nothing, or one reminder, for the most advanced day,
    which it was not reminded of before. -/
def Reminded (schedule : List ℤ) (pk dueDate today : ℕ) (rows rows' : Rows) (out : List Sent) :
    Prop :=
  (SameRows pk rows rows' ∧ sentTo pk out = [])
    ∨ ∃ offset, MostAdvanced schedule dueDate today offset ∧ (pk, intText offset) ∉ rows
      ∧ (∀ kind, (pk, kind) ∈ rows' ↔ (pk, kind) ∈ rows ∨ kind = intText offset)
      ∧ sentTo pk out = [offset]

/-- **One run of the loop.** -/
theorem remindAll_reminded {entries : List (ℕ × ℕ)} (hnodup : (entries.map Prod.fst).Nodup)
    (hdue : ∀ d, (pk, d) ∈ entries → d = dueDate) (rows : Rows) :
    Reminded schedule pk dueDate run.today rows (remindAll schedule run entries rows).1
      (remindAll schedule run entries rows).2.1 := by
  induction entries generalizing rows with
  | nil => exact .inl ⟨fun _ => Iff.rfl, rfl⟩
  | cons entry rest ih =>
    obtain ⟨q, due⟩ := entry
    rw [List.map_cons, List.nodup_cons] at hnodup
    obtain ⟨hfresh, hrest⟩ := hnodup
    have hdue' : ∀ d, (pk, d) ∈ rest → d = dueDate := fun d hd =>
      hdue d (List.mem_cons_of_mem _ hd)
    unfold Reminded
    rw [sentTo_remindAll_cons]
    by_cases hq : q = pk
    · -- the invoice's own turn: the rest of the loop does not come by again
      subst hq
      obtain rfl := hdue due List.mem_cons_self
      have habsent : ∀ e ∈ rest, e.1 ≠ q := by
        intro e he heq
        exact hfresh (List.mem_map.mpr ⟨e, he, heq⟩)
      obtain ⟨hrows', hout'⟩ := remindAll_absent schedule run habsent
        (remind schedule run q due rows).1
      rw [hout', List.append_nil]
      rcases remind_cases schedule run q due rows with
        ⟨hrows, hout⟩ | ⟨offset, overdue, hmost, hnew, hrows, hout⟩
      · refine .inl ⟨fun kind => (hrows' kind).trans (by rw [hrows]), ?_⟩
        rw [hout]
        rfl
      · refine .inr ⟨offset, hmost, hnew, fun kind => (hrows' kind).trans ?_, ?_⟩
        · rw [hrows, List.mem_append, List.mem_singleton, Prod.mk.injEq, eq_self, true_and]
        · rw [hout]
          unfold sentTo
          rw [List.filter_cons_of_pos (by simp)]
          rfl
    · obtain ⟨hrows, hout⟩ := remind_other schedule run due rows hq
      rw [hout, List.nil_append]
      rcases ih hrest hdue' (remind schedule run q due rows).1 with
        ⟨hrows', hout'⟩ | ⟨offset, hmost, hnew, hrows', hout'⟩
      · exact .inl ⟨fun kind => (hrows' kind).trans (hrows kind), hout'⟩
      · exact .inr ⟨offset, hmost, fun hin => hnew ((hrows _).mpr hin),
          fun kind => (hrows' kind).trans (or_congr_left (hrows kind)), hout'⟩

private theorem keys_filterMap_sublist {α β : Type} {f : ℕ × α → Option (ℕ × β)}
    (hf : ∀ entry found, f entry = some found → found.1 = entry.1) (entries : List (ℕ × α)) :
    ((entries.filterMap f).map Prod.fst).Sublist (entries.map Prod.fst) := by
  induction entries with
  | nil => exact .slnil
  | cons entry rest ih =>
    rw [List.filterMap_cons, List.map_cons]
    split
    · exact ih.cons _
    · next found hfound =>
      rw [List.map_cons, hf entry found hfound]
      exact ih.cons_cons _

/-- The loop comes by each invoice once. -/
theorem nodup_remindable (s : Store) : ((remindable s).map Prod.fst).Nodup := by
  refine (keys_filterMap_sublist (fun entry found hfound => ?_) s.invoices.entries).nodup
    (Table.nodup_keys_entries _)
  split at hfound
  · obtain ⟨d, -, rfl⟩ := Option.map_eq_some_iff.mp hfound
    rfl
  · cases hfound

theorem mem_remindable {s : Store} {d : ℕ} (h : (pk, d) ∈ remindable s) :
    ∃ l, s.invoices.get? pk = some l ∧ l.invoice.dueDate = some d := by
  unfold remindable at h
  obtain ⟨⟨q, l⟩, hl, hentry⟩ := List.mem_filterMap.mp h
  dsimp only at hentry
  split at hentry
  · obtain ⟨d', hd, heq⟩ := Option.map_eq_some_iff.mp hentry
    obtain ⟨rfl, rfl⟩ := Prod.mk.inj heq
    exact ⟨l, Table.mem_entries.mp hl, hd⟩
  · cases hentry

/-- **One run of the job.** -/
theorem sendInvoiceReminders_reminded (schedule : List ℤ) (run : Run) (rows : Rows) {s : Store}
    (hdue : DueOn pk dueDate s) :
    Reminded schedule pk dueDate run.today rows (sendInvoiceReminders schedule run s rows).1
      (sendInvoiceReminders schedule run s rows).2.1 := by
  unfold sendInvoiceReminders
  split
  · refine remindAll_reminded (nodup_remindable s) (fun d hd => ?_) rows
    obtain ⟨l, hl, hd⟩ := mem_remindable hd
    exact hdue l hl d (Option.mem_def.mpr hd)
  · exact .inl ⟨fun _ => Iff.rfl, rfl⟩

end Run

/-! ### Runs on any days -/

section Runs

variable {schedule : List ℤ} {pk dueDate : ℕ}

/-- What the runs up to `day` leave behind for one invoice: its reminders went out in order,
    each has its row, and each is for a day that is reached. -/
structure Kept (schedule : List ℤ) (pk dueDate day : ℕ) (rows : Rows) (offsets : List ℤ) :
    Prop where
  increasing : offsets.Pairwise (· < ·)
  recorded : ∀ offset ∈ offsets, (pk, intText offset) ∈ rows
  reached : ∀ offset ∈ offsets, offset ∈ schedule ∧ offset ≤ (day : ℤ) - dueDate

/-- The next run comes on the same day or later. -/
theorem Kept.later {day day' : ℕ} {rows : Rows} {offsets : List ℤ}
    (h : Kept schedule pk dueDate day rows offsets) (hle : day ≤ day') :
    Kept schedule pk dueDate day' rows offsets := by
  refine ⟨h.increasing, h.recorded, fun offset hoffset => ?_⟩
  obtain ⟨hmem, hreached⟩ := h.reached offset hoffset
  exact ⟨hmem, by omega⟩

/-- **A run keeps the order**: the most advanced day is not before those reminded of, and its
    row says it is not one of them. -/
theorem Kept.reminded {day : ℕ} {rows rows' : Rows} {offsets : List ℤ} {out : List Sent}
    (h : Kept schedule pk dueDate day rows offsets)
    (hrun : Reminded schedule pk dueDate day rows rows' out) :
    Kept schedule pk dueDate day rows' (offsets ++ sentTo pk out) := by
  rcases hrun with ⟨hrows, hout⟩ | ⟨offset, hmost, hnew, hrows, hout⟩
  · rw [hout, List.append_nil]
    exact ⟨h.increasing, fun o ho => (hrows _).mpr (h.recorded o ho), h.reached⟩
  · rw [hout]
    refine ⟨?_, ?_, ?_⟩
    · rw [List.pairwise_append]
      refine ⟨h.increasing, List.pairwise_singleton _ _, fun o ho o' ho' => ?_⟩
      obtain rfl := List.mem_singleton.mp ho'
      have hle : o ≤ o' := hmost.2 (h.reached o ho)
      have hne : o ≠ o' := fun heq => hnew (heq ▸ h.recorded o ho)
      exact lt_of_le_of_ne hle hne
    · intro o ho
      rw [hrows]
      rcases List.mem_append.mp ho with hold | hlast
      · exact .inl (h.recorded o hold)
      · exact .inr (congrArg intText (List.mem_singleton.mp hlast))
    · intro o ho
      rcases List.mem_append.mp ho with hold | hlast
      · exact h.reached o hold
      · exact List.mem_singleton.mp hlast ▸ hmost.1

/-- What a call sends for one invoice: at most one reminder, for the most advanced day. -/
def OneMostAdvanced (schedule : List ℤ) (pk dueDate : ℕ) (act : Act) (out : List Sent) : Prop :=
  match act with
  | .run run => sentTo pk out = [] ∨ ∃ offset, sentTo pk out = [offset]
      ∧ MostAdvanced schedule dueDate run.today offset
  | .meanwhile _ => sentTo pk out = []

/-- **The reminders of an invoice**, by induction on the calls: they continue those that went
    out before in order. -/
theorem reminders_from {acts : List Act} {s : Desk} {day : ℕ} {offsets : List ℤ}
    (hs : DueOn pk dueDate s.billing) (hkept : Kept schedule pk dueDate day s.rows offsets)
    (hday : ∀ d ∈ days acts, day ≤ d) (hdays : (days acts).Pairwise (· ≤ ·))
    (hdue : ∀ act ∈ acts, act.KeepsDue pk dueDate) :
    (offsets ++ sentTo pk ((daily schedule).log acts s)).Pairwise (· < ·)
      ∧ ∀ call ∈ (daily schedule).trace acts s,
          OneMostAdvanced schedule pk dueDate call.2 ((daily schedule).sent call.2 call.1) := by
  induction acts generalizing s day offsets with
  | nil =>
    refine ⟨?_, fun call hcall => by cases hcall⟩
    show (offsets ++ []).Pairwise _
    rw [List.append_nil]
    exact hkept.increasing
  | cons act rest ih =>
    have hdue' : ∀ a ∈ rest, a.KeepsDue pk dueDate := fun a ha => hdue a (List.mem_cons_of_mem _ ha)
    cases act with
    | run run =>
      have hrun := sendInvoiceReminders_reminded schedule run s.rows hs
      generalize hresult : sendInvoiceReminders schedule run s.billing s.rows = result at hrun
      have hnext : (daily schedule).next (.run run) s = { s with rows := result.1 } := by
        rw [← hresult]
        rfl
      have hsent : (daily schedule).sent (.run run) s = result.2.1 := by
        rw [← hresult]
        rfl
      have hdays' : (run.today :: days rest).Pairwise (· ≤ ·) := hdays
      rw [List.pairwise_cons] at hdays'
      have hkept' := (hkept.later (hday run.today List.mem_cons_self)).reminded hrun
      obtain ⟨hpairs, hcalls⟩ :=
        ih (s := { s with rows := result.1 }) hs hkept' hdays'.1 hdays'.2 hdue'
      refine ⟨?_, ?_⟩
      · rw [Machine.log, hsent, hnext, sentTo_append, ← List.append_assoc]
        exact hpairs
      · intro call hcall
        rw [Machine.trace, hnext] at hcall
        rcases List.mem_cons.mp hcall with rfl | hrest
        · rw [hsent]
          refine hrun.imp And.right fun hone => ?_
          obtain ⟨offset, hmost, -, -, hout⟩ := hone
          exact ⟨offset, hout, hmost⟩
        · exact hcalls call hrest
    | «meanwhile» billing =>
      have hbilling : DueOn pk dueDate billing := hdue (.meanwhile billing) List.mem_cons_self
      obtain ⟨hpairs, hcalls⟩ := ih (s := { s with billing }) hbilling hkept hday hdays hdue'
      refine ⟨hpairs, fun call hcall => ?_⟩
      rcases List.mem_cons.mp hcall with rfl | hrest
      · exact rfl
      · exact hcalls call hrest

end Runs

/-! ### In order, and none twice -/

/-- **Reminders go out in order.** For an invoice whose due date stays what it is, under any
    schedule and with runs on days that do not go back, missed, repeated or failing: the days it
    is reminded of strictly increase, each run sends it at most one reminder, and that is for
    the most advanced day reached. -/
theorem reminders_increasing (schedule : List ℤ) (pk dueDate : ℕ) (acts : List Act)
    (hdays : (days acts).Pairwise (· ≤ ·)) (hdue : ∀ act ∈ acts, act.KeepsDue pk dueDate) :
    (sentTo pk ((daily schedule).log acts {})).Pairwise (· < ·)
      ∧ ∀ call ∈ (daily schedule).trace acts {},
          OneMostAdvanced schedule pk dueDate call.2 ((daily schedule).sent call.2 call.1) := by
  have hstart : Kept schedule pk dueDate 0 ([] : Rows) [] :=
    ⟨.nil, fun _ h => absurd h List.not_mem_nil, fun _ h => absurd h List.not_mem_nil⟩
  have hnone : DueOn pk dueDate {} := by
    intro l hl
    rw [show ({} : Store).invoices.get? pk = none from Table.get?_empty pk] at hl
    cases hl
  exact reminders_from (s := {}) hnone hstart (fun _ _ => Nat.zero_le _) hdays hdue

/-- An open invoice of 10.00, due on day 100. -/
def dueOnDay100 : Store where
  invoices := Table.insert {} {
    invoice := { client := 0, currency := "USD", status := .unpaid, number := "INV-000001"
                 dueDate := some 100, subtotal := 1000, total := 1000 }
    items := [] }

/-- Runs on days 97, 97, 104 and 107; the one on day 104 fails at first. -/
def fourRuns : List Act :=
  [.meanwhile dueOnDay100, .run { today := 97 }, .run { today := 97 },
    .run { today := 104, sending := fun _ => .failed }, .run { today := 107 }]

/-- The reminder before the due date goes out once, and the one of day 101 is overtaken by that
    of day 107. -/
theorem fourRuns_increasing :
    (sentTo 0 ((daily [-3, 1, 7, 14]).log fourRuns {})).Pairwise (· < ·)
      ∧ sentTo 0 ((daily [-3, 1, 7, 14]).log fourRuns {}) = [-3, 7] := by
  refine ⟨(reminders_increasing [-3, 1, 7, 14] 0 100 fourRuns (by decide) ?_).1, by decide +kernel⟩
  intro act hact
  rcases List.mem_cons.mp hact with rfl | hrun
  · intro l hl d hd
    obtain rfl := Option.some.inj hl
    exact (Option.some.inj hd).symm
  · simp only [List.mem_cons, List.not_mem_nil, or_false] at hrun
    rcases hrun with rfl | rfl | rfl | rfl <;> trivial

end WPanel.Billing.Reminders
