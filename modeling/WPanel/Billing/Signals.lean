import WPanel.Billing.Position

namespace WPanel.Billing

open WPanel.Lib

/-!
# What the signals say

The rest of the panel hears of invoices through `invoice_paid` and `invoice_cancelled` only.
This file relates the signals of a step to the invoice they are about.

* `Step.issued`, `Step.figures_eq`, … — what every step keeps;
* `Step.count_paid` — `invoice_paid` is sent exactly when a draft or open invoice becomes paid;
* `Step.stays_paid`, `Step.open_kept` — what becomes of paid and open invoices while no money
  is given back;
* `Told`, `Announced` — how often `invoice_paid` was sent, by the position of the invoice;
* `Step.announced`, `Step.late_unannounced` — only money that comes late makes an invoice paid
  without announcing it.
-/

variable {pk : ℕ} {act : Act} {l l' : Ledger} {out : List Signal}

/-! ### What a step keeps -/

theorem Step.order_eq (h : Step pk act l l' out) : l'.invoice.order = l.invoice.order := by
  cases h <;> rfl

/-- An issued invoice never becomes a draft again. -/
theorem Step.issued (h : Step pk act l l' out) (hl : l.invoice.status ≠ .draft) :
    l'.invoice.status ≠ .draft := by
  cases h with
  | edit hdraft => exact absurd hdraft hl
  | issue hdraft => exact absurd hdraft hl
  | request => exact hl
  | fail => exact hl
  | receive => exact fun hd => hl ((book_status_draft _ _ _ _).mp hd)
  | confirm => exact fun hd => hl ((book_status_draft _ _ _ _).mp hd)
  | settle => exact fun hd => hl ((book_status_draft _ _ _ _).mp hd)
  | refund => exact fun hd => hl ((book_status_draft _ _ _ _).mp hd)
  | cancel => nofun

/-- The figures of an issued invoice are final. -/
theorem Step.figures_eq (h : Step pk act l l' out) (hl : l.invoice.status ≠ .draft) :
    l'.invoice.figures = l.invoice.figures := by
  cases h with
  | edit hdraft => exact absurd hdraft hl
  | issue hdraft => exact absurd hdraft hl
  | request => rfl
  | fail => rfl
  | receive => rfl
  | confirm => rfl
  | settle => rfl
  | refund => rfl
  | cancel => rfl

theorem Step.total_eq (h : Step pk act l l' out) (hl : l.invoice.status ≠ .draft) :
    l'.invoice.total = l.invoice.total := congrArg Figures.total (h.figures_eq hl)

/-- A cancelled invoice stays cancelled. -/
theorem Step.stays_cancelled (h : Step pk act l l' out) (hl : l.invoice.status = .cancelled) :
    l'.invoice.status = .cancelled := by
  cases h with
  | edit hdraft => rw [hl] at hdraft; cases hdraft
  | issue hdraft => rw [hl] at hdraft; cases hdraft
  | request => exact hl
  | fail => exact hl
  | receive => exact (book_status_cancelled _ _ _ _).mpr hl
  | confirm => exact (book_status_cancelled _ _ _ _).mpr hl
  | settle => exact (book_status_cancelled _ _ _ _).mpr hl
  | refund => exact (book_status_cancelled _ _ _ _).mpr hl
  | cancel => rfl

/-! ### Signals of a step -/

/-- The statuses from which an invoice becomes paid with a signal. -/
def unsettled : List InvoiceStatus := .draft :: openStatuses

theorem book_signals (l : Ledger) (now : Moment) (pk : ℕ) (txs : List Transaction) :
    (l.book now pk txs).2 =
      (if (l.book now pk txs).1.invoice.status = .paid ∧ l.invoice.status ∈ openStatuses
        then [Signal.invoicePaid pk] else [])
      ++ (if (l.book now pk txs).1.invoice.amountRefunded ≠ l.invoice.amountRefunded
        then [Signal.invoiceRefunded pk] else []) := rfl

theorem mem_book_signals {l : Ledger} {now : Moment} {pk : ℕ} {txs : List Transaction}
    {signal : Signal} (h : signal ∈ (l.book now pk txs).2) :
    signal = .invoicePaid pk ∨ signal = .invoiceRefunded pk := by
  rw [book_signals, List.mem_append, List.mem_ite_nil_right, List.mem_ite_nil_right,
    List.mem_singleton, List.mem_singleton] at h
  exact h.imp And.right And.right

/-- Booking announces an invoice as paid once at most. -/
theorem book_count_paid (l : Ledger) (now : Moment) (pk : ℕ) (txs : List Transaction) :
    (l.book now pk txs).2.count (.invoicePaid pk) =
      if (l.book now pk txs).1.invoice.status = .paid ∧ l.invoice.status ∈ unsettled then 1
      else 0 := by
  -- a draft stays a draft, so only an open invoice becomes paid here
  have hiff : ((l.book now pk txs).1.invoice.status = .paid ∧ l.invoice.status ∈ unsettled) ↔
      ((l.book now pk txs).1.invoice.status = .paid ∧ l.invoice.status ∈ openStatuses) := by
    refine and_congr_right fun hpaid => ?_
    simp only [unsettled, List.mem_cons, or_iff_right_iff_imp]
    intro hd
    rw [(book_status_draft l now pk txs).mpr hd] at hpaid
    cases hpaid
  rw [book_signals, List.count_append]
  simp only [hiff]
  generalize (l.book now pk txs).1.invoice.status = status
  generalize (l.book now pk txs).1.invoice.amountRefunded = refunded
  split <;> split <;> simp

/-- **`invoice_paid` is sent exactly when a draft or open invoice becomes paid**, and then
    once. -/
theorem Step.count_paid (h : Step pk act l l' out) :
    out.count (.invoicePaid pk) =
      if l'.invoice.status = .paid ∧ l.invoice.status ∈ unsettled then 1 else 0 := by
  cases h with
  | edit hdraft => simp [Invoice.withFigures, hdraft]
  | @issue _ doc _ _ _ _ _ _ _ hdraft =>
    by_cases h0 : doc.total = 0 <;>
      simp [Invoice.withFigures, Invoice.opened, h0, hdraft, unsettled]
  | request hopen => rcases List.mem_pair.mp hopen with ho | ho <;> simp [ho]
  | fail =>
    rw [List.count_nil, if_neg]
    rintro ⟨hpaid, hunsettled⟩
    rw [show l.invoice.status = .paid from hpaid] at hunsettled
    exact absurd hunsettled (by decide)
  | receive => exact book_count_paid _ _ _ _
  | confirm => exact book_count_paid _ _ _ _
  | settle => exact book_count_paid _ _ _ _
  | refund => exact book_count_paid _ _ _ _
  | cancel => simp

/-- The signals of a step are about its own invoice. -/
theorem Step.signal_invoice (h : Step pk act l l' out) {signal : Signal} (hs : signal ∈ out) :
    signal = .invoicePaid pk ∨ signal = .invoiceCancelled pk ∨ signal = .invoiceRefunded pk := by
  have hbook : ∀ now txs, signal ∈ (l.book now pk txs).2 →
      signal = .invoicePaid pk ∨ signal = .invoiceCancelled pk ∨ signal = .invoiceRefunded pk :=
    fun now txs hmem => (mem_book_signals hmem).imp_right .inr
  cases h with
  | edit => cases hs
  | issue =>
    split at hs
    · exact .inl (List.mem_singleton.mp hs)
    · cases hs
  | request => cases hs
  | fail => cases hs
  | receive => exact hbook _ _ hs
  | confirm => exact hbook _ _ hs
  | settle => exact hbook _ _ hs
  | refund => exact hbook _ _ hs
  | cancel => exact .inr (.inl (List.mem_singleton.mp hs))

/-- Only an invoice that is paid now, and was not, is announced as paid. -/
theorem Step.paid_signal (h : Step pk act l l' out) {q : ℕ} (hs : .invoicePaid q ∈ out) :
    q = pk ∧ l'.invoice.status = .paid ∧ l.invoice.status ∈ unsettled := by
  have hq : q = pk := by
    rcases h.signal_invoice hs with hq | hq | hq <;> cases hq
    rfl
  subst hq
  have hcount := List.count_pos_iff.mpr hs
  rw [h.count_paid] at hcount
  split at hcount
  · next hbecomes => exact ⟨rfl, hbecomes⟩
  · omega

/-- Only a cancelled invoice is announced as cancelled. -/
theorem Step.cancelled_signal (h : Step pk act l l' out) {q : ℕ} (hs : .invoiceCancelled q ∈ out) :
    q = pk ∧ l'.invoice.status = .cancelled := by
  have hq : q = pk := by
    rcases h.signal_invoice hs with hq | hq | hq <;> cases hq
    rfl
  refine ⟨hq, ?_⟩
  have hbook : ∀ now txs, .invoiceCancelled q ∉ (l.book now pk txs).2 := by
    intro now txs hmem
    rcases mem_book_signals hmem with h | h <;> cases h
  cases h with
  | edit => cases hs
  | issue => split at hs <;> simp at hs
  | request => cases hs
  | fail => cases hs
  | receive => exact absurd hs (hbook _ _)
  | confirm => exact absurd hs (hbook _ _)
  | settle => exact absurd hs (hbook _ _)
  | refund => exact absurd hs (hbook _ _)
  | cancel => rfl

/-! ### Paid and open invoices -/

/-- Money that was not all given back makes an invoice paid, or part of it. -/
theorem statusFor_of_kept {paid refunded total : ℤ} (h0 : 0 < paid) (h : refunded < paid) :
    statusFor paid refunded total = if total ≤ paid then .paid else .partiallyPaid := by
  unfold statusFor
  rw [if_neg (by omega)]
  simp only [ge_iff_le, gt_iff_lt, h0, if_true]

/-- What was paid covers the total of a paid invoice. -/
theorem Sound.total_le_paid (hs : Sound l) (h : l.invoice.status = .paid) :
    l.invoice.total ≤ l.invoice.amountPaid := by
  have hst := hs.status (by rw [h]; nofun) (by rw [h]; nofun)
  rw [h] at hst
  unfold statusFor at hst
  split at hst
  · cases hst
  · split at hst
    · next hle => exact hle
    · split at hst <;> cases hst

/-- An open invoice is not fully paid. -/
theorem Sound.paid_lt_total (hs : Sound l) (h : l.invoice.status ∈ openStatuses) :
    l.invoice.amountPaid < l.invoice.total := by
  have hst := hs.status (ne_of_open h).1 (ne_of_open h).2
  by_contra hle
  unfold statusFor at hst
  rw [if_pos (show l.invoice.amountPaid ≥ l.invoice.total by omega)] at hst
  split at hst <;> rw [← hst] at h <;> exact absurd h (by decide)

/-- The status after one more payment of an invoice that is neither draft nor cancelled. -/
private theorem book_payment_status (hs : Sound l) (hdraft : l.invoice.status ≠ .draft)
    (hcancelled : l.invoice.status ≠ .cancelled) {txs : List Transaction} {amount : ℤ}
    (hpos : 0 < amount) (hpaid : succeededTotal .payment txs = l.invoice.amountPaid + amount)
    (hrefunded : succeededTotal .refund txs = l.invoice.amountRefunded) (now : Moment) (pk : ℕ) :
    (l.book now pk txs).1.invoice.status =
      if l.invoice.total ≤ l.invoice.amountPaid + amount then .paid else .partiallyPaid := by
  have hle := hs.refunded_le_paid
  have h0 := hs.paid_nonneg
  rw [book_status, if_pos ⟨hdraft, hcancelled⟩, hpaid, hrefunded]
  exact statusFor_of_kept (by omega) (by omega)

/-- A receipt does not touch the refunds. -/
theorem Sound.book_append_refunded (hs : Sound l) {tx : Transaction} (htype : tx.type = .payment) :
    succeededTotal .refund (l.transactions ++ [tx]) = l.invoice.amountRefunded := by
  rw [succeededTotal_append, ← hs.refunded]
  simp [credit, htype, Ledger.refundedTotal]

/-- A refund is announced as one, and pays nothing. -/
theorem Step.refund_signals (h : Step pk .refund l l' out) (hs : Sound l) :
    out = [.invoiceRefunded pk] := by
  cases h with
  | @refund _ i payment tx now htx hpayment hsucceeded htype hstatus hparent hamount =>
    have hunpaid : ¬((l.book now pk (l.transactions ++ [tx])).1.invoice.status = .paid
        ∧ l.invoice.status ∈ openStatuses) := by
      rintro ⟨hpaid, hopen⟩
      -- an open invoice is not paid in full
      have hlt := hs.paid_lt_total hopen
      rw [book_status, if_pos (ne_of_open hopen), hs.book_refund_paid htype, statusFor] at hpaid
      split at hpaid
      · cases hpaid
      · rw [if_neg (by omega)] at hpaid
        split at hpaid <;> cases hpaid
    have hrefunded : (l.book now pk (l.transactions ++ [tx])).1.invoice.amountRefunded
        ≠ l.invoice.amountRefunded := by
      rw [book_amountRefunded, hs.book_refund_refunded htype hstatus]
      omega
    rw [book_signals, if_neg hunpaid, if_pos hrefunded, List.nil_append]

/-- What one more succeeded payment makes of an issued, uncancelled invoice. -/
theorem Step.paid_status (h : Step pk act l l' out) (hs : Sound l)
    (hact : act ∈ [.receive, .confirm, .settle]) (hcancelled : l.invoice.status ≠ .cancelled) :
    ∃ amount, 0 < amount ∧ l'.invoice.amountPaid = l.invoice.amountPaid + amount
      ∧ l'.invoice.amountRefunded = l.invoice.amountRefunded
      ∧ l'.invoice.status =
        if l.invoice.total ≤ l.invoice.amountPaid + amount then .paid else .partiallyPaid := by
  cases h with
  | edit => exact absurd hact (by decide)
  | issue => exact absurd hact (by decide)
  | request => exact absurd hact (by decide)
  | fail => exact absurd hact (by decide)
  | @receive _ tx now hopen htype hstatus hparent hamount hbalance =>
    have hpaid := hs.book_append_paid htype hstatus
    have hrefunded := hs.book_append_refunded htype
    exact ⟨tx.amount, hamount, hpaid, hrefunded,
      book_payment_status hs (ne_of_open hopen).1 hcancelled hamount hpaid hrefunded _ _⟩
  | @confirm _ i tx now htx htype hstatus hopen hbalance =>
    have hpending : tx.status ≠ .succeeded := by simp [hstatus]
    have hpos := hs.kept.amount tx (List.mem_of_getElem? htx)
    have hpaid := hs.book_set_paid htx htype hpending now tx.failureReason
    have hrefunded := hs.book_set_refunded htx htype hpending now tx.failureReason
    exact ⟨tx.amount, hpos, hpaid, hrefunded,
      book_payment_status hs (ne_of_open hopen).1 hcancelled hpos hpaid hrefunded _ _⟩
  | @settle _ i tx now htx htype hstatus =>
    have hpos := hs.kept.amount tx (List.mem_of_getElem? htx)
    have hpaid := hs.book_set_paid htx htype hstatus now ""
    have hrefunded := hs.book_set_refunded htx htype hstatus now ""
    exact ⟨tx.amount, hpos, hpaid, hrefunded,
      book_payment_status hs (hs.issued_of_transaction htx) hcancelled hpos hpaid hrefunded _ _⟩
  | refund => exact absurd hact (by decide)
  | cancel => exact absurd hact (by decide)

/-- A paid invoice stays paid unless money is given back. -/
theorem Step.stays_paid (h : Step pk act l l' out) (hs : Sound l) (hact : act ≠ .refund)
    (hl : l.invoice.status = .paid) : l'.invoice.status = .paid := by
  by_cases hpays : act ∈ [.receive, .confirm, .settle]
  · obtain ⟨amount, hpos, _, _, hstatus⟩ := h.paid_status hs hpays (by rw [hl]; nofun)
    have hle := hs.total_le_paid hl
    rw [hstatus, if_pos (by omega)]
  · cases h with
    | edit hdraft => rw [hl] at hdraft; cases hdraft
    | issue hdraft => rw [hl] at hdraft; cases hdraft
    | request => exact hl
    | fail => exact hl
    | receive => exact absurd (by decide) hpays
    | confirm => exact absurd (by decide) hpays
    | settle => exact absurd (by decide) hpays
    | refund => exact absurd rfl hact
    | cancel hstatus =>
      rcases hstatus with hstatus | hstatus <;> rw [hl] at hstatus <;> cases hstatus

/-- Issuing an invoice opens it, or announces it as paid. -/
theorem Step.issue_opens (h : Step pk .issue l l' out) :
    l'.invoice.status ∈ openStatuses ∨ .invoicePaid pk ∈ out := by
  cases h with
  | @issue _ doc currency rate items number issueDate dueDate now =>
    by_cases h0 : doc.total = 0
    · right
      rw [if_pos h0]
      exact List.mem_singleton_self _
    · left
      have h0' : (l.invoice.withFigures doc currency rate).total ≠ 0 := h0
      simp only [Invoice.opened, if_neg h0']
      decide

/-- An open invoice stays open until it is announced as paid or cancelled, unless money is
    given back. -/
theorem Step.open_kept (h : Step pk act l l' out) (hs : Sound l) (hact : act ≠ .refund)
    (hl : l.invoice.status ∈ openStatuses) :
    l'.invoice.status ∈ openStatuses ∨ .invoicePaid pk ∈ out ∨ .invoiceCancelled pk ∈ out := by
  by_cases hpays : act ∈ [.receive, .confirm, .settle]
  · obtain ⟨amount, _, _, _, hstatus⟩ := h.paid_status hs hpays (ne_of_open hl).2
    by_cases hfull : l.invoice.total ≤ l.invoice.amountPaid + amount
    · right; left
      rw [← List.count_pos_iff, h.count_paid, hstatus, if_pos hfull,
        if_pos ⟨rfl, List.mem_cons_of_mem _ hl⟩]
      omega
    · left
      rw [hstatus, if_neg hfull]
      decide
  · cases h with
    | edit hdraft => exact absurd hdraft (ne_of_open hl).1
    | issue hdraft => exact absurd hdraft (ne_of_open hl).1
    | request => exact .inl hl
    | fail => exact .inl hl
    | receive => exact absurd (by decide) hpays
    | confirm => exact absurd (by decide) hpays
    | settle => exact absurd (by decide) hpays
    | refund => exact absurd rfl hact
    | cancel => exact .inr (.inr List.mem_cons_self)

/-- Only a draft or an unpaid invoice becomes cancelled. -/
theorem Step.cancelled_from (h : Step pk act l l' out) (hl' : l'.invoice.status = .cancelled) :
    l.invoice.status ∈ unsettled ∨ l.invoice.status = .cancelled := by
  cases h with
  | edit hdraft => exact .inl (by rw [hdraft]; decide)
  | issue hdraft => exact .inl (by rw [hdraft]; decide)
  | request => exact .inr hl'
  | fail => exact .inr hl'
  | receive => exact .inr ((book_status_cancelled _ _ _ _).mp hl')
  | confirm => exact .inr ((book_status_cancelled _ _ _ _).mp hl')
  | settle => exact .inr ((book_status_cancelled _ _ _ _).mp hl')
  | refund => exact .inr ((book_status_cancelled _ _ _ _).mp hl')
  | cancel hstatus => exact .inl (by rcases hstatus with h | h <;> rw [h] <;> decide)

/-- Only a refund takes an unsettled invoice to refunded, and it brings no money. -/
theorem Step.refunded_from (h : Step pk act l l' out) (hs : Sound l)
    (hl : l.invoice.status ∈ unsettled) (hl' : l'.invoice.status = .refunded) :
    l'.invoice.amountPaid < l'.invoice.total := by
  rcases List.mem_cons.mp hl with hdraft | hopen
  · -- a draft has no transactions, and is neither refunded nor becomes so
    cases h with
    | edit => cases hdraft.symm.trans hl'
    | issue =>
      simp only [Invoice.opened] at hl'
      split at hl' <;> cases hl'
    | request hopen => exact absurd hdraft (ne_of_open hopen).1
    | fail htx => exact absurd hdraft (hs.issued_of_transaction htx)
    | receive hopen => exact absurd hdraft (ne_of_open hopen).1
    | confirm htx => exact absurd hdraft (hs.issued_of_transaction htx)
    | settle htx => exact absurd hdraft (hs.issued_of_transaction htx)
    | refund htx => exact absurd hdraft (hs.issued_of_transaction htx)
    | cancel => cases hl'
  · have hlt := hs.paid_lt_total hopen
    by_cases hact : act = .refund
    · subst hact
      cases h with
      | refund _ _ _ htype =>
        rw [book_amountPaid, hs.book_refund_paid htype]
        exact hlt
    · rcases h.open_kept hs hact hopen with ho | hp | hc
      · rw [hl'] at ho; exact absurd ho (by decide)
      · cases (h.paid_signal hp).2.1.symm.trans hl'
      · cases (h.cancelled_signal hc).2.symm.trans hl'

/-! ### How often `invoice_paid` is sent -/

/-- How often, `n` times, `invoice_paid` can have been sent for an invoice in this position. -/
structure Told (l : Ledger) (n : ℕ) : Prop where
  unsettled : l.invoice.status ∈ unsettled ∨ l.invoice.status = .cancelled → n = 0
  once : n ≤ 1
  covered : n = 1 → l.invoice.total ≤ l.invoice.amountPaid

/-- An invoice whose payments cover its total was announced. -/
def Announced (l : Ledger) (n : ℕ) : Prop :=
  l.invoice.status = .paid ∨ l.invoice.status = .refunded →
    l.invoice.total ≤ l.invoice.amountPaid → n = 1

/-- The step brings an invoice whose money was all given back, before it had ever been paid in
    full, up to its total. -/
def Late (l l' : Ledger) : Prop :=
  l.invoice.status = .refunded ∧ l.invoice.amountPaid < l.invoice.total
    ∧ l.invoice.total ≤ l'.invoice.amountPaid

instance (l l' : Ledger) : Decidable (Late l l') := by unfold Late; infer_instance

theorem Born.told (h : Born l) : Told l 0 ∧ Announced l 0 := by
  refine ⟨⟨fun _ => rfl, by omega, fun h => by omega⟩, ?_⟩
  rintro (hp | hr)
  · rw [h.status] at hp; cases hp
  · rw [h.status] at hr; cases hr

section Told

variable {n : ℕ}

/-- An invoice that was announced is issued, and stays covered. -/
private theorem Told.covered_step (ht : Told l n) (hs : Sound l) (h : Step pk act l l' out)
    (hn : n = 1) : l'.invoice.total ≤ l'.invoice.amountPaid := by
  have hissued : l.invoice.status ≠ .draft := by
    intro hd
    have := ht.unsettled (.inl (by rw [hd]; decide))
    omega
  rw [h.total_eq hissued]
  exact (ht.covered hn).trans (h.paid_mono hs)

/-- A step that announces the invoice as paid tells it once more. -/
theorem Step.told (h : Step pk act l l' out) (hs : Sound l) (ht : Told l n) :
    Told l' (n + out.count (.invoicePaid pk)) := by
  have hs' := h.sound hs
  have honce := ht.once
  rw [h.count_paid]
  refine ⟨fun hl' => ?_, ?_, fun hn => ?_⟩
  · -- nothing was sent now, and nothing before: it would be covered
    rw [if_neg (by rintro ⟨hp, _⟩; rw [hp] at hl'; exact absurd hl' (by decide)), add_zero]
    rcases hl' with hl' | hl'
    · by_contra hne
      have hcovered := ht.covered_step hs h (by omega)
      rcases List.mem_cons.mp hl' with hdraft | hopen
      · have hl : l.invoice.status = .draft := by
          by_contra hd
          exact h.issued hd hdraft
        exact hne (ht.unsettled (.inl (by rw [hl]; decide)))
      · have := hs'.paid_lt_total hopen
        omega
    · exact ht.unsettled (h.cancelled_from hl')
  · split
    · next hb =>
      have := ht.unsettled (.inl hb.2)
      omega
    · omega
  · split at hn
    · next hb => exact hs'.total_le_paid hb.1
    · exact ht.covered_step hs h (by omega)

/-- **A step that is not late leaves a covered invoice announced.** -/
theorem Step.announced (h : Step pk act l l' out) (hs : Sound l) (ht : Told l n)
    (ha : Announced l n) (hlate : ¬Late l l') : Announced l' (n + out.count (.invoicePaid pk)) := by
  intro hl' hcovered
  rw [h.count_paid]
  by_cases hun : l.invoice.status ∈ unsettled
  · have hn := ht.unsettled (.inl hun)
    rcases hl' with hpaid | hrefunded
    · rw [if_pos ⟨hpaid, hun⟩, hn]
    · have := h.refunded_from hs hun hrefunded
      omega
  · rw [if_neg (fun hb => hun hb.2), add_zero]
    -- so it was paid or refunded before, and covered: only late money could have covered it now
    have hissued : l.invoice.status ≠ .draft := fun hd => hun (by rw [hd]; decide)
    have htotal := h.total_eq hissued
    cases hstatus : l.invoice.status with
    | draft => exact absurd hstatus hissued
    | unpaid => exact absurd (by rw [hstatus]; decide) hun
    | partiallyPaid => exact absurd (by rw [hstatus]; decide) hun
    | cancelled =>
      have hc := h.stays_cancelled hstatus
      rcases hl' with hl' | hl' <;> cases hc.symm.trans hl'
    | paid => exact ha (.inl hstatus) (hs.total_le_paid hstatus)
    | refunded =>
      refine ha (.inr hstatus) ?_
      by_contra hlt
      exact hlate ⟨hstatus, by omega, by omega⟩

/-- **A late step leaves an invoice paid that was never announced.** -/
theorem Step.late_unannounced (h : Step pk act l l' out) (hs : Sound l) (ht : Told l n)
    (hlate : Late l l') :
    l'.invoice.status = .paid ∧ n + out.count (.invoicePaid pk) = 0 := by
  obtain ⟨hrefunded, hlt, hle⟩ := hlate
  have hpays : act ∈ [.receive, .confirm, .settle] := by
    -- every other step leaves the amount paid as it was
    by_contra hno
    have hsame : l'.invoice.amountPaid ≤ l.invoice.amountPaid := by
      cases h with
      | edit hdraft => rw [hrefunded] at hdraft; cases hdraft
      | issue hdraft => rw [hrefunded] at hdraft; cases hdraft
      | request => exact le_refl _
      | fail => exact le_refl _
      | receive => exact absurd (by decide) hno
      | confirm => exact absurd (by decide) hno
      | settle => exact absurd (by decide) hno
      | refund _ _ _ htype => exact (hs.book_refund_paid htype).le
      | cancel => exact le_refl _
    omega
  obtain ⟨amount, _, hpaid, _, hstatus⟩ := h.paid_status hs hpays (by rw [hrefunded]; nofun)
  refine ⟨by rw [hstatus, if_pos (by omega)], ?_⟩
  rw [h.count_paid, if_neg (by rw [hrefunded]; exact fun hb => absurd hb.2 (by decide)), add_zero]
  have honce := ht.once
  by_contra hne
  have := ht.covered (by omega)
  omega

end Told

end WPanel.Billing
