import WPanel.Billing.Ledger
import WPanel.Billing.Transactions

namespace WPanel.Billing

open WPanel.Lib

/-!
# The position of an invoice

`Sound` is the invariant of one invoice: its transactions are well kept, its figures are
those of its lines, and its paid and refunded amounts and its status are the ones its
succeeded transactions give.  `Step.sound` proves it once for each kind of change.

From it follow the facts about money the services promise:

* `Sound.refunds_le` / `Sound.refunded_le_paid` — no more goes back than came in;
* `Step.paid_mono` — the amount paid never decreases;
* `Step.paid_le_total` — without the gateway, no more is paid than the total;
* `Sound.overpaid_eq` — what came in beyond what is owed and was not given back is what
  `Invoice.overpaid` reports.
-/

/-- The invariant of one invoice. -/
structure Sound (l : Ledger) : Prop where
  kept : WellKept l.transactions
  draft : l.invoice.status = .draft → l.transactions = []
  paid : l.paidTotal = l.invoice.amountPaid
  refunded : l.refundedTotal = l.invoice.amountRefunded
  status : l.invoice.status ≠ .draft → l.invoice.status ≠ .cancelled →
    statusFor l.invoice.amountPaid l.invoice.amountRefunded l.invoice.total = l.invoice.status
  total : 0 ≤ l.invoice.total
  lines : LinesAgree l.invoice.figures l.items

/-! ### What `book` writes -/

section Book

variable (l : Ledger) (now : Moment) (pk : ℕ) (txs : List Transaction)

@[simp] theorem book_transactions : (l.book now pk txs).1.transactions = txs := rfl

@[simp] theorem book_total : (l.book now pk txs).1.invoice.total = l.invoice.total := rfl

@[simp] theorem book_figures : (l.book now pk txs).1.invoice.figures = l.invoice.figures := rfl

@[simp] theorem book_order : (l.book now pk txs).1.invoice.order = l.invoice.order := rfl

@[simp] theorem book_client : (l.book now pk txs).1.invoice.client = l.invoice.client := rfl

theorem book_paidAt : (l.book now pk txs).1.invoice.paidAt =
    if (l.book now pk txs).1.invoice.status = .paid
      ∨ (l.book now pk txs).1.invoice.status = .refunded
    then some (l.invoice.paidAt.getD now) else none := rfl

@[simp] theorem book_numbered :
    (l.book now pk txs).1.invoice.Numbered ↔ l.invoice.Numbered := Iff.rfl

@[simp] theorem book_amountPaid :
    (l.book now pk txs).1.invoice.amountPaid = succeededTotal .payment txs := rfl

@[simp] theorem book_amountRefunded :
    (l.book now pk txs).1.invoice.amountRefunded = succeededTotal .refund txs := rfl

theorem book_status : (l.book now pk txs).1.invoice.status =
    if l.invoice.status ≠ .draft ∧ l.invoice.status ≠ .cancelled then
      statusFor (succeededTotal .payment txs) (succeededTotal .refund txs) l.invoice.total
    else l.invoice.status := rfl

theorem statusFor_ne_draft (paid refunded total : ℤ) : statusFor paid refunded total ≠ .draft := by
  unfold statusFor
  split
  · nofun
  · split
    · nofun
    · split <;> nofun

theorem statusFor_ne_cancelled (paid refunded total : ℤ) :
    statusFor paid refunded total ≠ .cancelled := by
  unfold statusFor
  split
  · nofun
  · split
    · nofun
    · split <;> nofun

/-- Booking keeps drafts drafts and cancelled invoices cancelled, and makes no new ones. -/
theorem book_status_draft :
    (l.book now pk txs).1.invoice.status = .draft ↔ l.invoice.status = .draft := by
  rw [book_status]
  split
  · rename_i h
    exact ⟨fun hd => absurd hd (statusFor_ne_draft _ _ _), fun hd => absurd hd h.1⟩
  · rfl

theorem book_status_cancelled :
    (l.book now pk txs).1.invoice.status = .cancelled ↔ l.invoice.status = .cancelled := by
  rw [book_status]
  split
  · rename_i h
    exact ⟨fun hd => absurd hd (statusFor_ne_cancelled _ _ _), fun hd => absurd hd h.2⟩
  · rfl

end Book

variable {pk : ℕ} {act : Act} {l l' : Ledger} {out : List Signal}

/-- Booking well-kept transactions on an issued invoice leaves it sound. -/
theorem Sound.book (hs : Sound l) {txs : List Transaction} (hkept : WellKept txs)
    (hissued : l.invoice.status ≠ .draft) (now : Moment) (pk : ℕ) :
    Sound (l.book now pk txs).1 := by
  refine ⟨hkept, ?_, rfl, rfl, ?_, hs.total, hs.lines⟩
  · intro hd
    exact absurd ((book_status_draft _ _ _ _).mp hd) hissued
  · intro _ hc
    have hc' : l.invoice.status ≠ .cancelled := fun h => hc ((book_status_cancelled _ _ _ _).mpr h)
    rw [book_status, if_pos ⟨hissued, hc'⟩]
    rfl

/-- An open invoice is issued and not cancelled. -/
theorem ne_of_open {status : InvoiceStatus} (h : status ∈ openStatuses) :
    status ≠ .draft ∧ status ≠ .cancelled := by
  simp only [openStatuses, List.mem_cons, List.not_mem_nil, or_false] at h
  rcases h with rfl | rfl <;> exact ⟨nofun, nofun⟩

/-- A draft has no transaction at any place. -/
theorem Sound.issued_of_transaction (hs : Sound l) {i : ℕ} {tx : Transaction}
    (htx : l.transactions[i]? = some tx) : l.invoice.status ≠ .draft := by
  intro hd
  rw [hs.draft hd] at htx
  simp at htx

/-- A new invoice is sound. -/
theorem Born.sound (h : Born l) : Sound l := by
  refine ⟨?_, fun _ => h.transactions, ?_, ?_, fun hd => absurd h.status hd, h.total, h.lines⟩
  · rw [h.transactions]; exact .nil
  · rw [h.amountPaid, Ledger.paidTotal, h.transactions]; rfl
  · rw [h.amountRefunded, Ledger.refundedTotal, h.transactions]; rfl

/-- A payment that had not succeeded succeeds. -/
theorem WellKept.succeed {txs : List Transaction} (h : WellKept txs) {i : ℕ} {tx : Transaction}
    (htx : txs[i]? = some tx) (htype : tx.type = .payment) (hstatus : tx.status ≠ .succeeded)
    (now : Moment) (reason : String) : WellKept (txs.set i (tx.succeed now reason)) :=
  h.set_payment htx htype hstatus htype (h.payment tx (List.mem_of_getElem? htx) htype) rfl

/-- **Every change keeps an invoice sound.** -/
theorem Step.sound (h : Step pk act l l' out) (hs : Sound l) : Sound l' := by
  cases h with
  | edit hdraft hlines htotal =>
    exact ⟨hs.kept, fun _ => hs.draft hdraft, hs.paid, hs.refunded, fun hd => absurd hdraft hd,
      htotal, hlines⟩
  | @issue _ doc currency rate items number issueDate dueDate now hdraft hlines htotal _ =>
    have hnil := hs.draft hdraft
    refine ⟨hs.kept, fun _ => hnil, ?_, ?_, ?_, htotal, hlines⟩
    · simp [Ledger.paidTotal, hnil, Invoice.opened]
    · simp [Ledger.refundedTotal, hnil, Invoice.opened]
    · intro _ _
      simp only [Invoice.opened, Invoice.withFigures, statusFor]
      by_cases h0 : doc.total = 0
      · simp [h0]
      · simp [h0, show ¬doc.total ≤ 0 by omega]
  | @request _ tx hopen htype hstatus hparent hamount =>
    have hcredit : ∀ type, credit type tx = 0 := fun type =>
      credit_of_not_succeeded (by simp [hstatus])
    refine ⟨hs.kept.append_payment htype hparent hamount,
      fun hd => absurd hd (ne_of_open hopen).1, ?_, ?_, hs.status, hs.total, hs.lines⟩
    · rw [Ledger.paidTotal, succeededTotal_append, hcredit, add_zero]; exact hs.paid
    · rw [Ledger.refundedTotal, succeededTotal_append, hcredit, add_zero]; exact hs.refunded
  | @fail _ i tx reason htx htype hstatus =>
    have hcredit : ∀ type, credit type tx = 0 := fun type =>
      credit_of_not_succeeded (by simp [hstatus])
    have hcredit' : ∀ type, credit type
      { tx with status := .failed, failureReason := reason } = 0 :=
      fun type => credit_of_not_succeeded nofun
    refine ⟨hs.kept.set_payment htx htype (by simp [hstatus]) htype
      (hs.kept.payment tx (List.mem_of_getElem? htx) htype) rfl,
      fun hd => absurd hd (hs.issued_of_transaction htx), ?_, ?_, hs.status, hs.total, hs.lines⟩
    · rw [Ledger.paidTotal, succeededTotal_set htx, hcredit, hcredit', sub_zero, add_zero]
      exact hs.paid
    · rw [Ledger.refundedTotal, succeededTotal_set htx, hcredit, hcredit', sub_zero, add_zero]
      exact hs.refunded
  | receive hopen htype hstatus hparent hamount _ =>
    exact hs.book (hs.kept.append_payment htype hparent hamount) (ne_of_open hopen).1 _ _
  | @confirm _ i tx now htx htype hstatus hopen _ =>
    exact hs.book (hs.kept.succeed htx htype (by simp [hstatus]) _ _) (ne_of_open hopen).1 _ _
  | @settle _ i tx now htx htype hstatus =>
    exact hs.book (hs.kept.succeed htx htype hstatus _ _) (hs.issued_of_transaction htx) _ _
  | @refund _ i payment tx now htx hpayment hsucceeded htype hstatus hparent hamount havailable =>
    rw [refundableAmount_eq] at havailable
    exact hs.book (hs.kept.append_refund htx hpayment hsucceeded htype hstatus hparent hamount
      (by omega)) (hs.issued_of_transaction htx) _ _
  | @cancel _ reason hstatus hpaid hnone =>
    refine ⟨hs.kept.map_failPending reason, nofun, ?_, ?_, fun _ hc => absurd rfl hc, hs.total,
      hs.lines⟩
    · rw [Ledger.paidTotal, succeededTotal_failPending]; exact hs.paid
    · rw [Ledger.refundedTotal, succeededTotal_failPending]; exact hs.refunded

/-- Any moves keep the invoices sound. -/
theorem Moves.sound {may : Policy} {t t' : Table Ledger} {out : List Signal}
    (h : Moves may t t' out) (ht : t.Forall fun _ l => Sound l) : t'.Forall fun _ l => Sound l :=
  h.preserve (fun _ _ _ hborn => hborn.sound) (fun _ _ _ _ _ _ hstep hs => hstep.sound hs) ht

/-! ### Money in and out -/

/-- The succeeded refunds of a payment stay within its amount. -/
theorem Sound.refunds_le (hs : Sound l) {i : ℕ} {payment : Transaction}
    (h : l.transactions[i]? = some payment) : refundedOn l.transactions i ≤ payment.amount :=
  hs.kept.bound i payment h

/-- An invoice never gave back more than it received. -/
theorem Sound.refunded_le_paid (hs : Sound l) :
    l.invoice.amountRefunded ≤ l.invoice.amountPaid := by
  rw [← hs.refunded, ← hs.paid]
  exact hs.kept.refunded_le_paid

/-- Succeeded amounts are never negative in sum. -/
theorem WellKept.succeededTotal_nonneg {txs : List Transaction} (h : WellKept txs)
    (type : TransactionType) : 0 ≤ succeededTotal type txs := by
  rw [succeededTotal_eq]
  refine List.sum_nonneg fun v hv => ?_
  obtain ⟨tx, htx, rfl⟩ := List.mem_map.mp hv
  unfold credit
  split
  · exact (h.amount tx htx).le
  · exact le_refl _

theorem Sound.paid_nonneg (hs : Sound l) : 0 ≤ l.invoice.amountPaid := by
  rw [← hs.paid]
  exact hs.kept.succeededTotal_nonneg .payment

theorem Sound.refunded_nonneg (hs : Sound l) : 0 ≤ l.invoice.amountRefunded := by
  rw [← hs.refunded]
  exact hs.kept.succeededTotal_nonneg .refund

/-- What came in beyond what is owed, and was not given back, is what `overpaid` reports. -/
theorem Sound.overpaid_eq (hs : Sound l) : l.invoice.overpaid
    = max (l.paidTotal - l.refundedTotal
        - if l.invoice.status = .cancelled then 0 else l.invoice.total) 0 := by
  rw [hs.paid, hs.refunded]
  rfl

/-- What a newly succeeded payment adds to the amount paid. -/
theorem Sound.book_set_paid (hs : Sound l) {i : ℕ} {tx : Transaction}
    (htx : l.transactions[i]? = some tx) (htype : tx.type = .payment)
    (hstatus : tx.status ≠ .succeeded) (now : Moment) (reason : String) :
    succeededTotal .payment (l.transactions.set i (tx.succeed now reason))
      = l.invoice.amountPaid + tx.amount := by
  rw [succeededTotal_set htx, credit_of_not_succeeded hstatus, sub_zero, ← hs.paid]
  simp [credit, Transaction.succeed, htype, Ledger.paidTotal]

theorem Sound.book_set_refunded (hs : Sound l) {i : ℕ} {tx : Transaction}
    (htx : l.transactions[i]? = some tx) (htype : tx.type = .payment)
    (hstatus : tx.status ≠ .succeeded) (now : Moment) (reason : String) :
    succeededTotal .refund (l.transactions.set i (tx.succeed now reason))
      = l.invoice.amountRefunded := by
  rw [succeededTotal_set htx, credit_of_not_succeeded hstatus, sub_zero, ← hs.refunded]
  simp [credit, Transaction.succeed, htype, Ledger.refundedTotal]

/-- What a received payment adds to the amount paid. -/
theorem Sound.book_append_paid (hs : Sound l) {tx : Transaction} (htype : tx.type = .payment)
    (hstatus : tx.status = .succeeded) :
    succeededTotal .payment (l.transactions ++ [tx]) = l.invoice.amountPaid + tx.amount := by
  rw [succeededTotal_append, ← hs.paid]
  simp [credit, htype, hstatus, Ledger.paidTotal]

/-- A refund leaves the amount paid as it is. -/
theorem Sound.book_refund_paid (hs : Sound l) {tx : Transaction} (htype : tx.type = .refund) :
    succeededTotal .payment (l.transactions ++ [tx]) = l.invoice.amountPaid := by
  rw [succeededTotal_append, ← hs.paid]
  simp [credit, htype, Ledger.paidTotal]

/-- What a refund adds to the amount refunded. -/
theorem Sound.book_refund_refunded (hs : Sound l) {tx : Transaction} (htype : tx.type = .refund)
    (hstatus : tx.status = .succeeded) :
    succeededTotal .refund (l.transactions ++ [tx]) = l.invoice.amountRefunded + tx.amount := by
  rw [succeededTotal_append, ← hs.refunded]
  simp [credit, htype, hstatus, Ledger.refundedTotal]

/-- **The amount paid never decreases.** -/
theorem Step.paid_mono (h : Step pk act l l' out) (hs : Sound l) :
    l.invoice.amountPaid ≤ l'.invoice.amountPaid := by
  cases h with
  | edit => exact le_refl _
  | issue hdraft =>
    have h0 : l.invoice.amountPaid = 0 := by
      rw [← hs.paid, Ledger.paidTotal, hs.draft hdraft]; rfl
    exact h0.le
  | request => exact le_refl _
  | fail => exact le_refl _
  | receive _ htype hstatus _ hamount _ =>
    rw [book_amountPaid, hs.book_append_paid htype hstatus]
    omega
  | @confirm _ i tx now htx htype hstatus _ _ =>
    rw [book_amountPaid, hs.book_set_paid htx htype (by simp [hstatus])]
    have := hs.kept.amount tx (List.mem_of_getElem? htx)
    omega
  | @settle _ i tx now htx htype hstatus =>
    rw [book_amountPaid, hs.book_set_paid htx htype hstatus]
    have := hs.kept.amount tx (List.mem_of_getElem? htx)
    omega
  | refund _ _ _ htype =>
    rw [book_amountPaid, hs.book_refund_paid htype]
  | cancel => exact le_refl _

/-- What is still due of an open invoice. -/
theorem balanceDue_of_open {invoice : Invoice} (h : invoice.status ∈ openStatuses) :
    invoice.balanceDue = max (invoice.total - invoice.amountPaid) 0 := by
  have hne := ne_of_open h
  rw [Invoice.balanceDue, if_neg (by tauto)]

/-- **Without the gateway nothing is overpaid**: every other way of paying stays within the
    balance. -/
theorem Step.paid_le_total (h : Step pk act l l' out) (hs : Sound l) (hact : act ≠ .settle)
    (hle : l.invoice.amountPaid ≤ l.invoice.total) : l'.invoice.amountPaid ≤ l'.invoice.total := by
  cases h with
  | edit hdraft _ htotal =>
    have h0 : l.invoice.amountPaid = 0 := by
      rw [← hs.paid, Ledger.paidTotal, hs.draft hdraft]; rfl
    exact h0.trans_le htotal
  | issue _ _ htotal => exact htotal
  | request => exact hle
  | fail => exact hle
  | receive hopen htype hstatus _ hamount hbalance =>
    rw [book_amountPaid, hs.book_append_paid htype hstatus, book_total]
    rw [balanceDue_of_open hopen] at hbalance
    omega
  | @confirm _ i tx now htx htype hstatus hopen hbalance =>
    rw [book_amountPaid, hs.book_set_paid htx htype (by simp [hstatus]), book_total]
    rw [balanceDue_of_open hopen] at hbalance
    have := hs.kept.amount tx (List.mem_of_getElem? htx)
    omega
  | settle => exact absurd rfl hact
  | refund _ _ _ htype =>
    rw [book_amountPaid, hs.book_refund_paid htype]
    exact hle
  | cancel => exact hle

end WPanel.Billing
