import WPanel.Billing.Models

namespace WPanel.Billing

open WPanel.Lib

/-!
# Checking the stored figures

`verify_invoice` of `billing/integrity.py`: every stored figure of an invoice is derived
again from its lines and transactions, and each one that disagrees is reported.
`verifyInvoice_eq_nil` says what a report without problems means, equation by equation.
-/

/-- `problems.append(text)` when the condition holds. -/
def problem (p : Prop) [Decidable p] (text : String) : List String := if p then [text] else []

@[simp] theorem problem_eq_nil {p : Prop} [Decidable p] {text : String} :
    problem p text = [] ↔ ¬p := by
  unfold problem
  split <;> simp [*]

/-- The figures of a document that `_check_document` compares with its lines. -/
structure Figures where
  subtotal : ℤ
  discountTotal : ℤ
  taxTotal : ℤ
  total : ℤ

def Invoice.figures (invoice : Invoice) : Figures :=
  ⟨invoice.subtotal, invoice.discountTotal, invoice.taxTotal, invoice.total⟩

/-- `_check_document(doc, items)`. -/
def checkDocument (label : String) (doc : Figures) (items : List LineItem) : List String :=
  problem ((items.map (·.amount)).sum ≠ doc.subtotal)
    (label ++ ": line amounts do not add up to the subtotal.")
  ++ problem ((items.map (·.discountAmount)).sum ≠ doc.discountTotal)
    (label ++ ": line discounts do not add up to the discount total.")
  ++ problem ((items.map (·.taxAmount)).sum ≠ doc.taxTotal)
    (label ++ ": line tax does not add up to the tax total.")
  ++ problem ((items.map (·.total)).sum ≠ doc.total)
    (label ++ ": line totals do not add up to the total.")
  ++ problem (doc.subtotal - doc.discountTotal + doc.taxTotal ≠ doc.total)
    (label ++ ": subtotal - discount + tax is not the total.")
  ++ items.flatMap fun item =>
    problem (money (dec item.unitPrice * item.quantity) ≠ item.amount)
      (label ++ ": '" ++ item.description ++ "' quantity x price is not its amount.")
    ++ problem (item.amount - item.discountAmount + item.taxAmount ≠ item.total)
      (label ++ ": '" ++ item.description ++ "' amount - discount + tax is not its total.")

/-- `verify_invoice(invoice)`; `orderTotal` reads the stored total of an order. -/
def verifyInvoice (orderTotal : ℕ → Option ℤ) (pk : ℕ) (l : Ledger) : List String :=
  let invoice := l.invoice
  let label := "Invoice " ++ invoice.reference pk
  let problems := checkDocument label invoice.figures l.items
    ++ problem (∃ order ∈ invoice.order, orderTotal order ≠ some invoice.total)
      (label ++ ": total differs from its order's total.")
  if invoice.status = .draft then problems
  else
    let paid := l.paidTotal
    let refunded := l.refundedTotal
    let expected := statusFor paid refunded invoice.total
    problems
    ++ problem (invoice.number = "" ∨ invoice.issueDate = none ∨ invoice.dueDate = none)
      (label ++ ": an issued invoice must have a number and dates.")
    ++ problem (paid ≠ invoice.amountPaid)
      (label ++ ": amount paid " ++ amountText invoice.amountPaid
        ++ " differs from its transactions (" ++ amountText paid ++ ").")
    ++ problem (refunded ≠ invoice.amountRefunded)
      (label ++ ": amount refunded " ++ amountText invoice.amountRefunded
        ++ " differs from its transactions (" ++ amountText refunded ++ ").")
    ++ problem (invoice.status ≠ .cancelled ∧ expected ≠ invoice.status)
      (label ++ ": status is " ++ invoice.status.value ++ " but its transactions say "
        ++ expected.value ++ ".")

/-! ### What a clean report means -/

/-- The lines of a document give its figures. -/
structure LinesAgree (doc : Figures) (items : List LineItem) : Prop where
  subtotal : (items.map (·.amount)).sum = doc.subtotal
  discountTotal : (items.map (·.discountAmount)).sum = doc.discountTotal
  taxTotal : (items.map (·.taxAmount)).sum = doc.taxTotal
  total : (items.map (·.total)).sum = doc.total
  figures : doc.subtotal - doc.discountTotal + doc.taxTotal = doc.total
  amount : ∀ item ∈ items, money (dec item.unitPrice * item.quantity) = item.amount
  lineTotal : ∀ item ∈ items, item.amount - item.discountAmount + item.taxAmount = item.total

theorem checkDocument_eq_nil {label : String} {doc : Figures} {items : List LineItem} :
    checkDocument label doc items = [] ↔ LinesAgree doc items := by
  unfold checkDocument
  simp only [List.append_eq_nil_iff, List.flatMap_eq_nil_iff, problem_eq_nil, ne_eq, not_not]
  constructor
  · rintro ⟨⟨⟨⟨⟨h1, h2⟩, h3⟩, h4⟩, h5⟩, h6⟩
    exact ⟨h1, h2, h3, h4, h5, fun item hi => (h6 item hi).1, fun item hi => (h6 item hi).2⟩
  · intro h
    exact ⟨⟨⟨⟨⟨h.subtotal, h.discountTotal⟩, h.taxTotal⟩, h.total⟩, h.figures⟩,
      fun item hi => ⟨h.amount item hi, h.lineTotal item hi⟩⟩

/-- The paid and refunded amounts and the status an issued invoice has from its
    transactions. -/
structure PositionAgrees (l : Ledger) : Prop where
  paid : l.paidTotal = l.invoice.amountPaid
  refunded : l.refundedTotal = l.invoice.amountRefunded
  status : l.invoice.status ≠ .cancelled →
    statusFor l.invoice.amountPaid l.invoice.amountRefunded l.invoice.total = l.invoice.status

/-- An issued invoice has a number and dates. -/
def Invoice.Numbered (invoice : Invoice) : Prop :=
  invoice.number ≠ "" ∧ invoice.issueDate ≠ none ∧ invoice.dueDate ≠ none

/-- The report is empty exactly when the lines give the figures, the order (if any) has the
    same total and, once issued, the invoice is numbered and its position is the one of its
    transactions. -/
theorem verifyInvoice_eq_nil {orderTotal : ℕ → Option ℤ} {pk : ℕ} {l : Ledger} :
    verifyInvoice orderTotal pk l = [] ↔
      LinesAgree l.invoice.figures l.items
        ∧ (∀ order ∈ l.invoice.order, orderTotal order = some l.invoice.total)
        ∧ (l.invoice.status ≠ .draft → l.invoice.Numbered ∧ PositionAgrees l) := by
  have hbase : ∀ label, (checkDocument label l.invoice.figures l.items
        ++ problem (∃ order ∈ l.invoice.order, orderTotal order ≠ some l.invoice.total)
          (label ++ ": total differs from its order's total.")) = [] ↔
      LinesAgree l.invoice.figures l.items
        ∧ ∀ order ∈ l.invoice.order, orderTotal order = some l.invoice.total := by
    intro label
    rw [List.append_eq_nil_iff, checkDocument_eq_nil, problem_eq_nil]
    push Not
    rfl
  unfold verifyInvoice
  by_cases hdraft : l.invoice.status = .draft
  · simp only [hdraft, if_true, hbase, ne_eq, not_true_eq_false, false_implies, and_true]
  · simp only [hdraft, if_false]
    rw [List.append_eq_nil_iff, List.append_eq_nil_iff, List.append_eq_nil_iff,
      List.append_eq_nil_iff, hbase]
    simp only [problem_eq_nil, ne_eq, not_not, not_or, not_and]
    constructor
    · rintro ⟨⟨⟨⟨⟨hlines, horder⟩, hnumber⟩, hpaid⟩, hrefunded⟩, hstatus⟩
      exact ⟨hlines, horder, fun _ => ⟨hnumber, hpaid, hrefunded,
        fun hc => by rw [← hpaid, ← hrefunded]; exact hstatus hc⟩⟩
    · rintro ⟨hlines, horder, hissued⟩
      obtain ⟨hnumber, hposition⟩ := hissued hdraft
      refine ⟨⟨⟨⟨⟨hlines, horder⟩, hnumber⟩, hposition.paid⟩, hposition.refunded⟩, fun hc => ?_⟩
      rw [hposition.paid, hposition.refunded]
      exact hposition.status hc

end WPanel.Billing
