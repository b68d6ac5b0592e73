import WPanel.Billing.Documents
import WPanel.Billing.Payments

namespace WPanel.Billing

open WPanel.Lib

/-!
# Invoices

The invoice functions of `billing/invoicing.py`: drafts, issuing, cancelling, and the
invoices made from orders, quotes and billable items.
-/

def requireDraft (invoice : Invoice) : Except Err Unit :=
  ensure (invoice.status = .draft)
    (serviceError "Only a draft invoice can be changed." "invoice_not_draft")

/-- `_save_document` for an invoice: validate everything, then write; the new key. -/
def saveInvoice (s : Store) (invoice : Invoice) (items : List LineItem) :
    Except Err (ℕ × Store) := do
  let pk := s.invoices.nextPk
  fullClean "Invoice" (invoice.invalidFields (s.invoiceNumbers pk))
  fullCleanItems "InvoiceItem" items
  return (pk, { s with invoices := s.invoices.insert { invoice, items } })

/-! ### Drafts -/

/-- What staff typed for a draft: its lines, discount and currency. -/
structure Draft where
  lines : List RawLine
  discount : RawDiscount := {}
  currency : String := ""

/-- A draft invoice, with no permission check. -/
def createDraftInvoice (env : Env) (client : ℕ) (draft : Draft) (s : Store) :
    Except Err (ℕ × Store) := do
  let lines ← cleanLines draft.lines
  let (totals, rule) ← computeDocument env client lines draft.discount
  let currency ← documentCurrency draft.currency (env.clients client).currency
  let invoice : Invoice := { client, currency }
  saveInvoice s (invoice.applyTotals totals (ratePercent rule)) (buildItems lines totals)

/-- Staff: a new draft invoice for a client. -/
def createInvoice (env : Env) (actor : Actor) (client : ℕ) (draft : Draft) (s : Store) :
    Except Err (ℕ × Store) := do
  requirePerm actor .manageBilling
  createDraftInvoice env client draft s

/-- Staff: replace the lines, the discount and the currency of a draft invoice. -/
def updateInvoice (env : Env) (actor : Actor) (pk : ℕ) (draft : Draft) (s : Store) :
    Except Err Store := do
  requirePerm actor .manageBilling
  let l ← lockInvoice s pk
  requireDraft l.invoice
  let lines ← cleanLines draft.lines
  let (totals, rule) ← computeDocument env l.invoice.client lines draft.discount
  let currency ← documentCurrency draft.currency (env.clients l.invoice.client).currency
    l.invoice.currency
  let invoice := { l.invoice with currency }.applyTotals totals (ratePercent rule)
  let items := buildItems lines totals
  fullClean "Invoice" (invoice.invalidFields (s.invoiceNumbers pk))
  fullCleanItems "InvoiceItem" items
  return s.putInvoice pk { l with invoice, items }

/-- The charges on an invoice become billable again. -/
def Store.releaseBillableItems (s : Store) (pk : ℕ) : Store :=
  { s with billableItems :=
      s.billableItems.updateWhere (·.invoice = some pk) fun item => { item with invoice := none } }

/-- Staff: discard a draft that was never issued. -/
def deleteDraftInvoice (actor : Actor) (pk : ℕ) (s : Store) : Except Err Store := do
  requirePerm actor .manageBilling
  let l ← lockInvoice s pk
  requireDraft l.invoice
  -- transactions protect their invoice from deletion
  ensure (l.transactions = []) (.protectedError "Invoice")
  let s := s.releaseBillableItems pk
  return { s with invoices := s.invoices.erase pk }

/-! ### Issuing and cancelling -/

/-- `_next_number`: the number a sequence gives after `last`. -/
def numberAfter (pre : String) (last : ℕ) : String := pre ++ zeroPad 6 (last + 1)

/-- `_issue`: assign the number, set the dates and open the invoice; one with nothing to
    collect is settled at once. -/
def issue (env : Env) (pk : ℕ) (l : Ledger) (s : Store) : Except Err (Store × List Signal) := do
  let settled := l.invoice.total = 0
  let invoice := { l.invoice with
    number := numberAfter env.settings.invoicePrefix s.invoiceSequence
    issueDate := some env.today
    dueDate := some (env.today + env.settings.paymentTermsDays)
    status := if settled then .paid else .unpaid
    paidAt := if settled then some env.now else l.invoice.paidAt
    amountPaid := 0, amountRefunded := 0 }
  fullClean "Invoice" (invoice.invalidFields (s.invoiceNumbers pk))
  let s := { s with invoiceSequence := s.invoiceSequence + 1 }
  return (s.putInvoice pk { l with invoice }, if settled then [.invoicePaid pk] else [])

/-- Issue a draft with no permission check.  The totals are derived again first: the client's
    tax may have changed since the draft was saved. -/
def issueDraftInvoice (env : Env) (pk : ℕ) (s : Store) : Except Err (Store × List Signal) := do
  let l ← lockInvoice s pk
  requireDraft l.invoice
  ensure (l.items ≠ []) (serviceError "Add at least one line before issuing." "invoice_empty")
  let subtotal := (l.items.map (·.amount)).sum
  let rule := taxRuleForClient env l.invoice.client
  let totals ← liftCalc (compute (l.items.map fun item => dec item.amount)
    (l.items.map (·.taxable)) (dec (min l.invoice.discountTotal subtotal)) (ratePercent rule))
  let invoice := l.invoice.applyTotals totals (ratePercent rule)
  let items := (l.items.zip totals.lines).map fun (item, result) => { item with
    discountAmount := result.discount, taxAmount := result.tax, total := result.total }
  fullCleanItems "InvoiceItem" items
  issue env pk { l with invoice, items } s

/-- Staff: turn a draft into an issued invoice. -/
def issueInvoice (env : Env) (actor : Actor) (pk : ℕ) (s : Store) :
    Except Err (Store × List Signal) := do
  requirePerm actor .manageBilling
  issueDraftInvoice env pk s

/-- Cancel an invoice with no payments (the caller has authorised the action). -/
def cancelInvoiceInternal (pk : ℕ) (reason : String) (s : Store) :
    Except Err (Store × List Signal) := do
  let l ← lockInvoice s pk
  if l.invoice.status = .cancelled then return (s, [])
  else
    ensure (l.invoice.status = .draft ∨ l.invoice.status = .unpaid)
      (serviceError "Only an invoice with no payments can be cancelled. Refund it instead."
        "invoice_not_cancellable")
    ensure (l.invoice.amountPaid ≤ 0 ∧ ∀ tx ∈ l.transactions, tx.status ≠ .succeeded)
      (serviceError "This invoice has payments recorded. Refund it instead."
        "invoice_not_cancellable")
    let l := failPendingTransactions l "The invoice was cancelled."
    let invoice :=
      { l.invoice with status := .cancelled, cancelReason := clip 500 (strip reason) }
    let s := s.putInvoice pk { l with invoice }
    return (s.releaseBillableItems pk, [.invoiceCancelled pk])

/-- Staff: cancel an unpaid invoice. -/
def cancelInvoice (actor : Actor) (pk : ℕ) (reason : String) (s : Store) :
    Except Err (Store × List Signal) := do
  requirePerm actor .manageBilling
  cancelInvoiceInternal pk reason s

/-! ### The invoice for an order -/

/-- One item of an order, as far as its invoice reads it. -/
structure OrderCharge where
  description : String
  unitPrice : ℤ
  setupFee : ℤ
  deriving DecidableEq, Repr

/-- What the invoice for an order is made from. -/
structure OrderFigures where
  pk : ℕ
  client : ℕ
  currency : String
  charges : List OrderCharge
  subtotal : ℤ
  discountTotal : ℤ
  taxRate : Decimal
  taxTotal : ℤ
  total : ℤ

/-- The charge lines of one order item: the plan, and its setup fee if there is one. -/
def OrderCharge.lines (charge : OrderCharge) : List Line :=
  { description := charge.description, quantity := 1, unitPrice := charge.unitPrice
    amount := charge.unitPrice, taxable := true }
  :: if charge.setupFee = 0 then [] else
    [{ description := clip 255 (charge.description ++ " - setup fee"), quantity := 1
       unitPrice := charge.setupFee, amount := charge.setupFee, taxable := true }]

/-- The charge lines of an order. -/
def OrderFigures.lines (order : OrderFigures) : List Line := order.charges.flatMap OrderCharge.lines

/-- The error of an order whose figures cannot become an invoice. -/
def notInvoiceable (message : String) : Err := serviceError message "order_not_invoiceable"

/-- A `ValueError` of the arithmetic while an order is invoiced; any other goes through. -/
def orderCalcError : CalcError → Err
  | .valueError message => notInvoiceable ("The order cannot be invoiced: " ++ message)
  | .runtimeError message => .arithmetic message

/-- The totals of the invoice for an order: the order's stored discount and tax, spread over
    its charge lines. -/
def orderTotals (order : OrderFigures) : Except Err DocumentTotals := do
  let totals ← (distribute (order.lines.map fun line => dec line.amount)
    (order.lines.map (·.taxable)) (dec order.discountTotal) (dec order.taxTotal)).mapError
      orderCalcError
  ensure (totals.subtotal = order.subtotal ∧ totals.total = order.total)
    (notInvoiceable "The order's stored figures do not add up, so it cannot be invoiced.")
  return totals

/-- Issue the invoice for an order.  Nothing is recomputed: the order's stored discount and
    tax are spread over its lines. -/
def createInvoiceForOrder (env : Env) (order : OrderFigures) (s : Store) :
    Except Err (ℕ × Store × List Signal) := do
  let totals ← orderTotals order
  let invoice : Invoice := {
    client := order.client, order := some order.pk, currency := order.currency }
  let invoice := invoice.applyTotals totals order.taxRate
  let items := buildItems order.lines totals
  let (pk, s) ← saveInvoice s invoice items
  let (s, signals) ← issue env pk { invoice, items } s
  return (pk, s, signals)

end WPanel.Billing
