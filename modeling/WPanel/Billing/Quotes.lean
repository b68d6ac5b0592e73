import WPanel.Billing.Invoicing

namespace WPanel.Billing

open WPanel.Lib

/-!
# Quotes and billable items

The other two documents of `billing/invoicing.py` that turn into invoices: a quote the
client accepts, and one-off charges collected onto a draft.
-/

/-! ### Billable items -/

def createBillableItem (actor : Actor) (client : ℕ) (raw : RawLine) (s : Store) :
    Except Err (ℕ × Store) := do
  requirePerm actor .manageBilling
  let line ← cleanLine { raw with taxable := true } 1
  ensure (0 < line.unitPrice) (.validation "The price must be greater than zero.")
  let item := {
    client, description := line.description, quantity := line.quantity
    unitPrice := line.unitPrice, taxable := raw.taxable }
  return (s.billableItems.nextPk, { s with billableItems := s.billableItems.insert item })

def lockBillableItem (s : Store) (pk : ℕ) : Except Err BillableItem :=
  match s.billableItems.get? pk with
  | some item => .ok item
  | none => .error (.doesNotExist "BillableItem")

def deleteBillableItem (actor : Actor) (pk : ℕ) (s : Store) : Except Err Store := do
  requirePerm actor .manageBilling
  let item ← lockBillableItem s pk
  ensure (item.invoice = none)
    (serviceError "This charge is already on an invoice." "billable_item_invoiced")
  return { s with billableItems := s.billableItems.erase pk }

/-- The uninvoiced charges of a client (all of them, or the chosen ones), by key. -/
def uninvoicedItems (s : Store) (client : ℕ) (chosen : Option (List ℕ)) : List (ℕ × BillableItem) :=
  s.billableItems.entries.filter fun (pk, item) =>
    item.client = client ∧ item.invoice = none ∧ (∀ pks ∈ chosen, pk ∈ pks)

/-- Staff: collect a client's uninvoiced charges onto a new draft invoice. -/
def invoiceBillableItems (env : Env) (actor : Actor) (client : ℕ) (chosen : Option (List ℕ))
    (s : Store) : Except Err (ℕ × Store) := do
  requirePerm actor .manageBilling
  let items := uninvoicedItems s client chosen
  ensure (items ≠ [])
    (serviceError "There are no uninvoiced charges to invoice." "billable_items_none")
  let lines := items.map fun (_, item) => {
    description := item.description, quantity := some item.quantity
    unitPrice := .number (dec item.unitPrice), taxable := item.taxable }
  let (invoice, s) ← createInvoice env actor client { lines } s
  let billableItems := items.foldl (fun table (pk, item) =>
    table.put pk { item with invoice := some invoice }) s.billableItems
  return (invoice, { s with billableItems })

/-! ### Quotes -/

def lockQuote (s : Store) (pk : ℕ) : Except Err Quote :=
  match s.quotes.get? pk with
  | some quote => .ok quote
  | none => .error (.doesNotExist "Quote")

def requireQuoteDraft (quote : Quote) : Except Err Unit :=
  ensure (quote.status = .draft)
    (serviceError "Only a draft quote can be changed." "quote_not_draft")

/-- Check a quote and its lines before writing them. -/
def fullCleanQuote (s : Store) (pk : ℕ) (quote : Quote) : Except Err Unit := do
  fullClean "Quote" (quote.invalidFields (s.quoteNumbers pk))
  fullCleanItems "QuoteItem" quote.items

def createQuote (env : Env) (actor : Actor) (client : ℕ) (draft : Draft) (validUntil : Option ℕ)
    (s : Store) : Except Err (ℕ × Store) := do
  requirePerm actor .manageBilling
  let lines ← cleanLines draft.lines
  let (totals, rule) ← computeDocument env client lines draft.discount
  let currency ← documentCurrency draft.currency (env.clients client).currency
  let quote : Quote := { client, currency, validUntil, items := buildItems lines totals }
  let quote := quote.applyTotals totals (ratePercent rule)
  fullCleanQuote s s.quotes.nextPk quote
  return (s.quotes.nextPk, { s with quotes := s.quotes.insert quote })

def updateQuote (env : Env) (actor : Actor) (pk : ℕ) (draft : Draft) (validUntil : Option ℕ)
    (s : Store) : Except Err Store := do
  requirePerm actor .manageBilling
  let quote ← lockQuote s pk
  requireQuoteDraft quote
  let lines ← cleanLines draft.lines
  let (totals, rule) ← computeDocument env quote.client lines draft.discount
  let currency ← documentCurrency draft.currency (env.clients quote.client).currency quote.currency
  let quote := { quote with currency, validUntil, items := buildItems lines totals }.applyTotals
    totals (ratePercent rule)
  fullCleanQuote s pk quote
  return { s with quotes := s.quotes.put pk quote }

/-- Staff: number the quote and freeze it. -/
def sendQuote (env : Env) (actor : Actor) (pk : ℕ) (s : Store) : Except Err Store := do
  requirePerm actor .manageBilling
  let quote ← lockQuote s pk
  requireQuoteDraft quote
  ensure (quote.items ≠ []) (serviceError "Add at least one line before sending." "quote_empty")
  ensure (∀ day ∈ quote.validUntil, env.today ≤ day)
    (.validation "The quote's validity date is in the past.")
  let quote := { quote with
    number := numberAfter env.settings.quotePrefix s.quoteSequence
    issueDate := some env.today
    validUntil := some (quote.validUntil.getD (env.today + env.settings.quoteValidityDays))
    status := .sent }
  fullClean "Quote" (quote.invalidFields (s.quoteNumbers pk))
  return { s with quotes := s.quotes.put pk quote, quoteSequence := s.quoteSequence + 1 }

/-- A sent quote whose validity date has passed. -/
def Quote.isExpired (env : Env) (quote : Quote) : Bool :=
  quote.status = .sent && quote.validUntil.any fun day => day < env.today

/-- `_lock_quote_for_decision(actor, quote)`. -/
def lockQuoteForDecision (env : Env) (actor : Actor) (pk : ℕ) (s : Store) : Except Err Quote := do
  let quote ← lockQuote s pk
  requireClientAccess actor quote.client
  ensure (quote.status = .sent) (serviceError "This quote is no longer open." "quote_not_open")
  ensure (quote.isExpired env = false) (serviceError "This quote has expired." "quote_expired")
  return quote

/-- The client (or staff on their behalf) accepts a quote; its invoice is issued at once. -/
def acceptQuote (env : Env) (actor : Actor) (pk : ℕ) (s : Store) :
    Except Err (ℕ × Store × List Signal) := do
  let quote ← lockQuoteForDecision env actor pk s
  let s := { s with quotes := s.quotes.put pk { quote with status := .accepted } }
  let lines := quote.items.map LineItem.line
  let totals ← liftCalc (distribute (lines.map fun line => dec line.amount)
    (lines.map (·.taxable)) (dec quote.discountTotal) (dec quote.taxTotal))
  let invoice : Invoice := { client := quote.client, quote := some pk, currency := quote.currency }
  let invoice := invoice.applyTotals totals quote.taxRate
  let items := buildItems lines totals
  let (invoicePk, s) ← saveInvoice s invoice items
  let (s, signals) ← issue env invoicePk { invoice, items } s
  return (invoicePk, s, signals)

def declineQuote (env : Env) (actor : Actor) (pk : ℕ) (s : Store) : Except Err Store := do
  let quote ← lockQuoteForDecision env actor pk s
  return { s with quotes := s.quotes.put pk { quote with status := .declined } }

/-- Staff: discard a quote that was never sent. -/
def deleteDraftQuote (actor : Actor) (pk : ℕ) (s : Store) : Except Err Store := do
  requirePerm actor .manageBilling
  let quote ← lockQuote s pk
  requireQuoteDraft quote
  return { s with quotes := s.quotes.erase pk }

def cancelQuote (actor : Actor) (pk : ℕ) (s : Store) : Except Err Store := do
  requirePerm actor .manageBilling
  let quote ← lockQuote s pk
  ensure (quote.status = .draft ∨ quote.status = .sent)
    (serviceError "This quote can no longer be cancelled." "quote_not_open")
  return { s with quotes := s.quotes.put pk { quote with status := .cancelled } }

end WPanel.Billing
