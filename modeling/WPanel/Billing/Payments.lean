import WPanel.Billing.Models

namespace WPanel.Billing

open WPanel.Lib

/-!
# Payments, refunds and gateway webhooks

The functions of `billing/payments.py`, as state transformers of the billing `Store`.  A
function returns its result with the new store and the signals it sent, or raises and
changes nothing: each runs in one transaction under the invoice's row lock.

What a gateway answers is an argument (`Except String _`: its answer, or the text of its
`PaymentError`).
-/

/-! ### Reading the store -/

/-- `_lock_invoice(pk)`. -/
def lockInvoice (s : Store) (pk : ℕ) : Except Err Ledger :=
  match s.invoices.get? pk with
  | some l => .ok l
  | none => .error (.doesNotExist "Invoice")

/-- `Transaction.objects.select_for_update().get(pk=…)`, once the invoice is locked. -/
def lockTransaction (l : Ledger) (index : ℕ) : Except Err Transaction :=
  match l.transactions[index]? with
  | some tx => .ok tx
  | none => .error (.doesNotExist "Transaction")

/-- Every transaction of the store. -/
def Store.transactions (s : Store) : List (TxId × Transaction) :=
  s.invoices.entries.flatMap fun (pk, l) => l.transactions.zipIdx.map fun (tx, i) => (⟨pk, i⟩, tx)

/-- Write one invoice back. -/
def Store.putInvoice (s : Store) (pk : ℕ) (l : Ledger) : Store :=
  { s with invoices := s.invoices.put pk l }

/-! ### Guards -/

/-- `_amount(value, label)`. -/
def amountOf (value : Typed) (label : String := "Amount") : Except Err ℤ :=
  match value with
  | .notANumber => .error (.validation (label ++ " must be a number."))
  | .notFinite => .error (.validation (label ++ " must be greater than zero."))
  | .number amount =>
    if amount ≤ 0 then .error (.validation (label ++ " must be greater than zero."))
    else if dec maxAmount < amount ∨ dec (money amount) ≠ amount then
      .error (.validation
        (label ++ " must be a valid amount with at most two decimal places."))
    else .ok (money amount)

/-- `_amount(amount) if amount not in (None, "") else default`. -/
def amountOr (amount : Option Typed) (default : ℤ) : Except Err ℤ :=
  match amount with
  | some value => amountOf value
  | none => .ok default

def requireOpen (invoice : Invoice) : Except Err Unit :=
  ensure (invoice.status ∈ openStatuses ∧ 0 < invoice.balanceDue)
    (serviceError "This invoice has nothing left to pay." "invoice_not_payable")

def requireAmountWithinBalance (invoice : Invoice) (amount : ℤ) : Except Err Unit :=
  ensure (amount ≤ invoice.balanceDue)
    (serviceError ("The amount cannot be more than the balance due (" ++ invoice.currency ++ " "
      ++ amountText invoice.balanceDue ++ ").") "amount_exceeds_balance")

/-- `_require_client_access(actor, client)`: staff who manage billing, or a contact. -/
def requireClientAccess (actor : Actor) (client : ℕ) : Except Err Unit :=
  ensure (actor.hasPerm .manageBilling = true ∨ actor.contactOf client = true) denied

/-! ### Deriving the invoice position from its transactions -/

/-- Rebuild the paid and refunded amounts and the status of an invoice from its succeeded
    transactions.  A draft or cancelled invoice keeps its status. -/
def recomputeInvoice (now : Moment) (pk : ℕ) (l : Ledger) : Ledger × List Signal :=
  let paid := l.paidTotal
  let refunded := l.refundedTotal
  let previous := l.invoice.status
  let status :=
    if previous ≠ .draft ∧ previous ≠ .cancelled then statusFor paid refunded l.invoice.total
    else previous
  let paidAt := if status = .paid ∨ status = .refunded then some (l.invoice.paidAt.getD now)
    else none
  ({ l with invoice :=
      { l.invoice with amountPaid := paid, amountRefunded := refunded, status, paidAt } },
    (if status = .paid ∧ previous ∈ openStatuses then [Signal.invoicePaid pk] else [])
      ++ (if refunded ≠ l.invoice.amountRefunded then [Signal.invoiceRefunded pk] else []))

/-- A pending transaction of an invoice that will not be paid any more. -/
def failPending (reason : String) (tx : Transaction) : Transaction :=
  if tx.status = .pending then
    { tx with status := .failed, failureReason := clip 500 reason } else tx

/-- `fail_pending_transactions(invoice, reason)`. -/
def failPendingTransactions (l : Ledger) (reason : String) : Ledger :=
  { l with transactions := l.transactions.map (failPending reason) }

/-- `_create_transaction`: what `full_clean` checks of a new row (its amount and the two
    unique constraints), then the row is added. -/
def createTransaction (s : Store) (l : Ledger) (tx : Transaction) : Except Err Ledger := do
  ensure (0 < tx.amount ∧ tx.amount ≤ maxAmount) (.invalid "Transaction" ["amount"])
  ensure (tx.provider = none ∨ tx.externalId = "" ∨
      ∀ p ∈ s.transactions, ¬(p.2.provider = tx.provider ∧ p.2.externalId = tx.externalId))
    (.invalid "Transaction" ["provider", "external_id"])
  ensure (tx.idempotencyKey = "" ∨
      ∀ p ∈ s.transactions, p.2.idempotencyKey ≠ tx.idempotencyKey)
    (.invalid "Transaction" ["idempotency_key"])
  return { l with transactions := l.transactions ++ [tx] }

/-! ### Manual payments -/

def microsPerMinute : ℕ := 60 * microsPerSecond

/-- Staff record money received against an invoice.  A repeat with the same idempotency key
    returns the original transaction. -/
def recordPayment (env : Env) (actor : Actor) (pk : ℕ) (amount : Typed)
    (occurredAt : Option Moment) (idempotencyKey : String) (s : Store) :
    Except Err (TxId × Store × List Signal) := do
  requirePerm actor .manageBilling
  let amount ← amountOf amount
  ensure (∀ t ∈ occurredAt, t.instant ≤ env.now.instant + 5 * microsPerMinute)
    (serviceError "The date received cannot be in the future." "payment_date_invalid")
  let l ← lockInvoice s pk
  let key := clip 100 (strip idempotencyKey)
  match s.transactions.find? fun p => key ≠ "" ∧ p.2.idempotencyKey = key with
  | some (id, existing) =>
    ensure (id.invoice = pk ∧ existing.amount = amount)
      (.service "This idempotency key was already used for a different payment."
        "idempotency_conflict" 409)
    return (id, s, [])
  | none =>
    requireOpen l.invoice
    requireAmountWithinBalance l.invoice amount
    let l' ← createTransaction s l {
      type := .payment, status := .succeeded, amount, currency := l.invoice.currency
      idempotencyKey := key, occurredAt := occurredAt.getD env.now }
    let (l', signals) := recomputeInvoice env.now pk l'
    return (⟨pk, l.transactions.length⟩, s.putInvoice pk l', signals)

/-- A payment gateway connection. -/
structure Provider where
  pk : ℕ
  isActive : Bool

/-- A way for a customer to pay. -/
structure PaymentMethod where
  code : String
  name : String
  isActive : Bool
  provider : Option Provider

/-- A customer says they have paid by an offline method: a pending transaction, until staff
    confirm it.  `proof` is what the upload checks say of an attached file. -/
def reportPayment (env : Env) (actor : Actor) (pk : ℕ) (method : Option PaymentMethod)
    (amount : Option Typed) (proof : Except String Unit) (s : Store) :
    Except Err (TxId × Store × List Signal) := do
  let l ← lockInvoice s pk
  requireClientAccess actor l.invoice.client
  requireOpen l.invoice
  ensure (∃ m ∈ method, m.isActive = true ∧ m.provider.isNone = true)
    (serviceError "Choose a valid payment method." "payment_method_invalid")
  let amount ← amountOr amount l.invoice.balanceDue
  requireAmountWithinBalance l.invoice amount
  proof.mapError fun messages => serviceError messages "invalid_proof"
  ensure (∀ tx ∈ l.transactions,
      ¬(tx.status = .pending ∧ tx.provider = none ∧ tx.type = .payment))
    (serviceError ("You have already reported a payment for this invoice. "
      ++ "It is awaiting confirmation.") "payment_already_reported")
  let l' ← createTransaction s l {
    type := .payment, status := .pending, amount, currency := l.invoice.currency
    occurredAt := env.now }
  return (⟨pk, l.transactions.length⟩, s.putInvoice pk l', [])

/-- Staff: a reported (pending, offline) payment has arrived. -/
def confirmPayment (env : Env) (actor : Actor) (id : TxId) (s : Store) :
    Except Err (Store × List Signal) := do
  requirePerm actor .manageBilling
  let l ← lockInvoice s id.invoice
  let tx ← lockTransaction l id.index
  ensure (tx.type = .payment ∧ tx.status = .pending ∧ tx.provider = none)
    (serviceError "Only a reported offline payment can be confirmed here." "invalid_status")
  requireOpen l.invoice
  requireAmountWithinBalance l.invoice tx.amount
  let tx' := { tx with status := .succeeded, occurredAt := env.now }
  let (l', signals) :=
    recomputeInvoice env.now id.invoice { l with transactions := l.transactions.set id.index tx' }
  return (s.putInvoice id.invoice l', signals)

/-- Staff: a reported payment never arrived. -/
def rejectPayment (actor : Actor) (id : TxId) (reason : String) (s : Store) :
    Except Err (Store × List Signal) := do
  requirePerm actor .manageBilling
  let l ← lockInvoice s id.invoice
  let tx ← lockTransaction l id.index
  ensure (tx.type = .payment ∧ tx.status = .pending ∧ tx.provider = none)
    (serviceError "Only a reported offline payment can be rejected here." "invalid_status")
  let tx' := { tx with status := .failed, failureReason := clip 500 (strip reason) }
  return (s.putInvoice id.invoice { l with transactions := l.transactions.set id.index tx' }, [])

/-! ### Refunds -/

/-- The succeeded refunds of the payment at `index`. -/
def refundsOf (transactions : List Transaction) (index : ℕ) : List Transaction :=
  transactions.filter fun tx => tx.parent = some index ∧ tx.status = .succeeded

def refundableAmount (l : Ledger) (index : ℕ) (payment : Transaction) : ℤ :=
  payment.amount - ((refundsOf l.transactions index).map (·.amount)).sum

/-- The external id of a refund: the gateway's for an online payment, else blank. -/
def refundAtGateway (provider : Option ℕ) (gateway : Except String String) : Except Err String :=
  match provider with
  | none => .ok ""
  | some _ => gateway.mapError fun e =>
      serviceError ("The gateway could not refund this payment: " ++ e) "refund_failed"

/-- Staff: refund all or part of a succeeded payment.  `gateway` is the refund id the gateway
    of an online payment gives. -/
def refundPayment (env : Env) (actor : Actor) (id : TxId) (amount : Option Typed)
    (gateway : Except String String) (s : Store) : Except Err (Store × List Signal) := do
  requirePerm actor .manageBilling
  let l ← lockInvoice s id.invoice
  let payment ← lockTransaction l id.index
  ensure (payment.type = .payment ∧ payment.status = .succeeded)
    (serviceError "Only a succeeded payment can be refunded." "invalid_status")
  let available := refundableAmount l id.index payment
  let amount ← amountOr amount available
  ensure (amount ≤ available)
    (serviceError ("At most " ++ payment.currency ++ " " ++ amountText available
      ++ " can still be refunded on this payment.") "refund_exceeds_payment")
  let externalId ← refundAtGateway payment.provider gateway
  let l' ← createTransaction s l {
    type := .refund, status := .succeeded, amount, currency := payment.currency
    provider := payment.provider, externalId, parent := some id.index, occurredAt := env.now }
  let (l', signals) := recomputeInvoice env.now id.invoice l'
  return (s.putInvoice id.invoice l', signals)

/-! ### Gateway payments -/

/-- What the gateway answers while a payment is started: `get_adapter`, then `create_payment`
    with the external id of the new payment. -/
abbrev GatewayAnswer := Except String (Except String String)

/-- Of several rows, the one `ordering = ["-occurred_at", "-id"]` puts first. -/
def newest (rows : List (Transaction × ℕ)) : Option (Transaction × ℕ) :=
  rows.foldl (fun best row =>
    match best with
    | none => some row
    | some b => if row.1.occurredAt < b.1.occurredAt then some b else some row) none

/-- The active gateway of an active payment method. -/
def onlineProvider (method : Option PaymentMethod) : Except Err Provider :=
  match method.bind fun m => if m.isActive then m.provider else none with
  | some provider =>
    if provider.isActive then .ok provider
    else .error (serviceError "Online payment is not available with this method."
      "payment_method_invalid")
  | none => .error (serviceError "Online payment is not available with this method."
      "payment_method_invalid")

/-- A customer pays the balance online: a pending transaction, which only the gateway's
    webhook can make succeed. -/
def startGatewayPayment (env : Env) (actor : Actor) (pk : ℕ) (method : Option PaymentMethod)
    (gateway : GatewayAnswer) (s : Store) : Except Err (TxId × Store × List Signal) := do
  let l ← lockInvoice s pk
  requireClientAccess actor l.invoice.client
  requireOpen l.invoice
  let provider ← onlineProvider method
  let adapter ← gateway.mapError fun e => serviceError e "gateway_unavailable"
  let balance := l.invoice.balanceDue
  match newest (l.transactions.zipIdx.filter fun (tx, _) => tx.status = .pending
      ∧ tx.type = .payment ∧ tx.provider = some provider.pk ∧ tx.amount = balance) with
  | some (_, index) => return (⟨pk, index⟩, s, [])
  | none =>
    let externalId ← adapter.mapError fun e =>
      serviceError ("The payment could not be started: " ++ e) "gateway_error"
    let l' ← createTransaction s l {
      type := .payment, status := .pending, amount := balance, currency := l.invoice.currency
      provider := some provider.pk, externalId, occurredAt := env.now }
    return (⟨pk, l.transactions.length⟩, s.putInvoice pk l', [])

/-- A verified gateway event. -/
structure PaymentEvent where
  eventId : String
  type : String
  externalId : String := ""
  amount : Option Decimal := none
  currency : String := ""
  reason : String := ""
  deriving DecidableEq

/-- The payment a gateway knows by its external id. -/
def findPayment (s : Store) (provider : ℕ) (externalId : String) : Option TxId :=
  if externalId = "" then none
  else (s.transactions.find? fun p => p.2.provider = some provider
    ∧ p.2.externalId = externalId ∧ p.2.type = .payment).map Prod.fst

/-- Apply one verified event. -/
def applyEvent (env : Env) (provider : ℕ) (event : PaymentEvent) (s : Store) :
    Except Err (WebhookStatus × String × Store × List Signal) := do
  if event.type ≠ "payment.succeeded" ∧ event.type ≠ "payment.failed" then
    return (.ignored, "Unhandled event type.", s, [])
  match findPayment s provider event.externalId with
  | none => return (.ignored, "No matching transaction.", s, [])
  | some id =>
    let l ← lockInvoice s id.invoice
    let tx ← lockTransaction l id.index
    if event.type = "payment.failed" then
      if tx.status ≠ .pending then
        return (.ignored, "The transaction is no longer pending.", s, [])
      let reason := if event.reason = "" then "Payment failed." else event.reason
      let tx' := { tx with status := .failed, failureReason := clip 500 reason }
      return (.processed, "Payment marked failed.",
        s.putInvoice id.invoice { l with transactions := l.transactions.set id.index tx' }, [])
    else if tx.status = .succeeded then
      return (.ignored, "Already applied.", s, [])
    else if event.amount.map money ≠ some tx.amount ∨ event.currency ≠ tx.currency then
      return (.failed, "Amount or currency does not match the transaction.", s, [])
    else
      -- the money has arrived, even if the payment was marked failed or the invoice cancelled
      let tx' := { tx with status := .succeeded, failureReason := "", occurredAt := env.now }
      let (l', signals) := recomputeInvoice env.now id.invoice
        { l with transactions := l.transactions.set id.index tx' }
      return (.processed, "Payment applied.", s.putInvoice id.invoice l', signals)

/-- What `handle_webhook` returns. -/
inductive WebhookResult where
  | duplicate
  | applied (status : WebhookStatus) (detail : String)
  deriving DecidableEq, Repr

/-- Apply a gateway webhook.  `parsed` is what `get_adapter` and its `parse_webhook` make of
    the request.  The event is recorded by the gateway's event id first, so a redelivery
    changes nothing. -/
def handleWebhook (env : Env) (provider : ℕ) (parsed : Except String (Except String PaymentEvent))
    (s : Store) : Except Err (WebhookResult × Store × List Signal) := do
  let parsed ← parsed.mapError fun e => .service e "gateway_unavailable" 503
  let event ← parsed.mapError .webhookVerification
  if ∃ w ∈ s.webhookEvents, w.provider = provider ∧ w.eventId = event.eventId then
    return (.duplicate, s, [])
  else
    let (status, detail, s', signals) ← applyEvent env provider event s
    let record := {
      provider, eventId := event.eventId, eventType := event.type, status
      detail := clip 500 detail }
    return (.applied status detail,
      { s' with webhookEvents := s'.webhookEvents ++ [record] }, signals)

end WPanel.Billing
