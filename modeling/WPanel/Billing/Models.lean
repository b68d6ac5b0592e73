import WPanel.Billing.Calculations
import WPanel.Core
import WPanel.Lib.Table

namespace WPanel.Billing

open WPanel.Lib

/-!
# The billing records

`billing/models.py`, as far as the logic of the services reads it.  The rows that belong to
one invoice (its lines and its transactions) are kept with it as a `Ledger`; a transaction
is then addressed by its invoice and its place among that invoice's transactions.

Amounts are in cents.  Display texts nothing decides on (notes, labels, the frozen billing
address) are left out.
-/

inductive InvoiceStatus where
  | draft
  | unpaid
  | partiallyPaid
  | paid
  | cancelled
  | refunded
  deriving DecidableEq, Repr

/-- The stored value of a status. -/
def InvoiceStatus.value : InvoiceStatus → String
  | .draft => "draft"
  | .unpaid => "unpaid"
  | .partiallyPaid => "partially_paid"
  | .paid => "paid"
  | .cancelled => "cancelled"
  | .refunded => "refunded"

/-- The statuses in which an invoice can be paid. -/
def openStatuses : List InvoiceStatus := [.unpaid, .partiallyPaid]

structure Invoice where
  client : ℕ
  order : Option ℕ := none
  quote : Option ℕ := none
  status : InvoiceStatus := .draft
  number : String := ""
  currency : String
  issueDate : Option ℕ := none
  dueDate : Option ℕ := none
  subtotal : ℤ := 0
  discountTotal : ℤ := 0
  taxRate : Decimal := 0
  taxTotal : ℤ := 0
  total : ℤ := 0
  amountPaid : ℤ := 0
  amountRefunded : ℤ := 0
  paidAt : Option Moment := none
  cancelReason : String := ""
  deriving DecidableEq, Repr

/-- One line of an invoice or quote. -/
structure LineItem where
  description : String
  quantity : ℕ := 1
  unitPrice : ℤ
  amount : ℤ
  discountAmount : ℤ := 0
  taxable : Bool := true
  taxAmount : ℤ := 0
  total : ℤ := 0
  deriving DecidableEq, Repr

inductive TransactionType where
  | payment
  | refund
  deriving DecidableEq, Repr

inductive TransactionStatus where
  | pending
  | succeeded
  | failed
  deriving DecidableEq, Repr

/-- One movement of money against an invoice. -/
structure Transaction where
  type : TransactionType
  status : TransactionStatus
  amount : ℤ
  currency : String
  /-- The gateway the payment goes through; `none` for an offline payment. -/
  provider : Option ℕ := none
  externalId : String := ""
  idempotencyKey : String := ""
  failureReason : String := ""
  /-- For a refund, the payment of the same invoice it gives back. -/
  parent : Option ℕ := none
  occurredAt : Moment
  deriving DecidableEq, Repr

/-- An invoice with the lines and transactions that point at it. -/
structure Ledger where
  invoice : Invoice
  items : List LineItem
  transactions : List Transaction := []
  deriving DecidableEq, Repr

/-- A transaction, by its invoice and its place among that invoice's transactions. -/
structure TxId where
  invoice : ℕ
  index : ℕ
  deriving DecidableEq, Repr

/-! ### Quotes and billable items -/

inductive QuoteStatus where
  | draft
  | sent
  | accepted
  | declined
  | cancelled
  deriving DecidableEq, Repr

structure Quote where
  client : ℕ
  status : QuoteStatus := .draft
  number : String := ""
  currency : String
  issueDate : Option ℕ := none
  validUntil : Option ℕ := none
  subtotal : ℤ := 0
  discountTotal : ℤ := 0
  taxRate : Decimal := 0
  taxTotal : ℤ := 0
  total : ℤ := 0
  items : List LineItem
  deriving DecidableEq, Repr

/-- A charge that has not been invoiced yet, or the invoice it went onto. -/
structure BillableItem where
  client : ℕ
  description : String
  quantity : ℕ
  unitPrice : ℤ
  taxable : Bool
  invoice : Option ℕ := none
  deriving DecidableEq, Repr

/-! ### Gateway events -/

inductive WebhookStatus where
  | processed
  | ignored
  | failed
  deriving DecidableEq, Repr

/-- A verified gateway event, keyed by the gateway's event id. -/
structure WebhookEvent where
  provider : ℕ
  eventId : String
  eventType : String
  status : WebhookStatus := .processed
  detail : String := ""
  deriving DecidableEq, Repr

/-! ### The store -/

/-- Every billing record. -/
structure Store where
  invoices : Table Ledger := {}
  quotes : Table Quote := {}
  billableItems : Table BillableItem := {}
  /-- The last number taken from the sequences `"invoice"` and `"quote"`. -/
  invoiceSequence : ℕ := 0
  quoteSequence : ℕ := 0
  webhookEvents : List WebhookEvent := []
  deriving DecidableEq

/-- The signals of `billing/signals.py`, with the invoice they are about. -/
inductive Signal where
  | invoicePaid (invoice : ℕ)
  | invoiceCancelled (invoice : ℕ)
  | invoiceRefunded (invoice : ℕ)
  deriving DecidableEq, Repr

/-! ### Settings and people -/

/-- The tax charged to clients of one country; a blank country is the default rule. -/
structure TaxRule where
  name : String
  country : String
  rate : Decimal
  isActive : Bool
  rate_valid : 0 ≤ rate ∧ rate ≤ 100

/-- The settings the services read from the single `BillingSettings` row. -/
structure BillingSettings where
  invoicePrefix : String := "INV-"
  quotePrefix : String := "QUO-"
  paymentTermsDays : ℕ := 14
  quoteValidityDays : ℕ := 30

/-- What the billing services read of a client. -/
structure Client where
  currency : String
  country : String := ""
  taxExempt : Bool := false

/-- What the surroundings of a call say: the time, the calendar day of a moment where the
    site is, and the settings, tax rules and clients stored at that time. -/
structure Env where
  now : Moment
  localdate : Moment → ℕ
  /-- `timezone.localdate(moment).isoformat()`. -/
  isoDay : Moment → String
  settings : BillingSettings := {}
  taxRules : List TaxRule := []
  clients : ℕ → Client

/-- `timezone.localdate()`. -/
def Env.today (env : Env) : ℕ := env.localdate env.now

/-! ### Derived figures of an invoice -/

/-- The number of an invoice, or its key while it has none. -/
def Invoice.reference (pk : ℕ) (invoice : Invoice) : String :=
  if invoice.number = "" then "Draft #" ++ toString pk else invoice.number

/-- What is still to be paid. -/
def Invoice.balanceDue (invoice : Invoice) : ℤ :=
  if invoice.status = .draft ∨ invoice.status = .cancelled then 0
  else max (invoice.total - invoice.amountPaid) 0

/-- Money held beyond the invoice total. -/
def Invoice.overpaid (invoice : Invoice) : ℤ :=
  let owed := if invoice.status = .cancelled then 0 else invoice.total
  max (invoice.amountPaid - invoice.amountRefunded - owed) 0

/-- The largest amount a document can hold. -/
def maxAmount : ℤ := 999999999999

/-- The sum of the succeeded transactions of one type. -/
def succeededTotal (type : TransactionType) (transactions : List Transaction) : ℤ :=
  ((transactions.filter fun tx => tx.status = .succeeded ∧ tx.type = type).map (·.amount)).sum

/-- The sum of the succeeded payments on an invoice. -/
def Ledger.paidTotal (l : Ledger) : ℤ := succeededTotal .payment l.transactions

/-- The sum of the succeeded refunds on an invoice. -/
def Ledger.refundedTotal (l : Ledger) : ℤ := succeededTotal .refund l.transactions

/-- The status the succeeded transactions of an issued invoice say it has. -/
def statusFor (paid refunded total : ℤ) : InvoiceStatus :=
  if paid > 0 ∧ refunded ≥ paid then .refunded
  else if paid ≥ total then .paid
  else if paid > 0 then .partiallyPaid
  else .unpaid

end WPanel.Billing
