import WPanel.Billing.Models

namespace WPanel.Billing

open WPanel.Lib

/-!
# Building a document

The building blocks of `billing/invoicing.py` that invoices and quotes share: cleaning the
lines and the discount staff typed, working out the totals, building the stored lines, and
the checks `full_clean` makes before anything is written.
-/

def maxLines : ℕ := 100

/-- One line as it was typed: the text of the description, the quantity if it reads as a
    whole number, and the price. -/
structure RawLine where
  description : String
  quantity : Option ℤ := some 1
  unitPrice : Typed
  taxable : Bool := true

/-- A line that has been checked. -/
structure Line where
  description : String
  quantity : ℕ
  unitPrice : ℤ
  amount : ℤ
  taxable : Bool
  deriving DecidableEq, Repr

/-- The error of line `position`. -/
def lineError (position : ℕ) (text : String) : Err :=
  .validation ("Line " ++ toString position ++ ": " ++ text)

/-- `_decimal(value, label)`. -/
def decimalOf (value : Typed) (label : String) : Except Err Decimal :=
  match value with
  | .number value => .ok value
  | _ => .error (.validation (label ++ " must be a number."))

/-- `int(value)` where the value reads as a whole number. -/
def wholeNumber (value : Option ℤ) (error : Err) : Except Err ℤ :=
  match value with
  | some number => .ok number
  | none => .error error

/-- `_clean_line(raw, position)`. -/
def cleanLine (raw : RawLine) (position : ℕ) : Except Err Line := do
  let description := strip raw.description
  ensure (description ≠ "") (lineError position "enter a description.")
  ensure (description.toList.length ≤ 255)
    (lineError position "the description is too long (255 characters at most).")
  let quantity ← wholeNumber raw.quantity
    (lineError position "quantity must be a whole number.")
  ensure (1 ≤ quantity ∧ quantity ≤ 100000) (lineError position "quantity must be at least 1.")
  let unitPrice ← decimalOf raw.unitPrice ("Line " ++ toString position ++ ": unit price")
  ensure (0 ≤ unitPrice ∧ unitPrice ≤ dec maxAmount)
    (lineError position "unit price must be zero or more.")
  let unitPrice := money unitPrice
  let quantity := quantity.toNat
  let amount := money (dec unitPrice * quantity)
  ensure (amount ≤ maxAmount) (lineError position "the amount is too large.")
  return { description, quantity, unitPrice, amount, taxable := raw.taxable }

/-- `_clean_lines(lines)`: the lines are numbered from 1. -/
def cleanLines (lines : List RawLine) : Except Err (List Line) := do
  ensure (lines ≠ []) (.validation "Add at least one line.")
  ensure (lines.length ≤ maxLines) (.validation "A document can have at most 100 lines.")
  (lines.zipIdx 1).mapM fun (raw, position) => cleanLine raw position

/-- A discount as staff entered it; a blank type or value is no discount. -/
structure RawDiscount where
  type : String := ""
  value : Option Typed := none

/-- The discount types by their stored values. -/
def discountKind (type : String) : Except Err DiscountType :=
  if type = "percent" then .ok .percent
  else if type = "fixed" then .ok .fixed
  else .error (.validation "Choose a valid discount type.")

/-- `_discount` where a type and a value were entered. -/
def enteredDiscount (type : String) (value : Typed) (subtotal : ℤ) : Except Err ℤ := do
  let kind ← discountKind type
  let value ← decimalOf value "Discount"
  ensure (0 ≤ value) (.validation "The discount cannot be negative.")
  if value = 0 then return 0
  else
    ensure (kind = .percent → value ≤ 100)
      (.validation "A percentage discount cannot exceed 100.")
    ensure (kind = .fixed → value ≤ dec subtotal)
      (.validation "The discount cannot exceed the subtotal.")
    return discountAmount kind value subtotal

/-- `_discount(discount_type, discount_value, subtotal, label)`. -/
def discount (raw : RawDiscount) (subtotal : ℤ) : Except Err ℤ :=
  match raw.value with
  | none => .ok 0
  | some value => if raw.type = "" then .ok 0 else enteredDiscount raw.type value subtotal

/-! ### Tax rules -/

/-- The active rule for `country`, else the active default rule, else none. -/
def taxRuleForCountry (rules : List TaxRule) (country : String) : Option TaxRule :=
  let country := country.map Char.toUpper
  let active := rules.filter (·.isActive)
  (if country = "" then none else active.find? (·.country = country))
    <|> active.find? (·.country = "")

/-- The rule that applies to a client: none if they are tax exempt. -/
def taxRuleForClient (env : Env) (client : ℕ) : Option TaxRule :=
  let client := env.clients client
  if client.taxExempt then none else taxRuleForCountry env.taxRules client.country

def ratePercent (rule : Option TaxRule) : Decimal := (rule.map (·.rate)).getD 0

theorem ratePercent_nonneg (rule : Option TaxRule) : 0 ≤ ratePercent rule := by
  cases rule with
  | none => exact le_refl _
  | some rule => exact rule.rate_valid.1

/-! ### Totals and stored lines -/

/-- The exceptions of the billing arithmetic, as a service sees them. -/
def liftCalc {α : Type} : Except CalcError α → Except Err α
  | .ok a => .ok a
  | .error (.valueError message) => .error (.arithmetic message)
  | .error (.runtimeError message) => .error (.arithmetic message)

@[simp] theorem liftCalc_eq_ok {α : Type} {x : Except CalcError α} {a : α} :
    liftCalc x = .ok a ↔ x = .ok a := by
  cases x with
  | ok b => simp [liftCalc]
  | error e => cases e <;> simp [liftCalc]

/-- `_compute`: the totals of a manually built document, with the tax rule used. -/
def computeDocument (env : Env) (client : ℕ) (lines : List Line) (raw : RawDiscount) :
    Except Err (DocumentTotals × Option TaxRule) := do
  let subtotal := (lines.map (·.amount)).sum
  let discountTotal ← discount raw subtotal
  let rule := taxRuleForClient env client
  let totals ← liftCalc (compute (lines.map fun line => dec line.amount)
    (lines.map (·.taxable)) (dec discountTotal) (ratePercent rule))
  ensure (totals.total ≤ maxAmount) (.validation "The total is too large.")
  return (totals, rule)

/-- `_build_items`: the stored lines, with the shares of the totals. -/
def buildItems (lines : List Line) (totals : DocumentTotals) : List LineItem :=
  (lines.zip totals.lines).map fun (line, result) => {
    description := line.description, quantity := line.quantity, unitPrice := line.unitPrice
    amount := result.amount, discountAmount := result.discount, taxable := line.taxable
    taxAmount := result.tax, total := result.total }

/-- A stored line, read back as the line it was built from. -/
def LineItem.line (item : LineItem) : Line where
  description := item.description
  quantity := item.quantity
  unitPrice := item.unitPrice
  amount := item.amount
  taxable := item.taxable

/-- `_apply_totals` on an invoice. -/
def Invoice.applyTotals (invoice : Invoice) (totals : DocumentTotals) (rate : Decimal) : Invoice :=
  { invoice with
    subtotal := totals.subtotal, discountTotal := totals.discountTotal, taxRate := rate
    taxTotal := totals.taxTotal, total := totals.total }

/-- `_apply_totals` on a quote. -/
def Quote.applyTotals (quote : Quote) (totals : DocumentTotals) (rate : Decimal) : Quote :=
  { quote with
    subtotal := totals.subtotal, discountTotal := totals.discountTotal, taxRate := rate
    taxTotal := totals.taxTotal, total := totals.total }

/-- The currencies the business bills in. -/
def currencyCodes : List String := ["USD", "PKR", "SAR"]

/-- `_document_currency(requested, default=…, keep=…)`. -/
def documentCurrency (requested : String) (default : String) (keep : String := "") :
    Except Err String :=
  let kept := if keep = "" then default else keep
  if requested = "" then .ok kept
  else
    let code := (strip requested).map Char.toUpper
    if code ∈ currencyCodes ∨ (kept ≠ "" ∧ code = kept) then .ok code
    else .error (serviceError "Choose a currency: USD, PKR, SAR." "invalid_currency")

/-! ### `full_clean` -/

/-- The fields among these whose amount is negative or has too many digits. -/
def invalidAmounts (fields : List (String × ℤ)) : List String :=
  (fields.filter fun field => field.2 < 0 ∨ maxAmount < field.2).map Prod.fst

/-- The fields of an invoice `full_clean` refuses; `taken` are the numbers of the others. -/
def Invoice.invalidFields (invoice : Invoice) (taken : List String) : List String :=
  (if invoice.number.toList.length ≤ 30 ∧ (invoice.number = "" ∨ invoice.number ∉ taken) then []
    else ["number"])
  ++ (if invoice.currency ≠ "" ∧ invoice.currency.toList.length ≤ 3 then [] else ["currency"])
  ++ (if 0 ≤ invoice.taxRate ∧ invoice.taxRate ≤ 100 then [] else ["tax_rate"])
  ++ invalidAmounts [("subtotal", invoice.subtotal), ("discount_total", invoice.discountTotal),
    ("tax_total", invoice.taxTotal), ("total", invoice.total),
    ("amount_paid", invoice.amountPaid), ("amount_refunded", invoice.amountRefunded)]

/-- The fields of a quote `full_clean` refuses; `taken` are the numbers of the others. -/
def Quote.invalidFields (quote : Quote) (taken : List String) : List String :=
  (if quote.number.toList.length ≤ 30 ∧ (quote.number = "" ∨ quote.number ∉ taken) then []
    else ["number"])
  ++ (if quote.currency ≠ "" ∧ quote.currency.toList.length ≤ 3 then [] else ["currency"])
  ++ (if 0 ≤ quote.taxRate ∧ quote.taxRate ≤ 100 then [] else ["tax_rate"])
  ++ invalidAmounts [("subtotal", quote.subtotal), ("discount_total", quote.discountTotal),
    ("tax_total", quote.taxTotal), ("total", quote.total)]

/-- The fields of a line `full_clean` refuses. -/
def LineItem.invalidFields (item : LineItem) : List String :=
  (if item.description ≠ "" ∧ item.description.toList.length ≤ 255 then [] else ["description"])
  ++ (if 1 ≤ item.quantity then [] else ["quantity"])
  ++ invalidAmounts [("unit_price", item.unitPrice), ("amount", item.amount),
    ("discount_amount", item.discountAmount), ("tax_amount", item.taxAmount),
    ("total", item.total)]

/-- `full_clean()` on a record with these invalid fields. -/
def fullClean (model : String) (invalidFields : List String) : Except Err Unit :=
  ensure (invalidFields = []) (.invalid model invalidFields)

/-- `item.full_clean(exclude=[fk])` for every line. -/
def fullCleanItems (model : String) : List LineItem → Except Err Unit
  | [] => .ok ()
  | item :: items => do
    fullClean model item.invalidFields
    fullCleanItems model items

/-- The numbers of the other invoices. -/
def Store.invoiceNumbers (s : Store) (pk : ℕ) : List String :=
  (s.invoices.entries.filter fun entry => entry.1 ≠ pk).map fun entry => entry.2.invoice.number

/-- The numbers of the other quotes. -/
def Store.quoteNumbers (s : Store) (pk : ℕ) : List String :=
  (s.quotes.entries.filter fun entry => entry.1 ≠ pk).map fun entry => entry.2.number

end WPanel.Billing
