import WPanel.Billing.Calculations
import WPanel.Core
import WPanel.Lib.Table

namespace WPanel

open WPanel.Lib

/-!
# The catalogue

What the panel sells and for how much: plans and add-ons with a price for each billing
cycle (`products/models.py`, `products/services.py`), and the prices of domain names
(`domains/models.py`, `domains/services.py`).

A price row carries the proof that its amounts are not negative, as its model's validators
demand.
-/

/-! ### Billing cycles -/

inductive BillingCycle where
  | monthly
  | quarterly
  | semiAnnual
  | annual
  | biennial
  | custom
  | oneTime
  deriving DecidableEq, Repr

namespace BillingCycle

/-- The stored value of a cycle. -/
def value : BillingCycle → String
  | monthly => "monthly"
  | quarterly => "quarterly"
  | semiAnnual => "semi_annual"
  | annual => "annual"
  | biennial => "biennial"
  | custom => "custom"
  | oneTime => "one_time"

def label : BillingCycle → String
  | monthly => "Monthly"
  | quarterly => "Quarterly"
  | semiAnnual => "Semi-Annually"
  | annual => "Annually"
  | biennial => "Biennially"
  | custom => "Custom"
  | oneTime => "One-time"

def all : List BillingCycle := [monthly, quarterly, semiAnnual, annual, biennial, custom, oneTime]

/-- `BillingCycle(value)`. -/
def ofValue (value : String) : Option BillingCycle := all.find? fun cycle => cycle.value = value

/-- `STANDARD_CYCLE_MONTHS`. -/
def standardMonths : BillingCycle → Option ℕ
  | monthly => some 1
  | quarterly => some 3
  | semiAnnual => some 6
  | annual => some 12
  | biennial => some 24
  | custom => none
  | oneTime => none

end BillingCycle

/-- A stored billing cycle as the screens show it. -/
def cycleLabel (billingCycle : String) (customMonths : ℕ) : String :=
  if billingCycle = BillingCycle.custom.value then toString customMonths ++ " months"
  else match BillingCycle.ofValue billingCycle with
    | some cycle => cycle.label
    | none => billingCycle

/-- Months in a recurring billing cycle, or `none` if it is not a recurring cycle. -/
def cycleMonths (billingCycle : String) (customMonths : ℕ) : Option ℕ :=
  if billingCycle = BillingCycle.custom.value then
    if customMonths = 0 then none else some customMonths
  else (BillingCycle.ofValue billingCycle).bind BillingCycle.standardMonths

/-! ### Plans and add-ons -/

inductive CatalogStatus where
  | active
  | hidden
  | retired
  deriving DecidableEq, Repr

/-- One price for one billing cycle. -/
structure PriceEntry where
  billingCycle : BillingCycle
  /-- The month count of a custom cycle, `0` for any other. -/
  customMonths : ℕ := 0
  price : ℤ
  setupFee : ℤ := 0
  isActive : Bool := true
  price_nonneg : 0 ≤ price
  setupFee_nonneg : 0 ≤ setupFee
  deriving DecidableEq, Repr

/-- A hosting plan. -/
structure Product where
  name : String
  type : String
  status : CatalogStatus := .active
  whmPackageName : String
  prices : List PriceEntry
  /-- The servers the plan is sold on; any, when there are none. -/
  servers : List ℕ := []
  deriving DecidableEq, Repr

inductive AddonKind where
  | general
  | ssl
  | whoisPrivacy
  | domain
  deriving DecidableEq, Repr

structure Addon where
  name : String
  kind : AddonKind := .general
  status : CatalogStatus := .active
  prices : List PriceEntry
  deriving DecidableEq, Repr

/-- `Addon.applies_to == "domain"`: the add-on goes with a domain, not with a hosting plan. -/
def Addon.appliesToDomain (addon : Addon) : Bool :=
  addon.kind = .whoisPrivacy || addon.kind = .domain

/-- The cheapest price on offer, the first of equal ones. -/
def lowestPrice (prices : List PriceEntry) : Option PriceEntry :=
  (prices.filter (·.isActive)).foldl (fun best row =>
    match best with
    | none => some row
    | some b => if row.price < b.price then some row else some b) none

/-- The price row of an item at a billing cycle. -/
def getEffectivePrice (prices : List PriceEntry) (billingCycle : String) (customMonths : ℕ) :
    Except Err PriceEntry :=
  match prices.find? fun row => row.billingCycle.value = billingCycle
      ∧ row.customMonths = customMonths ∧ row.isActive with
  | some row => .ok row
  | none => .error
      (serviceError "This billing cycle is not available for this item." "price_not_found")

/-! ### Domain names -/

/-- The prices of one domain ending. -/
structure TldPricing where
  tld : String
  registerPrice : ℤ
  renewPrice : ℤ
  transferPrice : ℤ
  minYears : ℕ := 1
  maxYears : ℕ := 10
  isActive : Bool := true
  registerPrice_nonneg : 0 ≤ registerPrice
  renewPrice_nonneg : 0 ≤ renewPrice
  transferPrice_nonneg : 0 ≤ transferPrice
  deriving DecidableEq, Repr

def isLower (c : Char) : Bool := 'a' ≤ c && c ≤ 'z'

def isLowerAlnum (c : Char) : Bool := isLower c || ('0' ≤ c && c ≤ '9')

/-- One label of a name: letters, digits and inner hyphens, at most 63 of them. -/
def isLabel (label : List Char) : Bool :=
  label.length ≤ 63 && (label.head?.any isLowerAlnum && label.getLast?.any isLowerAlnum)
    && label.all fun c => isLowerAlnum c || c = '-'

/-- `DOMAIN_NAME_VALIDATOR`.  Its `$` also stands before a newline that ends the text. -/
def validDomainName (name : String) : Bool :=
  let chars := name.toList
  let chars := if chars.getLast? = some '\n' then chars.dropLast else chars
  let labels := chars.splitOn '.'
  let ending := labels.getLast?.getD []
  (1 ≤ chars.length && chars.length ≤ 253) && 2 ≤ labels.length && labels.dropLast.all isLabel
    && (2 ≤ ending.length && ending.length ≤ 63) && ending.all isLower

example : validDomainName "my-shop.example.com" = true := by decide +kernel
example : validDomainName "-shop.com" = false := by decide +kernel

/-- `".com"` from `"example.com"`. -/
def domainTld (name : String) : String :=
  "." ++ String.ofList ((name.toList.splitOn '.').getLast?.getD [])

/-- The prices of a domain ending; `requireActive` skips those no longer sold. -/
def getTldPricing (pricings : List TldPricing) (tld : String) (requireActive : Bool := true) :
    Except Err TldPricing :=
  match pricings.find? fun row => row.tld = tld ∧ (requireActive → row.isActive) with
  | some row => .ok row
  | none => .error (serviceError ("'" ++ tld ++ "' is not a supported TLD.") "tld_not_supported")

end WPanel
