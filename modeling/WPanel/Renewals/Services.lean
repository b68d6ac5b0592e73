import WPanel.Billing.Documents
import WPanel.Renewals.Models
import WPanel.Renewals.Proration

namespace WPanel.Renewals

open WPanel.Lib WPanel.Billing

/-!
# Terms, upgrades and applied changes

The part of `renewals/services.py` that touches services and changes only: the paid term of
an account, what an upgrade costs, and applying or voiding a change.

* `startHostingTerm`, `setHostingTerm` — the term as fulfilment starts it, or staff set it;
* `previewUpgrade` — the server-side calculation of an upgrade;
* `apply` — carry out one paid change; a failure is recorded on the change;
* `applyPaidInvoice`, `voidChanges` — what a paid or cancelled invoice does to its changes.
-/

/-! ### Rows -/

def lockAccount (s : Store) (pk : ℕ) : Except Err HostingAccount :=
  match s.accounts.get? pk with
  | some account => .ok account
  | none => .error (.doesNotExist "HostingAccount")

def lockDomain (s : Store) (pk : ℕ) : Except Err Domain :=
  match s.domains.get? pk with
  | some domain => .ok domain
  | none => .error (.doesNotExist "Domain")

def lockChange (s : Store) (pk : ℕ) : Except Err ServiceChange :=
  match s.changes.get? pk with
  | some change => .ok change
  | none => .error (.doesNotExist "ServiceChange")

theorem lockAccount_eq_ok {s : Store} {pk : ℕ} {account : HostingAccount} :
    lockAccount s pk = .ok account ↔ s.accounts.get? pk = some account := by
  unfold lockAccount
  cases s.accounts.get? pk <;> simp

theorem lockDomain_eq_ok {s : Store} {pk : ℕ} {domain : Domain} :
    lockDomain s pk = .ok domain ↔ s.domains.get? pk = some domain := by
  unfold lockDomain
  cases s.domains.get? pk <;> simp

theorem lockChange_eq_ok {s : Store} {pk : ℕ} {change : ServiceChange} :
    lockChange s pk = .ok change ↔ s.changes.get? pk = some change := by
  unfold lockChange
  cases s.changes.get? pk <;> simp

/-- The plan with this key. -/
def productOf (providers : Providers) (pk : ℕ) : Except Err Product :=
  match providers.products pk with
  | some product => .ok product
  | none => .error (.doesNotExist "Product")

def Store.putAccount (s : Store) (pk : ℕ) (account : HostingAccount) : Store :=
  { s with accounts := s.accounts.put pk account }

def Store.putChange (s : Store) (pk : ℕ) (change : ServiceChange) : Store :=
  { s with changes := s.changes.put pk change }

/-! ### The paid term of a hosting account -/

/-- `add_months`: there is no date past year 9999. -/
def monthsLater (moment : Moment) (months : ℕ) : Except Err Moment :=
  match addMonths moment months with
  | some moment => .ok moment
  | none => .error (.unexpected "year is out of range")

/-- The months of a billing cycle, or the error when it is not a recurring one. -/
def requireMonths (billingCycle : String) (customMonths : ℕ) (error : Err) : Except Err ℕ :=
  match cycleMonths billingCycle customMonths with
  | some months => .ok months
  | none => .error error

/-- A term of `months` months that starts now. -/
def freshTerm (env : Env) (billingCycle : String) (customMonths months : ℕ) (termPaid : ℤ) :
    Except Err Term := do
  let expiresAt ← monthsLater env.now months
  return {
    billingCycle, customMonths, termStart := some env.now, expiresAt := some expiresAt, termPaid }

/-- Begin the first paid term of an account.  One that has a term already is left alone. -/
def startHostingTerm (env : Env) (pk : ℕ) (billingCycle : String) (customMonths : ℕ)
    (termPaid : Decimal) (s : Store) : Except Err (Store × List Event) := do
  let months ← requireMonths billingCycle customMonths
    (serviceError "This billing cycle has no term to start." "term_not_set")
  let account ← lockAccount s pk
  if account.term.expiresAt.isSome then return (s, [])
  else
    let customMonths := if billingCycle = BillingCycle.custom.value then customMonths else 0
    let term ← freshTerm env billingCycle customMonths months (money termPaid)
    return (s.putAccount pk { account with term }, [.termStarted pk (money termPaid)])

/-- The start and the end staff typed for a term. -/
def requireDates (termStart expiresAt : Option Moment) : Except Err (Moment × Moment) :=
  let error : Err := .field "expires_at" "The paid-through date must be after the term start."
  match termStart, expiresAt with
  | some termStart, some expiresAt =>
    if termStart < expiresAt then .ok (termStart, expiresAt) else .error error
  | _, _ => .error error

/-- Staff: record the paid term of an existing account. -/
def setHostingTerm (actor : Actor) (pk : ℕ) (billingCycle : String) (customMonths : ℕ)
    (termStart expiresAt : Option Moment) (termPaid : Typed) (s : Store) :
    Except Err (Store × List Event) := do
  requirePerm actor .manageBilling
  let account ← lockAccount s pk
  let _ ← requireMonths billingCycle customMonths
    (.field "billing_cycle" "Choose a recurring billing cycle (custom needs a month count).")
  let customMonths := if billingCycle = BillingCycle.custom.value then customMonths else 0
  let (termStart, expiresAt) ← requireDates termStart expiresAt
  let paid ← decimalOf termPaid "Amount paid"
  let termPaid := money paid
  ensure (0 ≤ termPaid ∧ termPaid ≤ maxAmount) (.invalid "HostingAccount" ["term_paid"])
  let term : Term := {
    billingCycle, customMonths, termStart := some termStart, expiresAt := some expiresAt, termPaid }
  return (s.putAccount pk { account with term }, [.termStarted pk termPaid])

/-- The dates and the months of a term that can be renewed. -/
def requireTerm (account : HostingAccount) : Except Err (Moment × Moment × ℕ) := do
  let unset := serviceError
    "This account's billing term has not been set up yet. Please contact us." "term_not_set"
  match account.term.termStart, account.term.expiresAt with
  | some termStart, some expiresAt =>
    ensure (account.term.billingCycle ≠ "") unset
    let months ← requireMonths account.term.billingCycle account.term.customMonths
      (serviceError "This account's billing cycle cannot be renewed online." "term_not_set")
    return (termStart, expiresAt, months)
  | _, _ => .error unset

/-- A service with an open cancellation request is not renewed or upgraded. -/
def requireNotCancelling (cancelling : Bool) : Except Err Unit :=
  ensure (cancelling = false)
    (serviceError "There is a cancellation request for this service. Withdraw it before renewing."
      "cancellation_open")

/-! ### Upgrades -/

structure UpgradePreview where
  fromProduct : Product
  toProduct : Product
  months : ℕ
  currentPrice : ℤ
  fullTermPrice : ℤ
  /-- The new plan's cost for the days that remain of the current term. -/
  newPrice : ℤ
  credit : Credit
  appliedCredit : ℤ
  newExpiry : Moment

def UpgradePreview.netPayable (preview : UpgradePreview) : ℤ :=
  preview.newPrice - preview.appliedCredit

/-- The price of the current plan, if the catalogue still has one. -/
def currentPrice (product : Product) (term : Term) : Option ℤ :=
  match getEffectivePrice product.prices term.billingCycle term.customMonths with
  | .ok row => some row.price
  | .error _ => none

/-- `prorated_cost` and the expiry that stays, or a fresh term at the full price. -/
def upgradePrice (env : Env) (expiresAt : Moment) (months : ℕ) (fullTermPrice : ℤ)
    (credit : Credit) : Except Err (ℤ × Moment) :=
  if env.now < expiresAt then
    .ok (proratedCost fullTermPrice credit.termDays credit.remainingDays, expiresAt)
  else (monthsLater env.now months).map fun expiry => (fullTermPrice, expiry)

/-- The server-side calculation of upgrading an account to the plan `newPk`. -/
def previewUpgrade (env : Env) (providers : Providers) (account : HostingAccount) (newPk : ℕ) :
    Except Err UpgradePreview := do
  let newProduct ← productOf providers newPk
  ensure (account.placement.status = .active)
    (serviceError "Only an active account can be upgraded." "invalid_status")
  let (_, expiresAt, months) ← requireTerm account
  ensure (newPk ≠ account.placement.product)
    (serviceError "The account is already on this plan." "same_plan")
  let product ← productOf providers account.placement.product
  ensure (newProduct.status = .active ∧ newProduct.whmPackageName ≠ ""
      ∧ newProduct.type = product.type)
    (serviceError "This plan is not available for an upgrade." "product_unavailable")
  let row ← (getEffectivePrice newProduct.prices account.term.billingCycle
    account.term.customMonths).mapError fun _ =>
      serviceError "This plan is not offered for your billing cycle." "price_not_found"
  ensure (∀ price ∈ currentPrice product account.term, price ≤ row.price)
    (serviceError "Downgrades are not available online. Please contact us."
      "downgrade_not_allowed")
  ensure (newProduct.servers = [] ∨ ∀ server ∈ account.placement.server,
    server ∈ newProduct.servers)
    (serviceError "This plan is not available on the server your account is hosted on."
      "server_mismatch")
  let credit := unusedCredit env account.term.termPaid account.term.termStart account.term.expiresAt
  let (newPrice, newExpiry) ← upgradePrice env expiresAt months row.price credit
  return {
    fromProduct := product, toProduct := newProduct, months
    currentPrice := (currentPrice product account.term).getD 0, fullTermPrice := row.price, newPrice
    credit, appliedCredit := min credit.amount newPrice, newExpiry }

/-! ### Applying a change -/

/-- `ServiceError(message)`, with the default code. -/
def plainError (message : String) : Err := serviceError message "service_error"

/-- What the term of an account becomes when `paidValue` more is paid for it, and whether it
    begins anew: a term that still runs goes on as `running` says, one that is over starts again
    from now. -/
def Term.paidOn (term : Term) (env : Env) (months : ℕ) (paidValue : ℤ)
    (running : Moment → Except Err Term) : Except Err (Term × Bool) :=
  match term.expiresAt with
  | some expiresAt =>
    if env.now < expiresAt then (running expiresAt).map fun term => (term, false)
    else (freshTerm env term.billingCycle term.customMonths months paidValue).map fun term =>
      (term, true)
  | none => (freshTerm env term.billingCycle term.customMonths months paidValue).map fun term =>
      (term, true)

/-- A renewal adds the new term to the end of one that still runs. -/
def Term.renewed (term : Term) (env : Env) (months : ℕ) (paidValue : ℤ) :
    Except Err (Term × Bool) :=
  term.paidOn env months paidValue fun expiresAt => do
    let expiresAt ← monthsLater expiresAt months
    return { term with
      expiresAt := some expiresAt, termPaid := term.termPaid + paidValue
      termStart := some (term.termStart.getD env.now) }

/-- An upgrade never disturbs a term that still runs: only the newly added value joins it. -/
def Term.upgraded (term : Term) (env : Env) (months : ℕ) (paidValue : ℤ) :
    Except Err (Term × Bool) :=
  term.paidOn env months paidValue fun _ =>
    .ok { term with termPaid := term.termPaid + paidValue }

/-- An answer of a hosting server or registrar, as the services raise it. -/
def providerCall {α : Type} (failed code : String) : Except ProviderError α → Except Err α
  | .ok a => .ok a
  | .error (.refused message) => .error (serviceError (failed ++ message) code)
  | .error .crashed => .error (.unexpected "provider")

/-- `change_package_as_system(account, new_product)`. -/
def changePackageAsSystem (providers : Providers) (pk : ℕ) (account : HostingAccount) (newPk : ℕ) :
    Except Err HostingAccount := do
  ensure (account.placement.status = .active)
    (serviceError "Only an active account can change package." "invalid_status")
  let product ← productOf providers newPk
  ensure (product.whmPackageName ≠ "")
    (serviceError "The new product has no WHM package configured." "no_package_configured")
  providerCall "Package change failed: " "adapter_error"
    (providers.changePackage pk product.whmPackageName)
  return { account with placement := { account.placement with product := newPk } }

/-- `change.to_product`, which every upgrade has. -/
def toProductOf (change : ServiceChange) : Except Err ℕ :=
  match change.toProduct with
  | some product => .ok product
  | none => .error (.unexpected "change.to_product is None")

/-- Apply a change to a hosting account; whether its term began anew. -/
def applyHosting (env : Env) (providers : Providers) (change : ServiceChange) (pk : ℕ) (s : Store) :
    Except Err (Store × Bool) := do
  let account ← lockAccount s pk
  match change.kind with
  | .renewal =>
    ensure (account.placement.status = .active ∨ account.placement.status = .suspended)
      (plainError ("The account is " ++ account.placement.status.label.map Char.toLower
        ++ " and cannot be renewed."))
    let (term, fresh) ← account.term.renewed env change.periodMonths change.paidValue
    return (s.putAccount pk { account with term }, fresh)
  | .upgrade =>
    ensure (account.placement.status = .active
        ∧ some account.placement.product = change.fromProduct
        ∧ account.term.expiresAt = change.expectedExpiresAt)
      (plainError ("The service changed after this invoice was issued, so the upgrade was not "
        ++ "applied. Refund the invoice or issue a new upgrade."))
    let newPk ← toProductOf change
    let account ← changePackageAsSystem providers pk account newPk
    let (term, fresh) ← account.term.upgraded env change.periodMonths change.paidValue
    return (s.putAccount pk { account with term }, fresh)

/-- `renew_domain_as_system(domain, years)`. -/
def applyDomain (providers : Providers) (change : ServiceChange) (pk : ℕ) (s : Store) :
    Except Err (Store × Bool) := do
  let years := change.periodMonths / 12
  let domain ← lockDomain s pk
  ensure (domain.registration.status = .active)
    (serviceError "Only an active domain can be renewed." "invalid_status")
  let pricing ← getTldPricing providers.tldPricings domain.tld false
  ensure (1 ≤ years ∧ years ≤ pricing.maxYears)
    (serviceError ("Choose a term up to " ++ toString pricing.maxYears ++ " years.")
      "invalid_term")
  let expiresAt ← providerCall "Renewal failed: " "registrar_error" (providers.renewDomain pk years)
  let domain := { domain with registration := { domain.registration with expiresAt } }
  return ({ s with domains := s.domains.put pk domain }, false)

/-- Apply a change to its service. -/
def applyToService (env : Env) (providers : Providers) (change : ServiceChange) (s : Store) :
    Except Err (Store × Bool) :=
  match change.service with
  | .hosting pk => applyHosting env providers change pk s
  | .domain pk => applyDomain providers change pk s

/-- What is recorded about a failure. -/
def failureText : Err → String
  | .service message _ _ => message
  | _ => "An unexpected error occurred while applying this change."

/-- What an invoice charges, without tax. -/
def charged (invoice : Invoice) : ℤ := invoice.subtotal - invoice.discountTotal

/-- `_apply`: apply the change `pk` of `invoice`.  A failure undoes what was half done and is
    recorded on the change: the payment stands. -/
def apply (env : Env) (providers : Providers) (invoice : Invoice) (pk : ℕ) (change : ServiceChange)
    (s : Store) : Store × List Event :=
  match applyToService env providers change s with
  | .ok (s, fresh) =>
    (s.putChange pk { change with status := .applied, appliedAt := some env.now, error := "" },
      [.applied pk change.service fresh (charged invoice) invoice.discountTotal])
  | .error e =>
    (s.putChange pk { change with status := .failed, error := clip 500 (failureText e) }, [])

/-- The pending changes of an invoice, oldest first. -/
def Store.pendingChanges (s : Store) (invoice : ℕ) : List (ℕ × ServiceChange) :=
  s.changes.entries.filter fun entry => entry.2.invoice = invoice ∧ entry.2.status = .pending

/-- Apply these changes one after the other. -/
def applyAll (env : Env) (providers : Providers) (invoice : Invoice) :
    List (ℕ × ServiceChange) → Store → Store × List Event
  | [], s => (s, [])
  | (pk, change) :: rest, s =>
    let (s, events) := apply env providers invoice pk change s
    let (s, events') := applyAll env providers invoice rest s
    (s, events ++ events')

/-- Called when an invoice becomes fully paid: apply each of its pending changes. -/
def applyPaidInvoice (env : Env) (providers : Providers) (pk : ℕ) (invoice : Invoice) (s : Store) :
    Store × List Event :=
  applyAll env providers invoice (s.pendingChanges pk) s

/-- Called when an invoice is cancelled: its pending changes will never be applied. -/
def voidChanges (invoice : ℕ) (s : Store) : Store :=
  let changes := s.changes.updateWhere
    (fun change => change.invoice = invoice ∧ change.status = .pending)
    fun change => { change with status := .void }
  { s with changes }

/-! ### Changes that are invoiced -/

/-- The pending change of a service. -/
def Store.pendingChange (s : Store) (service : Service) : Option (ℕ × ServiceChange) :=
  s.changes.entries.reverse.find? fun entry => entry.2.service = service ∧ entry.2.status = .pending

/-- The fields of a change `full_clean` refuses. -/
def ServiceChange.invalidFields (change : ServiceChange) : List String :=
  (if change.periodMonths ≤ 32767 then [] else ["period_months"])
    ++ (if change.paidValue.natAbs ≤ maxAmount then [] else ["paid_value"])

/-- `_save_change`: the new change and its key. -/
def saveChange (change : ServiceChange) (s : Store) : Except Err (ℕ × Store) := do
  fullClean "ServiceChange" change.invalidFields
  return (s.changes.nextPk, { s with changes := s.changes.insert change })

/-- Any contact of the client, or staff with the permission. -/
def canSelfService (actor : Actor) (permission : Permission) (client : ℕ) : Bool :=
  actor.hasPerm permission || actor.contactOf client

/-- Close a failed change that was resolved by hand. -/
def dismissChange (actor : Actor) (pk : ℕ) (s : Store) : Except Err Store := do
  requirePerm actor .manageBilling
  let change ← lockChange s pk
  ensure (change.status = .failed)
    (serviceError "Only a change that failed after payment can be dismissed." "invalid_status")
  return s.putChange pk { change with status := .void }

end WPanel.Renewals
