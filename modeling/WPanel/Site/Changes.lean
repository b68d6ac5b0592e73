import WPanel.Site.State

namespace WPanel.Site

open WPanel.Lib WPanel.Billing WPanel.Orders WPanel.Renewals

/-!
# Invoicing renewals and upgrades

The services of `renewals/services.py` that also write invoices: every one of them drafts an
invoice, saves the change it is for, and issues the invoice.

* `invoiceChange` — those three steps;
* `hostingRenewal`, `domainRenewal`, `createUpgrade` — what each kind of change costs;
* `retryChange` — try again to apply a paid change that failed.
-/

/-- Draft the invoice of a change, save the change and issue the invoice. -/
def invoiceChange (w : World) (client : ℕ) (draft : Draft) (change : ℕ → ServiceChange)
    (panel : Panel) : Except Err (Panel × List Event) := do
  let (invoice, billing) ← createDraftInvoice w.env client draft panel.billing
  let (_, renewals) ← saveChange (change invoice) panel.renewals
  bill w (issueDraftInvoice w.env invoice) { panel with billing, renewals }

/-- A draft with one line. -/
def oneLine (description : String) (price : ℤ) (discount : RawDiscount := {}) : Draft where
  lines := [{ description, unitPrice := .number (dec price) }]
  discount := discount

/-- `_open_change_error(pending)`. -/
def openChangeError (b : Billing.Store) (pending : ServiceChange) : Err :=
  match lockInvoice b pending.invoice with
  | .ok l => serviceError ("An " ++ pending.kind.label.map Char.toLower ++ " invoice ("
      ++ l.invoice.reference pending.invoice
      ++ ") is already awaiting payment for this service. Pay or cancel it first.") "change_pending"
  | .error e => e

/-! ### Renewals -/

/-- `_hosting_renewal`: the plan's current price for the account's billing cycle.  Asking twice
    gives the same invoice. -/
def hostingRenewal (w : World) (pk : ℕ) (panel : Panel) : Except Err (Panel × List Event) := do
  let account ← lockAccount panel.renewals pk
  ensure (account.placement.status = .active ∨ account.placement.status = .suspended)
    (serviceError "Only an active or suspended account can be renewed." "invalid_status")
  let (_, expiresAt, months) ← requireTerm account
  requireNotCancelling account.placement.cancelling
  match panel.renewals.pendingChange (.hosting pk) with
  | some (_, pending) =>
    if pending.kind = .renewal then return (panel, [])
    else .error (openChangeError panel.billing pending)
  | none =>
    let product ← productOf w.providers account.placement.product
    let row ← getEffectivePrice product.prices account.term.billingCycle account.term.customMonths
    let start := if w.env.now < expiresAt then expiresAt else w.env.now
    let finish ← monthsLater start months
    let description := clip 255 ("Renewal: " ++ product.name ++ " ("
      ++ cycleLabel account.term.billingCycle account.term.customMonths ++ ") - " ++ account.domain
      ++ ", " ++ w.env.isoDay start ++ " to " ++ w.env.isoDay finish)
    invoiceChange w account.client (oneLine description row.price) (fun invoice => {
      client := account.client, invoice, kind := .renewal, service := .hosting pk
      fromProduct := some account.placement.product, toProduct := some account.placement.product
      billingCycle := account.term.billingCycle, customMonths := account.term.customMonths
      periodMonths := months, paidValue := row.price
      expectedExpiresAt := account.term.expiresAt }) panel

/-- Invoice the renewal of a hosting account; with no actor, the daily job asks. -/
def createHostingRenewal (w : World) (actor : Option Actor) (pk : ℕ) (panel : Panel) :
    Except Err (Panel × List Event) := do
  let account ← lockAccount panel.renewals pk
  ensure (∀ a ∈ actor, canSelfService a .manageHosting account.client) denied
  hostingRenewal w pk panel

/-- `_domain_renewal`: the ending's current renewal price for `years` years. -/
def domainRenewal (w : World) (pk years : ℕ) (panel : Panel) : Except Err (Panel × List Event) := do
  let domain ← lockDomain panel.renewals pk
  ensure (domain.registration.status = .active)
    (serviceError "Only an active domain can be renewed." "invalid_status")
  requireNotCancelling domain.registration.cancelling
  let pricing ← getTldPricing w.shop.tldPricings domain.tld false
  ensure (1 ≤ years ∧ years ≤ pricing.maxYears)
    (serviceError ("Choose a term between 1 and " ++ toString pricing.maxYears ++ " years.")
      "invalid_term")
  match panel.renewals.pendingChange (.domain pk) with
  | some (_, pending) =>
    if pending.kind = .renewal ∧ pending.periodMonths = years * 12 then return (panel, [])
    else .error (openChangeError panel.billing pending)
  | none =>
    let price := pricing.renewPrice * years
    let description := "Domain renewal: " ++ domain.name ++ " (" ++ toString years ++ " year"
      ++ (if years ≠ 1 then "s" else "") ++ ")"
    invoiceChange w domain.client (oneLine description price) (fun invoice => {
      client := domain.client, invoice, kind := .renewal, service := .domain pk
      periodMonths := years * 12, paidValue := price
      expectedExpiresAt := domain.registration.expiresAt }) panel

/-- Invoice the renewal of a domain; with no actor, the daily job asks. -/
def createDomainRenewal (w : World) (actor : Option Actor) (pk years : ℕ) (panel : Panel) :
    Except Err (Panel × List Event) := do
  let domain ← lockDomain panel.renewals pk
  ensure (∀ a ∈ actor, canSelfService a .manageDomains domain.client) denied
  domainRenewal w pk years panel

/-! ### Upgrades -/

/-- The credit of an upgrade, as the discount of its invoice. -/
def creditDiscount (appliedCredit : ℤ) : RawDiscount :=
  if 0 < appliedCredit then { type := "fixed", value := some (.number (dec appliedCredit)) } else {}

/-- Invoice an upgrade.  The credit is worked out here from the stored term. -/
def createUpgrade (w : World) (actor : Actor) (pk newPk : ℕ) (panel : Panel) :
    Except Err (Panel × List Event) := do
  let account ← lockAccount panel.renewals pk
  ensure (canSelfService actor .manageHosting account.client) denied
  match panel.renewals.pendingChange (.hosting pk) with
  | some (_, pending) =>
    if pending.kind = .upgrade ∧ pending.toProduct = some newPk then return (panel, [])
    else .error (openChangeError panel.billing pending)
  | none =>
    let preview ← previewUpgrade w.env w.providers account newPk
    let description := clip 255 ("Upgrade to " ++ preview.toProduct.name ++ " ("
      ++ cycleLabel account.term.billingCycle account.term.customMonths ++ ") - " ++ account.domain
      ++ ", prorated for " ++ toString preview.credit.remainingDays
      ++ " remaining day(s) - the renewal date does not change")
    invoiceChange w account.client
      (oneLine description preview.newPrice (creditDiscount preview.appliedCredit))
      (fun invoice => {
      client := account.client, invoice, kind := .upgrade, service := .hosting pk
      fromProduct := some account.placement.product, toProduct := some newPk
      billingCycle := account.term.billingCycle, customMonths := account.term.customMonths
      periodMonths := preview.months, paidValue := preview.newPrice
      expectedExpiresAt := account.term.expiresAt }) panel

/-! ### Extras -/

/-- The service an extra is bought for: its client, its name, whether the actor may act for it,
    and whether it runs. -/
def addonTarget (actor : Actor) (service : Service) (s : Renewals.Store) :
    Except Err (ℕ × String × Bool × Bool) :=
  match service with
  | .hosting pk => do
    let account ← lockAccount s pk
    return (account.client, account.domain, canSelfService actor .manageHosting account.client,
      account.placement.status = .active ∨ account.placement.status = .suspended)
  | .domain pk => do
    let domain ← lockDomain s pk
    return (domain.client, domain.name, canSelfService actor .manageDomains domain.client,
      domain.registration.status = .active)

def Service.isDomain : Service → Bool
  | .hosting _ => false
  | .domain _ => true

/-- `_buy_addon`: invoice one extra for a service.  Asking twice gives the same order. -/
def buyAddon (w : World) (actor : Actor) (addonPk : ℕ) (service : Service) (panel : Panel) :
    Except Err (Panel × List Event) := do
  let (client, label, allowed, running) ← addonTarget actor service panel.renewals
  ensure (allowed = true) denied
  let unavailable := serviceError "This extra is not available right now." "addon_unavailable"
  match w.shop.addons addonPk with
  | none => .error unavailable
  | some addon =>
    ensure (addon.status = .active) unavailable
    ensure (addon.appliesToDomain = Service.isDomain service)
      (serviceError "This extra cannot be added to that." "addon_mismatch")
    ensure (running = true) (serviceError
      (if Service.isDomain service then "Only an active domain can get this extra."
        else "Only an active hosting plan can get this extra.") "invalid_status")
    match openOrder w.shop.addons addon.kind service panel.renewals with
    | some (_, existing) =>
      if existing.status = .done then
        let name := ((w.shop.addons existing.addon).map (·.name)).getD ""
        .error (serviceError (name ++ " is already active here.") "addon_active")
      else return (panel, [])
    | none =>
      match lowestPrice addon.prices with
      | none => .error (serviceError "This extra has no price yet." "addon_unpriced")
      | some row =>
        let period := row.billingCycle.label
        let description := clip 255 (addon.name ++ " for " ++ label ++ " ("
          ++ period.map Char.toLower ++ ")")
        let (invoice, billing) ←
          createDraftInvoice w.env client (oneLine description row.price) panel.billing
        let order : AddonOrder := {
          client, invoice, addon := addonPk, service, price := row.price, periodLabel := period }
        let renewals :=
          { panel.renewals with addonOrders := panel.renewals.addonOrders.insert order }
        bill w (issueDraftInvoice w.env invoice) { panel with billing, renewals }

/-! ### Trying again -/

/-- Staff: try again to apply a paid change that failed.  A second failure is recorded, and
    reported after that. -/
def retryChange (w : World) (actor : Actor) (pk : ℕ) (panel : Panel) :
    Except Err (Panel × List Event) := do
  requirePerm actor .manageBilling
  let change ← lockChange panel.renewals pk
  let l ← lockInvoice panel.billing change.invoice
  ensure (change.status = .failed)
    (serviceError "Only a change that failed after payment can be retried." "invalid_status")
  ensure (l.invoice.total ≤ l.invoice.amountPaid)
    (serviceError "The invoice is not fully paid." "invoice_not_paid")
  let (renewals, events) := apply w.env w.providers l.invoice pk change panel.renewals
  return ({ panel with renewals }, events.map .renewals)

end WPanel.Site
