import WPanel.Billing.Calls
import WPanel.Lib.Machine
import WPanel.Site.Changes
import WPanel.Site.Checkout

namespace WPanel.Site

open WPanel.Lib WPanel.Billing WPanel.Orders WPanel.Renewals

/-!
# The panel as a machine

Every service that changes an invoice, an order or a paid term, as one machine: a run is any
list of calls, each in its own transaction, so a run is any interleaving the row locks allow.

What the rest of the panel does between these calls is part of a run too: carts may change
in any way, accounts and domains may appear and may be suspended, moved, ended and so on at
any time.
-/

/-- The services that change orders only. -/
inductive OrderCall where
  | markFraud (actor : Actor) (pk : ℕ) (reason : String)
  | clearFraud (actor : Actor) (pk : ℕ) (reason : String)
  | claimOrder (pk : ℕ)
  | finishOrder (pk : ℕ) (failures : List String)
  | resetOrder (pk : ℕ) (stuck : Bool)
  | suspendOrder (actor : Actor) (pk : ℕ) (reason : String) (failures : List String)
  | unsuspendOrder (actor : Actor) (pk : ℕ) (failures : List String)
  | terminateOrder (actor : Actor) (pk : ℕ) (reason : String) (failures : List String)

def OrderCall.exec (b : Billing.Store) (call : OrderCall) (s : Orders.Store) :
    Except Err Orders.Store :=
  match call with
  | .markFraud actor pk reason => Orders.markFraud actor pk reason s
  | .clearFraud actor pk reason => Orders.clearFraud actor pk reason b s
  | .claimOrder pk => Orders.claimOrder pk s
  | .finishOrder pk failures => Orders.finishOrder pk failures s
  | .resetOrder pk stuck => Orders.resetOrder pk stuck s
  | .suspendOrder actor pk reason failures => Orders.suspendOrder actor pk reason failures s
  | .unsuspendOrder actor pk failures => Orders.unsuspendOrder actor pk failures s
  | .terminateOrder actor pk reason failures => Orders.terminateOrder actor pk reason failures s

/-- The services that change hosting accounts, domains and changes only. -/
inductive ServiceCall where
  /-- A hosting account is requested; it has no paid term yet. -/
  | requestHosting (client : ℕ) (domain : String) (placement : Placement)
  /-- The hosting services write an account. -/
  | placeHosting (pk : ℕ) (placement : Placement)
  | requestDomain (domain : Domain)
  /-- The domain services write a domain. -/
  | placeDomain (pk : ℕ) (registration : Registration)
  | startHostingTerm (env : Env) (pk : ℕ) (billingCycle : String) (customMonths : ℕ)
      (termPaid : Decimal)
  | setHostingTerm (actor : Actor) (pk : ℕ) (billingCycle : String) (customMonths : ℕ)
      (termStart expiresAt : Option Moment) (termPaid : Typed)
  | dismissChange (actor : Actor) (pk : ℕ)
  /-- Staff have set up an extra. -/
  | markDone (now : Moment) (actor : Actor) (pk : ℕ)

def ServiceCall.exec (call : ServiceCall) (s : Renewals.Store) :
    Except Err (Renewals.Store × List Renewals.Event) :=
  match call with
  | .requestHosting client domain placement =>
    .ok ({ s with accounts := s.accounts.insert { client, domain, placement } }, [])
  | .placeHosting pk placement =>
    (lockAccount s pk).map fun account => (s.putAccount pk { account with placement }, [])
  | .requestDomain domain => .ok ({ s with domains := s.domains.insert domain }, [])
  | .placeDomain pk registration =>
    (lockDomain s pk).map fun domain =>
      ({ s with domains := s.domains.put pk { domain with registration } }, [])
  | .startHostingTerm env pk billingCycle customMonths termPaid =>
    Renewals.startHostingTerm env pk billingCycle customMonths termPaid s
  | .setHostingTerm actor pk billingCycle customMonths termStart expiresAt termPaid =>
    Renewals.setHostingTerm actor pk billingCycle customMonths termStart expiresAt termPaid s
  | .dismissChange actor pk => (Renewals.dismissChange actor pk s).map fun s => (s, [])
  | .markDone now actor pk => (Renewals.markDone now actor pk s).map fun s => (s, [])

/-- Every call. -/
inductive Act where
  | billing (w : World) (call : Billing.Call)
  /-- The cart services leave the carts like this. -/
  | shop (carts : Table Cart) (cartItems : Table CartItem)
  | checkout (w : World) (actor : Actor) (cart : ℕ) (methodCode : String) (policiesAgreed : Bool)
  | cancelOrder (w : World) (actor : Actor) (pk : ℕ) (reason : String)
  | order (call : OrderCall)
  | service (call : ServiceCall)
  | createHostingRenewal (w : World) (actor : Option Actor) (pk : ℕ)
  | createDomainRenewal (w : World) (actor : Option Actor) (pk years : ℕ)
  | createUpgrade (w : World) (actor : Actor) (pk newPk : ℕ)
  | buyAddon (w : World) (actor : Actor) (addon : ℕ) (service : Service)
  | retryChange (w : World) (actor : Actor) (pk : ℕ)

/-- A billing service called on its own.  A change or an extra protects its invoice from
    deletion. -/
def billingCall (w : World) (call : Billing.Call) (panel : Panel) :
    Except Err (Panel × List Event) := do
  let (panel', events) ← bill w (call.exec w.env) panel
  ensure (∀ entry ∈ panel'.renewals.changes.entries,
      (panel'.billing.invoices.get? entry.2.invoice).isSome) (.protectedError "Invoice")
  ensure (∀ entry ∈ panel'.renewals.addonOrders.entries,
      (panel'.billing.invoices.get? entry.2.invoice).isSome) (.protectedError "Invoice")
  return (panel', events)

/-- What a call does. -/
def exec : Act → Panel → Except Err (Panel × List Event)
  | .billing w call, panel => billingCall w call panel
  | .shop carts cartItems, panel =>
    .ok ({ panel with orders := { panel.orders with carts, cartItems } }, [])
  | .checkout w actor cart methodCode policiesAgreed, panel =>
    checkout w actor cart methodCode policiesAgreed panel
  | .cancelOrder w actor pk reason, panel => cancelOrder w actor pk reason panel
  | .order call, panel =>
    (call.exec panel.billing panel.orders).map fun orders => ({ panel with orders }, [])
  | .service call, panel =>
    (call.exec panel.renewals).map fun (renewals, events) =>
      ({ panel with renewals }, events.map .renewals)
  | .createHostingRenewal w actor pk, panel => createHostingRenewal w actor pk panel
  | .createDomainRenewal w actor pk years, panel => createDomainRenewal w actor pk years panel
  | .createUpgrade w actor pk newPk, panel => createUpgrade w actor pk newPk panel
  | .buyAddon w actor addon service, panel => buyAddon w actor addon service panel
  | .retryChange w actor pk, panel => retryChange w actor pk panel

/-- The panel as a machine. -/
def machine : Machine Panel Act Event Err := ⟨exec⟩

/-! ### A small shop

Two plans, one bank account and one member of staff: enough to follow an order, an invoice or
a paid term by hand. -/

private theorem january_valid : 1 ≤ 1 ∧ 1 ≤ 12 := by decide

private theorem newYear_valid : 1 ≤ 1 ∧ 1 ≤ daysInMonth 2026 1 := by decide

def smallEnv : Env where
  now := ⟨⟨2026, 1, 1, january_valid, newYear_valid⟩, 0⟩
  localdate := fun moment => moment.date.toOrdinal
  isoDay := fun _ => "2026-01-01"
  clients := fun _ => { currency := "USD" }

/-- A plan with one monthly price. -/
def monthlyPlan (name : String) (price : ℕ) : Product where
  name := name
  type := "shared"
  whmPackageName := name
  prices := [{ billingCycle := .monthly, price := price, price_nonneg := Int.natCast_nonneg price
               setupFee_nonneg := le_refl 0 }]

def smallWorld : World where
  env := smallEnv
  shop := {
    products := fun pk => [monthlyPlan "Starter" 10000, monthlyPlan "Pro" 20000][pk]?
    addons := fun _ => none
    tldPricings := []
    coupons := fun _ => none
    paymentMethods := [{
      code := "bank", name := "Bank transfer", isActive := true, provider := none }]
    hasLiveDomain := fun _ => false
    checkAvailability := fun _ => .ok true
    hasPolicies := false
    hasRegistry := false
    ownerDetails := fun _ _ => ""
    storeCurrency := "USD" }
  changePackage := fun _ _ => .ok ()
  renewDomain := fun _ _ => .error (.refused "No registrar.")

def staff : Actor where
  pk := 0
  hasPerm := fun _ => true
  contactOf := fun _ => false
  isStaff := true

/-- A plan is put into a cart and ordered: order `0`, with the invoice `0` of 100.00. -/
def orderPlan : List Act := [
  .shop (Table.insert {} { user := some 0, client := some 0 })
    (Table.insert {} { cart := 0, kind := .hosting, product := some 0, domainName := "example.com"
                       billingCycle := "monthly" }),
  .checkout smallWorld staff 0 "bank" true]

/-- A draft invoice of 100.00 is saved: invoice `0`. -/
def draftInvoice : Act := .billing smallWorld (.createInvoice staff 0
  { lines := [{ description := "Consulting", unitPrice := .number 100 }] })

/-- An account gets its first paid term, for 100.00: account `0`. -/
def startTerm : List Act := [
  .service (.requestHosting 0 "example.com" { product := 0, server := none, status := .active }),
  .service (.startHostingTerm smallEnv 0 "monthly" 0 100)]

/-- Staff record this many cents received for the invoice `0`. -/
def receive0 (cents : ℤ) : Act :=
  .billing smallWorld (.recordPayment staff 0 (.number (dec cents)) none "")

/-- Staff give this many cents of the payment `index` of the invoice `0` back. -/
def refund0 (index : ℕ) (cents : ℤ) : Act :=
  .billing smallWorld (.refundPayment staff ⟨0, index⟩ (some (.number (dec cents))) (.ok ""))

end WPanel.Site
