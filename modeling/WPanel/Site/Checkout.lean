import WPanel.Orders.Pricing
import WPanel.Site.State

namespace WPanel.Site

open WPanel.Lib WPanel.Billing WPanel.Orders

/-!
# Placing and cancelling orders

`checkout` and `cancel_order` of `orders/services.py`: the two order services that also
write invoices.

The pricing pass `checkout` makes before its transaction and the one inside it see the same
records here.
-/

/-! ### Checkout -/

/-- `Cart.objects.get(pk=pk)`. -/
def lockCart (s : Orders.Store) (pk : ℕ) : Except Err Cart :=
  match s.carts.get? pk with
  | some cart => .ok cart
  | none => .error (.doesNotExist "Cart")

/-- A guest cart has no one to compare with. -/
def requireOwnCart (actor : Actor) (cart : Cart) : Except Err Unit :=
  ensure (∀ user ∈ cart.user, user = actor.pk ∨ actor.hasPerm .manageOrders = true) denied

def requireCartOpen (cart : Cart) : Except Err Unit :=
  ensure (cart.status = .open)
    (serviceError "This cart has already been checked out." "cart_closed")

/-- What a registry asks about the owner of a domain, with the words the customer sees. -/
def ownerFields : List (String × String) :=
  [("name", "name"), ("street", "street address"), ("city", "city"), ("state", "state"),
    ("postcode", "postcode"), ("country", "country"), ("phone", "phone"), ("email", "email")]

/-- A real registry registers a domain in the owner's name: the details must be there. -/
def requireDomainOwnerDetails (shop : Shop) (s : Orders.Store) (pk : ℕ) (cart : Cart) :
    Except Err Unit :=
  match cart.client with
  | none => .ok ()
  | some client =>
    let missing := (ownerFields.filter fun field => shop.ownerDetails client field.1 = "").map
      Prod.snd
    ensure (¬shop.hasRegistry ∨ (∀ entry ∈ s.itemsOf pk, ¬entry.2.kind.isDomain) ∨ missing = [])
      (serviceError ("A domain needs the owner's full details. Add to the account first: "
        ++ ", ".intercalate missing ++ ".") "owner_details_missing")

/-- The active payment method with this code. -/
def paymentMethod (shop : Shop) (code : String) : Except Err PaymentMethod :=
  match shop.paymentMethods.find? fun method => method.code = code ∧ method.isActive with
  | some method => .ok method
  | none => .error (serviceError "Choose a valid payment method." "payment_method_invalid")

/-- `client` of a cart that is being checked out; a guest cart has none to bill. -/
def cartClient (cart : Cart) : Except Err ℕ :=
  match cart.client with
  | some client => .ok client
  | none => .error (.unexpected "cart.client is None")

/-- The line of an order made from line `i` of a cart. -/
def orderItem (lines : List PricedLine) (line : PricedLine) (i : ℕ) : OrderItem where
  kind := line.item.kind
  description := clip 255 line.description
  product := line.item.product
  addon := line.item.addon
  parent := line.item.parent.bind fun parent => (lines.take i).findIdx? fun l => l.pk = parent
  domainName := line.item.domainName
  billingCycle := line.item.billingCycle
  customMonths := line.item.customMonths
  years := line.item.years
  unitPrice := line.unitPrice
  setupFee := line.setupFee
  lineTotal := line.total
  authCodeEncrypted := line.item.authCodeEncrypted

/-- The order a priced cart turns into. -/
def orderOf (shop : Shop) (actor : Actor) (client : ℕ) (method : PaymentMethod)
    (priced : PricedCart) : Order where
  client := client
  placedBy := actor.pk
  status := .pendingPayment
  currency := priced.currency
  subtotal := priced.subtotal
  discountTotal := priced.discountTotal
  taxName := (priced.taxRule.map (·.name)).getD ""
  taxRate := priced.taxRate
  taxTotal := priced.taxTotal
  total := priced.total
  coupon := priced.coupon
  couponCode := ((priced.coupon.bind shop.coupons).map (·.code)).getD ""
  paymentMethodName := method.name
  items := priced.lines.zipIdx.map fun (line, i) => orderItem priced.lines line i
  redemption := priced.coupon.map fun coupon =>
    { coupon, client, discountAmount := priced.discountTotal }

/-- What the invoice for an order is made from. -/
def orderFigures (pk : ℕ) (order : Order) : OrderFigures where
  pk := pk
  client := order.client
  currency := order.currency
  charges := order.items.map fun item =>
    { description := item.description, unitPrice := item.unitPrice, setupFee := item.setupFee }
  subtotal := order.subtotal
  discountTotal := order.discountTotal
  taxRate := order.taxRate
  taxTotal := order.taxTotal
  total := order.total

/-- The part of `checkout` before the order is written: the priced cart, the client and the
    payment method. -/
def readyToOrder (w : World) (actor : Actor) (cartPk : ℕ) (cart : Cart) (methodCode : String)
    (policiesAgreed : Bool) (s : Orders.Store) : Except Err (PricedCart × ℕ × PaymentMethod) := do
  requireOwnCart actor cart
  requireCartOpen cart
  requireDomainOwnerDetails w.shop s cartPk cart
  let method ← paymentMethod w.shop methodCode
  ensure (¬(w.shop.hasPolicies ∧ ¬actor.isStaff ∧ ¬policiesAgreed))
    (serviceError "Please confirm you agree to our policies before placing the order."
      "policies_not_agreed")
  let _ ← priceCart w.env w.shop s cartPk cart true true
  let priced ← priceCart w.env w.shop s cartPk cart true
  let client ← cartClient cart
  return (priced, client, method)

/-- `create_invoice_for_order`, as a billing service without a result. -/
def invoiceOrder (env : Env) (order : OrderFigures) (b : Billing.Store) :
    Except Err (Billing.Store × List Signal) :=
  (createInvoiceForOrder env order b).map fun (_, b, signals) => (b, signals)

/-- Turn a cart into an order awaiting payment, with its invoice.  Everything is priced again
    from the catalogue; the cart is closed. -/
def checkout (w : World) (actor : Actor) (cartPk : ℕ) (methodCode : String) (policiesAgreed : Bool)
    (panel : Panel) : Except Err (Panel × List Event) := do
  let cart ← lockCart panel.orders cartPk
  let (priced, client, method) ←
    readyToOrder w actor cartPk cart methodCode policiesAgreed panel.orders
  let order := orderOf w.shop actor client method priced
  let pk := panel.orders.orders.nextPk
  let orders := { panel.orders with
    orders := panel.orders.orders.insert order
    carts := panel.orders.carts.put cartPk { cart with status := .converted } }
  bill w (invoiceOrder w.env (orderFigures pk order)) { panel with orders }

/-! ### Cancelling an order -/

/-- The invoices of an order that can still be paid. -/
def openInvoices (b : Billing.Store) (order : ℕ) : List ℕ :=
  (b.invoices.entries.filter fun (_, l) =>
    l.invoice.order = some order ∧ l.invoice.status ∈ openStatuses).map Prod.fst

/-- Cancel these invoices one after the other. -/
def cancelInvoices (w : World) (reason : String) : List ℕ → Panel → Except Err (Panel × List Event)
  | [], panel => .ok (panel, [])
  | pk :: rest, panel => do
    let (panel, events) ← bill w (cancelInvoiceInternal pk reason) panel
    let (panel, events') ← cancelInvoices w reason rest panel
    return (panel, events ++ events')

/-- Cancel an order that has not been paid; staff may also close one that failed or was flagged
    as fraud.  Its open invoices are cancelled with it. -/
def cancelOrder (w : World) (actor : Actor) (pk : ℕ) (reason : String) (panel : Panel) :
    Except Err (Panel × List Event) := do
  let order ← lockOrder panel.orders pk
  ensure (actor.hasPerm .manageOrders = true ∨ actor.contactOf order.client = true) denied
  let invoices := openInvoices panel.billing pk
  ensure (order.status = .pendingPayment ∨
      (actor.hasPerm .manageOrders = true ∧ (order.status = .fraud ∨ order.status = .failed)))
    (invalidStatus "Only an order that is awaiting payment can be cancelled.")
  let orders ← transition panel.orders pk .cancelled reason
  cancelInvoices w (clip 500 (strip reason)) invoices { panel with orders }

end WPanel.Site
