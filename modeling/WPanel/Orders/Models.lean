import WPanel.Billing.Payments
import WPanel.Catalogue

namespace WPanel.Orders

open WPanel.Lib WPanel.Billing

/-!
# Carts and orders

`orders/models.py`, as far as the logic of the services reads it.  A cart holds selections
only, never prices; the items of an order carry the prices they were placed at.

The items of an order are kept with it, in the order they were created; so is the use of a
coupon it made (its `CouponRedemption`).  The frozen billing address, the notes and the
policy snapshot decide nothing and are left out.
-/

inductive ItemKind where
  | hosting
  | addon
  | domainRegister
  | domainTransfer
  deriving DecidableEq, Repr

/-- The two kinds of item that hold a domain name. -/
def ItemKind.isDomain (kind : ItemKind) : Bool := kind = .domainRegister || kind = .domainTransfer

inductive CartStatus where
  | open
  | converted
  deriving DecidableEq, Repr

/-- A cart; a guest cart has no user and no client. -/
structure Cart where
  user : Option ℕ
  client : Option ℕ
  status : CartStatus := .open
  coupon : Option ℕ := none
  deriving DecidableEq, Repr

/-- A selection in a cart.  Which fields matter depends on `kind`. -/
structure CartItem where
  cart : ℕ
  kind : ItemKind
  product : Option ℕ := none
  addon : Option ℕ := none
  /-- For an add-on, the cart item it goes with. -/
  parent : Option ℕ := none
  domainName : String := ""
  billingCycle : String := ""
  customMonths : ℕ := 0
  years : ℕ := 1
  authCodeEncrypted : String := ""
  deriving DecidableEq, Repr

/-! ### Orders -/

inductive OrderStatus where
  | draft
  | pendingPayment
  | paid
  | processing
  | provisioning
  | active
  | fraud
  | failed
  | cancelled
  | suspended
  | terminated
  deriving DecidableEq, Repr

def OrderStatus.label : OrderStatus → String
  | .draft => "Draft"
  | .pendingPayment => "Pending Payment"
  | .paid => "Paid"
  | .processing => "Processing"
  | .provisioning => "Provisioning"
  | .active => "Active"
  | .fraud => "Fraud"
  | .failed => "Failed"
  | .cancelled => "Cancelled"
  | .suspended => "Suspended"
  | .terminated => "Terminated"

/-- One line of an order, with the prices it was placed at. -/
structure OrderItem where
  kind : ItemKind
  description : String
  product : Option ℕ
  addon : Option ℕ
  /-- For an add-on, the place of the item it goes with among the items of its order. -/
  parent : Option ℕ
  domainName : String
  billingCycle : String
  customMonths : ℕ
  years : ℕ
  unitPrice : ℤ
  setupFee : ℤ
  lineTotal : ℤ
  authCodeEncrypted : String
  deriving DecidableEq, Repr

/-- The use an order made of a coupon. -/
structure CouponRedemption where
  coupon : ℕ
  client : ℕ
  discountAmount : ℤ
  deriving DecidableEq, Repr

structure Order where
  client : ℕ
  placedBy : ℕ
  status : OrderStatus
  currency : String
  subtotal : ℤ
  discountTotal : ℤ
  taxName : String
  taxRate : Decimal
  taxTotal : ℤ
  total : ℤ
  coupon : Option ℕ
  couponCode : String
  paymentMethodName : String
  cancelReason : String := ""
  statusReason : String := ""
  items : List OrderItem
  redemption : Option CouponRedemption
  deriving DecidableEq, Repr

/-- Every cart and order. -/
structure Store where
  carts : Table Cart := {}
  cartItems : Table CartItem := {}
  orders : Table Order := {}
  deriving DecidableEq

/-! ### What an order is placed against -/

/-- A discount code. -/
structure Coupon where
  code : String
  discountType : DiscountType
  value : Decimal
  validFrom : Option Moment := none
  validUntil : Option Moment := none
  maxRedemptions : Option ℕ := none
  onePerClient : Bool := false
  minSubtotal : ℤ := 0
  isActive : Bool := true
  deriving DecidableEq, Repr

/-- What is on offer at the time of a call: the catalogue, coupons and payment methods, the
    domain names the panel already looks after, and what the registrar answers. -/
structure Shop where
  products : ℕ → Option Product
  addons : ℕ → Option Addon
  tldPricings : List TldPricing
  coupons : ℕ → Option Coupon
  paymentMethods : List PaymentMethod
  /-- A domain of this name is registered or being registered here. -/
  hasLiveDomain : String → Bool
  /-- `domain_services.check_availability(name)`. -/
  checkAvailability : String → Except Err Bool
  /-- `BrandSettings.policy_links` is not empty. -/
  hasPolicies : Bool
  /-- A registrar other than the manual one is active. -/
  hasRegistry : Bool
  /-- `domain_services.owner_details(client)[key]`; blank when missing. -/
  ownerDetails : ℕ → String → String
  storeCurrency : String

end WPanel.Orders
