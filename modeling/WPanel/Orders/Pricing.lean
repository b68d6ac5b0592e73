import WPanel.Billing.Documents
import WPanel.Orders.Models

namespace WPanel.Orders

open WPanel.Lib WPanel.Billing

/-!
# Pricing a cart

`orders/pricing.py`: every price shown to a customer and every figure stored on an order
comes from here, worked out from the catalogue at that moment.

* `priceItem` — what one cart item costs, or why it cannot be ordered;
* `evaluateCoupon` — what a coupon takes off a subtotal, or why it cannot be used;
* `priceCart` — the whole cart: in strict mode any problem is an error, otherwise it is
  reported next to the line or the coupon it is about.
-/

/-! ### One item -/

/-- A description built from the selection alone. -/
def describeItem (shop : Shop) (item : CartItem) : String :=
  match item.kind with
  | .hosting =>
    ((item.product.bind shop.products).map (·.name)).getD "Hosting" ++ " ("
      ++ cycleLabel item.billingCycle item.customMonths ++ ") - " ++ item.domainName
  | .addon =>
    ((item.addon.bind shop.addons).map (·.name)).getD "Add-on" ++ " ("
      ++ (if item.billingCycle = BillingCycle.oneTime.value then "one-time"
          else cycleLabel item.billingCycle item.customMonths) ++ ")"
  | .domainRegister =>
    "Domain registration: " ++ item.domainName ++ " (" ++ toString item.years ++ " year"
      ++ (if item.years ≠ 1 then "s" else "") ++ ")"
  | .domainTransfer => "Domain transfer: " ++ item.domainName

def validateDomainName (name : String) : Except Err Unit :=
  ensure (validDomainName name = true)
    (serviceError "Enter a valid domain name, e.g. example.com." "invalid_domain")

/-- An order that holds this name on a registration or transfer line. -/
def Order.holdsDomain (order : Order) (name : String) : Bool :=
  order.items.any fun item => item.kind.isDomain && item.domainName = name

/-- An unpaid order already holds this name, until it is paid or cancelled. -/
def Store.domainReservedByPendingOrder (s : Store) (name : String) : Bool :=
  s.orders.entries.any fun (_, order) => order.status = .pendingPayment && order.holdsDomain name

/-- The price and the setup fee of a hosting plan. -/
def priceHosting (shop : Shop) (item : CartItem) : Except Err (ℤ × ℤ) :=
  match (item.product.bind shop.products).filter (·.status = .active) with
  | none => .error (serviceError "This plan is no longer available." "product_unavailable")
  | some product => do
    ensure (product.whmPackageName ≠ "")
      (serviceError "This plan is not available for ordering." "product_unavailable")
    validateDomainName item.domainName
    let row ← getEffectivePrice product.prices item.billingCycle item.customMonths
    return (row.price, row.setupFee)

/-- What an add-on may be attached to. -/
def addonParentKinds (addon : Addon) : List ItemKind :=
  if addon.appliesToDomain then [.domainRegister, .domainTransfer] else [.hosting]

/-- The price and the setup fee of an add-on that goes with `parent`.  A domain has years, not
    a billing cycle: its add-on is charged per year, or once. -/
def priceAddonFor (addon : Addon) (item parent : CartItem) : Except Err (ℤ × ℤ) :=
  if parent.kind.isDomain then do
    ensure (item.billingCycle = BillingCycle.annual.value
        ∨ item.billingCycle = BillingCycle.oneTime.value)
      (serviceError "This add-on is charged per year of the domain, or once." "invalid_addon")
    let row ← getEffectivePrice addon.prices item.billingCycle item.customMonths
    let years := if item.billingCycle = BillingCycle.annual.value then parent.years else 1
    return (row.price * years, row.setupFee)
  else do
    ensure (item.billingCycle = BillingCycle.oneTime.value
        ∨ (item.billingCycle = parent.billingCycle ∧ item.customMonths = parent.customMonths))
      (serviceError "This add-on must be billed with your hosting plan or as a one-time charge."
        "invalid_addon")
    let row ← getEffectivePrice addon.prices item.billingCycle item.customMonths
    return (row.price, row.setupFee)

/-- The price and the setup fee of an add-on. -/
def priceAddon (s : Store) (shop : Shop) (item : CartItem) : Except Err (ℤ × ℤ) :=
  match (item.addon.bind shop.addons).filter (·.status = .active) with
  | none => .error (serviceError "This add-on is no longer available." "addon_unavailable")
  | some addon =>
    match (item.parent.bind s.cartItems.get?).filter fun parent =>
      parent.kind ∈ addonParentKinds addon ∧ parent.cart = item.cart with
    | none => .error (serviceError ("This add-on must be attached to "
        ++ (if addon.appliesToDomain then "a domain" else "a hosting plan") ++ " in your cart.")
        "invalid_addon")
    | some parent => priceAddonFor addon item parent

/-- No unpaid order may hold the name already. -/
def requireUnreserved (s : Store) (name : String) : Except Err Unit :=
  ensure (s.domainReservedByPendingOrder name = false)
    (serviceError (name ++ " is already in another order awaiting payment.") "domain_reserved")

/-- The registrar must still have the name free, when it is asked. -/
def requireAvailable (shop : Shop) (name : String) (verifyAvailability : Bool) :
    Except Err Unit :=
  if verifyAvailability then do
    let available ← shop.checkAvailability name
    ensure (available = true)
      (serviceError (name ++ " is no longer available.") "domain_unavailable")
  else .ok ()

def priceDomainRegister (s : Store) (shop : Shop) (item : CartItem) (verifyAvailability : Bool) :
    Except Err (ℤ × ℤ) := do
  let name := item.domainName
  validateDomainName name
  let pricing ← getTldPricing shop.tldPricings (domainTld name)
  ensure (pricing.minYears ≤ item.years ∧ item.years ≤ pricing.maxYears)
    (serviceError ("Choose a term between " ++ toString pricing.minYears ++ " and "
      ++ toString pricing.maxYears ++ " years.") "invalid_term")
  requireUnreserved s name
  requireAvailable shop name verifyAvailability
  return (pricing.registerPrice * item.years, 0)

def priceDomainTransfer (s : Store) (shop : Shop) (item : CartItem) : Except Err (ℤ × ℤ) := do
  let name := item.domainName
  validateDomainName name
  let pricing ← getTldPricing shop.tldPricings (domainTld name)
  ensure (item.years = 1) (serviceError "A transfer includes a one-year extension." "invalid_term")
  ensure (item.authCodeEncrypted ≠ "")
    (serviceError "An authorization code is required for a transfer." "auth_code_required")
  ensure (shop.hasLiveDomain name = false)
    (serviceError (name ++ " already exists in our system.") "domain_exists")
  requireUnreserved s name
  return (pricing.transferPrice, 0)

/-- The unit price and the setup fee of a cart item.  `verifyAvailability` also asks the
    registrar whether a name can still be registered. -/
def priceItem (s : Store) (shop : Shop) (item : CartItem) (verifyAvailability : Bool) :
    Except Err (ℤ × ℤ) :=
  match item.kind with
  | .hosting => priceHosting shop item
  | .addon => priceAddon s shop item
  | .domainRegister => priceDomainRegister s shop item verifyAvailability
  | .domainTransfer => priceDomainTransfer s shop item

/-! ### Coupons -/

/-- The uses that still count against a coupon: cancelled orders release theirs. -/
def Store.couponUsage (s : Store) (coupon : ℕ) : List CouponRedemption :=
  s.orders.entries.filterMap fun (_, order) =>
    if order.status = .cancelled then none else order.redemption.filter (·.coupon = coupon)

/-- `Coupon.check_window`: what is wrong with using the coupon now. -/
def Coupon.checkWindow (coupon : Coupon) (now : Moment) : Except String Unit := do
  ensure (coupon.isActive = true) "This coupon code is not valid."
  ensure (∀ validFrom ∈ coupon.validFrom, ¬now < validFrom) "This coupon is not active yet."
  ensure (∀ validUntil ∈ coupon.validUntil, ¬validUntil < now) "This coupon has expired."

/-- `Coupon.amount_for`. -/
def Coupon.amountFor (coupon : Coupon) (subtotal : ℤ) : ℤ :=
  discountAmount coupon.discountType coupon.value subtotal

def couponInvalid (message : String) : Err := serviceError message "coupon_invalid"

/-- What the coupon `pk` gives `client` on `subtotal`; a visitor has no client yet. -/
def evaluateCoupon (env : Env) (s : Store) (pk : ℕ) (coupon : Coupon) (client : Option ℕ)
    (subtotal : ℤ) : Except Err ℤ := do
  (coupon.checkWindow env.now).mapError couponInvalid
  ensure (coupon.minSubtotal ≤ subtotal)
    (couponInvalid ("This coupon needs an order of at least " ++ amountText coupon.minSubtotal
      ++ "."))
  let usage := s.couponUsage pk
  ensure (∀ limit ∈ coupon.maxRedemptions, usage.length < limit)
    (couponInvalid "This coupon has reached its usage limit.")
  ensure (¬(coupon.onePerClient = true ∧ ∃ redemption ∈ usage, some redemption.client = client))
    (couponInvalid "You have already used this coupon.")
  return coupon.amountFor subtotal

/-! ### The whole cart -/

/-- A line of a priced cart; a line with an error has no price. -/
structure PricedLine where
  pk : ℕ
  item : CartItem
  description : String
  unitPrice : ℤ := 0
  setupFee : ℤ := 0
  error : String := ""
  deriving DecidableEq, Repr

def PricedLine.total (line : PricedLine) : ℤ := line.unitPrice + line.setupFee

def PricedLine.ok (line : PricedLine) : Bool := line.error = ""

structure PricedCart where
  lines : List PricedLine
  currency : String
  subtotal : ℤ
  coupon : Option ℕ
  couponError : String
  discountTotal : ℤ
  taxRule : Option TaxRule
  taxRate : Decimal
  taxTotal : ℤ
  total : ℤ
  errors : List String
  taxPending : Bool

/-- `error_text`: the one line of a service or validation error; nothing else is caught. -/
def errorText : Err → Option String
  | .service message _ _ => some message
  | .validation message => some message
  | _ => none

/-- One line of a cart, priced.  In strict mode its problem is an error of the cart. -/
def priceLine (s : Store) (shop : Shop) (strict verifyAvailability : Bool)
    (entry : ℕ × CartItem) : Except Err PricedLine :=
  let line : PricedLine :=
    { pk := entry.1, item := entry.2, description := describeItem shop entry.2 }
  match priceItem s shop entry.2 verifyAvailability with
  | .ok (unitPrice, setupFee) => .ok { line with unitPrice, setupFee }
  | .error e =>
    match errorText e with
    | none => .error e
    | some message =>
      if strict then .error (serviceError (line.description ++ ": " ++ message) "cart_invalid")
      else .ok { line with error := message }

/-- The coupon of a cart, what it takes off and what is wrong with it. -/
def priceCoupon (env : Env) (shop : Shop) (s : Store) (cart : Cart) (subtotal : ℤ)
    (strict : Bool) : Except Err (Option ℕ × ℤ × String) :=
  match cart.coupon with
  | none => .ok (none, 0, "")
  | some pk =>
    match shop.coupons pk with
    | none => .error (.doesNotExist "Coupon")
    | some coupon =>
      match evaluateCoupon env s pk coupon cart.client subtotal with
      | .ok discount => .ok (some pk, discount, "")
      | .error e =>
        match e with
        | .service message _ _ => if strict then .error e else .ok (none, 0, message)
        | e => .error e

/-- The items of a cart, in the order they were added. -/
def Store.itemsOf (s : Store) (cart : ℕ) : List (ℕ × CartItem) :=
  s.cartItems.entries.filter fun entry => entry.2.cart = cart

/-- The tax rule a cart is priced under; a guest's depends on the country they chose. -/
def cartTaxRule (env : Env) (cart : Cart) (country : String) : Option TaxRule :=
  match cart.client with
  | none => if country = "" then none else taxRuleForCountry env.taxRules country
  | some client => taxRuleForClient env client

/-- Price every line, then apply the coupon and the tax. -/
def priceCart (env : Env) (shop : Shop) (s : Store) (pk : ℕ) (cart : Cart) (strict : Bool)
    (verifyAvailability : Bool := false) (country : String := "") : Except Err PricedCart := do
  let items := s.itemsOf pk
  ensure (¬(strict = true ∧ items = [])) (serviceError "Your cart is empty." "cart_empty")
  let lines ← items.mapM (priceLine s shop strict verifyAvailability)
  let subtotal := ((lines.filter PricedLine.ok).map PricedLine.total).sum
  let (coupon, discountTotal, couponError) ← priceCoupon env shop s cart subtotal strict
  let taxable := subtotal - discountTotal
  let taxRule := cartTaxRule env cart country
  let taxTotal := (taxRule.map fun rule => taxAmount taxable rule.rate).getD 0
  return {
    lines, currency := shop.storeCurrency, subtotal, coupon, couponError, discountTotal, taxRule
    taxRate := ratePercent taxRule, taxTotal, total := taxable + taxTotal
    errors := (lines.map PricedLine.error).filter (· ≠ "")
    taxPending := cart.client.isNone && country = "" }

/-! ### What pricing guarantees -/

/-- **No price is negative.** -/
theorem priceItem_nonneg {s : Store} {shop : Shop} {item : CartItem} {verify : Bool}
    {unitPrice setupFee : ℤ} (h : priceItem s shop item verify = .ok (unitPrice, setupFee)) :
    0 ≤ unitPrice ∧ 0 ≤ setupFee := by
  unfold priceItem at h
  split at h
  · -- a plan: both amounts are those of its price row
    unfold priceHosting at h
    split at h
    · cases h
    · simp only [bind_eq_ok, pure_eq_ok, Prod.mk.injEq] at h
      obtain ⟨_, _, _, _, row, _, rfl, rfl⟩ := h
      exact ⟨row.price_nonneg, row.setupFee_nonneg⟩
  · unfold priceAddon at h
    split at h
    · cases h
    · split at h
      · cases h
      · unfold priceAddonFor at h
        split at h
        · simp only [bind_eq_ok, pure_eq_ok, Prod.mk.injEq] at h
          obtain ⟨_, _, row, _, rfl, rfl⟩ := h
          exact ⟨mul_nonneg row.price_nonneg (by positivity), row.setupFee_nonneg⟩
        · simp only [bind_eq_ok, pure_eq_ok, Prod.mk.injEq] at h
          obtain ⟨_, _, row, _, rfl, rfl⟩ := h
          exact ⟨row.price_nonneg, row.setupFee_nonneg⟩
  · simp only [priceDomainRegister, bind_eq_ok, pure_eq_ok, Prod.mk.injEq] at h
    obtain ⟨_, _, pricing, _, _, _, _, _, _, _, rfl, rfl⟩ := h
    exact ⟨mul_nonneg pricing.registerPrice_nonneg (by positivity), le_refl 0⟩
  · simp only [priceDomainTransfer, bind_eq_ok, pure_eq_ok, Prod.mk.injEq] at h
    obtain ⟨_, _, pricing, _, _, _, _, _, _, _, _, _, rfl, rfl⟩ := h
    exact ⟨pricing.transferPrice_nonneg, le_refl 0⟩

/-- In strict mode every line has a price, and it is not negative. -/
theorem priceLine_strict {s : Store} {shop : Shop} {verify : Bool} {entry : ℕ × CartItem}
    {line : PricedLine} (h : priceLine s shop true verify entry = .ok line) :
    line.ok = true ∧ 0 ≤ line.unitPrice ∧ 0 ≤ line.setupFee := by
  unfold priceLine at h
  simp only [if_true] at h
  split at h
  · next unitPrice setupFee hprice =>
    cases h
    exact ⟨rfl, priceItem_nonneg hprice⟩
  · split at h <;> cases h

/-- A coupon takes off something between nothing and the subtotal. -/
theorem evaluateCoupon_bounds {env : Env} {s : Store} {pk : ℕ} {coupon : Coupon}
    {client : Option ℕ} {subtotal discount : ℤ} (h0 : 0 ≤ subtotal)
    (h : evaluateCoupon env s pk coupon client subtotal = .ok discount) :
    0 ≤ discount ∧ discount ≤ subtotal := by
  simp only [evaluateCoupon, bind_eq_ok, pure_eq_ok] at h
  obtain ⟨_, _, _, _, _, _, _, _, rfl⟩ := h
  exact discountAmount_bounds _ _ h0

/-- The figures of a cart that priced in strict mode. -/
structure PricedCart.Settled (priced : PricedCart) : Prop where
  prices_nonneg : ∀ line ∈ priced.lines, 0 ≤ line.unitPrice ∧ 0 ≤ line.setupFee
  subtotal_eq : priced.subtotal = (priced.lines.map PricedLine.total).sum
  discount_bounds : 0 ≤ priced.discountTotal ∧ priced.discountTotal ≤ priced.subtotal
  rate_nonneg : 0 ≤ priced.taxRate
  tax_eq : priced.taxTotal = taxAmount (priced.subtotal - priced.discountTotal) priced.taxRate
  total_eq : priced.total = priced.subtotal - priced.discountTotal + priced.taxTotal

/-- **A cart that prices in strict mode has figures that add up.** -/
theorem priceCart_settled {env : Env} {shop : Shop} {s : Store} {pk : ℕ} {cart : Cart}
    {verify : Bool} {country : String} {priced : PricedCart}
    (h : priceCart env shop s pk cart true verify country = .ok priced) : priced.Settled := by
  simp only [priceCart, bind_eq_ok, pure_eq_ok, Prod.exists] at h
  obtain ⟨_, _, lines, hlines, coupon, discount, couponError, hcoupon, rfl⟩ := h
  have hprices : ∀ line ∈ lines, line.ok = true ∧ 0 ≤ line.unitPrice ∧ 0 ≤ line.setupFee := by
    intro line hl
    obtain ⟨entry, _, hentry⟩ := mapM_eq_ok hlines line hl
    exact priceLine_strict hentry
  have hall : lines.filter PricedLine.ok = lines :=
    List.filter_eq_self.mpr fun line hl => (hprices line hl).1
  rw [hall] at hcoupon
  have hsub : 0 ≤ (lines.map PricedLine.total).sum := by
    apply List.sum_nonneg
    intro total ht
    obtain ⟨line, hl, rfl⟩ := List.mem_map.mp ht
    exact add_nonneg (hprices line hl).2.1 (hprices line hl).2.2
  have hbounds : 0 ≤ discount ∧ discount ≤ (lines.map PricedLine.total).sum := by
    unfold priceCoupon at hcoupon
    split at hcoupon
    · cases hcoupon
      exact ⟨le_refl 0, hsub⟩
    · split at hcoupon
      · cases hcoupon
      · split at hcoupon
        · next heval =>
          cases hcoupon
          exact evaluateCoupon_bounds hsub heval
        · simp only [if_true] at hcoupon
          split at hcoupon <;> cases hcoupon
  constructor
  · exact fun line hl => (hprices line hl).2
  · show ((lines.filter PricedLine.ok).map PricedLine.total).sum = _
    rw [hall]
  · show 0 ≤ discount ∧ discount ≤ ((lines.filter PricedLine.ok).map PricedLine.total).sum
    rw [hall]
    exact hbounds
  · exact ratePercent_nonneg _
  · show ((cartTaxRule env cart country).map _).getD 0 = taxAmount _ (ratePercent _)
    -- without a rule the rate is zero, and so is the tax
    cases cartTaxRule env cart country with
    | none => simp [ratePercent, taxAmount]
    | some rule => rfl
  · rfl

end WPanel.Orders
