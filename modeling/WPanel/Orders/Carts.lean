import WPanel.Lib.Machine
import WPanel.Orders.Pricing

namespace WPanel.Orders

open WPanel.Lib WPanel.Billing

/-!
# Filling a cart

The cart services of `orders/services.py`, and what holds of the lines of every cart that only they
have filled.

* `CartCall`, `carts` — the services, as one machine;
* `Coherent` — every line has the fields of its kind, an add-on comes after the line it goes with
  and is billed with it, and no two lines of a cart are for the same thing;
* `Coherent.insert` … `Coherent.opened` — every service that fills or changes one cart keeps this.
-/

/-! ### Who may do what -/

/-- `can_order_for`: staff who manage orders, and any contact of the client. -/
def canOrderFor (actor : Actor) (client : ℕ) : Bool :=
  actor.hasPerm .manageOrders || actor.contactOf client

/-- A guest cart is only ever reached through the visitor's own session. -/
def requireOwnCart (actor : Option Actor) (cart : Cart) : Except Err Unit :=
  match cart.user with
  | none => .ok ()
  | some user =>
    match actor with
    | none => .error denied
    | some actor => ensure (user = actor.pk ∨ actor.hasPerm .manageOrders = true) denied

def requireOpen (cart : Cart) : Except Err Unit :=
  ensure (cart.status = .open)
    (serviceError "This cart has already been checked out." "cart_closed")

def loadCart (s : Store) (pk : ℕ) : Except Err Cart :=
  match s.carts.get? pk with
  | some cart => .ok cart
  | none => .error (.doesNotExist "Cart")

def loadItem (s : Store) (pk : ℕ) : Except Err CartItem :=
  match s.cartItems.get? pk with
  | some item => .ok item
  | none => .error (.doesNotExist "CartItem")

/-- A cart the actor may change. -/
def requireCart (actor : Option Actor) (pk : ℕ) (s : Store) : Except Err Unit := do
  let cart ← loadCart s pk
  requireOwnCart actor cart
  requireOpen cart

/-- The actor's open cart for `client`, created on first use. -/
def getOpenCart (actor : Actor) (client : ℕ) (s : Store) : Except Err (ℕ × Store) := do
  ensure (canOrderFor actor client = true) denied
  match s.carts.entries.find? fun entry => entry.2.user = some actor.pk
      ∧ entry.2.client = some client ∧ entry.2.status = .open with
  | some (pk, _) => return (pk, s)
  | none =>
    let cart : Cart := { user := some actor.pk, client := some client }
    return (s.carts.nextPk, { s with carts := s.carts.insert cart })

/-! ### Adding lines -/

/-- `_add_item`: a line that can be ordered right now, and is not in the cart yet. -/
def addItem (shop : Shop) (actor : Option Actor) (item : CartItem) (duplicate : CartItem → Bool)
    (s : Store) : Except Err Store := do
  requireCart actor item.cart s
  let _ ← priceItem s shop item true
  ensure (((s.itemsOf item.cart).any fun entry => duplicate entry.2) = false)
    (serviceError "This is already in your cart." "duplicate_item")
  return { s with cartItems := s.cartItems.insert item }

def addHosting (shop : Shop) (actor : Option Actor) (cart product : ℕ)
    (domain billingCycle : String) (customMonths : ℕ) (s : Store) : Except Err Store :=
  let item : CartItem := {
    cart, kind := .hosting, product := some product, domainName := lower (strip domain)
    billingCycle, customMonths }
  addItem shop actor item (fun other => other.kind = .hosting ∧ other.product = item.product
    ∧ other.domainName = item.domainName) s

/-- The active prices of an add-on that may be billed with a line. -/
def addonOptions (shop : Shop) (parent : CartItem) (addon : ℕ) : List PriceEntry :=
  match shop.addons addon with
  | none => []
  | some addon =>
    if parent.kind ∉ addonParentKinds addon then []
    else if parent.kind.isDomain then
      addon.prices.filter fun row => row.isActive
        ∧ (row.billingCycle = .annual ∨ row.billingCycle = .oneTime)
    else
      addon.prices.filter fun row => row.isActive ∧ (row.billingCycle = .oneTime
        ∨ (row.billingCycle.value = parent.billingCycle ∧ row.customMonths = parent.customMonths))

/-- The period that was asked for, or else the first on offer. -/
def addonPeriod (shop : Shop) (parent : CartItem) (addon : ℕ) (period : Option (String × ℕ)) :
    Except Err (String × ℕ) :=
  match period with
  | some period => .ok period
  | none =>
    match addonOptions shop parent addon with
    | row :: _ => .ok (row.billingCycle.value, row.customMonths)
    | [] => .error
      (serviceError "This add-on is not available for your billing cycle." "invalid_addon")

def addAddon (shop : Shop) (actor : Option Actor) (parentPk addon : ℕ)
    (period : Option (String × ℕ)) (s : Store) : Except Err Store := do
  let parent ← loadItem s parentPk
  let (billingCycle, customMonths) ← addonPeriod shop parent addon period
  let item : CartItem := {
    cart := parent.cart, kind := .addon, addon := some addon, parent := some parentPk
    billingCycle, customMonths }
  addItem shop actor item (fun other => other.kind = .addon ∧ other.addon = item.addon
    ∧ other.parent = item.parent) s

/-- Both kinds of line for a domain; only a transfer has an authorization code. -/
def addDomain (shop : Shop) (actor : Option Actor) (item : CartItem) (s : Store) :
    Except Err Store :=
  addItem shop actor item (fun other => other.kind.isDomain
    ∧ other.domainName = item.domainName) s

def addDomainRegistration (shop : Shop) (actor : Option Actor) (cart : ℕ) (domain : String)
    (years : ℕ) (s : Store) : Except Err Store :=
  addDomain shop actor {
    cart, kind := .domainRegister, domainName := lower (strip domain), years } s

def addDomainTransfer (shop : Shop) (actor : Option Actor) (cart : ℕ) (domain : String)
    (authCodeEncrypted : String) (s : Store) : Except Err Store :=
  addDomain shop actor {
    cart, kind := .domainTransfer, domainName := lower (strip domain), years := 1
    authCodeEncrypted } s

/-! ### Taking lines off and changing them -/

/-- The add-ons of a line. -/
def Store.addonItems (s : Store) (pk : ℕ) : List (ℕ × CartItem) :=
  s.cartItems.entries.filter fun entry => entry.2.parent = some pk

/-- Lines are deleted with their add-ons. -/
def Store.eraseItems (s : Store) (pks : List ℕ) : Store :=
  let children := pks.flatMap fun pk => (s.addonItems pk).map Prod.fst
  { s with cartItems := s.cartItems.eraseKeys (pks ++ children) }

def removeItem (actor : Option Actor) (pk : ℕ) (s : Store) : Except Err Store := do
  let item ← loadItem s pk
  requireCart actor item.cart s
  return s.eraseItems [pk]

/-- The add-on is billed once. -/
def CartItem.isOneTime (item : CartItem) : Bool := item.billingCycle = BillingCycle.oneTime.value

/-- The recurring price of an add-on that goes with its plan's period. -/
def followRow (shop : Shop) (parent : CartItem) (child : CartItem) : Option PriceEntry :=
  match child.addon with
  | none => none
  | some addon =>
    (addonOptions shop parent addon).find? fun row => row.billingCycle ≠ .oneTime

/-- A recurring add-on of a plan, with the period that goes with it. -/
def CartItem.follow (shop : Shop) (plan child : CartItem) : CartItem :=
  match followRow shop plan child with
  | some row => { child with
      billingCycle := row.billingCycle.value, customMonths := row.customMonths }
  | none => child

/-- Write a plan with its new period.  Its recurring add-ons follow, or are dropped. -/
def Store.switchPlan (s : Store) (shop : Shop) (pk : ℕ) (plan : CartItem) : Store :=
  let recurring := (s.addonItems pk).filter fun entry => !entry.2.isOneTime
  let dropped := recurring.filter fun entry => (followRow shop plan entry.2).isNone
  let followed := (s.cartItems.put pk plan).updateWhere
    (fun child => child.parent = some pk && !child.isOneTime) (CartItem.follow shop plan)
  { s with cartItems := followed.eraseKeys (dropped.map Prod.fst) }

/-- Switch a hosting line to another period. -/
def changePeriod (shop : Shop) (actor : Option Actor) (pk : ℕ) (billingCycle : String)
    (customMonths : ℕ) (s : Store) : Except Err Store := do
  let item ← loadItem s pk
  requireCart actor item.cart s
  ensure (item.kind = .hosting)
    (serviceError "Only a hosting plan has a billing period." "invalid_item")
  match item.product.bind shop.products with
  | none => .error (.unexpected "item.product")
  | some product => do
    let _ ← getEffectivePrice product.prices billingCycle customMonths
    return s.switchPlan shop pk { item with billingCycle, customMonths }

/-- An add-on as a switch. -/
def toggleAddon (shop : Shop) (actor : Option Actor) (parentPk addon : ℕ)
    (period : Option (String × ℕ)) (s : Store) : Except Err Store := do
  let parent ← loadItem s parentPk
  requireCart actor parent.cart s
  match (s.addonItems parentPk).find? fun entry => entry.2.addon = some addon with
  | some (pk, _) => return s.eraseItems [pk]
  | none => addAddon shop actor parentPk addon period s

/-- Swap a hosting line for the plan staff suggest instead, `offer`. -/
def upgradeItem (shop : Shop) (actor : Option Actor) (pk : ℕ) (offer : Option ℕ) (s : Store) :
    Except Err Store := do
  let item ← loadItem s pk
  requireCart actor item.cart s
  let none? := serviceError "There is no upgrade available for this plan." "no_upgrade"
  ensure (item.kind = .hosting) none?
  match item.product.bind shop.products, offer.bind shop.products with
  | some product, some target => do
    ensure (target.status = .active ∧ target.whmPackageName ≠ "") none?
    let _ ← (getEffectivePrice product.prices item.billingCycle item.customMonths).mapError
      fun _ => none?
    let _ ← (getEffectivePrice target.prices item.billingCycle item.customMonths).mapError
      fun _ => none?
    ensure (((s.itemsOf item.cart).any fun entry => entry.2.kind = .hosting
        ∧ entry.2.product = offer ∧ entry.2.domainName = item.domainName) = false)
      (serviceError "That plan is already in your cart for this domain." "duplicate_item")
    let item := { item with product := offer }
    let _ ← priceItem s shop item false
    return { s with cartItems := s.cartItems.put pk item }
  | _, _ => .error none?

/-! ### Guest carts -/

/-- The same line for the same thing, whatever its period. -/
def CartItem.SameThing (a b : CartItem) : Prop :=
  a.kind = b.kind ∧ a.product = b.product ∧ a.addon = b.addon ∧ a.parent = b.parent
    ∧ a.domainName = b.domainName

instance (a b : CartItem) : Decidable (a.SameThing b) :=
  inferInstanceAs (Decidable (_ ∧ _))

/-- The same plan for the same domain. -/
def CartItem.SamePlan (a b : CartItem) : Prop :=
  a.kind = b.kind ∧ a.product = b.product ∧ a.domainName = b.domainName

instance (a b : CartItem) : Decidable (a.SamePlan b) :=
  inferInstanceAs (Decidable (_ ∧ _))

/-- A line as it goes into the cart `target`, under the line its own was mapped to. -/
def CartItem.copy (item : CartItem) (target : ℕ) (mapping : List (ℕ × ℕ)) : CartItem :=
  { item with cart := target, parent := item.parent.bind fun parent => mapping.lookup parent }

/-- One round of `adopt_guest_cart`: a line of the guest cart is skipped, mapped to a plan that is
    there already, or copied. -/
def adoptItem (target : ℕ) (progress : Store × List (ℕ × ℕ)) (entry : ℕ × CartItem) :
    Store × List (ℕ × ℕ) :=
  let (s, mapping) := progress
  let copy := entry.2.copy target mapping
  if entry.2.kind = .addon ∧ copy.parent = none then (s, mapping)
  else if (s.itemsOf target).any (fun other => other.2.SameThing copy) = true then
    if entry.2.kind = .hosting then
      match (s.itemsOf target).find? fun other => other.2.SamePlan entry.2 with
      | some (pk, _) => (s, (entry.1, pk) :: mapping)
      | none => (s, mapping)
    else (s, mapping)
  else
    ({ s with cartItems := s.cartItems.insert copy }, (entry.1, s.cartItems.nextPk) :: mapping)

/-- A coupon moves with the lines, unless the account's cart has one. -/
def Store.moveCoupon (s : Store) (guest : Cart) (target : ℕ) : Store :=
  match s.carts.get? target with
  | some cart =>
    if guest.coupon ≠ none ∧ cart.coupon = none then
      { s with carts := s.carts.put target { cart with coupon := guest.coupon } }
    else s
  | none => s

/-- Carts are deleted with their lines. -/
def Store.eraseCarts (s : Store) (pks : List ℕ) : Store :=
  let lines := (s.cartItems.entries.filter fun entry => entry.2.cart ∈ pks).map Prod.fst
  { s with carts := s.carts.eraseKeys pks, cartItems := s.cartItems.eraseKeys lines }

/-- Move a visitor's selections into their own open cart, and delete the guest cart. -/
def adoptGuestCart (actor : Actor) (client guest : ℕ) (s : Store) : Except Err (ℕ × Store) := do
  let cart ← loadCart s guest
  let (target, s) ← getOpenCart actor client s
  let (s, _) := (s.itemsOf guest).foldl (adoptItem target) (s, [])
  return (target, (s.moveCoupon cart target).eraseCarts [guest])

/-- `guest.claim`: a customer of one client signs in, with an open guest cart or none. -/
def claim (actor : Actor) (client guest : ℕ) (s : Store) : Except Err Store :=
  match (s.carts.get? guest).filter fun cart => cart.user = none ∧ cart.status = .open with
  | none => .ok s
  | some _ => (adoptGuestCart actor client guest s).map Prod.snd

/-! ### The machine -/

/-- The cart services, and what the rest of the panel does to carts. -/
inductive CartCall where
  | getOpenCart (actor : Actor) (client : ℕ)
  /-- A visitor gets a cart. -/
  | newGuestCart
  | addHosting (shop : Shop) (actor : Option Actor) (cart product : ℕ)
      (domain billingCycle : String) (customMonths : ℕ)
  | addAddon (shop : Shop) (actor : Option Actor) (parent addon : ℕ)
      (period : Option (String × ℕ))
  | addDomainRegistration (shop : Shop) (actor : Option Actor) (cart : ℕ) (domain : String)
      (years : ℕ)
  | addDomainTransfer (shop : Shop) (actor : Option Actor) (cart : ℕ)
      (domain authCodeEncrypted : String)
  | removeItem (actor : Option Actor) (pk : ℕ)
  | changePeriod (shop : Shop) (actor : Option Actor) (pk : ℕ) (billingCycle : String)
      (customMonths : ℕ)
  | toggleAddon (shop : Shop) (actor : Option Actor) (parent addon : ℕ)
      (period : Option (String × ℕ))
  | upgradeItem (shop : Shop) (actor : Option Actor) (pk : ℕ) (offer : Option ℕ)
  | claim (actor : Actor) (client guest : ℕ)
  /-- The plan or the add-on of these lines is deleted from the catalogue. -/
  | dropItems (pks : List ℕ)
  /-- Carts are written without their lines: a coupon, a checkout. -/
  | putCart (pk : ℕ) (cart : Cart)
  /-- Old guest carts are deleted. -/
  | purgeCarts (pks : List ℕ)
  /-- Orders are placed, paid and so on. -/
  | putOrders (orders : Table Order)

def CartCall.exec : CartCall → Store → Except Err Store
  | .getOpenCart actor client, s => (Orders.getOpenCart actor client s).map Prod.snd
  | .newGuestCart, s => .ok { s with carts := s.carts.insert { user := none, client := none } }
  | .addHosting shop actor cart product domain billingCycle customMonths, s =>
    Orders.addHosting shop actor cart product domain billingCycle customMonths s
  | .addAddon shop actor parent addon period, s => Orders.addAddon shop actor parent addon period s
  | .addDomainRegistration shop actor cart domain years, s =>
    Orders.addDomainRegistration shop actor cart domain years s
  | .addDomainTransfer shop actor cart domain authCodeEncrypted, s =>
    Orders.addDomainTransfer shop actor cart domain authCodeEncrypted s
  | .removeItem actor pk, s => Orders.removeItem actor pk s
  | .changePeriod shop actor pk billingCycle customMonths, s =>
    Orders.changePeriod shop actor pk billingCycle customMonths s
  | .toggleAddon shop actor parent addon period, s =>
    Orders.toggleAddon shop actor parent addon period s
  | .upgradeItem shop actor pk offer, s => Orders.upgradeItem shop actor pk offer s
  | .claim actor client guest, s => Orders.claim actor client guest s
  | .dropItems pks, s => .ok (s.eraseItems pks)
  | .putCart pk cart, s =>
    (loadCart s pk).map fun _ => { s with carts := s.carts.put pk cart }
  | .purgeCarts pks, s => .ok (s.eraseCarts pks)
  | .putOrders orders, s => .ok { s with orders }

/-- The carts as a machine. -/
def carts : Machine Store CartCall Unit Err := ⟨fun call s => (call.exec s).map fun s => (s, [])⟩

/-! ### What holds of the lines of a cart -/

/-- A recurring add-on has the period of its plan. -/
def CartItem.Follows (item parent : CartItem) : Prop :=
  item.isOneTime = true ∨
    (item.billingCycle = parent.billingCycle ∧ item.customMonths = parent.customMonths)

instance (item parent : CartItem) : Decidable (item.Follows parent) :=
  inferInstanceAs (Decidable (_ ∨ _))

/-- An add-on comes after the line `p` it goes with, in the same cart. -/
structure Under (items : Table CartItem) (pk : ℕ) (item : CartItem) (p : ℕ) (parent : CartItem) :
    Prop where
  parent_eq : item.parent = some p
  get : items.get? p = some parent
  before : p < pk
  cart : parent.cart = item.cart
  kind : parent.kind ≠ .addon
  follows : parent.kind = .hosting → item.Follows parent

/-- A line has the fields of its kind, and an add-on goes with another line. -/
structure Line (items : Table CartItem) (pk : ℕ) (item : CartItem) : Prop where
  hosting : item.kind = .hosting → item.product ≠ none ∧ item.addon = none ∧ item.parent = none
  domain : item.kind.isDomain = true →
    item.product = none ∧ item.addon = none ∧ item.parent = none
  addon : item.kind = .addon →
    (item.product = none ∧ item.domainName = "") ∧ ∃ p parent, Under items pk item p parent

/-- Two lines for the same thing: a plan for a domain, a domain, or an add-on of a line. -/
def CartItem.Clashes (a b : CartItem) : Prop :=
  (a.kind = .hosting ∧ b.kind = .hosting ∧ a.product = b.product ∧ a.domainName = b.domainName)
    ∨ (a.kind.isDomain = true ∧ b.kind.isDomain = true ∧ a.domainName = b.domainName)
    ∨ (a.kind = .addon ∧ b.kind = .addon ∧ a.addon = b.addon ∧ a.parent = b.parent)

/-- What holds of all carts. -/
structure Coherent (s : Store) : Prop where
  lines : s.cartItems.Forall (Line s.cartItems)
  carts : s.cartItems.Forall fun _ item => ∃ cart, s.carts.get? item.cart = some cart
  distinct : ∀ pk a pk' b, s.cartItems.get? pk = some a → s.cartItems.get? pk' = some b →
    a.cart = b.cart → a.Clashes b → pk = pk'

/-! ### Writing one line -/

section

variable {s s' : Store} {items items' : Table CartItem} {pk : ℕ} {item a b : CartItem}

theorem CartItem.Clashes.symm (h : a.Clashes b) : b.Clashes a := by
  rcases h with ⟨ha, hb, hproduct, hdomain⟩ | ⟨ha, hb, hdomain⟩ | ⟨ha, hb, haddon, hparent⟩
  · exact .inl ⟨hb, ha, hproduct.symm, hdomain.symm⟩
  · exact .inr (.inl ⟨hb, ha, hdomain.symm⟩)
  · exact .inr (.inr ⟨hb, ha, haddon.symm, hparent.symm⟩)

/-- A line only looks at the line it goes with. -/
theorem Line.mono (h : Line items pk item)
    (hget : ∀ p parent, items.get? p = some parent → items'.get? p = some parent) :
    Line items' pk item := by
  refine ⟨h.hosting, h.domain, fun hkind => ?_⟩
  obtain ⟨hfields, p, parent, hunder⟩ := h.addon hkind
  exact ⟨hfields, p, parent, { hunder with get := hget p parent hunder.get }⟩

/-- Only add-ons go with another line. -/
theorem Line.kind_of_parent (h : Line items pk item) {p : ℕ} (hparent : item.parent = some p) :
    item.kind = .addon := by
  cases hkind : item.kind with
  | addon => rfl
  | hosting =>
    rw [(h.hosting hkind).2.2] at hparent
    cases hparent
  | domainRegister =>
    rw [(h.domain (by rw [hkind]; rfl)).2.2] at hparent
    cases hparent
  | domainTransfer =>
    rw [(h.domain (by rw [hkind]; rfl)).2.2] at hparent
    cases hparent

/-- A line that clashes with none of its cart is added. -/
theorem Coherent.insert (h : Coherent s)
    (hline : Line (s.cartItems.insert item) s.cartItems.nextPk item)
    (hcart : ∃ cart, s.carts.get? item.cart = some cart)
    (hnew : ∀ k other, s.cartItems.get? k = some other → other.cart = item.cart →
      ¬item.Clashes other) : Coherent { s with cartItems := s.cartItems.insert item } := by
  refine ⟨?_, h.carts.insert hcart, fun k a k' b ha hb hcarts hclash => ?_⟩
  · refine Table.Forall.insert (fun k other hget => ?_) hline
    exact (h.lines k other hget).mono fun p parent hp => Table.get?_insert_of_some hp
  · simp only [Table.get?_insert] at ha hb
    split at ha
    · next hk =>
      cases ha
      split at hb
      · next hk' => exact hk.trans hk'.symm
      · exact absurd hclash (hnew k' b hb hcarts.symm)
    · split at hb
      · cases hb
        exact absurd hclash.symm (hnew k a ha hcarts)
      · exact h.distinct k a k' b ha hb hcarts hclash

/-- Lines are deleted, with their add-ons at least. -/
theorem Coherent.erase (h : Coherent s) (hsome : ∀ k a, s'.cartItems.get? k = some a →
      s.cartItems.get? k = some a)
    (hkept : ∀ k a p parent, s'.cartItems.get? k = some a → a.parent = some p →
      s.cartItems.get? p = some parent → s'.cartItems.get? p = some parent)
    (hcarts : ∀ k a, s'.cartItems.get? k = some a → s'.carts.get? a.cart = s.carts.get? a.cart) :
    Coherent s' := by
  refine ⟨fun k a ha => ?_, fun k a ha => ?_, fun k a k' b ha hb => ?_⟩
  · have hline := h.lines k a (hsome k a ha)
    refine ⟨hline.hosting, hline.domain, fun hkind => ?_⟩
    obtain ⟨hfields, p, parent, hunder⟩ := hline.addon hkind
    exact ⟨hfields, p, parent,
      { hunder with get := hkept k a p parent ha hunder.parent_eq hunder.get }⟩
  · show ∃ cart, s'.carts.get? a.cart = some cart
    rw [hcarts k a ha]
    exact h.carts k a (hsome k a ha)
  · exact h.distinct k a k' b (hsome k a ha) (hsome k' b hb)

theorem mem_addonItems {k p : ℕ} :
    k ∈ (s.addonItems p).map Prod.fst ↔
      ∃ child, s.cartItems.get? k = some child ∧ child.parent = some p := by
  simp only [Store.addonItems, List.mem_map, List.mem_filter, decide_eq_true_eq]
  constructor
  · rintro ⟨⟨k', child⟩, ⟨hmem, hparent⟩, rfl⟩
    exact ⟨child, Table.mem_entries.mp hmem, hparent⟩
  · rintro ⟨child, hget, hparent⟩
    exact ⟨(k, child), ⟨Table.mem_entries.mpr hget, hparent⟩, rfl⟩

theorem Coherent.eraseItems (h : Coherent s) (pks : List ℕ) : Coherent (s.eraseItems pks) := by
  refine h.erase (fun k a ha => ?_) (fun k a p parent ha hparent hp => ?_) fun _ _ _ => rfl
  · simp only [Store.eraseItems, Table.get?_eraseKeys] at ha
    split at ha
    · cases ha
    · exact ha
  · simp only [Store.eraseItems, Table.get?_eraseKeys] at ha ⊢
    split at ha
    · cases ha
    · next hnot =>
      -- the line it goes with was neither named nor the add-on of one that was
      have hline := h.lines k a ha
      have hkind := hline.kind_of_parent hparent
      obtain ⟨_, p', parent', hunder⟩ := hline.addon hkind
      cases hparent.symm.trans hunder.parent_eq
      cases hp.symm.trans hunder.get
      rw [if_neg, hp]
      intro hmem
      rcases List.mem_append.mp hmem with hnamed | hchild
      · exact hnot (List.mem_append_right _
          (List.mem_flatMap.mpr ⟨p, hnamed, mem_addonItems.mpr ⟨a, ha, hparent⟩⟩))
      · obtain ⟨q, _, hq⟩ := List.mem_flatMap.mp hchild
        obtain ⟨child, hchild, hparent'⟩ := mem_addonItems.mp hq
        cases hp.symm.trans hchild
        exact hunder.kind ((h.lines p parent hp).kind_of_parent hparent')

/-- The lines of the carts that stay. -/
theorem get?_eraseCarts {pks : List ℕ} {k : ℕ} :
    (s.eraseCarts pks).cartItems.get? k = some a ↔
      s.cartItems.get? k = some a ∧ a.cart ∉ pks := by
  have hgone : k ∈ (s.cartItems.entries.filter fun entry => entry.2.cart ∈ pks).map Prod.fst
      ↔ ∃ a, s.cartItems.get? k = some a ∧ a.cart ∈ pks := by
    simp only [List.mem_map, List.mem_filter, decide_eq_true_eq]
    constructor
    · rintro ⟨⟨k', a⟩, ⟨hmem, hcart⟩, rfl⟩
      exact ⟨a, Table.mem_entries.mp hmem, hcart⟩
    · rintro ⟨a, hget, hcart⟩
      exact ⟨(k, a), ⟨Table.mem_entries.mpr hget, hcart⟩, rfl⟩
  simp only [Store.eraseCarts, Table.get?_eraseKeys, hgone]
  constructor
  · intro ha
    split at ha
    · cases ha
    · next hnot => exact ⟨ha, fun hcart => hnot ⟨a, ha, hcart⟩⟩
  · rintro ⟨ha, hcart⟩
    rw [if_neg, ha]
    rintro ⟨b, hb, hmem⟩
    cases ha.symm.trans hb
    exact hcart hmem

theorem Coherent.eraseCarts (h : Coherent s) (pks : List ℕ) : Coherent (s.eraseCarts pks) := by
  refine h.erase (fun k a ha => (get?_eraseCarts.mp ha).1) (fun k a p parent ha hparent hp => ?_)
    fun k a ha => ?_
  · obtain ⟨ha, hcart⟩ := get?_eraseCarts.mp ha
    have hline := h.lines k a ha
    obtain ⟨_, p', parent', hunder⟩ := hline.addon (hline.kind_of_parent hparent)
    cases hparent.symm.trans hunder.parent_eq
    cases hp.symm.trans hunder.get
    exact get?_eraseCarts.mpr ⟨hp, hunder.cart ▸ hcart⟩
  · show (s.carts.eraseKeys pks).get? a.cart = _
    rw [Table.get?_eraseKeys, if_neg (get?_eraseCarts.mp ha).2]

/-! ### Adding a line -/

variable {shop : Shop} {actor : Option Actor} {verify : Bool}

theorem loadCart_eq_ok {cart : Cart} :
    loadCart s pk = .ok cart ↔ s.carts.get? pk = some cart := by
  unfold loadCart
  cases s.carts.get? pk <;> simp

theorem loadItem_eq_ok : loadItem s pk = .ok item ↔ s.cartItems.get? pk = some item := by
  unfold loadItem
  cases s.cartItems.get? pk <;> simp

theorem requireCart_eq_ok {u : Unit} (h : requireCart actor pk s = .ok u) :
    ∃ cart, s.carts.get? pk = some cart := by
  unfold requireCart at h
  obtain ⟨cart, hcart, _⟩ := bind_eq_ok.mp h
  exact ⟨cart, loadCart_eq_ok.mp hcart⟩

theorem mem_itemsOf {cart : ℕ} {entry : ℕ × CartItem} :
    entry ∈ s.itemsOf cart ↔ s.cartItems.get? entry.1 = some entry.2 ∧ entry.2.cart = cart := by
  simp only [Store.itemsOf, List.mem_filter, decide_eq_true_eq]
  exact and_congr_left fun _ => Table.mem_entries

/-- What was asked of a line before it was added. -/
structure Added (shop : Shop) (item : CartItem) (duplicate : CartItem → Bool) (s s' : Store) :
    Prop where
  cart : ∃ cart, s.carts.get? item.cart = some cart
  price : ∃ price, priceItem s shop item true = .ok price
  new : ∀ k other, s.cartItems.get? k = some other → other.cart = item.cart →
    duplicate other = false
  eq : s' = { s with cartItems := s.cartItems.insert item }

theorem addItem_eq_ok {duplicate : CartItem → Bool}
    (h : addItem shop actor item duplicate s = .ok s') : Added shop item duplicate s s' := by
  unfold addItem at h
  simp only [bind_eq_ok, ensure_eq_ok, pure_eq_ok, exists_and_left, exists_const] at h
  obtain ⟨_, hcart, price, hprice, hnew, rfl⟩ := h
  refine ⟨requireCart_eq_ok hcart, ⟨price, hprice⟩, fun k other hget hother => ?_, rfl⟩
  rw [List.any_eq_false] at hnew
  exact Bool.eq_false_iff.mpr (hnew (k, other) (mem_itemsOf.mpr ⟨hget, hother⟩))

/-- An add-on has a price with the line it goes with. -/
theorem priceAddon_eq_ok {price : ℤ × ℤ} :
    priceAddon s shop item = .ok price ↔
      ∃ addon parent, (item.addon.bind shop.addons).filter (·.status = .active) = some addon
        ∧ item.parent.bind s.cartItems.get? = some parent ∧ parent.kind ∈ addonParentKinds addon
        ∧ parent.cart = item.cart ∧ priceAddonFor addon item parent = .ok price := by
  unfold priceAddon
  constructor
  · intro h
    split at h
    · cases h
    · next addon haddon =>
      split at h
      · cases h
      · next parent hparent =>
        obtain ⟨hbind, hkind, hcart⟩ : item.parent.bind s.cartItems.get? = some parent
            ∧ parent.kind ∈ addonParentKinds addon ∧ parent.cart = item.cart := by
          simpa [Option.filter_eq_some_iff] using hparent
        exact ⟨addon, parent, haddon, hbind, hkind, hcart, h⟩
  · rintro ⟨addon, parent, haddon, hbind, hkind, hcart, h⟩
    have hparent : ((item.parent.bind s.cartItems.get?).filter fun parent =>
        parent.kind ∈ addonParentKinds addon ∧ parent.cart = item.cart) = some parent := by
      simp [Option.filter_eq_some_iff, hbind, hkind, hcart]
    simp only [haddon, hparent, h]

/-- An add-on of a plan is billed with it. -/
theorem priceAddonFor_follows {addon : Addon} {parent : CartItem} {price : ℤ × ℤ}
    (hkind : parent.kind = .hosting) (h : priceAddonFor addon item parent = .ok price) :
    item.Follows parent := by
  unfold priceAddonFor at h
  rw [if_neg (by rw [hkind]; decide)] at h
  simp only [bind_eq_ok, ensure_eq_ok, exists_and_left, exists_const] at h
  refine h.1.imp (fun honce => ?_) id
  simp only [CartItem.isOneTime, honce, decide_true]

/-- An add-on that has a price goes with a line of its cart that is none itself. -/
theorem priceAddon_parent {price : ℤ × ℤ} (h : priceAddon s shop item = .ok price) :
    ∃ p parent, item.parent = some p ∧ s.cartItems.get? p = some parent
      ∧ parent.cart = item.cart ∧ parent.kind ≠ .addon
      ∧ (parent.kind = .hosting → item.Follows parent) := by
  obtain ⟨addon, parent, _, hbind, hkind, hcart, hprice⟩ := priceAddon_eq_ok.mp h
  obtain ⟨p, hp, hget⟩ := Option.bind_eq_some_iff.mp hbind
  refine ⟨p, parent, hp, hget, hcart, fun heq => ?_, fun hhosting =>
    priceAddonFor_follows hhosting hprice⟩
  rw [heq] at hkind
  unfold addonParentKinds at hkind
  split at hkind <;> simp at hkind

theorem Coherent.addHosting {cart product : ℕ} {domain billingCycle : String} {customMonths : ℕ}
    (h : Coherent s)
    (hadd : Orders.addHosting shop actor cart product domain billingCycle customMonths s = .ok s') :
    Coherent s' := by
  unfold Orders.addHosting at hadd
  dsimp only at hadd
  obtain ⟨hcart, _, hnew, rfl⟩ := addItem_eq_ok hadd
  refine h.insert ⟨fun _ => ⟨by simp, rfl, rfl⟩, fun hkind => ?_, fun hkind => ?_⟩ hcart
    fun k other hget hother hclash => ?_
  · cases hkind
  · cases hkind
  · have hnot := hnew k other hget hother
    rcases hclash with ⟨_, hkind, hproduct, hdomain⟩ | ⟨hkind, _⟩ | ⟨hkind, _⟩
    · simp [hkind, ← hproduct, ← hdomain] at hnot
    · cases hkind
    · cases hkind

theorem Coherent.addDomain (h : Coherent s) (hkind : item.kind.isDomain = true)
    (hfields : item.product = none ∧ item.addon = none ∧ item.parent = none)
    (hadd : Orders.addDomain shop actor item s = .ok s') : Coherent s' := by
  obtain ⟨hcart, _, hnew, rfl⟩ := addItem_eq_ok hadd
  have hhosting : item.kind ≠ .hosting := fun heq => by rw [heq] at hkind; cases hkind
  have haddon : item.kind ≠ .addon := fun heq => by rw [heq] at hkind; cases hkind
  refine h.insert ⟨fun heq => absurd heq hhosting, fun _ => hfields, fun heq => absurd heq haddon⟩
    hcart fun k other hget hother hclash => ?_
  have hnot := hnew k other hget hother
  rcases hclash with ⟨heq, _⟩ | ⟨_, hother, hdomain⟩ | ⟨heq, _⟩
  · exact hhosting heq
  · simp [hother, ← hdomain] at hnot
  · exact haddon heq

theorem Coherent.addAddon {parentPk addon : ℕ} {period : Option (String × ℕ)} (h : Coherent s)
    (hadd : Orders.addAddon shop actor parentPk addon period s = .ok s') : Coherent s' := by
  unfold Orders.addAddon at hadd
  simp only [bind_eq_ok, Prod.exists] at hadd
  obtain ⟨parent, _, billingCycle, customMonths, _, hadd⟩ := hadd
  obtain ⟨hcart, ⟨price, hprice⟩, hnew, rfl⟩ := addItem_eq_ok hadd
  obtain ⟨p, row, hp, hget, hsame, hkind, hfollows⟩ := priceAddon_parent hprice
  refine h.insert ⟨fun hk => ?_, fun hk => ?_, fun _ => ⟨⟨rfl, rfl⟩, p, row, hp,
      Table.get?_insert_of_some hget, Table.lt_nextPk hget, hsame, hkind, hfollows⟩⟩ hcart
    fun k other hget hother hclash => ?_
  · cases hk
  · cases hk
  · have hnot := hnew k other hget hother
    rcases hclash with ⟨hk, _⟩ | ⟨hk, _⟩ | ⟨_, hk, haddon, hparent⟩
    · cases hk
    · cases hk
    · simp [hk, ← haddon, ← hparent] at hnot

/-! ### Changing a line -/

/-- Lines are written, and perhaps deleted, without changing what they are for. -/
structure SameThings (items items' : Table CartItem) : Prop where
  old : ∀ k a', items'.get? k = some a' → ∃ a, items.get? k = some a ∧ a'.cart = a.cart
    ∧ a'.kind = a.kind ∧ a'.product = a.product ∧ a'.addon = a.addon ∧ a'.parent = a.parent
    ∧ a'.domainName = a.domainName
  /-- Only add-ons are deleted. -/
  kept : ∀ k a, items.get? k = some a → a.kind ≠ .addon → ∃ a', items'.get? k = some a'
  follows : ∀ k a' p parent', items'.get? k = some a' → a'.parent = some p →
    items'.get? p = some parent' → parent'.kind = .hosting → a'.Follows parent'

theorem Coherent.sameThings (h : Coherent s) (hsame : SameThings s.cartItems items') :
    Coherent { s with cartItems := items' } := by
  refine ⟨fun k a' ha' => ?_, fun k a' ha' => ?_, fun k a' k' b' ha' hb' hcarts hclash => ?_⟩
  · obtain ⟨a, ha, hcart, hkind, hproduct, haddon, hparent, hdomain⟩ := hsame.old k a' ha'
    have hline := h.lines k a ha
    refine ⟨fun hk => ?_, fun hk => ?_, fun hk => ?_⟩
    · rw [hproduct, haddon, hparent]
      exact hline.hosting (hkind ▸ hk)
    · rw [hproduct, haddon, hparent]
      exact hline.domain (hkind ▸ hk)
    · obtain ⟨hfields, p, parent, hunder⟩ := hline.addon (hkind ▸ hk)
      obtain ⟨parent', hget'⟩ := hsame.kept p parent hunder.get hunder.kind
      obtain ⟨row, hrow, hcart', hkind', _⟩ := hsame.old p parent' hget'
      cases hunder.get.symm.trans hrow
      have hp : a'.parent = some p := hparent.trans hunder.parent_eq
      refine ⟨by rw [hproduct, hdomain]; exact hfields, p, parent', hp, hget', hunder.before, ?_,
        hkind' ▸ hunder.kind, hsame.follows k a' p parent' ha' hp hget'⟩
      rw [hcart', hcart]
      exact hunder.cart
  · obtain ⟨a, ha, hcart, _⟩ := hsame.old k a' ha'
    show ∃ cart, s.carts.get? a'.cart = some cart
    rw [hcart]
    exact h.carts k a ha
  · obtain ⟨a, ha, hcart, hkind, hproduct, haddon, hparent, hdomain⟩ := hsame.old k a' ha'
    obtain ⟨b, hb, hcart₁, hkind₁, hproduct₁, haddon₁, hparent₁, hdomain₁⟩ := hsame.old k' b' hb'
    refine h.distinct k a k' b ha hb (by rw [← hcart, ← hcart₁]; exact hcarts) ?_
    unfold CartItem.Clashes at hclash ⊢
    rw [← hkind, ← hkind₁, ← hproduct, ← hproduct₁, ← haddon, ← haddon₁, ← hparent, ← hparent₁,
      ← hdomain, ← hdomain₁]
    exact hclash

/-- The recurring price of an add-on of a plan has the plan's period. -/
theorem followRow_period {parent child : CartItem} {row : PriceEntry}
    (hkind : parent.kind = .hosting) (h : followRow shop parent child = some row) :
    row.billingCycle.value = parent.billingCycle ∧ row.customMonths = parent.customMonths := by
  unfold followRow at h
  split at h
  · cases h
  · have hrow := List.find?_some h
    have hmem := List.mem_of_find?_eq_some h
    simp only [ne_eq, decide_eq_true_eq] at hrow
    unfold addonOptions at hmem
    split at hmem
    · cases hmem
    · split at hmem
      · cases hmem
      · rw [if_neg (by rw [hkind]; decide)] at hmem
        simp only [List.mem_filter, decide_eq_true_eq] at hmem
        exact hmem.2.2.resolve_left hrow

/-- A line after a plan was switched: the plan itself, a line that is left alone, or an add-on that
    follows. -/
private theorem get?_switchPlan {plan a' : CartItem} {k : ℕ}
    (hitem : s.cartItems.get? pk = some item) (hplan : plan.parent = none)
    (hget : (s.switchPlan shop pk plan).cartItems.get? k = some a') :
    (k = pk ∧ a' = plan) ∨ (k ≠ pk ∧ s.cartItems.get? k = some a'
        ∧ (a'.parent = some pk → a'.isOneTime = true))
      ∨ ∃ a row, s.cartItems.get? k = some a ∧ k ≠ pk ∧ a.parent = some pk
        ∧ followRow shop plan a = some row ∧ a' = { a with
            billingCycle := row.billingCycle.value, customMonths := row.customMonths } := by
  simp only [Store.switchPlan, Table.get?_eraseKeys, Table.get?_updateWhere,
    Table.get?_put hitem] at hget
  split at hget
  · cases hget
  · next hkept =>
    by_cases hk : k = pk
    · rw [if_pos hk] at hget
      simp [hplan] at hget
      exact .inl ⟨hk, hget.symm⟩
    · rw [if_neg hk] at hget
      obtain ⟨a, ha, rfl⟩ := Option.map_eq_some_iff.mp hget
      by_cases hp : a.parent = some pk
      · cases honce : a.isOneTime with
        | true => exact .inr (.inl ⟨hk, by simpa [honce] using ha, by simp [honce]⟩)
        | false =>
          cases hrow : followRow shop plan a with
          | none =>
            -- such an add-on is dropped
            refine absurd (List.mem_map.mpr ⟨(k, a), ?_, rfl⟩) hkept
            simp [Store.addonItems, Table.mem_entries, ha, hp, honce, hrow]
          | some row =>
            exact .inr (.inr ⟨a, row, ha, hk, hp, hrow, by simp [hp, CartItem.follow, hrow]⟩)
      · exact .inr (.inl ⟨hk, by simpa [hp] using ha, by simp [hp]⟩)

/-- Only an add-on of the plan is dropped. -/
private theorem switchPlan_kept {plan a : CartItem} {k : ℕ}
    (hitem : s.cartItems.get? pk = some item) (ha : s.cartItems.get? k = some a)
    (hp : a.parent ≠ some pk) :
    ∃ a', (s.switchPlan shop pk plan).cartItems.get? k = some a' := by
  simp only [Store.switchPlan, Table.get?_eraseKeys, Table.get?_updateWhere, Table.get?_put hitem]
  rw [if_neg]
  · by_cases hk : k = pk
    · exact ⟨_, by rw [if_pos hk]; rfl⟩
    · exact ⟨_, by rw [if_neg hk, ha]; rfl⟩
  · simp [Store.addonItems, Table.mem_entries, ha, hp]

theorem Coherent.switchPlan {plan : CartItem} (h : Coherent s)
    (hitem : s.cartItems.get? pk = some item)
    (hkind : item.kind = .hosting) (hsame : plan.cart = item.cart ∧ plan.kind = item.kind
      ∧ plan.product = item.product ∧ plan.addon = item.addon ∧ plan.parent = item.parent
      ∧ plan.domainName = item.domainName) : Coherent (s.switchPlan shop pk plan) := by
  have hplan : plan.parent = none :=
    hsame.2.2.2.2.1.trans ((h.lines pk item hitem).hosting hkind).2.2
  have hthings : SameThings s.cartItems (s.switchPlan shop pk plan).cartItems := by
    refine ⟨fun k a' ha' => ?_, fun k a ha hnot => ?_,
      fun k a' p parent' ha' hp hparent' hhosting => ?_⟩
    · rcases get?_switchPlan hitem hplan ha' with
        ⟨rfl, rfl⟩ | ⟨_, ha, _⟩ | ⟨a, _, ha, _, _, _, rfl⟩
      · exact ⟨item, hitem, hsame⟩
      · exact ⟨a', ha, rfl, rfl, rfl, rfl, rfl, rfl⟩
      · exact ⟨a, ha, rfl, rfl, rfl, rfl, rfl, rfl⟩
    · exact switchPlan_kept hitem ha fun hp => hnot ((h.lines k a ha).kind_of_parent hp)
    · rcases get?_switchPlan hitem hplan ha' with
        ⟨rfl, rfl⟩ | ⟨_, ha, honce⟩ | ⟨a, row, _, _, hpk, hrow, rfl⟩
      · rw [hplan] at hp
        cases hp
      · rcases get?_switchPlan hitem hplan hparent' with
          ⟨rfl, rfl⟩ | ⟨_, hparent, _⟩ | ⟨b, _, hb, _, hbpk, _, rfl⟩
        · exact .inl (honce hp)
        · -- neither the add-on nor its plan was written
          have hline := h.lines k a' ha
          obtain ⟨_, q, parent, hunder⟩ := hline.addon (hline.kind_of_parent hp)
          cases hp.symm.trans hunder.parent_eq
          cases hparent.symm.trans hunder.get
          exact hunder.follows hhosting
        · have hadd := (h.lines p b hb).kind_of_parent hbpk
          cases hadd.symm.trans hhosting
      · cases hpk.symm.trans hp
        rcases get?_switchPlan hitem hplan hparent' with ⟨_, rfl⟩ | ⟨hne, _⟩ | ⟨_, _, _, hne, _⟩
        · exact .inr (followRow_period hhosting hrow)
        · exact absurd rfl hne
        · exact absurd rfl hne
  exact h.sameThings hthings

theorem Coherent.changePeriod {billingCycle : String} {customMonths : ℕ} (h : Coherent s)
    (hchange : Orders.changePeriod shop actor pk billingCycle customMonths s = .ok s') :
    Coherent s' := by
  unfold Orders.changePeriod at hchange
  simp only [bind_eq_ok, ensure_eq_ok, exists_and_left, exists_const] at hchange
  obtain ⟨item, hitem, _, _, hkind, hchange⟩ := hchange
  split at hchange
  · cases hchange
  · simp only [bind_eq_ok, pure_eq_ok] at hchange
    obtain ⟨_, _, rfl⟩ := hchange
    exact h.switchPlan (loadItem_eq_ok.mp hitem) hkind ⟨rfl, rfl, rfl, rfl, rfl, rfl⟩

/-- A line does not see that the plan of another was swapped. -/
private theorem Line.swapped {k : ℕ} {offer : Option ℕ} (h : Line items k a)
    (hitem : items.get? pk = some item) :
    Line (items.put pk { item with product := offer }) k a := by
  refine ⟨h.hosting, h.domain, fun hkind => ?_⟩
  obtain ⟨hfields, p, parent, hunder⟩ := h.addon hkind
  refine ⟨hfields, ?_⟩
  by_cases hp : p = pk
  · subst hp
    cases hitem.symm.trans hunder.get
    exact ⟨p, _, hunder.parent_eq, Table.get?_put_self hitem _, hunder.before, hunder.cart,
      hunder.kind, hunder.follows⟩
  · refine ⟨p, parent, { hunder with get := ?_ }⟩
    rw [Table.get?_put_of_ne hp]
    exact hunder.get

theorem Coherent.swap {offer : Option ℕ} (h : Coherent s) (hitem : s.cartItems.get? pk = some item)
    (hkind : item.kind = .hosting) (hoffer : offer ≠ none)
    (hnew : ∀ k other, s.cartItems.get? k = some other → other.cart = item.cart →
      ¬(other.kind = .hosting ∧ other.product = offer ∧ other.domainName = item.domainName)) :
    Coherent { s with cartItems := s.cartItems.put pk { item with product := offer } } := by
  have hline := h.lines pk item hitem
  -- the new line clashes with none of the others
  have hfree : ∀ k other, s.cartItems.get? k = some other → other.cart = item.cart →
      ¬other.Clashes { item with product := offer } := by
    intro k other hget hcart hclash
    rcases hclash with ⟨hk, _, hproduct, hdomain⟩ | ⟨_, hk, _⟩ | ⟨_, hk, _⟩
    · exact hnew k other hget hcart ⟨hk, hproduct, hdomain⟩
    · rw [show ItemKind.isDomain _ = _ from congrArg ItemKind.isDomain hkind] at hk
      cases hk
    · cases hkind.symm.trans hk
  refine ⟨Table.Forall.put (fun k a ha => (h.lines k a ha).swapped hitem) ?_,
    h.carts.put (h.carts pk item hitem), fun k a k' b ha hb hcarts hclash => ?_⟩
  · have hfields := hline.hosting hkind
    refine ⟨fun _ => ⟨hoffer, hfields.2⟩, fun hk => ?_, fun hk => ?_⟩
    · rw [show ItemKind.isDomain _ = _ from congrArg ItemKind.isDomain hkind] at hk
      cases hk
    · cases hkind.symm.trans hk
  · simp only [Table.get?_put hitem] at ha hb
    split at ha
    · next hk =>
      cases ha
      split at hb
      · next hk' => exact hk.trans hk'.symm
      · exact absurd hclash.symm (hfree k' b hb hcarts.symm)
    · split at hb
      · cases hb
        exact absurd hclash (hfree k a ha hcarts)
      · exact h.distinct k a k' b ha hb hcarts hclash

theorem Coherent.upgradeItem {offer : Option ℕ} (h : Coherent s)
    (hupgrade : Orders.upgradeItem shop actor pk offer s = .ok s') : Coherent s' := by
  unfold Orders.upgradeItem at hupgrade
  simp only [bind_eq_ok, ensure_eq_ok, exists_and_left, exists_const] at hupgrade
  obtain ⟨item, hitem, _, _, hkind, hupgrade⟩ := hupgrade
  split at hupgrade
  · next product target _ htarget =>
    simp only [bind_eq_ok, ensure_eq_ok, pure_eq_ok, exists_and_left, exists_const] at hupgrade
    obtain ⟨_, _, _, _, _, hnew, _, _, rfl⟩ := hupgrade
    have hoffer : offer ≠ none := by
      rintro rfl
      cases htarget
    refine h.swap (loadItem_eq_ok.mp hitem) hkind hoffer fun k other hget hcart hsame => ?_
    rw [List.any_eq_false] at hnew
    exact hnew (k, other) (mem_itemsOf.mpr ⟨hget, hcart⟩) (by simpa using hsame)
  · cases hupgrade

theorem Coherent.removeItem (h : Coherent s) (hremove : Orders.removeItem actor pk s = .ok s') :
    Coherent s' := by
  unfold Orders.removeItem at hremove
  simp only [bind_eq_ok, pure_eq_ok] at hremove
  obtain ⟨_, _, _, _, rfl⟩ := hremove
  exact h.eraseItems [pk]

theorem Coherent.toggleAddon {addon : ℕ} {period : Option (String × ℕ)} (h : Coherent s)
    (htoggle : Orders.toggleAddon shop actor pk addon period s = .ok s') : Coherent s' := by
  unfold Orders.toggleAddon at htoggle
  simp only [bind_eq_ok] at htoggle
  obtain ⟨_, _, _, _, htoggle⟩ := htoggle
  split at htoggle
  · simp only [pure_eq_ok] at htoggle
    subst htoggle
    exact h.eraseItems _
  · exact h.addAddon htoggle

/-! ### Carts come and go -/

/-- Carts that lines are in stay. -/
theorem Coherent.withCarts {carts : Table Cart} (h : Coherent s)
    (hcarts : ∀ pk cart, s.carts.get? pk = some cart → ∃ cart', carts.get? pk = some cart') :
    Coherent { s with carts } :=
  ⟨h.lines, fun k a ha => (h.carts k a ha).elim fun cart hcart => hcarts _ cart hcart, h.distinct⟩

/-- What opening a cart leaves: `cart` is the actor's own, and the others are as they were. -/
structure Opened (actor : Actor) (cart : ℕ) (s s' : Store) : Prop where
  items : s'.cartItems = s.cartItems
  orders : s'.orders = s.orders
  own : ∃ row, s'.carts.get? cart = some row ∧ row.user = some actor.pk
  others : ∀ pk row, s.carts.get? pk = some row → s'.carts.get? pk = some row

theorem getOpenCart_eq_ok {actor : Actor} {client cart : ℕ}
    (hopen : Orders.getOpenCart actor client s = .ok (cart, s')) : Opened actor cart s s' := by
  unfold Orders.getOpenCart at hopen
  simp only [bind_eq_ok, ensure_eq_ok, exists_and_left, exists_const] at hopen
  obtain ⟨_, hopen⟩ := hopen
  split at hopen
  · next pk row hfind =>
    simp only [pure_eq_ok, Prod.mk.injEq] at hopen
    obtain ⟨rfl, rfl⟩ := hopen
    have hget := Table.mem_entries.mp (List.mem_of_find?_eq_some hfind)
    have huser : row.user = some actor.pk ∧ row.client = some client ∧ row.status = .open := by
      simpa using List.find?_some hfind
    exact ⟨rfl, rfl, ⟨row, hget, huser.1⟩, fun _ _ h => h⟩
  · simp only [pure_eq_ok, Prod.mk.injEq] at hopen
    obtain ⟨rfl, rfl⟩ := hopen
    exact ⟨rfl, rfl, ⟨_, Table.get?_insert_self _ _, rfl⟩, fun _ _ h => Table.get?_insert_of_some h⟩

theorem Coherent.opened {actor : Actor} {cart : ℕ} (h : Coherent s)
    (hopen : Opened actor cart s s') : Coherent s' := by
  refine ⟨?_, ?_, ?_⟩
  · rw [hopen.items]
    exact h.lines
  · rw [hopen.items]
    exact fun k a ha => (h.carts k a ha).imp fun row hrow => hopen.others _ row hrow
  · rw [hopen.items]
    exact h.distinct

end

end WPanel.Orders
