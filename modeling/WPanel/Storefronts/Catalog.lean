import WPanel.Catalogue

namespace WPanel.Storefronts

open WPanel.Lib

/-!
# The catalog of a storefront

What the products endpoint of `storefronts/api.py` returns for a connected storefront, the services
of `products/services.py` and `storefronts/services.py` that change it, and the pings that
`storefronts/signals.py` queues.

* `Portal.catalog` — the answer of the endpoint;
* `Change`, `StaffCall` — what staff do, with the products that were saved and the pings queued;
* `exec_told` — the answer is the same, or the storefront is pinged, unless a category is saved;
* `catalog_saveCategory` — and exactly when the answer is the same after a category was saved.
-/

/-! ### Records -/

/-- A heading on the store. -/
structure StoreCategory where
  slug : String
  name : String
  shortName : String := ""
  blurb : String := ""
  icon : String := "bi-box-seam"
  group : String := "Hosting"
  kind : String := "plans"
  sortOrder : ℕ := 100
  isActive : Bool := true
  deriving DecidableEq, Repr

structure Product where
  name : String
  slug : String
  description : String := ""
  status : CatalogStatus := .hidden
  category : Option ℕ := none
  type : String
  /-- The value of each limit, as text; `none` is no limit. -/
  resourceLimits : List (String × Option String) := []
  limitOrder : List String := []
  whmPackageName : String := ""
  autoSetup : Bool := true
  defaultAutoRenew : Bool := true
  upsellProduct : Option ℕ := none
  publishExternally : Bool := false
  updatedAt : ℕ := 0
  deriving DecidableEq, Repr

structure ProductPrice where
  product : ℕ
  entry : PriceEntry
  deriving DecidableEq, Repr

/-- One plan published to one storefront. -/
structure StorefrontProduct where
  storefront : ℕ
  product : ℕ
  titleOverride : String := ""
  descriptionOverride : String := ""
  featured : Bool := false
  sortOrder : ℕ := 100
  deriving DecidableEq, Repr

structure Portal where
  categories : Table StoreCategory := {}
  products : Table Product := {}
  prices : Table ProductPrice := {}
  links : Table StorefrontProduct := {}
  deriving DecidableEq

/-- What a call finds around the tables. -/
structure Env where
  /-- The connected storefront. -/
  front : ℕ
  /-- The storefront has a webhook address and a signing secret. -/
  hasWebhook : ℕ → Bool
  /-- How the database orders texts. -/
  before : String → String → Bool
  storeCurrency : String
  /-- The public page of a product, by its slug. -/
  productUrl : String → String
  /-- `categories.default_for_type`. -/
  defaultForType : String → Option ℕ
  /-- What the `full_clean` of a record says. -/
  cleanProduct : Product → Except Err Unit
  cleanCategory : StoreCategory → Except Err Unit

/-! ### The products endpoint -/

def limitLabels : List (String × String) :=
  [("disk_mb", "Disk space (MB)"), ("bandwidth_mb", "Bandwidth (MB)"),
    ("email_accounts", "Email accounts"), ("databases", "Databases"),
    ("ftp_accounts", "FTP accounts"), ("subdomains", "Subdomains"),
    ("parked_domains", "Parked domains"), ("addon_domains", "Addon domains"),
    ("websites", "Websites"), ("mailing_lists", "Mailing lists"),
    ("emails_per_hour", "Emails per hour"), ("shell_access", "Shell access"),
    ("dedicated_ip", "Dedicated IP")]

/-- The limits in the order staff listed them; those with no recorded place follow. -/
def Product.orderedLimits (product : Product) : List (String × Option String) :=
  let order := product.limitOrder.filterMap fun key =>
    (product.resourceLimits.lookup key).map fun value => (key, value)
  order ++ product.resourceLimits.filter fun limit => limit.1 ∉ order.map Prod.fst

/-- The limits as they are shown: an empty limit reads Unlimited. -/
def Product.limitItems (product : Product) : List (String × String) :=
  product.orderedLimits.map fun limit =>
    ((limitLabels.lookup limit.1).getD limit.1, limit.2.getD "Unlimited")

/-- `months` of a price. -/
def termMonths (entry : PriceEntry) : Option ℕ :=
  if entry.billingCycle = .custom then some entry.customMonths
  else entry.billingCycle.standardMonths

structure ShownPrice where
  billingCycle : String
  months : Option ℕ
  amount : ℤ
  setupFee : ℤ
  currency : String
  deriving DecidableEq, Repr

structure ShownCategory where
  slug : String
  name : String
  group : String
  deriving DecidableEq, Repr

/-- One plan, as published to the storefront. -/
structure ShownProduct where
  id : ℕ
  slug : String
  type : String
  name : String
  description : String
  category : Option ShownCategory
  pricing : List (String × ShownPrice)
  features : List String
  featured : Bool
  sortOrder : ℕ
  orderUrl : String
  updatedAt : ℕ
  deriving DecidableEq, Repr

/-- The link of a product to a storefront. -/
def Portal.linkOf (portal : Portal) (storefront product : ℕ) : Option StorefrontProduct :=
  (portal.links.entries.find? fun entry => entry.2.storefront = storefront
    ∧ entry.2.product = product).map Prod.snd

/-- The prices of a product. -/
def Portal.pricesOf (portal : Portal) (product : ℕ) : List (ℕ × ProductPrice) :=
  portal.prices.entries.filter fun entry => entry.2.product = product

/-- `get_pricing`: the active prices, by their cycle. -/
def pricing (env : Env) (prices : List (ℕ × ProductPrice)) : List (String × ShownPrice) :=
  let entries := (prices.map fun row => row.2.entry).filter (·.isActive)
  let sorted := entries.insertionSort fun a b =>
    if a.billingCycle = b.billingCycle then a.customMonths ≤ b.customMonths
    else env.before a.billingCycle.value b.billingCycle.value = true
  sorted.map fun entry =>
    (if entry.billingCycle = .custom then "custom_" ++ toString entry.customMonths
      else entry.billingCycle.value,
    { billingCycle := entry.billingCycle.value, months := termMonths entry, amount := entry.price
      setupFee := entry.setupFee, currency := env.storeCurrency })

/-- `get_category`. -/
def Portal.shownCategory (portal : Portal) (category : Option ℕ) : Option ShownCategory :=
  (category.bind portal.categories.get?).map fun row =>
    { slug := row.slug, name := row.name, group := row.group }

/-- `StorefrontProductSerializer`. -/
def Portal.shownProduct (env : Env) (portal : Portal) (entry : ℕ × Product) : ShownProduct :=
  let (pk, product) := entry
  let link := portal.linkOf env.front pk
  let override (field : StorefrontProduct → String) (own : String) : String :=
    match link with
    | some link => if field link = "" then own else field link
    | none => own
  { id := pk
    slug := product.slug
    type := product.type
    name := override (·.titleOverride) product.name
    description := override (·.descriptionOverride) product.description
    category := portal.shownCategory product.category
    pricing := pricing env (portal.pricesOf pk)
    features := product.limitItems.map fun item => item.1 ++ ": " ++ item.2
    featured := link.any (·.featured)
    sortOrder := (link.map (·.sortOrder)).getD 100
    orderUrl := env.productUrl product.slug
    updatedAt := product.updatedAt }

/-- A plan the storefront may see: published to it, allowed to be published at all, and still
    orderable. -/
def Portal.visible (env : Env) (portal : Portal) (entry : ℕ × Product) : Bool :=
  (portal.linkOf env.front entry.1).isSome && entry.2.publishExternally
    && entry.2.status = .active

/-- `products_for(storefront)`. -/
def Portal.productsFor (env : Env) (portal : Portal) : List (ℕ × Product) :=
  (portal.products.entries.filter (portal.visible env)).insertionSort fun a b =>
    env.before a.2.name b.2.name = true

/-- What the products endpoint returns for the storefront. -/
def Portal.catalog (env : Env) (portal : Portal) : List ShownProduct :=
  (portal.productsFor env).map (portal.shownProduct env)

/-! ### Products and prices -/

def getProduct (portal : Portal) (pk : ℕ) : Except Err Product :=
  match portal.products.get? pk with
  | some product => .ok product
  | none => .error (.doesNotExist "Product")

/-- The category of a product is a row. -/
def requireCategory (portal : Portal) (product : Product) : Except Err Unit :=
  ensure (∀ pk ∈ product.category, (portal.categories.get? pk).isSome = true)
    (.invalid "Product" ["category"])

/-- The fields of `PRODUCT_FIELDS` that were sent. -/
structure ProductData where
  name : Option String := none
  description : Option String := none
  type : Option String := none
  resourceLimits : Option (List (String × Option String)) := none
  limitOrder : Option (List String) := none
  whmPackageName : Option String := none
  autoSetup : Option Bool := none
  defaultAutoRenew : Option Bool := none
  upsellProduct : Option (Option ℕ) := none
  category : Option (Option ℕ) := none
  publishExternally : Option Bool := none

/-- `_apply(product, data, PRODUCT_FIELDS)`. -/
def ProductData.apply (data : ProductData) (product : Product) : Product :=
  { product with
    name := data.name.getD product.name
    description := data.description.getD product.description
    type := data.type.getD product.type
    resourceLimits := data.resourceLimits.getD product.resourceLimits
    limitOrder := data.limitOrder.getD product.limitOrder
    whmPackageName := data.whmPackageName.getD product.whmPackageName
    autoSetup := data.autoSetup.getD product.autoSetup
    defaultAutoRenew := data.defaultAutoRenew.getD product.defaultAutoRenew
    upsellProduct := data.upsellProduct.getD product.upsellProduct
    category := data.category.getD product.category
    publishExternally := data.publishExternally.getD product.publishExternally }

/-- What `full_clean` says of a price. -/
def priceProblems (billingCycle : BillingCycle) (customMonths : ℕ) (price setupFee : ℤ) :
    List String :=
  (if 32767 < customMonths then ["custom_months"] else [])
    ++ (if price < 0 ∨ 10 ^ 10 ≤ price then ["price"] else [])
    ++ (if setupFee < 0 ∨ 10 ^ 10 ≤ setupFee then ["setup_fee"] else [])
    ++ (if (billingCycle = .custom ∧ customMonths = 0)
          ∨ (billingCycle ≠ .custom ∧ customMonths ≠ 0) then ["custom_months"]
        else if billingCycle = .oneTime then ["billing_cycle"] else [])

/-- A saved product, and the products whose signal is sent for it. -/
abbrev Saved := Portal × List ℕ

def Portal.putProduct (portal : Portal) (now pk : ℕ) (product : Product) : Saved :=
  ({ portal with products := portal.products.put pk { product with updatedAt := now } }, [pk])

/-- Create or replace the price for a billing cycle. -/
def setPrice (product : ℕ) (billingCycle : BillingCycle) (customMonths : ℕ) (price setupFee : ℤ)
    (portal : Portal) : Except Err Saved := do
  let _ ← getProduct portal product
  ensure (priceProblems billingCycle customMonths price setupFee = [])
    (.invalid "ProductPrice" (priceProblems billingCycle customMonths price setupFee))
  if h : 0 ≤ price ∧ 0 ≤ setupFee then
    match portal.prices.entries.find? fun row => row.2.product = product
        ∧ row.2.entry.billingCycle = billingCycle ∧ row.2.entry.customMonths = customMonths with
    | some (pk, row) =>
      let entry : PriceEntry := { row.entry with
        price, setupFee, price_nonneg := h.1, setupFee_nonneg := h.2 }
      return ({ portal with prices := portal.prices.put pk { product, entry } }, [product])
    | none =>
      let entry : PriceEntry := {
        billingCycle, customMonths, price, setupFee, price_nonneg := h.1, setupFee_nonneg := h.2 }
      return ({ portal with prices := portal.prices.insert { product, entry } }, [product])
  else .error (.invalid "ProductPrice" (priceProblems billingCycle customMonths price setupFee))

def getPrice (portal : Portal) (pk : ℕ) : Except Err ProductPrice :=
  match portal.prices.get? pk with
  | some price => .ok price
  | none => .error (.doesNotExist "ProductPrice")

def removePrice (pk : ℕ) (portal : Portal) : Except Err Saved := do
  let row ← getPrice portal pk
  return ({ portal with prices := portal.prices.erase pk }, [row.product])

def setPriceActive (pk : ℕ) (isActive : Bool) (portal : Portal) : Except Err Saved := do
  let row ← getPrice portal pk
  if row.entry.isActive = isActive then return (portal, [])
  else
    let row' := { row with entry := { row.entry with isActive } }
    return ({ portal with prices := portal.prices.put pk row' }, [row.product])

/-- A new product, perhaps with its first price.  Its own signal is not sent. -/
def createProduct (env : Env) (now : ℕ) (product : Product)
    (firstPrice : Option (BillingCycle × ℕ × ℤ × ℤ)) (portal : Portal) : Except Err Saved := do
  let product := { product with
    category := product.category.or (env.defaultForType product.type), updatedAt := now }
  env.cleanProduct product
  requireCategory portal product
  let pk := portal.products.nextPk
  let portal := { portal with products := portal.products.insert product }
  match firstPrice with
  | none => return (portal, [])
  | some (billingCycle, customMonths, price, setupFee) =>
    setPrice pk billingCycle customMonths price setupFee portal

/-- `addonsChanged`: the recommended add-ons are others than before. -/
def updateProduct (env : Env) (now pk : ℕ) (data : ProductData) (addonsChanged : Bool)
    (portal : Portal) : Except Err Saved := do
  let product ← getProduct portal pk
  let product' := data.apply product
  if product' = product ∧ addonsChanged = false then return (portal, [])
  else do
    env.cleanProduct product'
    requireCategory portal product'
    return portal.putProduct now pk product'

def setProductStatus (now pk : ℕ) (newStatus : CatalogStatus) (portal : Portal) :
    Except Err Saved := do
  let product ← getProduct portal pk
  if product.status = newStatus then return (portal, [])
  else return portal.putProduct now pk { product with status := newStatus }

/-- The `remap` of `apply_server_plans`. -/
def remapPackage (now pk : ℕ) (package : String) (portal : Portal) : Except Err Saved := do
  let product ← getProduct portal pk
  return portal.putProduct now pk { product with whmPackageName := package }

/-- A change of the catalog that belongs to one product. -/
inductive Change where
  | createProduct (product : Product) (firstPrice : Option (BillingCycle × ℕ × ℤ × ℤ))
  | updateProduct (pk : ℕ) (data : ProductData) (addonsChanged : Bool)
  | setProductStatus (pk : ℕ) (newStatus : CatalogStatus)
  | remapPackage (pk : ℕ) (package : String)
  | setPrice (product : ℕ) (billingCycle : BillingCycle) (customMonths : ℕ) (price setupFee : ℤ)
  | removePrice (pk : ℕ)
  | setPriceActive (pk : ℕ) (isActive : Bool)

def Change.exec (env : Env) (now : ℕ) : Change → Portal → Except Err Saved
  | .createProduct product firstPrice => Storefronts.createProduct env now product firstPrice
  | .updateProduct pk data addonsChanged =>
    Storefronts.updateProduct env now pk data addonsChanged
  | .setProductStatus pk newStatus => Storefronts.setProductStatus now pk newStatus
  | .remapPackage pk package => Storefronts.remapPackage now pk package
  | .setPrice product billingCycle customMonths price setupFee =>
    Storefronts.setPrice product billingCycle customMonths price setupFee
  | .removePrice pk => Storefronts.removePrice pk
  | .setPriceActive pk isActive => Storefronts.setPriceActive pk isActive

/-- Several changes in one transaction: an import of prices, the plans of a server. -/
def execAll (env : Env) (now : ℕ) : List Change → Portal → Except Err Saved
  | [], portal => .ok (portal, [])
  | change :: changes, portal => do
    let (portal, saved) ← change.exec env now portal
    let (portal, rest) ← execAll env now changes portal
    return (portal, saved ++ rest)

/-! ### Categories -/

/-- The fields of `CATEGORY_FIELDS` that were sent. -/
structure CategoryData where
  name : Option String := none
  shortName : Option String := none
  blurb : Option String := none
  icon : Option String := none
  group : Option String := none
  kind : Option String := none
  sortOrder : Option ℕ := none
  isActive : Option Bool := none

/-- `_apply(category, data, CATEGORY_FIELDS)`. -/
def CategoryData.apply (data : CategoryData) (category : StoreCategory) : StoreCategory :=
  { category with
    name := data.name.getD category.name
    shortName := data.shortName.getD category.shortName
    blurb := data.blurb.getD category.blurb
    icon := data.icon.getD category.icon
    group := data.group.getD category.group
    kind := data.kind.getD category.kind
    sortOrder := data.sortOrder.getD category.sortOrder
    isActive := data.isActive.getD category.isActive }

/-- Create a store category with the slug `slug`. -/
def createCategory (env : Env) (slug : String) (data : CategoryData) (portal : Portal) :
    Except Err Portal := do
  let category := data.apply { slug, name := "" }
  env.cleanCategory category
  return { portal with categories := portal.categories.insert category }

/-- Change a store category. -/
def saveCategory (env : Env) (pk : ℕ) (data : CategoryData) (portal : Portal) :
    Except Err Portal :=
  match portal.categories.get? pk with
  | none => .error (.doesNotExist "StoreCategory")
  | some category => do
    let category' := data.apply category
    if category' = category then return portal
    else do
      env.cleanCategory category'
      return { portal with categories := portal.categories.put pk category' }

/-- Remove an empty category; `addons` add-ons are in it. -/
def deleteCategory (pk addons : ℕ) (portal : Portal) : Except Err Portal := do
  let held := (portal.products.entries.filter fun entry => entry.2.category = some pk).length
    + addons
  ensure (held = 0) (serviceError (toString held ++ " product(s) or add-on(s) are still in this "
    ++ "category. Move them first, or hide the category instead of deleting it.") "category_in_use")
  return { portal with categories := portal.categories.erase pk }

/-! ### Publishing, and the pings -/

/-- A queued ping. -/
structure Ping where
  storefront : ℕ
  event : String
  deriving DecidableEq, Repr

/-- `notify_catalog_changed`: nothing without a webhook. -/
def notifyCatalogChanged (env : Env) (storefront : ℕ) (event : String) : List Ping :=
  if env.hasWebhook storefront then [{ storefront, event }] else []

/-- `storefronts_for(product)`. -/
def Portal.storefrontsFor (portal : Portal) (product : ℕ) : List ℕ :=
  ((portal.links.entries.filter fun entry => entry.2.product = product).map
    fun entry => entry.2.storefront).dedup

/-- The signals of the saved products, once the transaction commits. -/
def notifySaved (env : Env) (portal : Portal) (saved : List ℕ) : List Ping :=
  saved.flatMap fun product =>
    (portal.storefrontsFor product).flatMap fun storefront =>
      notifyCatalogChanged env storefront "product.updated"

/-- The display overrides that were sent. -/
structure Overrides where
  titleOverride : Option String := none
  descriptionOverride : Option String := none
  featured : Option Bool := none
  sortOrder : Option ℕ := none

def Overrides.apply (overrides : Overrides) (link : StorefrontProduct) : StorefrontProduct :=
  { link with
    titleOverride := overrides.titleOverride.getD link.titleOverride
    descriptionOverride := overrides.descriptionOverride.getD link.descriptionOverride
    featured := overrides.featured.getD link.featured
    sortOrder := overrides.sortOrder.getD link.sortOrder }

/-- Publish one plan on one storefront, or update how it is displayed there. -/
def publishProduct (env : Env) (product storefront : ℕ) (overrides : Overrides) (portal : Portal) :
    Except Err (Portal × List Ping) := do
  let _ ← getProduct portal product
  match portal.links.entries.find? fun entry => entry.2.storefront = storefront
      ∧ entry.2.product = product with
  | some (pk, link) =>
    let link' := overrides.apply link
    let portal := { portal with links := portal.links.put pk link' }
    if link' = link then return (portal, [])
    else return (portal, notifyCatalogChanged env storefront "product.updated")
  | none =>
    let link := overrides.apply { storefront, product }
    return ({ portal with links := portal.links.insert link },
      notifyCatalogChanged env storefront "product.published")

def unpublishProduct (env : Env) (product storefront : ℕ) (portal : Portal) :
    Portal × List Ping :=
  let deleted := (portal.links.entries.filter fun entry => entry.2.storefront = storefront
    ∧ entry.2.product = product).map Prod.fst
  if deleted = [] then (portal, [])
  else ({ portal with links := portal.links.eraseKeys deleted },
    notifyCatalogChanged env storefront "product.unpublished")

/-- What staff do; `set_product_storefronts` publishes and unpublishes one by one. -/
inductive StaffCall where
  | change (changes : List Change)
  | createCategory (slug : String) (data : CategoryData)
  | saveCategory (pk : ℕ) (data : CategoryData)
  | deleteCategory (pk addons : ℕ)
  | publishProduct (product storefront : ℕ) (overrides : Overrides)
  | unpublishProduct (product storefront : ℕ)

/-- A call of someone who may manage products or not, and the pings it queues. -/
def StaffCall.exec (env : Env) (manages : Bool) (now : ℕ) (call : StaffCall) (portal : Portal) :
    Except Err (Portal × List Ping) := do
  ensure (manages = true) denied
  match call with
  | .change changes => do
    let (portal, saved) ← execAll env now changes portal
    return (portal, notifySaved env portal saved)
  | .createCategory slug data =>
    (Storefronts.createCategory env slug data portal).map fun portal => (portal, [])
  | .saveCategory pk data =>
    (Storefronts.saveCategory env pk data portal).map fun portal => (portal, [])
  | .deleteCategory pk addons =>
    (Storefronts.deleteCategory pk addons portal).map fun portal => (portal, [])
  | .publishProduct product storefront overrides =>
    Storefronts.publishProduct env product storefront overrides portal
  | .unpublishProduct product storefront =>
    return Storefronts.unpublishProduct env product storefront portal

/-! ### When the answer of the endpoint changes -/

section

variable {env : Env} {portal portal' portal'' : Portal} {saved rest : List ℕ} {now pk : ℕ}

/-- Every category of a product is a row, and every link goes to a product. -/
structure Filed (portal : Portal) : Prop where
  categories : portal.products.Forall fun _ product =>
    ∀ pk, product.category = some pk → ∃ row, portal.categories.get? pk = some row
  links : portal.links.Forall fun _ link =>
    ∃ product, portal.products.get? link.product = some product

theorem linkOf_isSome {storefront product : ℕ} :
    (portal.linkOf storefront product).isSome = true ↔
      ∃ k link, portal.links.get? k = some link ∧ link.storefront = storefront
        ∧ link.product = product := by
  unfold Portal.linkOf
  rw [Option.isSome_map, List.find?_isSome]
  constructor
  · rintro ⟨⟨k, link⟩, hmem, hlink⟩
    obtain ⟨hstorefront, hproduct⟩ := of_decide_eq_true hlink
    exact ⟨k, link, Table.mem_entries.mp hmem, hstorefront, hproduct⟩
  · rintro ⟨k, link, hget, hlink⟩
    exact ⟨(k, link), Table.mem_entries.mpr hget, decide_eq_true hlink⟩

/-- A product that is linked is there. -/
theorem Filed.get?_of_linked (h : Filed portal) {storefront product : ℕ}
    (hlink : (portal.linkOf storefront product).isSome = true) :
    ∃ row, portal.products.get? product = some row := by
  obtain ⟨k, link, hget, _, rfl⟩ := linkOf_isSome.mp hlink
  exact h.links k link hget

theorem mem_productsFor {entry : ℕ × Product} :
    entry ∈ portal.productsFor env ↔
      portal.products.get? entry.1 = some entry.2 ∧ portal.visible env entry = true := by
  unfold Portal.productsFor
  rw [List.mem_insertionSort, List.mem_filter]
  exact and_congr_left fun _ => Table.mem_entries

theorem visible_linked {entry : ℕ × Product} (h : portal.visible env entry = true) :
    (portal.linkOf env.front entry.1).isSome = true := by
  unfold Portal.visible at h
  simp only [Bool.and_eq_true] at h
  exact h.1.1

/-- **Where links, linked products and their prices are the same**, the answer is the same exactly
    when the categories of the products shown are. -/
theorem catalog_eq_iff
    (hlinks : ∀ pk, portal'.linkOf env.front pk = portal.linkOf env.front pk)
    (hproducts : ∀ pk product, (portal.linkOf env.front pk).isSome = true →
      (portal'.products.get? pk = some product ↔ portal.products.get? pk = some product))
    (hprices : ∀ pk, (portal.linkOf env.front pk).isSome = true →
      portal'.pricesOf pk = portal.pricesOf pk) :
    portal'.catalog env = portal.catalog env ↔ ∀ entry ∈ portal.productsFor env,
      portal'.shownCategory entry.2.category = portal.shownCategory entry.2.category := by
  have hvisible : portal'.visible env = portal.visible env := by
    funext entry
    unfold Portal.visible
    rw [hlinks]
  have hsame : portal'.productsFor env = portal.productsFor env := by
    unfold Portal.productsFor
    rw [hvisible, Table.filter_entries_congr]
    exact fun pk product hshown => hproducts pk product (visible_linked hshown)
  unfold Portal.catalog
  rw [hsame, List.map_inj_left]
  refine forall₂_congr fun entry hentry => ?_
  have hlinked := visible_linked (mem_productsFor.mp hentry).2
  constructor
  · intro h
    exact congrArg ShownProduct.category h
  · intro h
    unfold Portal.shownProduct
    dsimp only
    rw [hlinks, hprices _ hlinked, h]

/-! #### One product -/

/-- What a change does, seen from the products whose signal is sent. -/
structure Touches (portal portal' : Portal) (saved : List ℕ) : Prop where
  links : portal'.links = portal.links
  categories : portal'.categories = portal.categories
  kept : ∀ pk row, portal.products.get? pk = some row →
    ∃ row', portal'.products.get? pk = some row' ∧ (pk ∉ saved → row' = row)
  prices : ∀ pk, pk ∉ saved → portal'.pricesOf pk = portal.pricesOf pk
  categorised : ∀ pk row, portal'.products.get? pk = some row →
    (∃ old, portal.products.get? pk = some old ∧ row.category = old.category) ∨
      ∀ c, row.category = some c → ∃ category, portal.categories.get? c = some category

theorem Touches.refl : Touches portal portal saved :=
  ⟨rfl, rfl, fun _ row h => ⟨row, h, fun _ => rfl⟩, fun _ _ => rfl,
    fun _ row h => .inl ⟨row, h, rfl⟩⟩

theorem Touches.trans (h : Touches portal portal' saved) (h' : Touches portal' portal'' rest) :
    Touches portal portal'' (saved ++ rest) := by
  refine ⟨h'.links.trans h.links, h'.categories.trans h.categories, fun pk row hrow => ?_,
    fun pk hpk => ?_, fun pk row hrow => ?_⟩
  · obtain ⟨row', hrow', hsame⟩ := h.kept pk row hrow
    obtain ⟨row'', hrow'', hsame'⟩ := h'.kept pk row' hrow'
    refine ⟨row'', hrow'', fun hpk => ?_⟩
    rw [List.mem_append, not_or] at hpk
    rw [hsame' hpk.2, hsame hpk.1]
  · rw [List.mem_append, not_or] at hpk
    rw [h'.prices pk hpk.2, h.prices pk hpk.1]
  · rcases h'.categorised pk row hrow with ⟨old, hold, hsame⟩ | hcategory
    · rcases h.categorised pk old hold with ⟨older, holder, hsame'⟩ | hcategory
      · exact .inl ⟨older, holder, hsame.trans hsame'⟩
      · exact .inr fun c hc => hcategory c (hsame.symm.trans hc)
    · refine .inr fun c hc => ?_
      rw [← h.categories]
      exact hcategory c hc

theorem Touches.filed (h : Touches portal portal' saved) (hfiled : Filed portal) :
    Filed portal' := by
  refine ⟨fun pk row hrow c hc => ?_, fun k link hlink => ?_⟩
  · rw [h.categories]
    rcases h.categorised pk row hrow with ⟨old, hold, hsame⟩ | hcategory
    · exact hfiled.categories pk old hold c (hsame.symm.trans hc)
    · exact hcategory c hc
  · rw [h.links] at hlink
    obtain ⟨product, hproduct⟩ := hfiled.links k link hlink
    obtain ⟨row', hrow', _⟩ := h.kept _ product hproduct
    exact ⟨row', hrow'⟩

/-- Where no product that is shown was saved, the answer is the same. -/
theorem Touches.catalog_eq (h : Touches portal portal' saved) (hfiled : Filed portal)
    (hsaved : ∀ pk ∈ saved, (portal.linkOf env.front pk).isSome = false) :
    portal'.catalog env = portal.catalog env := by
  have hnot : ∀ pk, (portal.linkOf env.front pk).isSome = true → pk ∉ saved := by
    intro pk hlinked hpk
    rw [hsaved pk hpk] at hlinked
    cases hlinked
  rw [catalog_eq_iff]
  · intro entry _
    unfold Portal.shownCategory
    rw [h.categories]
  · intro pk
    unfold Portal.linkOf
    rw [h.links]
  · intro pk product hlinked
    obtain ⟨row, hrow⟩ := hfiled.get?_of_linked hlinked
    obtain ⟨row', hrow', hsame⟩ := h.kept pk row hrow
    rw [hrow', hrow, hsame (hnot pk hlinked)]
  · exact fun pk hlinked => h.prices pk (hnot pk hlinked)

theorem getProduct_eq_ok {product : Product} :
    getProduct portal pk = .ok product ↔ portal.products.get? pk = some product := by
  unfold getProduct
  cases portal.products.get? pk <;> simp

theorem requireCategory_eq_ok {product : Product} {u : Unit} :
    requireCategory portal product = .ok u ↔
      ∀ c, product.category = some c → ∃ category, portal.categories.get? c = some category := by
  unfold requireCategory
  rw [ensure_eq_ok]
  simp only [Option.mem_def, Option.isSome_iff_exists]

theorem touches_putProduct {old product : Product} (hget : portal.products.get? pk = some old)
    (hcategory : product.category = old.category ∨
      ∀ c, product.category = some c → ∃ category, portal.categories.get? c = some category) :
    Touches portal (portal.putProduct now pk product).1 (portal.putProduct now pk product).2 := by
  refine ⟨rfl, rfl, fun q row hrow => ?_, fun _ _ => rfl, fun q row hrow => ?_⟩
  · show ∃ row', (portal.products.put pk _).get? q = some row' ∧ (q ∉ [pk] → row' = row)
    rw [Table.get?_put hget]
    split
    · next hq => exact ⟨_, rfl, fun hnot => absurd (List.mem_singleton.mpr hq) hnot⟩
    · exact ⟨row, hrow, fun _ => rfl⟩
  · have hrow : (portal.products.put pk { product with updatedAt := now }).get? q = some row := hrow
    rw [Table.get?_put hget] at hrow
    split at hrow
    · next hq =>
      cases hrow
      rw [hq]
      exact hcategory.imp (fun hsame => ⟨old, hget, hsame⟩) id
    · exact .inl ⟨row, hrow, rfl⟩

/-- Prices were written, of one product only. -/
theorem touches_prices {prices : Table ProductPrice} {product : ℕ}
    (hprices : ∀ k row, row.product ≠ product →
      (prices.get? k = some row ↔ portal.prices.get? k = some row)) :
    Touches portal { portal with prices } [product] := by
  refine ⟨rfl, rfl, fun pk row h => ⟨row, h, fun _ => rfl⟩, fun q hq => ?_,
    fun pk row h => .inl ⟨row, h, rfl⟩⟩
  unfold Portal.pricesOf
  refine Table.filter_entries_congr fun k row hrow => hprices k row ?_
  rw [of_decide_eq_true hrow]
  exact fun heq => hq (List.mem_singleton.mpr heq)

theorem setPrice_touches {product customMonths : ℕ} {billingCycle : BillingCycle}
    {price setupFee : ℤ}
    (h : setPrice product billingCycle customMonths price setupFee portal = .ok (portal', saved)) :
    Touches portal portal' saved := by
  unfold setPrice at h
  simp only [bind_eq_ok, ensure_eq_ok, exists_and_left, exists_const] at h
  obtain ⟨_, _, _, h⟩ := h
  split at h
  · split at h
    · next k row hfind =>
      simp only [pure_eq_ok, Prod.mk.injEq] at h
      obtain ⟨rfl, rfl⟩ := h
      have hrow := Table.mem_entries.mp (List.mem_of_find?_eq_some hfind)
      have hfound := List.find?_some hfind
      have hproduct : row.product = product := (of_decide_eq_true hfound).1
      refine touches_prices fun q other hother => ?_
      rw [Table.get?_put hrow]
      split
      · next hq =>
        constructor
        · rintro heq
          cases heq
          exact absurd rfl hother
        · intro heq
          rw [hq, hrow] at heq
          cases heq
          exact absurd hproduct hother
      · rfl
    · simp only [pure_eq_ok, Prod.mk.injEq] at h
      obtain ⟨rfl, rfl⟩ := h
      refine touches_prices fun q other hother => ?_
      rw [Table.get?_insert]
      split
      · next hq =>
        constructor
        · intro heq
          cases heq
          exact absurd rfl hother
        · intro heq
          rw [hq, Table.get?_nextPk] at heq
          cases heq
      · rfl
  · cases h

theorem getPrice_eq_ok {row : ProductPrice} :
    getPrice portal pk = .ok row ↔ portal.prices.get? pk = some row := by
  unfold getPrice
  cases portal.prices.get? pk <;> simp

/-- The product that a new one is saved as is filed. -/
theorem touches_insert {product : Product}
    (hcategory : ∀ c, product.category = some c →
      ∃ category, portal.categories.get? c = some category) :
    Touches portal { portal with products := portal.products.insert product } [] := by
  refine ⟨rfl, rfl, fun q row hrow => ⟨row, Table.get?_insert_of_some hrow, fun _ => rfl⟩,
    fun _ _ => rfl, fun q row hrow => ?_⟩
  have hrow : (portal.products.insert product).get? q = some row := hrow
  rw [Table.get?_insert] at hrow
  split at hrow
  · cases hrow
    exact .inr hcategory
  · exact .inl ⟨row, hrow, rfl⟩

/-- **A change touches** the products that it saves. -/
theorem exec_touches {change : Change} (h : change.exec env now portal = .ok (portal', saved)) :
    Touches portal portal' saved := by
  cases change with
  | createProduct product firstPrice =>
    simp only [Change.exec, createProduct, bind_eq_ok] at h
    obtain ⟨_, _, _, hcategory, h⟩ := h
    have htouches := touches_insert (requireCategory_eq_ok.mp hcategory)
    split at h
    · simp only [pure_eq_ok, Prod.mk.injEq] at h
      obtain ⟨rfl, rfl⟩ := h
      exact htouches
    · exact htouches.trans (setPrice_touches h)
  | updateProduct pk data addonsChanged =>
    simp only [Change.exec, updateProduct, bind_eq_ok] at h
    obtain ⟨product, hget, h⟩ := h
    split at h
    · simp only [pure_eq_ok, Prod.mk.injEq] at h
      obtain ⟨rfl, rfl⟩ := h
      exact .refl
    · simp only [bind_eq_ok, pure_eq_ok] at h
      obtain ⟨_, _, _, hcategory, h⟩ := h
      obtain ⟨rfl, rfl⟩ := Prod.mk.inj h
      exact touches_putProduct (getProduct_eq_ok.mp hget)
        (.inr (requireCategory_eq_ok.mp hcategory))
  | setProductStatus pk newStatus =>
    simp only [Change.exec, setProductStatus, bind_eq_ok] at h
    obtain ⟨product, hget, h⟩ := h
    split at h
    · simp only [pure_eq_ok, Prod.mk.injEq] at h
      obtain ⟨rfl, rfl⟩ := h
      exact .refl
    · obtain ⟨rfl, rfl⟩ := Prod.mk.inj (Except.ok.inj h)
      exact touches_putProduct (getProduct_eq_ok.mp hget) (.inl rfl)
  | remapPackage pk package =>
    simp only [Change.exec, remapPackage, bind_eq_ok] at h
    obtain ⟨product, hget, h⟩ := h
    obtain ⟨rfl, rfl⟩ := Prod.mk.inj (Except.ok.inj h)
    exact touches_putProduct (getProduct_eq_ok.mp hget) (.inl rfl)
  | setPrice product billingCycle customMonths price setupFee => exact setPrice_touches h
  | removePrice pk =>
    simp only [Change.exec, removePrice, bind_eq_ok] at h
    obtain ⟨row, hget, h⟩ := h
    obtain ⟨rfl, rfl⟩ := Prod.mk.inj (Except.ok.inj h)
    -- a price that is gone was this product's
    refine touches_prices fun q other hother => ?_
    rw [Table.get?_erase]
    split
    · next hq =>
      constructor
      · intro heq
        cases heq
      · intro heq
        rw [hq, getPrice_eq_ok.mp hget] at heq
        cases heq
        exact absurd rfl hother
    · rfl
  | setPriceActive pk isActive =>
    simp only [Change.exec, setPriceActive, bind_eq_ok] at h
    obtain ⟨row, hget, h⟩ := h
    split at h
    · simp only [pure_eq_ok, Prod.mk.injEq] at h
      obtain ⟨rfl, rfl⟩ := h
      exact .refl
    · obtain ⟨rfl, rfl⟩ := Prod.mk.inj (Except.ok.inj h)
      have hrow := getPrice_eq_ok.mp hget
      refine touches_prices fun q other hother => ?_
      rw [Table.get?_put hrow]
      split
      · next hq =>
        constructor
        · intro heq
          cases heq
          exact absurd rfl hother
        · intro heq
          rw [hq, hrow] at heq
          cases heq
          exact absurd rfl hother
      · rfl

theorem execAll_touches {changes : List Change} :
    ∀ {portal : Portal} {saved : List ℕ}, execAll env now changes portal = .ok (portal', saved) →
      Touches portal portal' saved := by
  induction changes with
  | nil =>
    intro portal saved h
    cases h
    exact .refl
  | cons change changes ih =>
    intro portal saved h
    simp only [execAll, bind_eq_ok, pure_eq_ok, Prod.exists, Prod.mk.injEq] at h
    obtain ⟨middle, first, hfirst, _, rest, hrest, rfl, rfl⟩ := h
    exact (exec_touches hfirst).trans (ih hrest)

/-! #### A call -/

/-- The storefront is among the pings. -/
def Announced (front : ℕ) (pings : List Ping) : Prop := ∃ ping ∈ pings, ping.storefront = front

theorem announced_notify {storefront : ℕ} (hwebhook : env.hasWebhook storefront = true)
    (event : String) :
    Announced storefront (notifyCatalogChanged env storefront event) := by
  unfold notifyCatalogChanged
  rw [if_pos hwebhook]
  exact ⟨_, List.mem_singleton.mpr rfl, rfl⟩

/-- A saved product that is linked announces itself. -/
theorem announced_notifySaved (hwebhook : env.hasWebhook env.front = true) (hpk : pk ∈ saved)
    (hlinked : (portal.linkOf env.front pk).isSome = true) :
    Announced env.front (notifySaved env portal saved) := by
  obtain ⟨k, link, hget, hstorefront, hproduct⟩ := linkOf_isSome.mp hlinked
  have hmem : env.front ∈ portal.storefrontsFor pk := by
    unfold Portal.storefrontsFor
    rw [List.mem_dedup, List.mem_map]
    exact ⟨(k, link), List.mem_filter.mpr ⟨Table.mem_entries.mpr hget, decide_eq_true hproduct⟩,
      hstorefront⟩
  obtain ⟨ping, hping, hfront⟩ := announced_notify hwebhook "product.updated"
  exact ⟨ping, List.mem_flatMap.mpr ⟨pk, hpk, List.mem_flatMap.mpr ⟨_, hmem, hping⟩⟩, hfront⟩

/-- What holds after a call: the tables are in order, and the answer of the endpoint is the same
    or the storefront is pinged. -/
structure Told (env : Env) (portal portal' : Portal) (pings : List Ping) : Prop where
  filed : Filed portal'
  told : portal'.catalog env = portal.catalog env ∨ Announced env.front pings

theorem execAll_told {changes : List Change} (hwebhook : env.hasWebhook env.front = true)
    (hfiled : Filed portal) (h : execAll env now changes portal = .ok (portal', saved)) :
    Told env portal portal' (notifySaved env portal' saved) := by
  have htouches := execAll_touches h
  refine ⟨htouches.filed hfiled, ?_⟩
  by_cases hsaved : ∀ pk ∈ saved, (portal.linkOf env.front pk).isSome = false
  · exact .inl (htouches.catalog_eq hfiled hsaved)
  · simp only [not_forall, Bool.not_eq_false, exists_prop] at hsaved
    obtain ⟨pk, hpk, hlinked⟩ := hsaved
    refine .inr (announced_notifySaved hwebhook hpk ?_)
    unfold Portal.linkOf at hlinked ⊢
    rw [htouches.links]
    exact hlinked

/-- Links were written, of one storefront only, to a product that is there. -/
private theorem filed_links {links : Table StorefrontProduct} (hfiled : Filed portal)
    (hlinks : links.Forall fun _ link =>
      ∃ product, portal.products.get? link.product = some product) :
    Filed { portal with links } :=
  ⟨hfiled.categories, hlinks⟩

/-- The links of other storefronts do not show. -/
private theorem catalog_links {links : Table StorefrontProduct} {storefront : ℕ}
    (hother : storefront ≠ env.front)
    (hlinks : ∀ k link, link.storefront ≠ storefront →
      (links.get? k = some link ↔ portal.links.get? k = some link)) :
    Portal.catalog env { portal with links } = portal.catalog env := by
  rw [catalog_eq_iff]
  · exact fun _ _ => rfl
  · intro pk
    unfold Portal.linkOf
    rw [Table.find?_entries_congr]
    intro k link hlink
    refine hlinks k link ?_
    rw [(of_decide_eq_true hlink).1]
    exact hother.symm
  · exact fun _ _ _ => Iff.rfl
  · exact fun _ _ => rfl

private theorem overrides_apply {overrides : Overrides} {link : StorefrontProduct} :
    (overrides.apply link).storefront = link.storefront
      ∧ (overrides.apply link).product = link.product := ⟨rfl, rfl⟩

theorem publishProduct_told {product storefront : ℕ} {overrides : Overrides} {pings : List Ping}
    (hwebhook : env.hasWebhook env.front = true) (hfiled : Filed portal)
    (h : publishProduct env product storefront overrides portal = .ok (portal', pings)) :
    Told env portal portal' pings := by
  unfold publishProduct at h
  simp only [bind_eq_ok] at h
  obtain ⟨row, hrow, h⟩ := h
  rw [getProduct_eq_ok] at hrow
  split at h
  · next k link hfind =>
    have hlink := Table.mem_entries.mp (List.mem_of_find?_eq_some hfind)
    have hfound := List.find?_some hfind
    obtain ⟨hstorefront, hproduct⟩ : link.storefront = storefront ∧ link.product = product :=
      of_decide_eq_true hfound
    have hforall : (portal.links.put k (overrides.apply link)).Forall fun _ link =>
        ∃ product, portal.products.get? link.product = some product :=
      hfiled.links.put (hfiled.links k link hlink)
    -- the link is the one that was there, or it is another storefront's, or there is a ping
    have hsame : ∀ q other, (overrides.apply link = link ∨ other.storefront ≠ storefront) →
        ((portal.links.put k (overrides.apply link)).get? q = some other ↔
          portal.links.get? q = some other) := by
      intro q other hcase
      rw [Table.get?_put hlink]
      split
      · next hq =>
        rw [hq, hlink, Option.some.injEq, Option.some.injEq]
        rcases hcase with heq | hother
        · rw [heq]
        · refine ⟨fun heq => absurd ?_ hother, fun heq => absurd ?_ hother⟩
          · rw [← heq, overrides_apply.1, hstorefront]
          · rw [← heq, hstorefront]
      · rfl
    split at h
    · next hunchanged =>
      obtain ⟨rfl, rfl⟩ := Prod.mk.inj (Except.ok.inj h)
      refine ⟨filed_links hfiled hforall, .inl ?_⟩
      rw [catalog_eq_iff]
      · exact fun _ _ => rfl
      · intro pk
        unfold Portal.linkOf
        rw [Table.find?_entries_congr]
        exact fun q other _ => hsame q other (.inl hunchanged)
      · exact fun _ _ _ => Iff.rfl
      · exact fun _ _ => rfl
    · obtain ⟨rfl, rfl⟩ := Prod.mk.inj (Except.ok.inj h)
      refine ⟨filed_links hfiled hforall, ?_⟩
      by_cases hfront : storefront = env.front
      · subst hfront
        exact .inr (announced_notify hwebhook _)
      · exact .inl (catalog_links hfront fun q other hother => hsame q other (.inr hother))
  · obtain ⟨rfl, rfl⟩ := Prod.mk.inj (Except.ok.inj h)
    refine ⟨filed_links hfiled (hfiled.links.insert ⟨row, hrow⟩), ?_⟩
    by_cases hfront : storefront = env.front
    · subst hfront
      exact .inr (announced_notify hwebhook _)
    · refine .inl (catalog_links hfront fun q other hother => ?_)
      rw [Table.get?_insert]
      split
      · next hq =>
        rw [hq, Table.get?_nextPk, Option.some.injEq]
        refine ⟨fun heq => absurd ?_ hother, fun heq => by cases heq⟩
        rw [← heq]
        rfl
      · rfl

theorem unpublishProduct_told (product storefront : ℕ)
    (hwebhook : env.hasWebhook env.front = true) (hfiled : Filed portal) :
    Told env portal (unpublishProduct env product storefront portal).1
      (unpublishProduct env product storefront portal).2 := by
  unfold unpublishProduct
  dsimp only
  split
  · exact ⟨hfiled, .inl rfl⟩
  · refine ⟨filed_links hfiled fun k link hlink => ?_, ?_⟩
    · rw [Table.get?_eraseKeys] at hlink
      split at hlink
      · cases hlink
      · exact hfiled.links k link hlink
    · by_cases hfront : storefront = env.front
      · subst hfront
        exact .inr (announced_notify hwebhook _)
      · refine .inl (catalog_links hfront fun q other hother => ?_)
        rw [Table.get?_eraseKeys]
        split
        · next hq =>
          obtain ⟨⟨_, link⟩, hmem, rfl⟩ := List.mem_map.mp hq
          rw [List.mem_filter] at hmem
          have hdeleted := of_decide_eq_true hmem.2
          constructor
          · intro heq
            cases heq
          · intro heq
            cases (Table.mem_entries.mp hmem.1).symm.trans heq
            exact absurd hdeleted.1 hother
        · rfl

/-! #### Categories -/

/-- Other categories show only in the products that are in them. -/
theorem catalog_categories {categories : Table StoreCategory} :
    Portal.catalog env { portal with categories } = Portal.catalog env portal ↔
      ∀ entry ∈ portal.productsFor env, Portal.shownCategory { portal with categories }
        entry.2.category = portal.shownCategory entry.2.category := by
  rw [catalog_eq_iff]
  · exact fun _ => rfl
  · exact fun _ _ _ => Iff.rfl
  · exact fun _ _ => rfl

/-- Categories were written; those that products are in are there, and are shown as before. -/
private theorem told_categories {categories : Table StoreCategory} (hfiled : Filed portal)
    (hold : ∀ pk row c, portal.products.get? pk = some row → row.category = some c →
      categories.get? c = portal.categories.get? c) :
    Told env portal { portal with categories } [] := by
  refine ⟨⟨fun pk row hrow c hc => ?_, hfiled.links⟩, .inl (catalog_categories.mpr ?_)⟩
  · show ∃ category, categories.get? c = some category
    rw [hold pk row c hrow hc]
    exact hfiled.categories pk row hrow c hc
  · intro entry hentry
    unfold Portal.shownCategory
    cases hcategory : entry.2.category with
    | none => rfl
    | some c =>
      rw [Option.bind_some, Option.bind_some]
      rw [show categories.get? c = _ from hold _ _ c (mem_productsFor.mp hentry).1 hcategory]

theorem createCategory_told {slug : String} {data : CategoryData} (hfiled : Filed portal)
    (h : createCategory env slug data portal = .ok portal') : Told env portal portal' [] := by
  unfold createCategory at h
  simp only [bind_eq_ok, pure_eq_ok] at h
  obtain ⟨_, _, rfl⟩ := h
  refine told_categories hfiled fun pk row c hrow hc => ?_
  obtain ⟨category, hget⟩ := hfiled.categories pk row hrow c hc
  rw [hget, Table.get?_insert_of_some hget]

theorem deleteCategory_told {addons : ℕ} (hfiled : Filed portal)
    (h : deleteCategory pk addons portal = .ok portal') : Told env portal portal' [] := by
  unfold deleteCategory at h
  simp only [bind_eq_ok, ensure_eq_ok, pure_eq_ok, exists_and_left, exists_const] at h
  obtain ⟨hheld, rfl⟩ := h
  refine told_categories hfiled fun q row c hrow hc => ?_
  rw [Table.get?_erase, if_neg]
  rintro rfl
  -- the category is empty
  have hnone := List.length_eq_zero_iff.mp (Nat.eq_zero_of_add_eq_zero_right hheld)
  rw [List.filter_eq_nil_iff] at hnone
  exact hnone (q, row) (Table.mem_entries.mpr hrow) (decide_eq_true hc)

/-- A saved category keeps the name and the group that the plans in it show. -/
def KeepsLabels (env : Env) (portal : Portal) (pk : ℕ) (data : CategoryData) : Prop :=
  ∀ entry ∈ portal.productsFor env, entry.2.category = some pk →
    ∀ category ∈ portal.categories.get? pk,
      (data.apply category).name = category.name ∧ (data.apply category).group = category.group

instance (env : Env) (portal : Portal) (pk : ℕ) (data : CategoryData) :
    Decidable (KeepsLabels env portal pk data) :=
  inferInstanceAs (Decidable (∀ entry ∈ portal.productsFor env, entry.2.category = some pk →
    ∀ category ∈ portal.categories.get? pk, _ ∧ _))

/-- **A category was saved**: the answer is the same exactly when no plan that is shown in it shows
    another name or group. -/
theorem catalog_saveCategory {data : CategoryData} (hfiled : Filed portal)
    (h : saveCategory env pk data portal = .ok portal') :
    Filed portal' ∧
      (portal'.catalog env = portal.catalog env ↔ KeepsLabels env portal pk data) := by
  unfold saveCategory at h
  split at h
  · cases h
  · next category hget =>
    dsimp only at h
    split at h
    · next hsame =>
      cases h
      refine ⟨hfiled, iff_of_true rfl fun entry _ _ row hrow => ?_⟩
      cases hget.symm.trans hrow
      rw [hsame]
      exact ⟨rfl, rfl⟩
    · simp only [bind_eq_ok, pure_eq_ok] at h
      obtain ⟨_, _, rfl⟩ := h
      refine ⟨⟨fun q row hrow c hc => ?_, hfiled.links⟩,
        catalog_categories.trans (forall₂_congr fun entry hentry => ?_)⟩
      · show ∃ row, (portal.categories.put pk (data.apply category)).get? c = some row
        rw [Table.get?_put hget]
        split
        · exact ⟨_, rfl⟩
        · exact hfiled.categories q row hrow c hc
      · unfold Portal.shownCategory
        by_cases hc : entry.2.category = some pk
        · -- the plan is in the category
          rw [hc, Option.bind_some, Option.bind_some]
          simp only [Table.get?_put_self hget, hget, Option.map_some, Option.some.injEq,
            ShownCategory.mk.injEq, forall_const, Option.mem_def, forall_eq']
          exact and_iff_right rfl
        · refine iff_of_true ?_ fun heq => absurd heq hc
          cases hcategory : entry.2.category with
          | none => rfl
          | some c =>
            rw [Option.bind_some, Option.bind_some, Table.get?_put_of_ne]
            rintro rfl
            exact hc hcategory

/-- **A call** announces what it changes of the answer, unless it saves a category. -/
theorem exec_told {call : StaffCall} {manages : Bool} {pings : List Ping}
    (hwebhook : env.hasWebhook env.front = true) (hfiled : Filed portal)
    (hcall : ∀ pk data, call ≠ .saveCategory pk data)
    (h : call.exec env manages now portal = .ok (portal', pings)) :
    Told env portal portal' pings := by
  unfold StaffCall.exec at h
  simp only [bind_eq_ok, ensure_eq_ok, exists_and_left, exists_const] at h
  obtain ⟨_, h⟩ := h
  cases call with
  | change changes =>
    simp only [bind_eq_ok, pure_eq_ok, Prod.exists, Prod.mk.injEq] at h
    obtain ⟨_, saved, hchanges, rfl, rfl⟩ := h
    exact execAll_told hwebhook hfiled hchanges
  | createCategory slug data =>
    obtain ⟨_, hcreate, heq⟩ := map_eq_ok.mp h
    cases heq
    exact createCategory_told hfiled hcreate
  | saveCategory pk data => exact absurd rfl (hcall pk data)
  | deleteCategory pk addons =>
    obtain ⟨_, hdelete, heq⟩ := map_eq_ok.mp h
    cases heq
    exact deleteCategory_told hfiled hdelete
  | publishProduct product storefront overrides =>
    exact publishProduct_told hwebhook hfiled h
  | unpublishProduct product storefront =>
    have heq := Except.ok.inj h
    have htold := unpublishProduct_told product storefront hwebhook hfiled
    rw [heq] at htold
    exact htold

end

end WPanel.Storefronts
