import WPanel.Lib.Machine
import WPanel.Storefronts.Catalog
import Mathlib.Data.Int.ConditionallyCompleteOrder
import Mathlib.Data.List.MinMax
import Mathlib.Data.Prod.Lex
import Mathlib.Data.String.Basic

namespace WPanel.Storefronts.Sections

open WPanel.Lib

/-!
# The sections of the store

What the store's own pages list (`products/categories.py`): the active plans and add-ons, under the
categories that staff file them in, and what is left over.

* `Shop`, `Call` — the catalogue with its add-ons, and the services that change it;
* `snapshot`, `sections` — what a fresh snapshot holds, and the sections made of it;
* `Complete` — every plan on sale is listed once, in its own category or under "More plans", nothing
  else is listed, and every list goes up in price;
* `sections_complete_iff` — the sections are complete exactly where no plan on sale is filed under a
  category of another kind.
-/

/-! ### The catalogue -/

/-- An add-on, with its prices. -/
structure Addon where
  name : String
  slug : String
  description : String := ""
  status : CatalogStatus := .hidden
  category : Option ℕ := none
  kind : String := "general"
  prices : List PriceEntry := []
  deriving DecidableEq, Repr

structure Shop where
  portal : Portal := {}
  addons : Table Addon := {}
  deriving DecidableEq

/-- `CategoryKind.PLANS`. -/
def plansKind : String := "plans"

/-- `CategoryKind.ADDONS`. -/
def addonsKind : String := "addons"

def DEFAULT_BY_KIND : List (String × String) := [("ssl", "ssl"), ("whois_privacy", "whois")]

/-- `default_for_kind`. -/
def defaultForKind (portal : Portal) (addonKind : String) : Option ℕ :=
  (portal.categories.entries.find? fun row =>
    row.2.slug = (DEFAULT_BY_KIND.lookup addonKind).getD "" ∧ row.2.isActive).map Prod.fst

/-- The fields of `ADDON_FIELDS` that were sent. -/
structure AddonData where
  name : Option String := none
  description : Option String := none
  kind : Option String := none
  category : Option (Option ℕ) := none

/-- `_apply(addon, data, ADDON_FIELDS)`. -/
def AddonData.apply (data : AddonData) (addon : Addon) : Addon :=
  { addon with
    name := data.name.getD addon.name
    description := data.description.getD addon.description
    kind := data.kind.getD addon.kind
    category := data.category.getD addon.category }

/-- The category of an add-on is a row. -/
def requireAddonCategory (portal : Portal) (addon : Addon) : Except Err Unit :=
  ensure (∀ pk ∈ addon.category, (portal.categories.get? pk).isSome = true)
    (.invalid "Addon" ["category"])

/-- `create_addon`, perhaps with its first price. -/
def createAddon (addon : Addon) (shop : Shop) : Except Err Shop := do
  let addon := { addon with
    category := addon.category.or (defaultForKind shop.portal addon.kind) }
  requireAddonCategory shop.portal addon
  return { shop with addons := shop.addons.insert addon }

def getAddon (shop : Shop) (pk : ℕ) : Except Err Addon :=
  match shop.addons.get? pk with
  | some addon => .ok addon
  | none => .error (.doesNotExist "Addon")

def updateAddon (pk : ℕ) (data : AddonData) (shop : Shop) : Except Err Shop := do
  let addon ← getAddon shop pk
  requireAddonCategory shop.portal (data.apply addon)
  return { shop with addons := shop.addons.put pk (data.apply addon) }

def setAddonStatus (pk : ℕ) (newStatus : CatalogStatus) (shop : Shop) : Except Err Shop := do
  let addon ← getAddon shop pk
  return { shop with addons := shop.addons.put pk { addon with status := newStatus } }

/-- `set_price`, `remove_price` and `set_price_active` of an add-on. -/
def setAddonPrices (pk : ℕ) (prices : List PriceEntry) (shop : Shop) : Except Err Shop := do
  let addon ← getAddon shop pk
  return { shop with addons := shop.addons.put pk { addon with prices } }

/-- What staff do with the catalogue. -/
inductive Call where
  | change (changes : List Change)
  | createCategory (slug : String) (data : CategoryData)
  | saveCategory (pk : ℕ) (data : CategoryData)
  | deleteCategory (pk : ℕ)
  | createAddon (addon : Addon)
  | updateAddon (pk : ℕ) (data : AddonData)
  | setAddonStatus (pk : ℕ) (newStatus : CatalogStatus)
  | setAddonPrices (pk : ℕ) (prices : List PriceEntry)

variable (env : Env)

/-- A call of someone who may manage products or not. -/
def Call.exec (manages : Bool) (now : ℕ) (call : Call) (shop : Shop) : Except Err Shop := do
  ensure (manages = true) denied
  match call with
  | .change changes => do
    let (portal, _) ← execAll env now changes shop.portal
    return { shop with portal }
  | .createCategory slug data =>
    (Storefronts.createCategory env slug data shop.portal).map ({ shop with portal := · })
  | .saveCategory pk data =>
    (Storefronts.saveCategory env pk data shop.portal).map ({ shop with portal := · })
  | .deleteCategory pk =>
    (Storefronts.deleteCategory pk (shop.addons.entries.filter fun row =>
      row.2.category = some pk).length shop.portal).map ({ shop with portal := · })
  | .createAddon addon => Sections.createAddon addon shop
  | .updateAddon pk data => Sections.updateAddon pk data shop
  | .setAddonStatus pk newStatus => Sections.setAddonStatus pk newStatus shop
  | .setAddonPrices pk prices => Sections.setAddonPrices pk prices shop

/-- The services: a call, with whether its person may manage products, and when it is made. -/
def machine : Machine Shop (Bool × ℕ × Call) Unit Err where
  exec call shop := (call.2.2.exec env call.1 call.2.1 shop).map fun shop => (shop, [])

/-! ### The snapshot -/

/-- A plan or an add-on as it is listed. -/
structure Entry where
  isAddon : Bool
  pk : ℕ
  name : String
  status : CatalogStatus
  category : Option ℕ
  prices : List PriceEntry
  deriving DecidableEq, Repr

def planEntry (portal : Portal) (row : ℕ × Product) : Entry :=
  ⟨false, row.1, row.2.name, row.2.status, row.2.category,
    (portal.pricesOf row.1).map (·.2.entry)⟩

def addonEntry (row : ℕ × Addon) : Entry :=
  ⟨true, row.1, row.2.name, row.2.status, row.2.category, row.2.prices⟩

/-- `lowest`: the lowest active price, beyond all prices where there is none, and the name. -/
def Entry.lowest (entry : Entry) : WithTop ℤ ×ₗ String :=
  toLex (((entry.prices.filter (·.isActive)).map (·.price)).min?.elim ⊤ (↑·), entry.name)

/-- `sorted(entries, key=lowest)`, of those on sale. -/
def onSale (entries : List Entry) : List Entry :=
  (entries.filter (·.status = .active)).insertionSort fun a b => a.lowest ≤ b.lowest

def Shop.plans (shop : Shop) : List Entry :=
  onSale (shop.portal.products.entries.map (planEntry shop.portal))

def Shop.addonEntries (shop : Shop) : List Entry := onSale (shop.addons.entries.map addonEntry)

/-- The active categories, in order. -/
def Shop.active (shop : Shop) : List (ℕ × StoreCategory) :=
  (shop.portal.categories.entries.filter (·.2.isActive)).insertionSort fun a b =>
    if a.2.sortOrder = b.2.sortOrder then env.before a.2.name b.2.name = true
    else a.2.sortOrder ≤ b.2.sortOrder

/-- The categories that are not shown. -/
def Shop.hidden (shop : Shop) : List ℕ :=
  (shop.portal.categories.entries.filter fun row => row.2.isActive = false).map Prod.fst

/-- `_snapshot()["items"].get((kind, category), [])`. -/
def filedUnder (entries : List Entry) (category : ℕ) : List Entry :=
  entries.filter (·.category = some category)

/-- `items`. -/
def Shop.items (shop : Shop) (category : ℕ × StoreCategory) : List Entry :=
  if category.2.kind = plansKind then filedUnder shop.plans category.1
  else if category.2.kind = addonsKind then filedUnder shop.addonEntries category.1
  else []

/-- `uncategorised`. -/
def Shop.uncategorised (shop : Shop) : List Entry :=
  shop.plans.filter fun entry => entry.category.all (· ∈ shop.hidden)

/-! ### The sections -/

/-- A category with what is listed in it; "More plans" is no row. -/
structure Section where
  pk : Option ℕ
  category : StoreCategory
  items : List Entry
  deriving DecidableEq, Repr

/-- `out.setdefault(category.group, []).append(…)`. -/
def addTo (found : Section) : List (String × List Section) → List (String × List Section)
  | [] => [(found.category.group, [found])]
  | (group, within) :: rest =>
    if group = found.category.group then (group, within ++ [found]) :: rest
    else (group, within) :: addTo found rest

def morePlans : StoreCategory :=
  { slug := "more", name := "More plans", group := "More", kind := plansKind }

/-- The sections, before they are grouped. -/
def Shop.listed (shop : Shop) : List Section :=
  (shop.active env).map (fun row => ⟨some row.1, row.2, shop.items row⟩)
    ++ if shop.uncategorised = [] then [] else [⟨none, morePlans, shop.uncategorised⟩]

/-- `sections`. -/
def Shop.sections (shop : Shop) : List (String × List Section) :=
  (shop.listed env).foldl (fun out found => addTo found out) []

/-! ### What they should be -/

/-- Where a plan belongs: its own category, where that is active, and else "More plans". -/
def home (portal : Portal) (product : Product) : Option ℕ :=
  product.category.filter fun pk => (portal.categories.get? pk).any (·.isActive)

/-- **Every plan on sale is listed exactly once, where it belongs; nothing is listed that is not on
    sale; and every list is in order of the lowest active price, and then of the name.** -/
structure Complete (shop : Shop) (sections : List (String × List Section)) : Prop where
  once : ∀ pk product, shop.portal.products.get? pk = some product → product.status = .active →
    ((sections.flatMap Prod.snd).flatMap Section.items).countP
        (fun entry => !entry.isAddon && entry.pk = pk) = 1
      ∧ ∀ found ∈ sections.flatMap Prod.snd, ∀ entry ∈ found.items,
        entry.isAddon = false → entry.pk = pk → found.pk = home shop.portal product
  onSale : ∀ found ∈ sections.flatMap Prod.snd, ∀ entry ∈ found.items, entry.status = .active
    ∧ (entry ∈ shop.portal.products.entries.map (planEntry shop.portal)
      ∨ entry ∈ shop.addons.entries.map addonEntry)
  ordered : ∀ found ∈ sections.flatMap Prod.snd,
    found.items.Pairwise fun a b => a.lowest ≤ b.lowest

/-- **Every plan on sale that is filed under an active category is filed under one for plans.** -/
def UnderPlans (portal : Portal) : Prop :=
  ∀ pk product, portal.products.get? pk = some product → product.status = .active →
    ∀ c category, product.category = some c → portal.categories.get? c = some category →
      category.isActive = true → category.kind = plansKind

section

variable {env} {shop shop' : Shop} {entry : Entry} {entries : List Entry} {found : Section}

/-! ### The lists of the snapshot -/

theorem mem_onSale : entry ∈ onSale entries ↔ entry ∈ entries ∧ entry.status = .active := by
  rw [onSale, List.mem_insertionSort, List.mem_filter, decide_eq_true_eq]

theorem pairwise_onSale (entries : List Entry) :
    (onSale entries).Pairwise fun a b => a.lowest ≤ b.lowest := by
  have : Std.Total fun a b : Entry => a.lowest ≤ b.lowest :=
    ⟨fun a b => le_total a.lowest b.lowest⟩
  have : IsTrans Entry fun a b => a.lowest ≤ b.lowest := ⟨fun _ _ _ => le_trans⟩
  exact List.pairwise_insertionSort _ _

theorem mem_plans : entry ∈ shop.plans ↔ entry.status = .active ∧ ∃ product,
    shop.portal.products.get? entry.pk = some product
      ∧ entry = planEntry shop.portal (entry.pk, product) := by
  rw [Shop.plans, mem_onSale, and_comm, List.mem_map]
  refine and_congr_right fun _ => ⟨?_, ?_⟩
  · rintro ⟨⟨pk, product⟩, hmem, rfl⟩
    exact ⟨product, Table.mem_entries.mp hmem, rfl⟩
  · rintro ⟨product, hget, heq⟩
    exact ⟨(entry.pk, product), Table.mem_entries.mpr hget, heq.symm⟩

/-- A plan on sale is listed with the category it is filed under. -/
theorem category_of_mem_plans {product : Product} (h : entry ∈ shop.plans)
    (hget : shop.portal.products.get? entry.pk = some product) :
    entry.category = product.category := by
  obtain ⟨-, product', hget', heq⟩ := mem_plans.mp h
  obtain rfl := Option.some.inj (hget.symm.trans hget')
  rw [heq]
  rfl

theorem isAddon_of_mem_addonEntries (h : entry ∈ shop.addonEntries) : entry.isAddon = true := by
  obtain ⟨row, -, rfl⟩ := List.mem_map.mp (mem_onSale.mp h).1
  rfl

/-- No plan is on sale twice. -/
theorem nodup_plans (shop : Shop) : (shop.plans.map Entry.pk).Nodup := by
  have hperm : shop.plans.Perm ((shop.portal.products.entries.map
      (planEntry shop.portal)).filter (·.status = .active)) := List.perm_insertionSort _ _
  rw [(hperm.map Entry.pk).nodup_iff]
  refine List.Nodup.sublist (List.filter_sublist.map Entry.pk) ?_
  rw [List.map_map]
  exact shop.portal.products.nodup_keys_entries

theorem mem_active {row : ℕ × StoreCategory} : row ∈ shop.active env
    ↔ shop.portal.categories.get? row.1 = some row.2 ∧ row.2.isActive = true := by
  rw [Shop.active, List.mem_insertionSort, List.mem_filter]
  exact and_congr_left fun _ => Table.mem_entries

theorem mem_hidden {pk : ℕ} : pk ∈ shop.hidden
    ↔ ∃ category, shop.portal.categories.get? pk = some category ∧ category.isActive = false := by
  rw [Shop.hidden, List.mem_map]
  constructor
  · rintro ⟨⟨pk, category⟩, hmem, rfl⟩
    obtain ⟨hrow, hhidden⟩ := List.mem_filter.mp hmem
    exact ⟨category, Table.mem_entries.mp hrow, of_decide_eq_true hhidden⟩
  · rintro ⟨category, hget, hhidden⟩
    exact ⟨(pk, category), List.mem_filter.mpr
      ⟨Table.mem_entries.mpr hget, decide_eq_true hhidden⟩, rfl⟩

/-! ### Where a plan belongs -/

theorem home_eq_some {portal : Portal} {product : Product} {c : ℕ} :
    home portal product = some c ↔ product.category = some c
      ∧ ∃ category, portal.categories.get? c = some category ∧ category.isActive = true := by
  rw [home, Option.filter_eq_some_iff, Option.any_eq_true]

/-- What is left over belongs under "More plans". -/
theorem uncategorised_iff {product : Product} (hfiled : Filed shop.portal)
    (h : entry ∈ shop.plans) (hget : shop.portal.products.get? entry.pk = some product) :
    entry ∈ shop.uncategorised ↔ home shop.portal product = none := by
  rw [Shop.uncategorised, List.mem_filter, and_iff_right h, category_of_mem_plans h hget,
    Option.all_eq_true, Option.eq_none_iff_forall_not_mem]
  constructor
  · intro hall c hc
    obtain ⟨hcategory, row, hrow, hactive⟩ := home_eq_some.mp hc
    obtain ⟨row', hrow', hhidden⟩ := mem_hidden.mp (of_decide_eq_true (hall c hcategory))
    obtain rfl := Option.some.inj (hrow.symm.trans hrow')
    rw [hactive] at hhidden
    cases hhidden
  · intro hnone c hcategory
    obtain ⟨row, hrow⟩ := hfiled.categories entry.pk product hget c hcategory
    refine decide_eq_true (mem_hidden.mpr ⟨row, hrow, Bool.eq_false_iff.mpr fun hactive => ?_⟩)
    exact hnone c (home_eq_some.mpr ⟨hcategory, row, hrow, hactive⟩)

/-! ### The sections, before they are grouped -/

theorem mem_listed : found ∈ shop.listed env
    ↔ (∃ row ∈ shop.active env, found = ⟨some row.1, row.2, shop.items row⟩)
      ∨ shop.uncategorised ≠ [] ∧ found = ⟨none, morePlans, shop.uncategorised⟩ := by
  rw [Shop.listed, List.mem_append, List.mem_map]
  refine or_congr ⟨?_, ?_⟩ ?_
  · rintro ⟨row, hrow, rfl⟩
    exact ⟨row, hrow, rfl⟩
  · rintro ⟨row, hrow, rfl⟩
    exact ⟨row, hrow, rfl⟩
  · by_cases hnone : shop.uncategorised = []
    · rw [if_pos hnone]
      exact iff_of_false List.not_mem_nil fun h => h.1 hnone
    · rw [if_neg hnone, List.mem_singleton, and_iff_right hnone]

/-- What a section lists is on sale, and in order. -/
theorem items_spec (hfound : found ∈ shop.listed env) :
    (∀ entry ∈ found.items, entry ∈ shop.plans ∨ entry ∈ shop.addonEntries)
      ∧ found.items.Pairwise fun a b => a.lowest ≤ b.lowest := by
  have hplans := pairwise_onSale (shop.portal.products.entries.map (planEntry shop.portal))
  have haddons := pairwise_onSale (shop.addons.entries.map addonEntry)
  rcases mem_listed.mp hfound with ⟨row, -, rfl⟩ | ⟨-, rfl⟩
  · show (∀ entry ∈ shop.items row, _) ∧ (shop.items row).Pairwise _
    unfold Shop.items
    split
    · exact ⟨fun entry h => .inl (List.mem_of_mem_filter h), hplans.filter _⟩
    · split
      · exact ⟨fun entry h => .inr (List.mem_of_mem_filter h), haddons.filter _⟩
      · exact ⟨fun entry h => absurd h List.not_mem_nil, .nil⟩
  · exact ⟨fun entry h => .inl (List.mem_of_mem_filter h), hplans.filter _⟩

/-- **A plan is listed only where it belongs**, and under a category only if that is one for
    plans. -/
theorem pk_eq_home {product : Product} (hfiled : Filed shop.portal)
    (hfound : found ∈ shop.listed env) (hentry : entry ∈ found.items)
    (hplan : entry.isAddon = false)
    (hget : shop.portal.products.get? entry.pk = some product) :
    found.pk = home shop.portal product
      ∧ ∀ c category, home shop.portal product = some c →
        shop.portal.categories.get? c = some category → category.kind = plansKind := by
  have hmem : entry ∈ shop.plans := ((items_spec hfound).1 entry hentry).resolve_right fun h => by
    rw [isAddon_of_mem_addonEntries h] at hplan
    cases hplan
  rcases mem_listed.mp hfound with ⟨row, hrow, rfl⟩ | ⟨-, rfl⟩
  · obtain ⟨hcategory, hactive⟩ := mem_active.mp hrow
    have hentry : entry ∈ shop.items row := hentry
    unfold Shop.items at hentry
    split at hentry
    · next hkind =>
      have hown := of_decide_eq_true (List.mem_filter.mp hentry).2
      rw [category_of_mem_plans hmem hget] at hown
      have hhome := home_eq_some.mpr ⟨hown, row.2, hcategory, hactive⟩
      refine ⟨hhome.symm, fun c category hc hrow => ?_⟩
      obtain rfl := Option.some.inj (hhome.symm.trans hc)
      obtain rfl := Option.some.inj (hcategory.symm.trans hrow)
      exact hkind
    · split at hentry
      · have haddon := isAddon_of_mem_addonEntries (List.mem_of_mem_filter hentry)
        rw [haddon] at hplan
        cases hplan
      · cases hentry
  · have hnone := (uncategorised_iff hfiled hmem hget).mp hentry
    refine ⟨hnone.symm, fun c category hc => ?_⟩
    rw [hnone] at hc
    cases hc

/-- **A plan on sale is listed**, where its category is for plans or not active. -/
theorem exists_listed {product : Product} (hfiled : Filed shop.portal) (h : entry ∈ shop.plans)
    (hget : shop.portal.products.get? entry.pk = some product)
    (hkind : ∀ c category, home shop.portal product = some c →
      shop.portal.categories.get? c = some category → category.kind = plansKind) :
    ∃ found ∈ shop.listed env, entry ∈ found.items := by
  cases hhome : home shop.portal product with
  | none =>
    have hleft := (uncategorised_iff hfiled h hget).mpr hhome
    exact ⟨_, mem_listed.mpr (.inr ⟨List.ne_nil_of_mem hleft, rfl⟩), hleft⟩
  | some c =>
    obtain ⟨hcategory, category, hrow, hactive⟩ := home_eq_some.mp hhome
    refine ⟨_, mem_listed.mpr (.inl ⟨(c, category), mem_active.mpr ⟨hrow, hactive⟩, rfl⟩), ?_⟩
    show entry ∈ shop.items (c, category)
    rw [Shop.items, if_pos (hkind c category hhome hrow)]
    refine List.mem_filter.mpr ⟨h, decide_eq_true ?_⟩
    rw [category_of_mem_plans h hget, hcategory]

/-- No category has two sections. -/
theorem nodup_pk_listed (env : Env) (shop : Shop) : ((shop.listed env).map Section.pk).Nodup := by
  have hactive : ((shop.active env).map Prod.fst).Nodup := by
    have hperm : (shop.active env).Perm (shop.portal.categories.entries.filter (·.2.isActive)) :=
      List.perm_insertionSort _ _
    rw [(hperm.map Prod.fst).nodup_iff]
    exact List.Nodup.sublist (List.filter_sublist.map Prod.fst)
      shop.portal.categories.nodup_keys_entries
  have hrows : ((shop.active env).map fun row => some row.1).Nodup := by
    have hmap := hactive.map (Option.some_injective ℕ)
    rwa [List.map_map] at hmap
  rw [Shop.listed, List.map_append, List.map_map]
  split
  · rw [List.map_nil, List.append_nil]
    exact hrows
  · refine List.Nodup.append hrows (List.nodup_singleton _) fun pk hpk hmore => ?_
    obtain ⟨row, -, rfl⟩ := List.mem_map.mp hpk
    cases List.mem_singleton.mp hmore

/-- The plans that a section lists. -/
def planKeys (found : Section) : List ℕ :=
  (found.items.filter fun entry => !entry.isAddon).map Entry.pk

theorem mem_planKeys {pk : ℕ} : pk ∈ planKeys found
    ↔ ∃ entry ∈ found.items, entry.isAddon = false ∧ entry.pk = pk := by
  rw [planKeys, List.mem_map]
  simp only [List.mem_filter, Bool.not_eq_true', and_assoc]

/-- **No plan is listed twice.** -/
theorem nodup_planKeys (hfiled : Filed shop.portal) :
    ((shop.listed env).flatMap planKeys).Nodup := by
  refine List.nodup_flatMap.mpr ⟨fun found hfound => ?_, ?_⟩
  · -- in one section: its plans are some of those on sale
    have hsub : (planKeys found).Sublist (shop.plans.map Entry.pk) := by
      unfold planKeys
      refine List.Sublist.map _ ?_
      rcases mem_listed.mp hfound with ⟨row, -, rfl⟩ | ⟨-, rfl⟩
      · show ((shop.items row).filter _).Sublist _
        unfold Shop.items
        split
        · exact List.filter_sublist.trans List.filter_sublist
        · have hnone : ∀ entries : List Entry, (∀ entry ∈ entries, entry.isAddon = true) →
              entries.filter (fun entry => !entry.isAddon) = [] := by
            intro entries hall
            refine List.filter_eq_nil_iff.mpr fun entry hentry => ?_
            rw [hall entry hentry]
            decide
          split
          · rw [hnone (filedUnder shop.addonEntries row.1) fun entry h =>
              isAddon_of_mem_addonEntries (List.mem_of_mem_filter h)]
            exact List.nil_sublist _
          · exact List.nil_sublist _
      · exact List.filter_sublist.trans List.filter_sublist
    exact (nodup_plans shop).sublist hsub
  · -- in two sections: the plan belongs to one of them
    have hpk := List.pairwise_map.mp (nodup_pk_listed env shop)
    refine hpk.imp_of_mem fun {a b} ha hb hne pk hpka hpkb => hne ?_
    obtain ⟨entry, hentry, hplan, rfl⟩ := mem_planKeys.mp hpka
    obtain ⟨entry', hentry', hplan', heq⟩ := mem_planKeys.mp hpkb
    have hmem : entry ∈ shop.plans := ((items_spec ha).1 entry hentry).resolve_right fun h => by
      rw [isAddon_of_mem_addonEntries h] at hplan
      cases hplan
    obtain ⟨-, product, hget, -⟩ := mem_plans.mp hmem
    rw [(pk_eq_home hfiled ha hentry hplan hget).1,
      (pk_eq_home hfiled hb hentry' hplan' (heq ▸ hget)).1]

/-! ### The groups -/

/-- Grouping loses no section, and lists none twice. -/
theorem flatMap_addTo (found : Section) (out : List (String × List Section)) :
    ((addTo found out).flatMap Prod.snd).Perm (found :: out.flatMap Prod.snd) := by
  induction out with
  | nil => exact List.Perm.refl _
  | cons group rest ih =>
    obtain ⟨group, within⟩ := group
    rw [addTo]
    split
    · rw [List.flatMap_cons, List.flatMap_cons, List.append_assoc]
      exact List.perm_middle
    · rw [List.flatMap_cons, List.flatMap_cons]
      exact (ih.append_left within).trans List.perm_middle

theorem flatMap_sections (env : Env) (shop : Shop) :
    ((shop.sections env).flatMap Prod.snd).Perm (shop.listed env) := by
  have hfold : ∀ (l : List Section) (out : List (String × List Section)),
      ((l.foldl (fun out found => addTo found out) out).flatMap Prod.snd).Perm
        (out.flatMap Prod.snd ++ l) := by
    intro l
    induction l with
    | nil => exact fun out => by rw [List.append_nil]; exact List.Perm.refl _
    | cons found l ih =>
      intro out
      refine (ih _).trans (((flatMap_addTo found out).append_right l).trans ?_)
      exact List.perm_middle.symm
  exact hfold (shop.listed env) []

/-! ### When they are complete -/

/-- How often a plan is listed. -/
theorem countP_eq_count (env : Env) (shop : Shop) (pk : ℕ) :
    (((shop.sections env).flatMap Prod.snd).flatMap Section.items).countP
        (fun entry => !entry.isAddon && entry.pk = pk)
      = ((shop.listed env).flatMap planKeys).count pk := by
  rw [((flatMap_sections env shop).flatMap_right Section.items).countP_eq, List.countP_flatMap,
    List.count_flatMap]
  congr 1
  refine List.map_congr_left fun found _ => ?_
  show found.items.countP _ = (planKeys found).count pk
  rw [planKeys, List.count, List.countP_map, List.countP_filter]
  refine List.countP_congr fun entry _ => ?_
  simp [and_comm]

/-- **The sections are complete exactly where every plan on sale that is filed under an active
    category is filed under one for plans.** -/
theorem complete_iff (env : Env) (hfiled : Filed shop.portal) :
    Complete shop (shop.sections env) ↔ UnderPlans shop.portal := by
  have hlisted : ∀ found, found ∈ (shop.sections env).flatMap Prod.snd ↔ found ∈ shop.listed env :=
    fun found => (flatMap_sections env shop).mem_iff
  have hentry : ∀ {pk product}, shop.portal.products.get? pk = some product →
      product.status = .active → planEntry shop.portal (pk, product) ∈ shop.plans :=
    fun {pk product} hget hactive => mem_plans.mpr ⟨hactive, product, hget, rfl⟩
  constructor
  · rintro ⟨honce, -, -⟩ pk product hget hactive c category hc hrow hshown
    obtain ⟨hcount, -⟩ := honce pk product hget hactive
    rw [countP_eq_count] at hcount
    obtain ⟨found, hfound, hpk⟩ := List.mem_flatMap.mp
      (List.count_pos_iff.mp (hcount ▸ Nat.one_pos))
    obtain ⟨entry, hmem, hplan, rfl⟩ := mem_planKeys.mp hpk
    exact (pk_eq_home hfiled hfound hmem hplan hget).2 c category
      (home_eq_some.mpr ⟨hc, category, hrow, hshown⟩) hrow
  · intro hunder
    refine ⟨fun pk product hget hactive => ⟨?_, ?_⟩, ?_, ?_⟩
    · obtain ⟨found, hfound, hmem⟩ := @exists_listed env _ _ _ hfiled (hentry hget hactive) hget
        fun c category hhome hrow => by
          obtain ⟨hc, row, hrow', hshown⟩ := home_eq_some.mp hhome
          obtain rfl := Option.some.inj (hrow.symm.trans hrow')
          exact hunder pk product hget hactive c category hc hrow hshown
      rw [countP_eq_count]
      exact List.count_eq_one_of_mem (nodup_planKeys hfiled)
        (List.mem_flatMap.mpr ⟨found, hfound, mem_planKeys.mpr ⟨_, hmem, rfl, rfl⟩⟩)
    · rintro found hfound entry hmem hplan rfl
      exact (pk_eq_home hfiled ((hlisted found).mp hfound) hmem hplan hget).1
    · intro found hfound entry hmem
      rcases (items_spec ((hlisted found).mp hfound)).1 entry hmem with h | h
      · exact ⟨(mem_onSale.mp h).2, .inl (mem_onSale.mp h).1⟩
      · exact ⟨(mem_onSale.mp h).2, .inr (mem_onSale.mp h).1⟩
    · exact fun found hfound => (items_spec ((hlisted found).mp hfound)).2

/-! ### The services -/

/-- Every service keeps plans in categories that are there. -/
theorem filed_exec {manages : Bool} {now : ℕ} {call : Call} (hfiled : Filed shop.portal)
    (h : call.exec env manages now shop = .ok shop') : Filed shop'.portal := by
  unfold Call.exec at h
  simp only [bind_eq_ok, ensure_eq_ok, exists_and_left, exists_const] at h
  obtain ⟨-, h⟩ := h
  cases call with
  | change changes =>
    simp only [bind_eq_ok, pure_eq_ok, Prod.exists] at h
    obtain ⟨portal, saved, hchanges, rfl⟩ := h
    exact (execAll_touches hchanges).filed hfiled
  | createCategory slug data =>
    obtain ⟨portal, hcreate, rfl⟩ := map_eq_ok.mp h
    exact (createCategory_told hfiled hcreate).filed
  | saveCategory pk data =>
    obtain ⟨portal, hsave, rfl⟩ := map_eq_ok.mp h
    exact (catalog_saveCategory hfiled hsave).1
  | deleteCategory pk =>
    obtain ⟨portal, hdelete, rfl⟩ := map_eq_ok.mp h
    have htold : Told env shop.portal portal [] := deleteCategory_told hfiled hdelete
    exact htold.filed
  | createAddon addon =>
    simp only [createAddon, bind_eq_ok, pure_eq_ok] at h
    obtain ⟨_, _, rfl⟩ := h
    exact hfiled
  | updateAddon pk data =>
    simp only [updateAddon, bind_eq_ok, pure_eq_ok] at h
    obtain ⟨_, _, _, _, rfl⟩ := h
    exact hfiled
  | setAddonStatus pk newStatus =>
    simp only [setAddonStatus, bind_eq_ok, pure_eq_ok] at h
    obtain ⟨_, _, rfl⟩ := h
    exact hfiled
  | setAddonPrices pk prices =>
    simp only [setAddonPrices, bind_eq_ok, pure_eq_ok] at h
    obtain ⟨_, _, rfl⟩ := h
    exact hfiled

theorem filed_empty : Filed {} where
  categories := .empty
  links := .empty

end

/-- **Whatever staff do with the catalogue, the sections are complete exactly as long as every plan
    on sale that is filed under an active category is filed under one for plans.** -/
theorem sections_complete_iff (calls : List (Bool × ℕ × Call)) :
    (machine env).Always (fun shop => Complete shop (shop.sections env) ↔ UnderPlans shop.portal)
      calls {} := by
  have hfiled : (machine env).Always (fun shop => Filed shop.portal) calls {} := by
    refine Machine.always_of_invariant (m := machine env) calls ?_ {} filed_empty
    intro call _ shop shop' out h hcommits
    obtain ⟨_, hexec, heq⟩ := map_eq_ok.mp hcommits
    obtain ⟨rfl, -⟩ := Prod.mk.inj heq
    exact filed_exec h hexec
  exact hfiled.mono fun shop h => complete_iff env h

/-- Nothing around the catalogue matters. -/
def plainEnv : Env where
  front := 0
  hasWebhook _ := false
  before a b := a ≤ b
  storeCurrency := "USD"
  productUrl slug := slug
  defaultForType _ := none
  cleanProduct _ := .ok ()
  cleanCategory _ := .ok ()

/-- A plan goes on sale in a category, which is then given another kind. -/
def regrouping : List (Bool × ℕ × Call) :=
  [(true, 0, .createCategory "vps" { name := some "VPS" }),
    (true, 0, .change [.createProduct
      { name := "VPS 1", slug := "vps-1", type := "vps", category := some 0 } none,
      .setProductStatus 0 .active]),
    (true, 0, .saveCategory 0 { kind := some "addons" })]

example : (((machine plainEnv).run (regrouping.take 2) {}).sections plainEnv).map (fun group =>
    (group.1, group.2.map fun found => found.items.map Entry.name))
      = [("Hosting", [["VPS 1"]])] := by decide +kernel

/-- **A plan in a category of another kind is on no page of the store.** -/
theorem not_complete_regrouped : ¬Complete ((machine plainEnv).run regrouping {})
    (((machine plainEnv).run regrouping {}).sections plainEnv) := by
  rintro ⟨honce, -, -⟩
  have hlost := (honce 0 { name := "VPS 1", slug := "vps-1", type := "vps", category := some 0
                           status := .active } (by decide +kernel) rfl).1
  revert hlost
  decide +kernel

end WPanel.Storefronts.Sections
