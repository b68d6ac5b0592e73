import WPanel.Orders.Carts

namespace WPanel.Orders

open WPanel.Lib WPanel.Billing

/-!
# A visitor signs in

`adopt_guest_cart` moves the lines of a guest cart into the cart the account has.  Both can be
ordered; whether the cart they become can be ordered is another matter.

* `Orderable` — every line has a price, and goes with the others;
* `Adopting` — what holds after every round of the move: which lines were copied, and which stand
  for lines that were there already;
* `orderable_iff` — the cart can be ordered exactly when the two carts are `Mergeable`.
-/

/-! ### What is asked of a cart -/

/-- Every line of the cart has a price. -/
def Priced (shop : Shop) (verify : Bool) (s : Store) (cart : ℕ) : Prop :=
  ∀ entry ∈ s.itemsOf cart, ∃ price, priceItem s shop entry.2 verify = .ok price

/-- The cart can be ordered line by line. -/
structure Orderable (shop : Shop) (verify : Bool) (s : Store) (cart : ℕ) : Prop where
  priced : Priced shop verify s cart
  /-- A recurring add-on has the period of its plan. -/
  follows : ∀ entry ∈ s.itemsOf cart, ∀ plan ∈ s.itemsOf cart,
    entry.2.parent = some plan.1 → plan.2.kind = .hosting → entry.2.Follows plan.2
  domains : ∀ a ∈ s.itemsOf cart, ∀ b ∈ s.itemsOf cart, a.2.kind.isDomain = true →
    b.2.kind.isDomain = true → a.2.domainName = b.2.domainName → a.1 = b.1
  plans : ∀ a ∈ s.itemsOf cart, ∀ b ∈ s.itemsOf cart, a.2.kind = .hosting → b.2.kind = .hosting →
    a.2.product = b.2.product → a.2.domainName = b.2.domainName → a.1 = b.1
  /-- The line an add-on goes with precedes it. -/
  parents : ∀ entry ∈ s.itemsOf cart, entry.2.kind = .addon →
    ∃ parent ∈ s.itemsOf cart, entry.2.parent = some parent.1 ∧ parent.1 < entry.1

/-- The two carts can be merged.  An add-on of a plan that the account's cart has already is
    billed with the plan that is there, or is there already as well; and no domain of both carts
    is registered in one and transferred in the other. -/
structure Mergeable (s : Store) (guest target : ℕ) : Prop where
  addons : ∀ entry ∈ s.itemsOf guest, ∀ plan ∈ s.itemsOf guest, ∀ row ∈ s.itemsOf target,
    entry.2.parent = some plan.1 → plan.2.kind = .hosting → row.2.SamePlan plan.2 →
      entry.2.Follows row.2 ∨ ∃ other ∈ s.itemsOf target, other.2.kind = .addon
        ∧ other.2.addon = entry.2.addon ∧ other.2.parent = some row.1
  domains : ∀ entry ∈ s.itemsOf guest, ∀ row ∈ s.itemsOf target, entry.2.kind.isDomain = true →
    row.2.kind.isDomain = true → row.2.domainName = entry.2.domainName →
      row.2.kind = entry.2.kind

/-- A sign-in merges two carts that can be merged. -/
def CartCall.Merges (call : CartCall) (s : Store) : Prop :=
  match call with
  | .claim actor client guest =>
    ∀ target s', Orders.getOpenCart actor client s = .ok (target, s') → Mergeable s guest target
  | _ => True

/-! ### One round after the other -/

/-- The line `c` at `k` is the copy of the guest's line `entry`, which was for something new. -/
structure Copied (s : Store) (target : ℕ) (mapping : List (ℕ × ℕ)) (entry : ℕ × CartItem) (k : ℕ)
    (c : CartItem) : Prop where
  fresh : s.cartItems.nextPk ≤ k
  eq : c = entry.2.copy target mapping
  mapped : mapping.lookup entry.1 = some k
  before : ∀ p, c.parent = some p → p < k
  attached : entry.2.kind = .addon → c.parent ≠ none
  unlike : ∀ k' b, s.cartItems.get? k' = some b → b.cart = target → ¬b.SameThing c

/-- How far the move has come: the lines `done` of the guest were gone through, and `mapping` says
    where they went. -/
structure Adopting (s : Store) (target : ℕ) (done : List (ℕ × CartItem)) (s' : Store)
    (mapping : List (ℕ × ℕ)) : Prop where
  carts : s'.carts = s.carts
  orders : s'.orders = s.orders
  room : s.cartItems.nextPk ≤ s'.cartItems.nextPk
  old : ∀ k a, s.cartItems.get? k = some a → s'.cartItems.get? k = some a
  keys : ∀ p x, mapping.lookup p = some x → ∃ entry ∈ done, entry.1 = p
  new : ∀ k c, s'.cartItems.get? k = some c →
    s.cartItems.get? k = some c ∨ ∃ entry ∈ done, Copied s target mapping entry k c
  /-- A line goes to its copy, or to the same plan of the account. -/
  image : ∀ entry ∈ done, ∀ x, mapping.lookup entry.1 = some x →
    (∃ row, s.cartItems.get? x = some row ∧ row.cart = target ∧ entry.2.kind = .hosting
      ∧ row.SamePlan entry.2) ∨
    ∃ c, s'.cartItems.get? x = some c ∧ Copied s target mapping entry x c
  plans : ∀ entry ∈ done, entry.2.kind = .hosting → ∃ x, mapping.lookup entry.1 = some x
  covered : ∀ entry ∈ done, (entry.2.kind = .addon → (entry.2.copy target mapping).parent ≠ none) →
    ∃ k c, s'.cartItems.get? k = some c ∧ c.cart = target
      ∧ c.SameThing (entry.2.copy target mapping)

section

variable {s s' : Store} {guest target : ℕ} {done : List (ℕ × CartItem)} {mapping : List (ℕ × ℕ)}
  {entry other : ℕ × CartItem}

/-- Two lines of a cart for the same thing are one line. -/
theorem Coherent.unique (h : Coherent s) (hentry : entry ∈ s.itemsOf guest)
    (hother : other ∈ s.itemsOf guest) (hclash : entry.2.Clashes other.2) : entry = other := by
  rw [mem_itemsOf] at hentry hother
  have hpk := h.distinct _ _ _ _ hentry.1 hother.1 (hentry.2.trans hother.2.symm) hclash
  have hitem := hentry.1
  rw [hpk] at hitem
  exact Prod.ext hpk (Option.some.inj (hitem.symm.trans hother.1))

/-- Where a line goes is settled by its own and the earlier lines. -/
private theorem copy_cons (h : Coherent s) (hentry : entry ∈ s.itemsOf guest) {pk x : ℕ}
    (hlt : entry.1 ≤ pk) :
    entry.2.copy target ((pk, x) :: mapping) = entry.2.copy target mapping := by
  rw [mem_itemsOf] at hentry
  have hline := h.lines _ _ hentry.1
  unfold CartItem.copy
  cases hparent : entry.2.parent with
  | none => rfl
  | some p =>
    obtain ⟨_, q, _, hunder⟩ := hline.addon (hline.kind_of_parent hparent)
    cases hparent.symm.trans hunder.parent_eq
    have hne : p ≠ pk := Nat.ne_of_lt (Nat.lt_of_lt_of_le hunder.before hlt)
    simp [List.lookup_cons, beq_false_of_ne hne]

private theorem lookup_cons_of_lt {pk x q : ℕ} (hlt : q < pk) :
    List.lookup q ((pk, x) :: mapping) = mapping.lookup q := by
  simp [List.lookup_cons, beq_false_of_ne (Nat.ne_of_lt hlt)]

private theorem Copied.congr {mapping' : List (ℕ × ℕ)} {k : ℕ} {c : CartItem}
    (h : Copied s target mapping entry k c)
    (hcopy : entry.2.copy target mapping' = entry.2.copy target mapping)
    (hlookup : mapping'.lookup entry.1 = mapping.lookup entry.1) :
    Copied s target mapping' entry k c :=
  { h with eq := h.eq.trans hcopy.symm, mapped := hlookup.trans h.mapped }

private theorem CartItem.clashes_of_same {a b : CartItem} (hkind : a.kind = b.kind)
    (hproduct : a.product = b.product) (hdomain : a.domainName = b.domainName)
    (hnot : a.kind ≠ .addon) : a.Clashes b := by
  cases hitem : a.kind with
  | addon => exact absurd hitem hnot
  | hosting => exact .inl ⟨hitem, hkind ▸ hitem, hproduct, hdomain⟩
  | domainRegister => exact .inr (.inl ⟨by rw [hitem]; rfl, by rw [← hkind, hitem]; rfl, hdomain⟩)
  | domainTransfer => exact .inr (.inl ⟨by rw [hitem]; rfl, by rw [← hkind, hitem]; rfl, hdomain⟩)

/-- Two plans or domains of the guest that go to one line are one line. -/
theorem Adopting.inj (hsound : Coherent s) (h : Adopting s target done s' mapping)
    (hdone : ∀ entry ∈ done, entry ∈ s.itemsOf guest) {x : ℕ} (hentry : entry ∈ done)
    (hother : other ∈ done) (hkind : entry.2.kind ≠ .addon)
    (hx : mapping.lookup entry.1 = some x) (hx' : mapping.lookup other.1 = some x) :
    entry = other := by
  refine hsound.unique (hdone entry hentry) (hdone other hother) ?_
  rcases h.image entry hentry x hx with ⟨row, hrow, _, hhosting, _, hsame⟩ | ⟨c, hc, hcopied⟩ <;>
    rcases h.image other hother x hx' with
      ⟨row', hrow', _, hhosting', _, hsame'⟩ | ⟨c', hc', hcopied'⟩
  · cases hrow.symm.trans hrow'
    exact .inl ⟨hhosting, hhosting', hsame.1.symm.trans hsame'.1, hsame.2.symm.trans hsame'.2⟩
  · exact absurd hcopied'.fresh (Nat.not_le.mpr (Table.lt_nextPk hrow))
  · exact absurd hcopied.fresh (Nat.not_le.mpr (Table.lt_nextPk hrow'))
  · cases hc.symm.trans hc'
    have heq := hcopied.eq.symm.trans hcopied'.eq
    simp only [CartItem.copy, CartItem.mk.injEq] at heq
    obtain ⟨_, hsame, hproduct, _, _, hdomain, _⟩ := heq
    exact CartItem.clashes_of_same hsame hproduct hdomain hkind

/-- The line an add-on of the guest goes with, once that is mapped. -/
private theorem Adopting.plan (hsound : Coherent s) (h : Adopting s target done s' mapping)
    (hdone : ∀ entry ∈ done, entry ∈ s.itemsOf guest) (hentry : entry ∈ s.itemsOf guest)
    (hkind : entry.2.kind = .addon) {x : ℕ} (hx : (entry.2.copy target mapping).parent = some x) :
    ∃ plan ∈ done, Under s.cartItems entry.1 entry.2 plan.1 plan.2
      ∧ mapping.lookup plan.1 = some x := by
  obtain ⟨hget, hcart⟩ := mem_itemsOf.mp hentry
  obtain ⟨_, p, parent, hunder⟩ := (hsound.lines _ _ hget).addon hkind
  have hlookup : mapping.lookup p = some x := by
    unfold CartItem.copy at hx
    rw [hunder.parent_eq] at hx
    exact hx
  obtain ⟨plan, hplan, rfl⟩ := h.keys p x hlookup
  cases (mem_itemsOf.mp (hdone plan hplan)).1.symm.trans hunder.get
  exact ⟨plan, hplan, hunder, hlookup⟩

/-- Two lines of the guest that become the same thing are one line. -/
theorem Adopting.like (hsound : Coherent s) (h : Adopting s target done s' mapping)
    (hdone : ∀ entry ∈ done, entry ∈ s.itemsOf guest) (hentry : entry ∈ s.itemsOf guest)
    (hother : other ∈ s.itemsOf guest)
    (hattached : entry.2.kind = .addon → (entry.2.copy target mapping).parent ≠ none)
    (hclash : (entry.2.copy target mapping).Clashes (other.2.copy target mapping)) :
    entry = other := by
  refine hsound.unique hentry hother ?_
  rcases hclash with hhosting | hdomain | ⟨hkind, hkind', haddon, hparent⟩
  · exact .inl hhosting
  · exact .inr (.inl hdomain)
  · obtain ⟨x, hx⟩ := Option.ne_none_iff_exists'.mp (hattached hkind)
    obtain ⟨plan, hplan, hunder, hlookup⟩ := h.plan hsound hdone hentry hkind hx
    obtain ⟨plan', hplan', hunder', hlookup'⟩ :=
      h.plan hsound hdone hother hkind' (hparent.symm.trans hx)
    cases h.inj hsound hdone hplan hplan' hunder.kind hlookup hlookup'
    exact .inr (.inr ⟨hkind, hkind', haddon, hunder.parent_eq.trans hunder'.parent_eq.symm⟩)

/-! #### One round -/

/-- A line that is skipped changes nothing. -/
private theorem Adopting.skip (h : Adopting s target done s' mapping)
    (hnew : ∀ x, mapping.lookup entry.1 ≠ some x) (hkind : entry.2.kind ≠ .hosting)
    (hcovered : (entry.2.kind = .addon → (entry.2.copy target mapping).parent ≠ none) →
      ∃ k c, s'.cartItems.get? k = some c ∧ c.cart = target
        ∧ c.SameThing (entry.2.copy target mapping)) :
    Adopting s target (done ++ [entry]) s' mapping := by
  have hcases : ∀ g ∈ done ++ [entry], g ∈ done ∨ g = entry := by simp
  refine ⟨h.carts, h.orders, h.room, h.old, fun p x hx => ?_, fun k c hc => ?_, fun g hg x hx => ?_,
    fun g hg hhosting => ?_, fun g hg hattached => ?_⟩
  · obtain ⟨g, hg, heq⟩ := h.keys p x hx
    exact ⟨g, List.mem_append_left _ hg, heq⟩
  · rcases h.new k c hc with hc | ⟨g, hg, hcopied⟩
    · exact .inl hc
    · exact .inr ⟨g, List.mem_append_left _ hg, hcopied⟩
  · rcases hcases g hg with hg | rfl
    · exact h.image g hg x hx
    · exact absurd hx (hnew x)
  · rcases hcases g hg with hg | rfl
    · exact h.plans g hg hhosting
    · exact absurd hhosting hkind
  · rcases hcases g hg with hg | rfl
    · exact h.covered g hg hattached
    · exact hcovered hattached

/-- A line that is mapped to `x`: a plan that is there already, or its copy. -/
private theorem Adopting.map {s'' : Store} {x : ℕ} (hsound : Coherent s)
    (h : Adopting s target done s' mapping)
    (hdone : ∀ entry ∈ done, entry ∈ s.itemsOf guest) (hentry : entry ∈ s.itemsOf guest)
    (hlt : ∀ other ∈ done, other.1 < entry.1)
    (hcarts : s''.carts = s'.carts) (horders : s''.orders = s'.orders)
    (hroom : s'.cartItems.nextPk ≤ s''.cartItems.nextPk)
    (hgrown : ∀ k a, s'.cartItems.get? k = some a → s''.cartItems.get? k = some a)
    (hnew : ∀ k c, s''.cartItems.get? k = some c → s'.cartItems.get? k = some c
      ∨ Copied s target ((entry.1, x) :: mapping) entry k c)
    (himage : (∃ row, s.cartItems.get? x = some row ∧ row.cart = target
      ∧ entry.2.kind = .hosting ∧ row.SamePlan entry.2) ∨
        ∃ c, s''.cartItems.get? x = some c ∧ Copied s target ((entry.1, x) :: mapping) entry x c)
    (hcovered : ∃ k c, s''.cartItems.get? k = some c ∧ c.cart = target
      ∧ c.SameThing (entry.2.copy target mapping)) :
    Adopting s target (done ++ [entry]) s'' ((entry.1, x) :: mapping) := by
  have hcases : ∀ g ∈ done ++ [entry], g ∈ done ∨ g = entry := by simp
  -- what was settled for the earlier lines stays
  have hcopy : ∀ g ∈ done, g.2.copy target ((entry.1, x) :: mapping) = g.2.copy target mapping :=
    fun g hg => copy_cons hsound (hdone g hg) (Nat.le_of_lt (hlt g hg))
  have hlookup : ∀ g ∈ done, List.lookup g.1 ((entry.1, x) :: mapping) = mapping.lookup g.1 :=
    fun g hg => lookup_cons_of_lt (hlt g hg)
  have hself : entry.2.copy target ((entry.1, x) :: mapping) = entry.2.copy target mapping :=
    copy_cons hsound hentry (Nat.le_refl _)
  refine ⟨hcarts.trans h.carts, horders.trans h.orders, h.room.trans hroom,
    fun k a ha => hgrown k a (h.old k a ha), fun p y hy => ?_, fun k c hc => ?_,
    fun g hg y hy => ?_, fun g hg hhosting => ?_, fun g hg hattached => ?_⟩
  · by_cases hp : p = entry.1
    · exact ⟨entry, by simp, hp.symm⟩
    · rw [List.lookup_cons, beq_false_of_ne hp] at hy
      obtain ⟨g, hg, heq⟩ := h.keys p y hy
      exact ⟨g, List.mem_append_left _ hg, heq⟩
  · rcases hnew k c hc with hc | hcopied
    · rcases h.new k c hc with hc | ⟨g, hg, hcopied⟩
      · exact .inl hc
      · exact .inr ⟨g, List.mem_append_left _ hg, hcopied.congr (hcopy g hg) (hlookup g hg)⟩
    · exact .inr ⟨entry, by simp, hcopied⟩
  · rcases hcases g hg with hg | rfl
    · rw [hlookup g hg] at hy
      rcases h.image g hg y hy with hrow | ⟨c, hc, hcopied⟩
      · exact .inl hrow
      · exact .inr ⟨c, hgrown y c hc, hcopied.congr (hcopy g hg) (hlookup g hg)⟩
    · rw [List.lookup_cons_self] at hy
      cases hy
      exact himage
  · rcases hcases g hg with hg | rfl
    · rw [hlookup g hg]
      exact h.plans g hg hhosting
    · exact ⟨x, List.lookup_cons_self⟩
  · rcases hcases g hg with hg | rfl
    · rw [hcopy g hg] at hattached ⊢
      obtain ⟨k, c, hc, hsame⟩ := h.covered g hg hattached
      exact ⟨k, c, hgrown k c hc, hsame⟩
    · rw [hself]
      exact hcovered

/-- Lines go to lines that are there. -/
private theorem Adopting.lt_nextPk (h : Adopting s target done s' mapping) {p x : ℕ}
    (hx : mapping.lookup p = some x) : x < s'.cartItems.nextPk := by
  obtain ⟨entry, hentry, rfl⟩ := h.keys p x hx
  rcases h.image entry hentry x hx with ⟨row, hrow, _⟩ | ⟨c, hc, _⟩
  · exact Table.lt_nextPk (h.old x row hrow)
  · exact Table.lt_nextPk hc

theorem Adopting.step (hsound : Coherent s) (h : Adopting s target done s' mapping)
    (hdone : ∀ entry ∈ done, entry ∈ s.itemsOf guest) (hentry : entry ∈ s.itemsOf guest)
    (hlt : ∀ other ∈ done, other.1 < entry.1) :
    Adopting s target (done ++ [entry]) (adoptItem target (s', mapping) entry).1
      (adoptItem target (s', mapping) entry).2 := by
  have hnew : ∀ x, mapping.lookup entry.1 ≠ some x := by
    intro x hx
    obtain ⟨g, hg, heq⟩ := h.keys entry.1 x hx
    exact absurd (hlt g hg) (by omega)
  unfold adoptItem
  dsimp only
  split
  · next hskip =>
    exact h.skip hnew (by rw [hskip.1]; decide) fun hattached => absurd hskip.2 (hattached hskip.1)
  · next hattached =>
    split
    · next hany =>
      obtain ⟨row, hrow, hsame⟩ := List.any_eq_true.mp hany
      rw [mem_itemsOf] at hrow
      have hsame := of_decide_eq_true hsame
      split
      · next hhosting =>
        split
        · next pk other hfind =>
          have hother := mem_itemsOf.mp (List.mem_of_find?_eq_some hfind)
          have hplan : other.SamePlan entry.2 := by simpa using List.find?_some hfind
          -- the guest has that plan once only, so it was the account's
          have hold : s.cartItems.get? pk = some other := by
            rcases h.new pk other hother.1 with hold | ⟨g, hg, hcopied⟩
            · exact hold
            · refine absurd (hlt g hg) ?_
              have hclash : g.2.Clashes entry.2 := by
                rw [hcopied.eq] at hplan
                exact .inl ⟨hplan.1.trans hhosting, hhosting, hplan.2⟩
              rw [hsound.unique (hdone g hg) hentry hclash]
              exact Nat.lt_irrefl _
          exact h.map hsound hdone hentry hlt rfl rfl (Nat.le_refl _) (fun k a ha => ha)
            (fun k c hc => .inl hc) (.inl ⟨other, hold, hother.2, hhosting, hplan⟩)
            ⟨row.1, row.2, hrow.1, hrow.2, hsame⟩
        · next hnone =>
          rw [List.find?_eq_none] at hnone
          refine absurd ?_ (hnone row (mem_itemsOf.mpr hrow))
          exact decide_eq_true ⟨hsame.1, hsame.2.1, hsame.2.2.2.2⟩
      · next hkind =>
        exact h.skip hnew hkind fun _ => ⟨row.1, row.2, hrow.1, hrow.2, hsame⟩
    · next hany =>
      rw [Bool.not_eq_true, List.any_eq_false] at hany
      have hself : entry.2.copy target ((entry.1, s'.cartItems.nextPk) :: mapping)
          = entry.2.copy target mapping := copy_cons hsound hentry (Nat.le_refl _)
      have hcopied : Copied s target ((entry.1, s'.cartItems.nextPk) :: mapping) entry
          s'.cartItems.nextPk (entry.2.copy target mapping) := by
        refine ⟨h.room, hself.symm, List.lookup_cons_self, fun p hp => ?_,
          fun hkind hnone => hattached ⟨hkind, hnone⟩, fun k b hb hcart hsame => ?_⟩
        · obtain ⟨q, _, hq⟩ := Option.bind_eq_some_iff.mp hp
          exact h.lt_nextPk hq
        · exact hany (k, b) (mem_itemsOf.mpr ⟨h.old k b hb, hcart⟩) (decide_eq_true hsame)
      refine h.map hsound hdone hentry hlt rfl rfl (by simp)
        (fun k a ha => Table.get?_insert_of_some ha) (fun k c hc => ?_)
        (.inr ⟨_, Table.get?_insert_self _ _, hcopied⟩)
        ⟨s'.cartItems.nextPk, _, Table.get?_insert_self _ _, rfl, rfl, rfl, rfl, rfl, rfl⟩
      rw [Table.get?_insert] at hc
      split at hc
      · next hk =>
        cases hc
        exact .inr (hk ▸ hcopied)
      · exact .inl hc

/-! #### The whole move -/

theorem adopting_foldl (hsound : Coherent s) : ∀ (rest done : List (ℕ × CartItem)) (s' : Store)
    (mapping : List (ℕ × ℕ)), Adopting s target done s' mapping →
    (∀ entry ∈ done ++ rest, entry ∈ s.itemsOf guest) →
    ((done ++ rest).map Prod.fst).Pairwise (· < ·) →
    Adopting s target (done ++ rest) (rest.foldl (adoptItem target) (s', mapping)).1
      (rest.foldl (adoptItem target) (s', mapping)).2 := by
  intro rest
  induction rest with
  | nil =>
    intro done s' mapping h _ _
    rw [List.append_nil]
    exact h
  | cons entry rest ih =>
    intro done s' mapping h hmem hsorted
    have hlt : ∀ other ∈ done, other.1 < entry.1 := by
      intro other hother
      rw [List.map_append, List.pairwise_append] at hsorted
      exact hsorted.2.2 other.1 (List.mem_map_of_mem hother) entry.1 (by simp)
    have hstep := h.step hsound (fun g hg => hmem g (List.mem_append_left _ hg))
      (hmem entry (by simp)) hlt
    rw [List.append_cons] at hmem hsorted ⊢
    exact ih _ _ _ hstep hmem hsorted

/-- **The move.** Every line of the guest was gone through. -/
theorem adopting_itemsOf (hsound : Coherent s) :
    Adopting s target (s.itemsOf guest) ((s.itemsOf guest).foldl (adoptItem target) (s, [])).1
      ((s.itemsOf guest).foldl (adoptItem target) (s, [])).2 := by
  refine adopting_foldl hsound (s.itemsOf guest) [] s [] ?_ (fun entry hentry => hentry) ?_
  · refine ⟨rfl, rfl, Nat.le_refl _, fun k a ha => ha, fun p x hx => ?_, fun k c hc => .inl hc,
      fun g hg => ?_, fun g hg => ?_, fun g hg => ?_⟩
    · cases hx
    · cases hg
    · cases hg
    · cases hg
  · exact s.cartItems.pairwise_keys_entries.sublist (List.filter_sublist.map Prod.fst)

/-! ### What became of the lines -/

/-- The line that a plan or a domain of the guest went to. -/
private theorem Adopting.row (h : Adopting s target done s' mapping) (hentry : entry ∈ done)
    {x : ℕ} (hx : mapping.lookup entry.1 = some x) :
    ∃ row, s'.cartItems.get? x = some row ∧ row.cart = target ∧ row.kind = entry.2.kind
      ∧ (row = entry.2.copy target mapping ∨ s.cartItems.get? x = some row
          ∧ entry.2.kind = .hosting ∧ row.SamePlan entry.2) := by
  rcases h.image entry hentry x hx with ⟨row, hrow, hcart, hhosting, hsame⟩ | ⟨c, hc, hcopied⟩
  · exact ⟨row, h.old x row hrow, hcart, hsame.1, .inr ⟨hrow, hhosting, hsame⟩⟩
  · refine ⟨c, hc, ?_, ?_, .inl hcopied.eq⟩
    · rw [hcopied.eq]
      rfl
    · rw [hcopied.eq]
      rfl

/-- A copied add-on, the line of the guest it went with, and the line it goes with now. -/
private structure Attached (s s' : Store) (target : ℕ) (mapping : List (ℕ × ℕ))
    (entry plan : ℕ × CartItem) (x : ℕ) (row : CartItem) : Prop where
  under : Under s.cartItems entry.1 entry.2 plan.1 plan.2
  get : s'.cartItems.get? x = some row
  cart : row.cart = target
  kind : row.kind = plan.2.kind
  row : row = plan.2.copy target mapping ∨ s.cartItems.get? x = some row
    ∧ plan.2.kind = .hosting ∧ row.SamePlan plan.2

private theorem Adopting.attached (hsound : Coherent s)
    (h : Adopting s target (s.itemsOf guest) s' mapping) (hentry : entry ∈ s.itemsOf guest)
    (hkind : entry.2.kind = .addon) {x : ℕ} (hx : (entry.2.copy target mapping).parent = some x) :
    ∃ plan ∈ s.itemsOf guest, ∃ row, Attached s s' target mapping entry plan x row := by
  obtain ⟨plan, hplan, hunder, hlookup⟩ := h.plan hsound (fun _ hg => hg) hentry hkind hx
  obtain ⟨row, hget, hcart, hkind', hrow⟩ := h.row hplan hlookup
  exact ⟨plan, hplan, row, hunder, hget, hcart, hkind', hrow⟩

/-- In carts that can be merged, a copied add-on is billed with the plan it goes with now. -/
private theorem Attached.follows {plan : ℕ × CartItem} {k x : ℕ} {c row : CartItem}
    (h : Attached s s' target mapping entry plan x row) (hmerge : Mergeable s guest target)
    (hentry : entry ∈ s.itemsOf guest) (hplan : plan ∈ s.itemsOf guest)
    (hkind : entry.2.kind = .addon) (hcopied : Copied s target mapping entry k c)
    (hx : c.parent = some x) (hsound : Coherent s) (hhosting : row.kind = .hosting) :
    c.Follows row := by
  have heq := hcopied.eq
  have hplanKind : plan.2.kind = .hosting := h.kind.symm.trans hhosting
  rcases h.row with rfl | ⟨hget, _, hsame⟩
  · subst heq
    exact h.under.follows hplanKind
  · have hrow : (x, row) ∈ s.itemsOf target := mem_itemsOf.mpr ⟨hget, h.cart⟩
    rcases hmerge.addons entry hentry plan hplan (x, row) hrow h.under.parent_eq hplanKind hsame
      with hfollows | ⟨other, hother, hadd, haddon, hparent⟩
    · subst heq
      exact hfollows
    · -- it was there already, and was not copied
      rw [mem_itemsOf] at hother
      refine absurd ?_ (hcopied.unlike other.1 other.2 hother.1 hother.2)
      obtain ⟨⟨hproduct, hdomain⟩, _⟩ := (hsound.lines _ _ hother.1).addon hadd
      obtain ⟨⟨hproduct', hdomain'⟩, _⟩ := (hsound.lines _ _ (mem_itemsOf.mp hentry).1).addon hkind
      subst heq
      exact ⟨hadd.trans hkind.symm, hproduct.trans hproduct'.symm, haddon, hparent.trans hx.symm,
        hdomain.trans hdomain'.symm⟩

/-- In carts that can be merged, a copy has the fields of its kind. -/
private theorem Copied.line {k : ℕ} {c : CartItem} (hsound : Coherent s)
    (h : Adopting s target (s.itemsOf guest) s' mapping) (hmerge : Mergeable s guest target)
    (hentry : entry ∈ s.itemsOf guest) (hcopied : Copied s target mapping entry k c) :
    Line s'.cartItems k c := by
  have heq := hcopied.eq
  have hline := hsound.lines _ _ (mem_itemsOf.mp hentry).1
  refine ⟨fun hkind => ?_, fun hkind => ?_, fun hkind => ?_⟩
  · subst heq
    obtain ⟨hproduct, haddon, hparent⟩ := hline.hosting hkind
    refine ⟨hproduct, haddon, ?_⟩
    unfold CartItem.copy
    rw [hparent]
    rfl
  · subst heq
    obtain ⟨hproduct, haddon, hparent⟩ := hline.domain hkind
    refine ⟨hproduct, haddon, ?_⟩
    unfold CartItem.copy
    rw [hparent]
    rfl
  · have hadd : entry.2.kind = .addon := by
      rw [heq] at hkind
      exact hkind
    obtain ⟨x, hx⟩ := Option.ne_none_iff_exists'.mp (hcopied.attached hadd)
    obtain ⟨plan, hplan, row, hattached⟩ := h.attached hsound hentry hadd (heq ▸ hx)
    refine ⟨?_, x, row, hx, hattached.get, hcopied.before x hx, ?_, ?_, fun hhosting =>
      hattached.follows hmerge hentry hplan hadd hcopied hx hsound hhosting⟩
    · rw [heq]
      exact (hline.addon hadd).1
    · rw [heq]
      exact hattached.cart
    · rw [hattached.kind]
      exact hattached.under.kind

/-- In carts that can be merged, a copy is for something the account does not have. -/
private theorem Copied.unlike_of_mergeable {k k' : ℕ} {b c : CartItem} (hsound : Coherent s)
    (hmerge : Mergeable s guest target) (hentry : entry ∈ s.itemsOf guest)
    (hcopied : Copied s target mapping entry k c) (hb : s.cartItems.get? k' = some b)
    (hcart : b.cart = target) : ¬b.Clashes c := by
  have hrow : (k', b) ∈ s.itemsOf target := mem_itemsOf.mpr ⟨hb, hcart⟩
  have hnot := hcopied.unlike k' b hb hcart
  have heq := hcopied.eq
  have hline := hsound.lines _ _ hb
  have hline' := hsound.lines _ _ (mem_itemsOf.mp hentry).1
  -- neither plans nor domains go with another line
  have hbare : ∀ {item : CartItem}, item.parent = none → (item.copy target mapping).parent = none :=
    fun hparent => by unfold CartItem.copy; rw [hparent]; rfl
  subst heq
  rintro (⟨hkind, hkind', hproduct, hdomain⟩ | ⟨hkind, hkind', hdomain⟩ |
    ⟨hkind, hkind', haddon, hparent⟩)
  · have hfields := hline.hosting hkind
    have hfields' := hline'.hosting hkind'
    exact hnot ⟨hkind.trans hkind'.symm, hproduct, hfields.2.1.trans hfields'.2.1.symm,
      hfields.2.2.trans (hbare hfields'.2.2).symm, hdomain⟩
  · have hfields := hline.domain hkind
    have hfields' := hline'.domain hkind'
    exact hnot ⟨hmerge.domains entry hentry (k', b) hrow hkind' hkind hdomain,
      hfields.1.trans hfields'.1.symm, hfields.2.1.trans hfields'.2.1.symm,
      hfields.2.2.trans (hbare hfields'.2.2).symm, hdomain⟩
  · obtain ⟨⟨hproduct, hdomain⟩, _⟩ := hline.addon hkind
    obtain ⟨⟨hproduct', hdomain'⟩, _⟩ := hline'.addon hkind'
    exact hnot ⟨hkind.trans hkind'.symm, hproduct.trans hproduct'.symm, haddon, hparent,
      hdomain.trans hdomain'.symm⟩

/-- **Carts that can be merged** stay as they should. -/
theorem Adopting.sound (hsound : Coherent s) (h : Adopting s target (s.itemsOf guest) s' mapping)
    (hmerge : Mergeable s guest target)
    (htarget : ∃ cart, s.carts.get? target = some cart) : Coherent s' := by
  refine ⟨fun k c hc => ?_, fun k c hc => ?_, fun k c k' c' hc hc' hcarts hclash => ?_⟩
  · rcases h.new k c hc with hc | ⟨entry, hentry, hcopied⟩
    · exact (hsound.lines k c hc).mono h.old
    · exact hcopied.line hsound h hmerge hentry
  · show ∃ cart, s'.carts.get? c.cart = some cart
    rw [h.carts]
    rcases h.new k c hc with hc | ⟨entry, hentry, hcopied⟩
    · exact hsound.carts k c hc
    · rw [hcopied.eq]
      exact htarget
  · rcases h.new k c hc with hold | ⟨entry, hentry, hcopied⟩ <;>
      rcases h.new k' c' hc' with hold' | ⟨entry', hentry', hcopied'⟩
    · exact hsound.distinct k c k' c' hold hold' hcarts hclash
    · have hcart : c.cart = target := hcarts.trans (by rw [hcopied'.eq]; rfl)
      exact absurd hclash (hcopied'.unlike_of_mergeable hsound hmerge hentry' hold hcart)
    · have hcart : c'.cart = target := hcarts.symm.trans (by rw [hcopied.eq]; rfl)
      exact absurd hclash.symm (hcopied.unlike_of_mergeable hsound hmerge hentry hold' hcart)
    · -- two lines of the guest for the same thing
      have hattached := hcopied.attached
      rw [hcopied.eq] at hclash hattached
      rw [hcopied'.eq] at hclash
      have heq := h.like hsound (fun _ hg => hg) hentry hentry' hattached hclash
      subst heq
      exact Option.some.inj (hcopied.mapped.symm.trans hcopied'.mapped)

/-! ### Prices -/

/-- A price only looks at the orders, and at the line an add-on goes with. -/
private theorem priceItem_mono {shop : Shop} {verify : Bool} {item : CartItem} {price : ℤ × ℤ}
    (horders : s'.orders = s.orders)
    (hparent : ∀ p row, item.parent = some p → s.cartItems.get? p = some row →
      row.cart = item.cart → s'.cartItems.get? p = some row)
    (h : priceItem s shop item verify = .ok price) : priceItem s' shop item verify = .ok price := by
  unfold priceItem at h ⊢
  split at h
  · exact h
  · obtain ⟨addon, row, haddon, hbind, hkind, hcart, hprice⟩ := priceAddon_eq_ok.mp h
    obtain ⟨p, hp, hget⟩ := Option.bind_eq_some_iff.mp hbind
    exact priceAddon_eq_ok.mpr ⟨addon, row, haddon,
      Option.bind_eq_some_iff.mpr ⟨p, hp, hparent p row hp hget hcart⟩, hkind, hcart, hprice⟩
  · unfold priceDomainRegister requireUnreserved Store.domainReservedByPendingOrder at h ⊢
    rw [horders]
    exact h
  · unfold priceDomainTransfer requireUnreserved Store.domainReservedByPendingOrder at h ⊢
    rw [horders]
    exact h

/-- The price of an add-on of a plan is that of its period. -/
private theorem priceAddonFor_plan {addon : Addon} {item plan row : CartItem}
    (hplan : plan.kind = .hosting) (hrow : row.kind = .hosting) (hfollows : item.Follows row)
    (price : ℤ × ℤ) (h : priceAddonFor addon item plan = .ok price) :
    priceAddonFor addon item row = .ok price := by
  unfold priceAddonFor at h ⊢
  rw [if_neg (by rw [hplan]; decide)] at h
  rw [if_neg (by rw [hrow]; decide)]
  simp only [bind_eq_ok, ensure_eq_ok, exists_and_left, exists_const] at h ⊢
  refine ⟨hfollows.imp_left fun honce => ?_, h.2⟩
  simpa [CartItem.isOneTime] using honce

/-- In carts that can be merged, a copy has the price of its own. -/
private theorem Copied.priced {shop : Shop} {verify : Bool} {k : ℕ} {c : CartItem} {price : ℤ × ℤ}
    (hsound : Coherent s) (h : Adopting s target (s.itemsOf guest) s' mapping)
    (hmerge : Mergeable s guest target) (hentry : entry ∈ s.itemsOf guest)
    (hcopied : Copied s target mapping entry k c)
    (hprice : priceItem s shop entry.2 verify = .ok price) :
    priceItem s' shop c verify = .ok price := by
  have heq := hcopied.eq
  unfold priceItem at hprice ⊢
  split at hprice
  · next hkind =>
    subst heq
    simp only [CartItem.copy, hkind]
    exact hprice
  · next hkind =>
    have hcKind : c.kind = .addon := by rw [heq]; exact hkind
    rw [hcKind]
    obtain ⟨x, hx⟩ := Option.ne_none_iff_exists'.mp (hcopied.attached hkind)
    obtain ⟨plan, hplan, row, hattached⟩ := h.attached hsound hentry hkind (heq ▸ hx)
    obtain ⟨addon, parent, haddon, hbind, hparentKind, _, hprice⟩ := priceAddon_eq_ok.mp hprice
    rw [hattached.under.parent_eq, Option.bind_some, hattached.under.get] at hbind
    cases hbind
    refine priceAddon_eq_ok.mpr ⟨addon, row, by rw [heq]; exact haddon,
      Option.bind_eq_some_iff.mpr ⟨x, hx, hattached.get⟩, by rw [hattached.kind]; exact hparentKind,
      by rw [heq]; exact hattached.cart, ?_⟩
    have hfollows := hattached.follows hmerge hentry hplan hkind hcopied hx hsound
    rcases hattached.row with rfl | ⟨_, hhosting, _⟩
    · rw [heq]
      exact hprice
    · have hrow := hattached.kind.trans hhosting
      subst heq
      exact priceAddonFor_plan hhosting hrow (hfollows hrow) price hprice
  · next hkind =>
    subst heq
    simp only [CartItem.copy, hkind]
    unfold priceDomainRegister requireUnreserved Store.domainReservedByPendingOrder at hprice ⊢
    rw [h.orders]
    exact hprice
  · next hkind =>
    subst heq
    simp only [CartItem.copy, hkind]
    unfold priceDomainTransfer requireUnreserved Store.domainReservedByPendingOrder at hprice ⊢
    rw [h.orders]
    exact hprice

/-- In carts that can be merged, every line of the cart they become has a price. -/
theorem Adopting.priced {shop : Shop} {verify : Bool} (hsound : Coherent s)
    (h : Adopting s target (s.itemsOf guest) s' mapping) (hmerge : Mergeable s guest target)
    (hguest : Priced shop verify s guest) (htarget : Priced shop verify s target) :
    Priced shop verify s' target := by
  rintro ⟨k, c⟩ hmem
  obtain ⟨hc, hcart⟩ := mem_itemsOf.mp hmem
  rcases h.new k c hc with hold | ⟨entry, hentry, hcopied⟩
  · obtain ⟨price, hprice⟩ := htarget (k, c) (mem_itemsOf.mpr ⟨hold, hcart⟩)
    exact ⟨price, priceItem_mono h.orders (fun p row _ hrow _ => h.old p row hrow) hprice⟩
  · obtain ⟨price, hprice⟩ := hguest entry hentry
    exact ⟨price, hcopied.priced hsound h hmerge hentry hprice⟩

/-! ### Carts that can be merged -/

/-- A cart of priced lines can be ordered. -/
theorem Coherent.orderable {shop : Shop} {verify : Bool} {cart : ℕ} (h : Coherent s)
    (hpriced : Priced shop verify s cart) : Orderable shop verify s cart := by
  refine ⟨hpriced, fun entry hentry plan hplan hparent hhosting => ?_,
    fun a ha b hb hkind hkind' hdomain => ?_, fun a ha b hb hkind hkind' hproduct hdomain => ?_,
    fun entry hentry hkind => ?_⟩
  · have hline := h.lines _ _ (mem_itemsOf.mp hentry).1
    obtain ⟨_, p, row, hunder⟩ := hline.addon (hline.kind_of_parent hparent)
    cases hparent.symm.trans hunder.parent_eq
    cases hunder.get.symm.trans (mem_itemsOf.mp hplan).1
    exact hunder.follows hhosting
  · exact congrArg Prod.fst (h.unique ha hb (.inr (.inl ⟨hkind, hkind', hdomain⟩)))
  · exact congrArg Prod.fst (h.unique ha hb (.inl ⟨hkind, hkind', hproduct, hdomain⟩))
  · obtain ⟨hget, hcart⟩ := mem_itemsOf.mp hentry
    obtain ⟨_, p, row, hunder⟩ := (h.lines _ _ hget).addon hkind
    exact ⟨(p, row), mem_itemsOf.mpr ⟨hunder.get, hunder.cart.trans hcart⟩, hunder.parent_eq,
      hunder.before⟩

/-- Where the account has a plan of the guest, the add-ons of the guest's go to the account's. -/
private theorem Adopting.lookup_plan {plan row : ℕ × CartItem} (hsound : Coherent s)
    (h : Adopting s target (s.itemsOf guest) s' mapping) (hplan : plan ∈ s.itemsOf guest)
    (hrow : row ∈ s.itemsOf target) (hhosting : plan.2.kind = .hosting)
    (hsame : row.2.SamePlan plan.2) : mapping.lookup plan.1 = some row.1 := by
  obtain ⟨hget, hcart⟩ := mem_itemsOf.mp hrow
  obtain ⟨x, hx⟩ := h.plans plan hplan hhosting
  rw [hx]
  rcases h.image plan hplan x hx with ⟨row', hget', hcart', _, hsame'⟩ | ⟨c, _, hcopied⟩
  · have hclash : row'.Clashes row.2 := .inl ⟨hsame'.1.trans hhosting, hsame.1.trans hhosting,
      hsame'.2.1.trans hsame.2.1.symm, hsame'.2.2.trans hsame.2.2.symm⟩
    rw [hsound.distinct _ _ _ _ hget' hget (hcart'.trans hcart.symm) hclash]
  · -- the guest's plan would not have been copied
    refine absurd ?_ (hcopied.unlike row.1 row.2 hget hcart)
    have hfields := (hsound.lines _ _ hget).hosting (hsame.1.trans hhosting)
    have hfields' := (hsound.lines _ _ (mem_itemsOf.mp hplan).1).hosting hhosting
    rw [hcopied.eq]
    refine ⟨hsame.1, hsame.2.1, hfields.2.1.trans hfields'.2.1.symm, ?_, hsame.2.2⟩
    unfold CartItem.copy
    rw [hfields.2.2, hfields'.2.2]
    rfl

/-- **Carts that cannot be merged** become one that cannot be ordered. -/
theorem Adopting.mergeable {shop : Shop} {verify : Bool} (hsound : Coherent s)
    (h : Adopting s target (s.itemsOf guest) s' mapping)
    (horder : Orderable shop verify s' target) : Mergeable s guest target := by
  refine ⟨fun entry hentry plan hplan row hrow hparent hhosting hsame => ?_,
    fun entry hentry row hrow hkind hkind' hdomain => ?_⟩
  · have hline := hsound.lines _ _ (mem_itemsOf.mp hentry).1
    have hadd := hline.kind_of_parent hparent
    have hlookup := h.lookup_plan hsound hplan hrow hhosting hsame
    have hx : (entry.2.copy target mapping).parent = some row.1 := by
      unfold CartItem.copy
      rw [hparent]
      exact hlookup
    have hattached : entry.2.kind = .addon → (entry.2.copy target mapping).parent ≠ none := by
      rw [hx]
      exact fun _ hnone => by cases hnone
    obtain ⟨k, c, hc, hcart, hlike⟩ := h.covered entry hentry hattached
    rcases h.new k c hc with hold | ⟨entry', hentry', hcopied⟩
    · exact .inr ⟨(k, c), mem_itemsOf.mpr ⟨hold, hcart⟩, hlike.1.trans hadd, hlike.2.2.1,
        hlike.2.2.2.1.trans hx⟩
    · -- the line there is its own copy
      have hclash : (entry.2.copy target mapping).Clashes (entry'.2.copy target mapping) := by
        rw [hcopied.eq] at hlike
        exact .inr (.inr ⟨hadd, hlike.1.trans hadd, hlike.2.2.1.symm, hlike.2.2.2.1.symm⟩)
      cases h.like hsound (fun _ hg => hg) hentry hentry' hattached hclash
      obtain ⟨hget, hrowCart⟩ := mem_itemsOf.mp hrow
      have hfollows := horder.follows (k, c) (mem_itemsOf.mpr ⟨hc, hcart⟩) row
        (mem_itemsOf.mpr ⟨h.old _ _ hget, hrowCart⟩) (by rw [← hx, hcopied.eq])
        (hsame.1.trans hhosting)
      rw [hcopied.eq] at hfollows
      exact .inl hfollows
  · have hnot : entry.2.kind ≠ .addon := fun heq => by rw [heq] at hkind; cases hkind
    obtain ⟨k, c, hc, hcart, hlike⟩ := h.covered entry hentry fun heq => absurd heq hnot
    obtain ⟨hget, hrowCart⟩ := mem_itemsOf.mp hrow
    have hcKind : c.kind = entry.2.kind := hlike.1
    have hpk := horder.domains (k, c) (mem_itemsOf.mpr ⟨hc, hcart⟩) row
      (mem_itemsOf.mpr ⟨h.old _ _ hget, hrowCart⟩) (by rw [hcKind]; exact hkind) hkind'
      (hlike.2.2.2.2.trans hdomain.symm)
    cases hpk
    cases hc.symm.trans (h.old _ _ hget)
    exact hcKind

/-! ### The cart they become -/

/-- The move, from the cart the account has open to the deletion of the guest's. -/
private structure Adopted (s : Store) (guest target : ℕ) (opened moved s' : Store)
    (mapping : List (ℕ × ℕ)) : Prop where
  sound : Coherent opened
  items : opened.cartItems = s.cartItems
  orders : opened.orders = s.orders
  own : ∃ cart, opened.carts.get? target = some cart
  adopting : Adopting opened target (opened.itemsOf guest) moved mapping
  eq : ∃ carts, s' = { moved with carts }.eraseCarts [guest]
    ∧ ∀ k cart, moved.carts.get? k = some cart → ∃ cart', carts.get? k = some cart'
  other : guest ≠ target

private theorem moveCoupon_eq {cart : Cart} :
    ∃ carts, s.moveCoupon cart target = { s with carts }
      ∧ ∀ k row, s.carts.get? k = some row → ∃ row', carts.get? k = some row' := by
  unfold Store.moveCoupon
  split
  · next row hrow =>
    split
    · refine ⟨_, rfl, fun k old hold => ?_⟩
      rw [Table.get?_put hrow]
      split
      · exact ⟨_, rfl⟩
      · exact ⟨old, hold⟩
    · exact ⟨_, rfl, fun k old hold => ⟨old, hold⟩⟩
  · exact ⟨_, rfl, fun k old hold => ⟨old, hold⟩⟩

private theorem adoptGuestCart_eq_ok {actor : Actor} {client : ℕ} {cart : Cart}
    (hsound : Coherent s) (hguest : s.carts.get? guest = some cart) (hnobody : cart.user = none)
    (h : adoptGuestCart actor client guest s = .ok (target, s')) :
    ∃ opened moved mapping, getOpenCart actor client s = .ok (target, opened)
      ∧ Adopted s guest target opened moved s' mapping := by
  unfold adoptGuestCart at h
  simp only [bind_eq_ok, pure_eq_ok, Prod.exists, Prod.mk.injEq] at h
  obtain ⟨row, hrow, target, opened, hopen, rfl, rfl⟩ := h
  cases hguest.symm.trans (loadCart_eq_ok.mp hrow)
  have hopened := getOpenCart_eq_ok hopen
  obtain ⟨own, hown, huser⟩ := hopened.own
  refine ⟨opened, _, _, hopen, hsound.opened hopened, hopened.items, hopened.orders, ⟨own, hown⟩,
    adopting_itemsOf (hsound.opened hopened), ?_, ?_⟩
  · obtain ⟨carts, hcarts, hkept⟩ := moveCoupon_eq
      (s := ((opened.itemsOf guest).foldl (adoptItem target) (opened, [])).1)
    exact ⟨carts, congrArg (Store.eraseCarts · [guest]) hcarts, hkept⟩
  · rintro rfl
    cases (hopened.others guest cart hguest).symm.trans hown
    rw [hnobody] at huser
    cases huser

/-- The lines of the cart are those that were moved there. -/
private theorem Adopted.mem_itemsOf {opened moved : Store}
    (h : Adopted s guest target opened moved s' mapping) :
    entry ∈ s'.itemsOf target ↔ entry ∈ moved.itemsOf target := by
  obtain ⟨carts, rfl, _⟩ := h.eq
  rw [Orders.mem_itemsOf, Orders.mem_itemsOf, get?_eraseCarts]
  constructor
  · rintro ⟨⟨hget, _⟩, hcart⟩
    exact ⟨hget, hcart⟩
  · rintro ⟨hget, hcart⟩
    refine ⟨⟨hget, ?_⟩, hcart⟩
    rw [hcart, List.mem_singleton]
    exact h.other.symm

private theorem Adopted.orders_eq {opened moved : Store}
    (h : Adopted s guest target opened moved s' mapping) : s'.orders = moved.orders := by
  obtain ⟨carts, rfl, _⟩ := h.eq
  rfl

/-- Whether a cart can be ordered depends on its lines, and on the orders there are. -/
private theorem Orderable.congr {shop : Shop} {verify : Bool} {cart : ℕ}
    (hitems : ∀ entry, entry ∈ s'.itemsOf cart ↔ entry ∈ s.itemsOf cart)
    (horders : s'.orders = s.orders) (h : Orderable shop verify s cart) :
    Orderable shop verify s' cart := by
  refine ⟨fun entry hentry => ?_, fun entry hentry plan hplan => ?_, fun a ha b hb => ?_,
    fun a ha b hb => ?_, fun entry hentry hkind => ?_⟩
  · have hmem := (hitems entry).mp hentry
    obtain ⟨price, hprice⟩ := h.priced entry hmem
    refine ⟨price, priceItem_mono horders (fun p row _ hrow hcart => ?_) hprice⟩
    have hrow : (p, row) ∈ s.itemsOf cart :=
      mem_itemsOf.mpr ⟨hrow, hcart.trans (mem_itemsOf.mp hmem).2⟩
    exact (mem_itemsOf.mp ((hitems (p, row)).mpr hrow)).1
  · exact h.follows entry ((hitems entry).mp hentry) plan ((hitems plan).mp hplan)
  · exact h.domains a ((hitems a).mp ha) b ((hitems b).mp hb)
  · exact h.plans a ((hitems a).mp ha) b ((hitems b).mp hb)
  · obtain ⟨parent, hparent, hrest⟩ := h.parents entry ((hitems entry).mp hentry) hkind
    exact ⟨parent, (hitems parent).mpr hparent, hrest⟩

/-- Whether carts can be merged depends on their lines. -/
private theorem Mergeable.congr (hitems : s'.cartItems = s.cartItems)
    (h : Mergeable s guest target) : Mergeable s' guest target := by
  have hsame : ∀ cart, s'.itemsOf cart = s.itemsOf cart := fun cart => by
    unfold Store.itemsOf
    rw [hitems]
  refine ⟨?_, ?_⟩
  · rw [hsame, hsame]
    exact h.addons
  · rw [hsame, hsame]
    exact h.domains

private theorem Adopted.sound_of_mergeable {opened moved : Store}
    (h : Adopted s guest target opened moved s' mapping) (hmerge : Mergeable s guest target) :
    Coherent s' := by
  have hmoved := h.adopting.sound h.sound (hmerge.congr h.items) h.own
  obtain ⟨carts, rfl, hkept⟩ := h.eq
  exact (hmoved.withCarts hkept).eraseCarts [guest]

/-! ### Runs -/

variable {call : CartCall}

theorem Coherent.claim {actor : Actor} {client : ℕ} (h : Coherent s)
    (hmerges : (CartCall.claim actor client guest).Merges s)
    (hclaim : Orders.claim actor client guest s = .ok s') : Coherent s' := by
  unfold Orders.claim at hclaim
  split at hclaim
  · cases hclaim
    exact h
  · next cart hcart =>
    obtain ⟨hget, hnobody, _⟩ : s.carts.get? guest = some cart ∧ cart.user = none
        ∧ cart.status = .open := by
      simpa [Option.filter_eq_some_iff] using hcart
    obtain ⟨⟨target, _⟩, hadopt, rfl⟩ := map_eq_ok.mp hclaim
    obtain ⟨opened, moved, mapping, hopen, hadopted⟩ := adoptGuestCart_eq_ok h hget hnobody hadopt
    exact hadopted.sound_of_mergeable (hmerges target opened hopen)

theorem sound_exec (h : Coherent s) (hmerges : call.Merges s) (hexec : call.exec s = .ok s') :
    Coherent s' := by
  cases call with
  | getOpenCart actor client =>
    obtain ⟨⟨cart, _⟩, hopen, rfl⟩ := map_eq_ok.mp hexec
    exact h.opened (getOpenCart_eq_ok hopen)
  | newGuestCart =>
    cases hexec
    exact h.withCarts fun pk cart hget => ⟨cart, Table.get?_insert_of_some hget⟩
  | addHosting shop actor cart product domain billingCycle customMonths => exact h.addHosting hexec
  | addAddon shop actor parent addon period => exact h.addAddon hexec
  | addDomainRegistration shop actor cart domain years =>
    exact h.addDomain rfl ⟨rfl, rfl, rfl⟩ hexec
  | addDomainTransfer shop actor cart domain authCodeEncrypted =>
    exact h.addDomain rfl ⟨rfl, rfl, rfl⟩ hexec
  | removeItem actor pk => exact h.removeItem hexec
  | changePeriod shop actor pk billingCycle customMonths => exact h.changePeriod hexec
  | toggleAddon shop actor parent addon period => exact h.toggleAddon hexec
  | upgradeItem shop actor pk offer => exact h.upgradeItem hexec
  | claim actor client guest => exact h.claim hmerges hexec
  | dropItems pks =>
    cases hexec
    exact h.eraseItems pks
  | putCart pk cart =>
    obtain ⟨old, hold, rfl⟩ := map_eq_ok.mp hexec
    refine h.withCarts fun k c hget => ?_
    rw [Table.get?_put (loadCart_eq_ok.mp hold)]
    split
    · exact ⟨cart, rfl⟩
    · exact ⟨c, hget⟩
  | purgeCarts pks =>
    cases hexec
    exact h.eraseCarts pks
  | putOrders orders =>
    cases hexec
    exact ⟨h.lines, h.carts, h.distinct⟩

theorem sound_empty : Coherent {} :=
  ⟨Table.Forall.empty, Table.Forall.empty, fun k a k' b ha => by cases ha⟩

/-- **What holds of the carts** holds after every run whose sign-ins merged carts that can be. -/
theorem sound_run (calls : List CartCall)
    (hmerges : carts.EachStep (fun s call _ => call.Merges s) calls {}) :
    Coherent (carts.run calls {}) := by
  refine (Machine.always_of_eachStep (fun s h => h) (fun call s s' out h hcommits hcall => ?_)
    calls _ sound_empty hmerges).last
  obtain ⟨_, hexec, hs⟩ := map_eq_ok.mp hcommits
  cases hs
  exact sound_exec h hcall hexec

/-- **A visitor signs in.** The cart that the two become can be ordered exactly when they can be
    merged, after every run whose earlier sign-ins merged carts that can be. -/
theorem orderable_iff (calls : List CartCall) {actor : Actor} {client guest target : ℕ}
    {cart : Cart} {s' : Store} {shop : Shop} {verify : Bool}
    (hmerges : carts.EachStep (fun s call _ => call.Merges s) calls {})
    (hcart : (carts.run calls {}).carts.get? guest = some cart) (hnobody : cart.user = none)
    (hadopt : adoptGuestCart actor client guest (carts.run calls {}) = .ok (target, s'))
    (hguest : Priced shop verify (carts.run calls {}) guest)
    (htarget : Priced shop verify (carts.run calls {}) target) :
    Orderable shop verify s' target ↔ Mergeable (carts.run calls {}) guest target := by
  have hsound := sound_run calls hmerges
  obtain ⟨opened, moved, mapping, _, h⟩ := adoptGuestCart_eq_ok hsound hcart hnobody hadopt
  constructor
  · intro horder
    have hmoved : Orderable shop verify moved target :=
      horder.congr (fun entry => h.mem_itemsOf.symm) h.orders_eq.symm
    exact (h.adopting.mergeable h.sound hmoved).congr h.items.symm
  · intro hmerge
    have hmerge' := hmerge.congr h.items
    have hpriced : ∀ c, Priced shop verify (carts.run calls {}) c →
        Priced shop verify opened c := by
      rintro c hpriced entry hentry
      unfold Store.itemsOf at hentry
      rw [h.items] at hentry
      obtain ⟨price, hprice⟩ := hpriced entry hentry
      exact ⟨price, priceItem_mono h.orders (fun p row _ hrow _ => by rw [h.items]; exact hrow)
        hprice⟩
    have hmoved := (h.adopting.sound h.sound hmerge' h.own).orderable
      (h.adopting.priced h.sound hmerge' (hpriced guest hguest) (hpriced target htarget))
    exact hmoved.congr (fun entry => h.mem_itemsOf) h.orders_eq

end

/-! ### A plan that is in both carts -/

private def rowAt (billingCycle : BillingCycle) (price : ℕ) : PriceEntry where
  billingCycle
  price
  price_nonneg := Int.natCast_nonneg price
  setupFee_nonneg := Int.le_refl 0

/-- One plan and one add-on, both by the month or by the year. -/
def boutique : Shop where
  products _ := some {
    name := "Starter", type := "shared_hosting", whmPackageName := "starter"
    prices := [rowAt .monthly 500, rowAt .annual 5000] }
  addons _ := some { name := "Backups", prices := [rowAt .monthly 200, rowAt .annual 2000] }
  tldPricings := []
  coupons _ := none
  paymentMethods := []
  hasLiveDomain _ := false
  checkAvailability _ := .ok true
  hasPolicies := false
  hasRegistry := false
  ownerDetails _ _ := ""
  storeCurrency := "USD"

def shopper : Actor where
  pk := 3
  hasPerm _ := false
  contactOf client := client = 7
  isStaff := false

/-- A visitor takes a plan and its add-on by the month.  Their account has the plan already. -/
def fillBoth (billingCycle : String) : List CartCall :=
  [.newGuestCart, .addHosting boutique none 0 0 "ab.co" "monthly" 0,
    .addAddon boutique none 0 0 none, .getOpenCart shopper 7,
    .addHosting boutique (some shopper) 1 0 "ab.co" billingCycle 0]

private theorem fillBoth_merges (billingCycle : String) :
    carts.EachStep (fun s call _ => call.Merges s) (fillBoth billingCycle) {} :=
  ⟨fun _ _ _ => trivial, fun _ _ _ => trivial, fun _ _ _ => trivial, fun _ _ _ => trivial,
    fun _ _ _ => trivial, trivial⟩

private theorem priced_of_all {shop : Shop} {verify : Bool} {s : Store} {cart : ℕ}
    (h : (s.itemsOf cart).all (fun entry => (priceItem s shop entry.2 verify).isOk) = true) :
    Priced shop verify s cart := by
  intro entry hentry
  have hok := List.all_eq_true.mp h entry hentry
  cases hprice : priceItem s shop entry.2 verify with
  | ok price => exact ⟨price, rfl⟩
  | error e =>
    rw [hprice] at hok
    cases hok

/-- **By the month as well**, the two carts become one that can be ordered. -/
theorem orderable_monthly : ∃ s',
    adoptGuestCart shopper 7 0 (carts.run (fillBoth "monthly") {}) = .ok (1, s')
      ∧ Orderable boutique true s' 1 := by
  have hrun : ((adoptGuestCart shopper 7 0 (carts.run (fillBoth "monthly") {})).map
      Prod.fst).toOption = some 1 := by decide +kernel
  have hguest : (carts.run (fillBoth "monthly") {}).carts.get? 0
      = some { user := none, client := none } := by decide +kernel
  cases hadopt : adoptGuestCart shopper 7 0 (carts.run (fillBoth "monthly") {}) with
  | error e =>
    rw [hadopt] at hrun
    cases hrun
  | ok result =>
    rw [hadopt] at hrun
    obtain ⟨target, s'⟩ := result
    cases hrun
    refine ⟨s', rfl, (orderable_iff (fillBoth "monthly") (fillBoth_merges _) hguest rfl hadopt
      (priced_of_all (by decide +kernel)) (priced_of_all (by decide +kernel))).mpr ⟨?_, ?_⟩⟩
    · decide +kernel
    · decide +kernel

/-- **By the year**, the add-on goes with a plan of another period, and has no price. -/
theorem unorderable_annual :
    Priced boutique true (carts.run (fillBoth "annual") {}) 0
      ∧ Priced boutique true (carts.run (fillBoth "annual") {}) 1
      ∧ ∃ s', adoptGuestCart shopper 7 0 (carts.run (fillBoth "annual") {}) = .ok (1, s')
        ∧ ¬Orderable boutique true s' 1 := by
  refine ⟨priced_of_all (by decide +kernel), priced_of_all (by decide +kernel), ?_⟩
  have hrun : ((adoptGuestCart shopper 7 0 (carts.run (fillBoth "annual") {})).map fun result =>
      (result.1, (result.2.itemsOf 1).all fun entry =>
        (priceItem result.2 boutique entry.2 true).isOk)).toOption = some (1, false) := by
    decide +kernel
  cases hadopt : adoptGuestCart shopper 7 0 (carts.run (fillBoth "annual") {}) with
  | error e =>
    rw [hadopt] at hrun
    cases hrun
  | ok result =>
    obtain ⟨target, s'⟩ := result
    rw [hadopt] at hrun
    simp only [Except.map, Except.toOption, Option.some.injEq, Prod.mk.injEq] at hrun
    obtain ⟨rfl, hall⟩ := hrun
    refine ⟨s', rfl, fun horder => Bool.eq_false_iff.mp hall (List.all_eq_true.mpr ?_)⟩
    intro entry hentry
    obtain ⟨price, hprice⟩ := horder.priced entry hentry
    rw [hprice]
    rfl

end WPanel.Orders
