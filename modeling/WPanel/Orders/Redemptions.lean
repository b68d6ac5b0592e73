import WPanel.Lib.Transactions
import WPanel.Site.Checkout

namespace WPanel.Orders.Redemptions

open WPanel.Lib WPanel.Billing WPanel.Site

/-!
# Coupons that are used at the same time

A checkout prices its cart twice: once before its transaction, and once with the row of the cart's
coupon locked, which stays locked until the order and its use of the coupon are committed.  Any
number of checkouts run at once, each may fail wherever it is, and orders change their status
meanwhile.

* `Limits`, `withLimits` — the limits of the coupons, which nobody edits meanwhile;
* `Phase`, `step` — how far a checkout has come, and what its next step does;
* `checkouts` — every interleaving of them, with every change of an order's status;
* `holders` — the orders that count against a coupon;
* `Counted` — a use counts until its order is cancelled, and never again;
* `holders_kept` — both in every run: no limit is exceeded, and what is released stays released.
-/

/-! ### Checkouts -/

/-- The limits of a coupon. -/
structure Limits where
  maxRedemptions : Option ℕ
  onePerClient : Bool

/-- The shop as it is at a call, with the limits every call sees. -/
def withLimits (limits : ℕ → Limits) (shop : Shop) : Shop :=
  { shop with coupons := fun pk => (shop.coupons pk).map fun coupon => { coupon with
      maxRedemptions := (limits pk).maxRedemptions
      onePerClient := (limits pk).onePerClient } }

/-- What `checkout` is called with. -/
structure Request where
  actor : Actor
  cart : ℕ
  methodCode : String
  policiesAgreed : Bool

/-- A row that can be locked. -/
inductive Row where
  | cart (pk : ℕ)
  | coupon (pk : ℕ)
  deriving DecidableEq

/-- How far a checkout has come. -/
inductive Phase where
  | begun (request : Request)
  /-- The first pass is done, outside the transaction. -/
  | passed (request : Request) (method : PaymentMethod)
  /-- The cart is locked. -/
  | opened (request : Request) (method : PaymentMethod) (cart : Cart)
  /-- Its coupon is locked too. -/
  | locked (request : Request) (method : PaymentMethod) (cart : Cart)
  /-- The order is written. -/
  | placed (request : Request) (cart : Cart) (order : Order)

/-- The rows a checkout locks. -/
def rowsOf (request : Request) (cart : Cart) : List Row :=
  .cart request.cart :: cart.coupon.toList.map Row.coupon

def Phase.rows : Phase → List Row
  | .begun _ => []
  | .passed _ _ => []
  | .opened request _ _ => [.cart request.cart]
  | .locked request _ cart => rowsOf request cart
  | .placed request cart _ => rowsOf request cart

inductive Advance where
  | next (w : World)
  /-- Something fails, and everything is undone. -/
  | fail

/-- `checkout` before its transaction: the checks, and the first pass over the cart. -/
def firstPass (w : World) (shop : Shop) (s : Store) (request : Request) :
    Except Err PaymentMethod := do
  let cart ← lockCart s request.cart
  Site.requireOwnCart request.actor cart
  requireCartOpen cart
  requireDomainOwnerDetails shop s request.cart cart
  let method ← paymentMethod shop request.methodCode
  ensure (¬(shop.hasPolicies ∧ ¬request.actor.isStaff ∧ ¬request.policiesAgreed))
    (serviceError "Please confirm you agree to our policies before placing the order."
      "policies_not_agreed")
  let _ ← priceCart w.env shop s request.cart cart true true
  return method

/-- The next step of a checkout. -/
def step (limits : ℕ → Limits) : Advance → Store → Phase → Except Err (Stage Store Phase)
  | .fail, _, _ => .ok .rollsBack
  | .next w, s, .begun request => do
    let method ← firstPass w (withLimits limits w.shop) s request
    return .goes (.passed request method)
  | .next _, s, .passed request method => do
    let cart ← lockCart s request.cart
    requireCartOpen cart
    return .goes (.opened request method cart)
  | .next _, _, .opened request method cart => .ok (.goes (.locked request method cart))
  | .next w, s, .locked request method cart => do
    let shop := withLimits limits w.shop
    let priced ← priceCart w.env shop s request.cart cart true
    let client ← cartClient cart
    return .goes (.placed request cart (orderOf shop request.actor client method priced))
  | .next _, s, .placed request cart order =>
    .ok (.commits { s with
      orders := s.orders.insert order
      carts := s.carts.put request.cart { cart with status := .converted } })

/-- What else is committed. -/
inductive Change where
  /-- An order is paid, cancelled or fulfilled. -/
  | transition (pk : ℕ) (new : OrderStatus) (reason : String)
  | markFraud (actor : Actor) (pk : ℕ) (reason : String)
  /-- With the documents as they are then. -/
  | clearFraud (actor : Actor) (pk : ℕ) (reason : String) (billing : Billing.Store)
  /-- Customers fill their carts. -/
  | shop (carts : Table Cart) (cartItems : Table CartItem)

def change : Change → Store → Except Err Store
  | .transition pk new reason, s => Orders.transition s pk new reason
  | .markFraud actor pk reason, s => Orders.markFraud actor pk reason s
  | .clearFraud actor pk reason billing, s => Orders.clearFraud actor pk reason billing s
  | .shop carts cartItems, s => .ok { s with carts, cartItems }

/-- The order that is moved, and where to. -/
def Change.target : Change → Option (ℕ × OrderStatus)
  | .transition pk new _ => some (pk, new)
  | .markFraud _ pk _ => some (pk, .fraud)
  | .clearFraud _ pk _ billing => some (pk, if isPaid billing pk then .paid else .pendingPayment)
  | .shop _ _ => none

theorem rows_begun (request : Request) : (Phase.begun request).rows = [] := rfl

/-- Carts are checked out, any number of them at once. -/
def checkouts (limits : ℕ → Limits) : Transactions Store Row Phase Request Advance Change Err where
  start := .begun
  holds := Phase.rows
  holds_start := rows_begun
  step := step limits
  outside := change
  touches _ := []
  busy := .unexpected "the row is locked"
  gone := .unexpected "the checkout is over"

/-! ### The uses of a coupon -/

/-- The orders that count against a coupon: those that used it and are not cancelled. -/
def holders (s : Store) (coupon : ℕ) : List (ℕ × Order) :=
  s.orders.entries.filter fun entry =>
    entry.2.status ≠ .cancelled ∧ ∃ redemption ∈ entry.2.redemption, redemption.coupon = coupon

/-- The uses counted are those of the orders that count. -/
theorem uses_of_holders (s : Store) (coupon : ℕ) :
    (holders s coupon).map (fun entry => entry.2.redemption)
      = (s.couponUsage coupon).map some := by
  unfold holders Store.couponUsage
  induction s.orders.entries with
  | nil => rfl
  | cons entry entries ih =>
    obtain ⟨pk, order⟩ := entry
    by_cases hcancelled : order.status = .cancelled
    · rw [List.filter_cons_of_neg (by simp [hcancelled]),
        List.filterMap_cons_none (by simp [hcancelled]), ih]
    · cases hredemption : order.redemption with
      | none =>
        rw [List.filter_cons_of_neg (by simp [hredemption]),
          List.filterMap_cons_none (by simp [hredemption]), ih]
      | some redemption =>
        by_cases hcoupon : redemption.coupon = coupon
        · rw [List.filter_cons_of_pos (by simp [hcancelled, hredemption, hcoupon]),
            List.filterMap_cons_some (b := redemption)
              (by simp [hcancelled, hredemption, hcoupon]),
            List.map_cons, List.map_cons, ih, hredemption]
        · rw [List.filter_cons_of_neg (by simp [hredemption, hcoupon]),
            List.filterMap_cons_none (by simp [hredemption, hcoupon]), ih]

/-- A new order joins the uses with its own. -/
theorem couponUsage_insert {s s' : Store} {order : Order} (coupon : ℕ)
    (hs' : s'.orders = s.orders.insert order) (hstatus : order.status ≠ .cancelled) :
    s'.couponUsage coupon
      = s.couponUsage coupon ++ (order.redemption.filter (·.coupon = coupon)).toList := by
  unfold Store.couponUsage
  rw [hs', Table.entries_insert, List.filterMap_append, List.filterMap_cons, List.filterMap_nil]
  dsimp only
  rw [if_neg hstatus]
  cases order.redemption.filter (·.coupon = coupon) <;> rfl

theorem moved_redemption (order : Order) (new : OrderStatus) (reason : String) :
    (order.moved new reason).redemption = order.redemption := by
  unfold Order.moved
  split <;> rfl

/-- An order that changes its status gives its use back, or keeps it: no order leaves
    `CANCELLED`. -/
theorem couponUsage_moved {s s' : Store} {pk : ℕ} {order : Order} {new : OrderStatus}
    {reason : String} (coupon : ℕ) (horder : s.orders.get? pk = some order)
    (hallowed : new ∈ allowed order.status)
    (hs' : s'.orders = s.orders.put pk (order.moved new reason)) :
    (s'.couponUsage coupon).Sublist (s.couponUsage coupon) := by
  have hstatus : order.status ≠ .cancelled := by
    intro hcancelled
    rw [hcancelled] at hallowed
    cases hallowed
  obtain ⟨before, after, hold, hnew⟩ := Table.entries_put horder (order.moved new reason)
  unfold Store.couponUsage
  rw [hs', hold, hnew, List.filterMap_append, List.filterMap_append, List.filterMap_cons,
    List.filterMap_cons]
  refine (List.Sublist.refl _).append ?_
  dsimp only
  rw [moved_status, moved_redemption, if_neg hstatus]
  by_cases hcancelled : new = .cancelled
  · rw [if_pos hcancelled]
    cases order.redemption.filter (·.coupon = coupon) with
    | none => exact .refl _
    | some redemption => exact .cons _ (.refl _)
  · rw [if_neg hcancelled]

/-- Another change moves one order as the lifecycle allows, or leaves the orders alone. -/
theorem moved_of_change {c : Change} {s s' : Store} (h : change c s = .ok s') :
    (c.target = none ∧ s'.orders = s.orders)
      ∨ ∃ pk new, c.target = some (pk, new) ∧ Moved s pk new s' := by
  cases c with
  | transition pk new reason => exact .inr ⟨pk, new, rfl, transition_moved h⟩
  | markFraud actor pk reason =>
    simp only [change, markFraud, bind_eq_ok] at h
    obtain ⟨_, -, h⟩ := h
    exact .inr ⟨pk, _, rfl, transition_moved h⟩
  | clearFraud actor pk reason billing =>
    simp only [change, clearFraud, bind_eq_ok] at h
    obtain ⟨_, -, _, -, _, -, h⟩ := h
    exact .inr ⟨pk, _, rfl, transition_moved h⟩
  | shop carts cartItems =>
    cases h
    exact .inl ⟨rfl, rfl⟩

theorem orders_of_change {c : Change} {s s' : Store} (h : change c s = .ok s') :
    s'.orders = s.orders ∨ ∃ pk order new reason, s.orders.get? pk = some order
      ∧ new ∈ allowed order.status ∧ s'.orders = s.orders.put pk (order.moved new reason) := by
  rcases moved_of_change h with ⟨-, hsame⟩ | ⟨pk, new, -, hmoved⟩
  · exact .inl hsame
  · cases hmoved with
    | stay horder hstatus => exact .inl rfl
    | move reason horder hstatus hallowed =>
      exact .inr ⟨pk, _, new, reason, horder, hallowed, rfl⟩

theorem couponUsage_of_change {c : Change} {s s' : Store} (coupon : ℕ) (h : change c s = .ok s') :
    (s'.couponUsage coupon).Sublist (s.couponUsage coupon) := by
  rcases orders_of_change h with hsame | ⟨pk, order, new, reason, horder, hallowed, hput⟩
  · unfold Store.couponUsage
    rw [hsame]
  · exact couponUsage_moved coupon horder hallowed hput

/-! ### What a checkout knows -/

/-- There is room for one more use of the coupon. -/
def Room (limits : ℕ → Limits) (s : Store) (redemption : CouponRedemption) : Prop :=
  (∀ limit ∈ (limits redemption.coupon).maxRedemptions,
    (s.couponUsage redemption.coupon).length < limit)
  ∧ ((limits redemption.coupon).onePerClient = true →
    redemption.client ∉ (s.couponUsage redemption.coupon).map (·.client))

/-- The uses counted are within the limits. -/
def Sound (limits : ℕ → Limits) (s : Store) : Prop :=
  ∀ coupon, (∀ limit ∈ (limits coupon).maxRedemptions, (s.couponUsage coupon).length ≤ limit)
    ∧ ((limits coupon).onePerClient = true → ((s.couponUsage coupon).map (·.client)).Nodup)

/-- With its coupon locked, the use of an order keeps its room. -/
def Phase.Knows (limits : ℕ → Limits) (s : Store) : Phase → Prop
  | .placed _ cart order => order.status ≠ .cancelled ∧
    ∀ redemption ∈ order.redemption,
      cart.coupon = some redemption.coupon ∧ Room limits s redemption
  | _ => True

theorem Room.of_sublist {limits : ℕ → Limits} {s s' : Store} {redemption : CouponRedemption}
    (h : (s'.couponUsage redemption.coupon).Sublist (s.couponUsage redemption.coupon))
    (hroom : Room limits s redemption) : Room limits s' redemption :=
  ⟨fun limit hlimit => h.length_le.trans_lt (hroom.1 limit hlimit),
    fun honce hmem => hroom.2 honce ((h.map _).subset hmem)⟩

/-- The coupon of a cart that prices in strict mode has room for its client. -/
theorem room_of_priceCart {limits : ℕ → Limits} {w : World} {s : Store} {pk client : ℕ}
    {cart : Cart} {priced : PricedCart} {coupon : ℕ} {discount : ℤ}
    (h : priceCart w.env (withLimits limits w.shop) s pk cart true = .ok priced)
    (hclient : cart.client = some client) (hcoupon : priced.coupon = some coupon) :
    cart.coupon = some coupon ∧ Room limits s ⟨coupon, client, discount⟩ := by
  simp only [priceCart, bind_eq_ok, pure_eq_ok, Prod.exists] at h
  obtain ⟨_, _, lines, _, found, taken, couponError, hprice, rfl⟩ := h
  dsimp only at hcoupon
  subst hcoupon
  unfold priceCoupon at hprice
  split at hprice
  · cases hprice
  · next chosen hchosen =>
    split at hprice
    · cases hprice
    · next offered hoffered =>
      split at hprice
      · next heval =>
        cases hprice
        refine ⟨hchosen, ?_⟩
        obtain ⟨stored, -, rfl⟩ := Option.map_eq_some_iff.mp hoffered
        simp only [evaluateCoupon, bind_eq_ok, ensure_eq_ok, exists_and_left, exists_const,
          pure_eq_ok] at heval
        obtain ⟨-, -, -, hlimit, honce, -⟩ := heval
        refine ⟨hlimit, fun hone hmem => honce ⟨hone, ?_⟩⟩
        obtain ⟨redemption, hredemption, heq⟩ := List.mem_map.mp hmem
        exact ⟨redemption, hredemption, by rw [hclient, heq]⟩
      · simp only [if_true] at hprice
        split at hprice <;> cases hprice

theorem cartClient_eq_ok {cart : Cart} {client : ℕ} :
    cartClient cart = .ok client ↔ cart.client = some client := by
  unfold cartClient
  cases cart.client <;> simp

section

variable {limits : ℕ → Limits} {a : Advance} {s s' : Store} {t t' : Phase}

/-- The order a checkout writes is that of a cart it has priced. -/
theorem priced_of_goes {request : Request} {cart : Cart} {order : Order}
    (h : step limits a s t = .ok (.goes (.placed request cart order))) :
    ∃ (w : World) (method : PaymentMethod) (priced : PricedCart) (client : ℕ),
      priceCart w.env (withLimits limits w.shop) s request.cart cart true = .ok priced
        ∧ cartClient cart = .ok client
        ∧ order = orderOf (withLimits limits w.shop) request.actor client method priced := by
  cases a with
  | fail => cases h
  | next w =>
    cases t with
    | begun request' =>
      simp only [step, bind_eq_ok, pure_eq_ok, Stage.goes.injEq, reduceCtorEq, and_false,
        exists_false] at h
    | passed request' method =>
      simp only [step, bind_eq_ok, pure_eq_ok, Stage.goes.injEq, reduceCtorEq, and_false,
        exists_false] at h
    | opened request' method cart' => cases h
    | locked request' method cart' =>
      simp only [step, bind_eq_ok, pure_eq_ok] at h
      obtain ⟨priced, hpriced, client, hclient, h⟩ := h
      cases h
      exact ⟨w, method, priced, client, hpriced, hclient, rfl⟩
    | placed request' cart' order' => cases h

/-- What a checkout knows after a step. -/
theorem knows_of_goes (h : step limits a s t = .ok (.goes t')) : t'.Knows limits s := by
  cases t' with
  | begun request => trivial
  | passed request method => trivial
  | opened request method cart => trivial
  | locked request method cart => trivial
  | placed request cart order =>
    obtain ⟨w, method, priced, client, hpriced, hclient, rfl⟩ := priced_of_goes h
    refine ⟨fun hstatus => (by cases hstatus), fun redemption hredemption => ?_⟩
    obtain ⟨coupon, hcoupon, rfl⟩ := Option.map_eq_some_iff.mp hredemption
    exact room_of_priceCart hpriced (cartClient_eq_ok.mp hclient) hcoupon

/-- What a checkout commits is its order. -/
theorem placed_of_commits (h : step limits a s t = .ok (.commits s')) :
    ∃ request cart order, t = .placed request cart order ∧ s'.orders = s.orders.insert order := by
  cases a with
  | fail => cases h
  | next w =>
    cases t with
    | begun request =>
      simp only [step, bind_eq_ok, pure_eq_ok, reduceCtorEq, and_false, exists_false] at h
    | passed request method =>
      simp only [step, bind_eq_ok, pure_eq_ok, reduceCtorEq, and_false, exists_false] at h
    | opened request method cart => cases h
    | locked request method cart =>
      simp only [step, bind_eq_ok, pure_eq_ok, reduceCtorEq, and_false, exists_false] at h
    | placed request cart order =>
      cases h
      exact ⟨request, cart, order, rfl, rfl⟩

/-- **The use an order commits has its place within the limits.** -/
theorem sound_of_commits (h : step limits a s t = .ok (.commits s')) (hs : Sound limits s)
    (hknows : t.Knows limits s) : Sound limits s' := by
  obtain ⟨request, cart, order, rfl, hinsert⟩ := placed_of_commits h
  obtain ⟨hstatus, hroom⟩ := hknows
  intro coupon
  rw [couponUsage_insert coupon hinsert hstatus]
  cases hredemption : order.redemption.filter (·.coupon = coupon) with
  | none =>
    rw [Option.toList_none, List.append_nil]
    exact hs coupon
  | some redemption =>
    obtain ⟨hused, hcoupon⟩ := Option.filter_eq_some_iff.mp hredemption
    obtain rfl : redemption.coupon = coupon := of_decide_eq_true hcoupon
    obtain ⟨-, hlimit, honce⟩ := hroom redemption hused
    rw [Option.toList_some]
    constructor
    · intro limit hmem
      rw [List.length_append, List.length_singleton]
      exact hlimit limit hmem
    · intro hone
      rw [List.map_append, List.nodup_append_comm]
      exact List.nodup_cons.mpr ⟨honce hone, (hs redemption.coupon).2 hone⟩

/-- Whoever holds another coupon keeps its room. -/
theorem knows_of_commits {other : Phase} (h : step limits a s t = .ok (.commits s'))
    (hknows : t.Knows limits s) (hother : other.Knows limits s)
    (hapart : t.rows.Disjoint other.rows) : other.Knows limits s' := by
  obtain ⟨request, cart, order, rfl, hinsert⟩ := placed_of_commits h
  cases other with
  | begun request' => trivial
  | passed request' method => trivial
  | opened request' method cart' => trivial
  | locked request' method cart' => trivial
  | placed request' cart' order' =>
    refine ⟨hother.1, fun redemption' hredemption' => ?_⟩
    obtain ⟨hcoupon', hroom'⟩ := hother.2 redemption' hredemption'
    refine ⟨hcoupon', hroom'.of_sublist ?_⟩
    rw [couponUsage_insert _ hinsert hknows.1]
    cases hredemption : order.redemption.filter (·.coupon = redemption'.coupon) with
    | none => rw [Option.toList_none, List.append_nil]
    | some redemption =>
      obtain ⟨hused, hcoupon⟩ := Option.filter_eq_some_iff.mp hredemption
      have hmine := (hknows.2 redemption hused).1
      rw [of_decide_eq_true hcoupon] at hmine
      -- both would hold the row of the coupon
      have hrow : ∀ {r : Request} {c : Cart}, c.coupon = some redemption'.coupon →
          Row.coupon redemption'.coupon ∈ rowsOf r c := fun hc =>
        List.mem_cons_of_mem _ (List.mem_map_of_mem (Option.mem_toList.mpr hc))
      exact absurd (hrow hcoupon') (hapart (hrow hmine))

/-- What a checkout knows stays true where uses are given back only. -/
theorem knows_of_change {c : Change} (h : change c s = .ok s') (hknows : t.Knows limits s) :
    t.Knows limits s' := by
  cases t with
  | begun request => trivial
  | passed request method => trivial
  | opened request method cart => trivial
  | locked request method cart => trivial
  | placed request cart order =>
    refine ⟨hknows.1, fun redemption hredemption => ?_⟩
    obtain ⟨hcoupon, hroom⟩ := hknows.2 redemption hredemption
    exact ⟨hcoupon, hroom.of_sublist (couponUsage_of_change _ h)⟩

theorem sound_of_change {c : Change} (h : change c s = .ok s') (hs : Sound limits s) :
    Sound limits s' := by
  intro coupon
  have hsub := couponUsage_of_change coupon h
  exact ⟨fun limit hlimit => hsub.length_le.trans ((hs coupon).1 limit hlimit),
    fun hone => ((hs coupon).2 hone).sublist (hsub.map _)⟩

end

/-- What holds of the orders, and what a checkout knows of them. -/
def rules (limits : ℕ → Limits) : (checkouts limits).Rules where
  sound := Sound limits
  knows := Phase.Knows limits
  knows_start _ _ _ := trivial
  knows_goes _ _ _ _ h _ _ := knows_of_goes h
  sound_commits _ _ _ _ := sound_of_commits
  knows_commits _ _ _ _ _ h _ := knows_of_commits h
  sound_outside _ _ _ := sound_of_change
  knows_outside _ _ _ _ h _ hknows _ := knows_of_change h hknows

/-! ### Limits and releases -/

/-- The orders that count against each coupon are within its limits. -/
def WithinLimits (limits : ℕ → Limits) (s : Store) : Prop :=
  ∀ coupon,
    (∀ limit ∈ (limits coupon).maxRedemptions, (holders s coupon).length ≤ limit)
    ∧ ((limits coupon).onePerClient = true →
      ((holders s coupon).map fun entry => entry.2.redemption.map (·.client)).Nodup)

theorem Sound.withinLimits {limits : ℕ → Limits} {s : Store} (hs : Sound limits s) :
    WithinLimits limits s := by
  intro coupon
  have huses := uses_of_holders s coupon
  constructor
  · intro limit hlimit
    have hlength := congrArg List.length huses
    rw [List.length_map, List.length_map] at hlength
    rw [hlength]
    exact (hs coupon).1 limit hlimit
  · intro hone
    have hclients : ((holders s coupon).map fun entry => entry.2.redemption.map (·.client))
        = ((s.couponUsage coupon).map (·.client)).map some := by
      have hmap := congrArg (List.map (Option.map CouponRedemption.client)) huses
      rw [List.map_map, List.map_map] at hmap
      rw [List.map_map]
      exact hmap
    rw [hclients]
    exact ((hs coupon).2 hone).map (Option.some_injective _)

/-- A use stays with its order, and a cancelled order stays cancelled. -/
def Later (s s' : Store) : Prop :=
  ∀ pk order, s.orders.get? pk = some order → ∃ order', s'.orders.get? pk = some order'
    ∧ order'.redemption = order.redemption
    ∧ (order.status = .cancelled → order'.status = .cancelled)

theorem Later.refl (s : Store) : Later s s := fun _ order h => ⟨order, h, rfl, id⟩

theorem Later.trans (s₁ s₂ s₃ : Store) (h : Later s₁ s₂) (h' : Later s₂ s₃) : Later s₁ s₃ := by
  intro pk order horder
  obtain ⟨order', horder', hredemption, hcancelled⟩ := h pk order horder
  obtain ⟨order'', horder'', hredemption', hcancelled'⟩ := h' pk order' horder'
  exact ⟨order'', horder'', hredemption'.trans hredemption, fun hc => hcancelled' (hcancelled hc)⟩

theorem later_of_change {c : Change} {s s' : Store} (h : change c s = .ok s') : Later s s' := by
  rcases orders_of_change h with hsame | ⟨pk, order, new, reason, horder, hallowed, hput⟩
  · intro pk order horder
    exact ⟨order, hsame ▸ horder, rfl, id⟩
  · intro q other hother
    rw [hput]
    by_cases hq : q = pk
    · subst hq
      cases horder.symm.trans hother
      refine ⟨_, Table.get?_put_self horder _, moved_redemption _ _ _, fun hcancelled => ?_⟩
      rw [hcancelled] at hallowed
      cases hallowed
    · exact ⟨other, (Table.get?_put_of_ne hq _).trans hother, rfl, id⟩

theorem mem_holders {s : Store} {coupon pk : ℕ} {order : Order} :
    (pk, order) ∈ holders s coupon ↔ s.orders.get? pk = some order
      ∧ order.status ≠ .cancelled
      ∧ ∃ redemption ∈ order.redemption, redemption.coupon = coupon := by
  unfold holders
  rw [List.mem_filter, Table.mem_entries, decide_eq_true_eq]

/-- From `s` to `s'` an order that used a coupon counts until it is cancelled; one that was
    cancelled is never counted again. -/
def Counted (s s' : Store) : Prop :=
  ∀ coupon pk order, s.orders.get? pk = some order →
    (∃ redemption ∈ order.redemption, redemption.coupon = coupon) →
    ∃ order', s'.orders.get? pk = some order'
      ∧ ((pk, order') ∈ holders s' coupon ↔ order'.status ≠ .cancelled)
      ∧ (order.status = .cancelled → (pk, order') ∉ holders s' coupon)

theorem Later.counted {s s' : Store} (h : Later s s') : Counted s s' := by
  intro coupon pk order horder hused
  obtain ⟨order', horder', hredemption, hcancelled⟩ := h pk order horder
  have hmem : (pk, order') ∈ holders s' coupon ↔ order'.status ≠ .cancelled := by
    rw [mem_holders, hredemption]
    exact ⟨fun h => h.2.1, fun h => ⟨horder', h, hused⟩⟩
  exact ⟨order', horder', hmem, fun hc hin => hmem.mp hin (hcancelled hc)⟩

/-- What is committed later in a run. -/
theorem later_run {limits : ℕ → Limits} (turns : List (Turn Request Advance Change))
    (x : System (Database Store Row) (Option Phase)) :
    Later x.shared.committed
      ((checkouts limits).interleaving.machine.run turns x).shared.committed := by
  refine Transactions.run_related Later.refl Later.trans (fun a s t s' h => ?_)
    (fun c s s' h => later_of_change h) turns x
  obtain ⟨_, _, order, -, hinsert⟩ := placed_of_commits h
  intro pk old hold
  rw [hinsert]
  exact ⟨old, Table.get?_insert_of_some hold, rfl, id⟩

/-- **No coupon is used more often than its limits allow**, in every state of every run, and
    wherever the run goes on to, a use counts until its order is cancelled and never again. -/
theorem holders_kept (limits : ℕ → Limits) (turns turns' : List (Turn Request Advance Change)) :
    (checkouts limits).interleaving.machine.Always
        (fun x => WithinLimits limits x.shared.committed) turns ⟨⟨{}, []⟩, {}⟩
      ∧ Counted ((checkouts limits).interleaving.machine.run turns ⟨⟨{}, []⟩, {}⟩).shared.committed
          ((checkouts limits).interleaving.machine.run turns'
            ((checkouts limits).interleaving.machine.run turns
              ⟨⟨{}, []⟩, {}⟩)).shared.committed := by
  constructor
  · have hempty : Sound limits {} := fun coupon =>
      ⟨fun limit _ => Nat.zero_le limit, fun _ => List.nodup_nil⟩
    exact ((rules limits).always turns hempty).mono fun x hsound => Sound.withinLimits hsound
  · exact (later_run turns' _).counted

end WPanel.Orders.Redemptions
