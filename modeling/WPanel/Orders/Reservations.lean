import WPanel.Orders.Redemptions
import WPanel.Site.Machine

namespace WPanel.Orders.Reservations

open WPanel.Lib WPanel.Billing WPanel.Site WPanel.Orders.Redemptions

/-!
# Domain names that unpaid orders hold

An order that awaits payment holds the names on its registration and transfer lines.  Nothing is
stored: pricing a cart looks whether such an order has the name.  Two checkouts of one name lock no
row in common, and an order that was held as fraud comes back without that look.

* `Holds`, `Exclusive` — which unpaid order holds a name, and that at most one does;
* `entering` — the order a turn makes an unpaid one;
* `Apart` — no order is released whose names are held, and none enters while another checkout has
  looked for a name of it and not committed yet;
* `free_of_priceCart` — a checkout finds the names of its order free where it looks;
* `always_exclusive` — in a run whose turns keep apart names are held once in every state.
-/

/-- The order `pk` awaits payment and has this name on a registration or transfer line. -/
def Holds (s : Store) (pk : ℕ) (name : String) : Prop :=
  (s.orders.get? pk).any (fun order => order.status = .pendingPayment && order.holdsDomain name)
    = true

instance (s : Store) (pk : ℕ) (name : String) : Decidable (Holds s pk name) :=
  inferInstanceAs (Decidable (_ = true))

/-- For every name, at most one order awaiting payment holds it. -/
def Exclusive (s : Store) : Prop := ∀ name pk pk', Holds s pk name → Holds s pk' name → pk = pk'

theorem holds_iff {s : Store} {pk : ℕ} {name : String} : Holds s pk name ↔
    ∃ order, s.orders.get? pk = some order ∧ order.status = .pendingPayment
      ∧ order.holdsDomain name = true := by
  unfold Holds
  rw [Option.any_eq_true]
  simp only [Bool.and_eq_true, decide_eq_true_eq]

/-- Pricing sees every order that holds the name. -/
theorem reserved_iff {s : Store} {name : String} :
    s.domainReservedByPendingOrder name = true ↔ ∃ pk, Holds s pk name := by
  unfold Store.domainReservedByPendingOrder
  rw [List.any_eq_true]
  constructor
  · rintro ⟨⟨pk, order⟩, hmem, hholds⟩
    rw [Bool.and_eq_true, decide_eq_true_eq] at hholds
    exact ⟨pk, holds_iff.mpr ⟨order, Table.mem_entries.mp hmem, hholds.1, hholds.2⟩⟩
  · rintro ⟨pk, hholds⟩
    obtain ⟨order, horder, hstatus, hname⟩ := holds_iff.mp hholds
    refine ⟨(pk, order), Table.mem_entries.mpr horder, ?_⟩
    rw [Bool.and_eq_true, decide_eq_true_eq]
    exact ⟨hstatus, hname⟩

theorem holds_congr {s s' : Store} {pk : ℕ} (h : s'.orders.get? pk = s.orders.get? pk)
    (name : String) : Holds s' pk name ↔ Holds s pk name := by
  unfold Holds
  rw [h]

/-! ### Orders that come to await payment -/

/-- The order a checkout is about to commit. -/
def placing (s : Store) : Advance → Phase → Option (ℕ × Order)
  | .next _, .placed _ _ order => some (s.orders.nextPk, order)
  | _, _ => none

/-- The order that is about to be released into `PENDING_PAYMENT`. -/
def releasing (s : Store) (c : Change) : Option (ℕ × Order) :=
  c.target.bind fun (pk, new) =>
    if new = .pendingPayment then
      ((s.orders.get? pk).filter (·.status ≠ .pendingPayment)).map fun order => (pk, order)
    else none

/-- The order a turn makes an unpaid one. -/
def entering (x : System (Database Store Redemptions.Row) (Option Phase)) :
    Turn Request Advance Change → Option (ℕ × Order)
  | .start _ => none
  | .step i a => (x.workers.get? i).bind fun w => w.bind (placing x.shared.committed a)
  | .outside c => releasing x.shared.committed c

/-- No unpaid order holds a name of the order that enters. -/
def Unreserved (x : System (Database Store Redemptions.Row) (Option Phase))
    (turn : Turn Request Advance Change) : Prop :=
  ∀ entry ∈ entering x turn, ∀ name, entry.2.holdsDomain name = true →
    x.shared.committed.domainReservedByPendingOrder name = false

/-- A checkout has looked for this name, and its order is still to be committed. -/
def Placing (name : String) : Phase → Prop
  | .placed _ _ order => order.holdsDomain name = true
  | _ => False

instance (name : String) (t : Phase) : Decidable (Placing name t) :=
  match t with
  | .placed _ _ order => inferInstanceAs (Decidable (order.holdsDomain name = true))
  | .begun _ | .passed _ _ | .opened _ _ _ | .locked _ _ _ => inferInstanceAs (Decidable False)

/-- The checkout a turn is a step of. -/
def mover : Turn Request Advance Change → Option ℕ
  | .step i _ => some i
  | _ => none

/-- No order is released from fraud while another that awaits payment holds a name of it; and when
    an order comes to await payment, no other checkout of one of its names stands between its look
    and its commit. -/
def Apart (x : System (Database Store Redemptions.Row) (Option Phase))
    (turn : Turn Request Advance Change) : Prop :=
  ∀ entry ∈ entering x turn, ∀ item ∈ entry.2.items, item.kind.isDomain = true →
    (mover turn = none → x.shared.committed.domainReservedByPendingOrder item.domainName = false)
      ∧ x.workers.Forall fun i w => mover turn ≠ some i → ∀ t ∈ w, ¬Placing item.domainName t

instance (x : System (Database Store Redemptions.Row) (Option Phase))
    (turn : Turn Request Advance Change) : Decidable (Apart x turn) :=
  inferInstanceAs (Decidable (∀ entry ∈ entering x turn, ∀ item ∈ entry.2.items, _ → _ ∧ _))

/-- An order that is written awaits payment. -/
def Unpaid : Phase → Prop
  | .placed _ _ order => order.status = .pendingPayment
  | _ => True

/-- The names of an order that is still to be committed are free. -/
def Free (s : Store) (t : Phase) : Prop :=
  ∀ name, Placing name t → s.domainReservedByPendingOrder name = false

/-- At most one order holds each name; those about to be committed await payment, and find their
    names as free as at their look. -/
structure Kept (x : System (Database Store Redemptions.Row) (Option Phase)) : Prop where
  exclusive : Exclusive x.shared.committed
  unpaid : x.workers.Forall fun _ w => ∀ t ∈ w, Unpaid t
  free : x.workers.Forall fun _ w => ∀ t ∈ w, Free x.shared.committed t

/-- The names held after a turn are those held before, and those of the order that entered. -/
structure Entered (s s' : Store) (pk : ℕ) (order : Order) : Prop where
  free : ∀ name, ¬Holds s pk name
  own : ∀ name, Holds s' pk name ↔ order.holdsDomain name = true
  others : ∀ q name, q ≠ pk → (Holds s' q name ↔ Holds s q name)

/-- No name is held that was not held before. -/
def NoneEntered (s s' : Store) : Prop := ∀ pk name, Holds s' pk name → Holds s pk name

theorem NoneEntered.of_orders {s s' : Store} (h : s'.orders = s.orders) : NoneEntered s s' :=
  fun pk name => (holds_congr (congrArg (·.get? pk) h) name).mp

theorem moved_holdsDomain (order : Order) (new : OrderStatus) (reason name : String) :
    (order.moved new reason).holdsDomain name = order.holdsDomain name := by
  unfold Order.moved
  split <;> rfl

section

variable {limits : ℕ → Limits} {s s' : Store}

/-- A new order enters with its names. -/
theorem entered_insert {order : Order} (hstatus : order.status = .pendingPayment)
    (hs' : s'.orders = s.orders.insert order) : Entered s s' s.orders.nextPk order := by
  have hown : s'.orders.get? s.orders.nextPk = some order := by
    rw [hs', Table.get?_insert_self]
  refine ⟨fun name hholds => ?_, fun name => ?_, fun q name hq => holds_congr ?_ name⟩
  · obtain ⟨old, hold, -⟩ := holds_iff.mp hholds
    rw [Table.get?_nextPk] at hold
    cases hold
  · rw [holds_iff]
    constructor
    · rintro ⟨order', horder', -, hname⟩
      cases hown.symm.trans horder'
      exact hname
    · exact fun hname => ⟨order, hown, hstatus, hname⟩
  · rw [hs', Table.get?_insert, if_neg hq]

/-- An order that is moved enters where it moves to `PENDING_PAYMENT`. -/
theorem entered_of_moved {pk : ℕ} {new : OrderStatus} {c : Change}
    (htarget : c.target = some (pk, new)) (h : Moved s pk new s') :
    (releasing s c = none ∧ NoneEntered s s')
      ∨ ∃ order, releasing s c = some (pk, order) ∧ Entered s s' pk order := by
  unfold releasing
  rw [htarget, Option.bind_some]
  dsimp only
  cases h with
  | @stay order horder hstatus =>
    refine .inl ⟨?_, fun _ _ => id⟩
    split
    · next hnew =>
      rw [horder, Option.filter_some, if_neg (by simp [hstatus, hnew])]
      rfl
    · rfl
  | @move order reason horder hstatus hallowed =>
    have hself : (s.orders.put pk (order.moved new reason)).get? pk
        = some (order.moved new reason) := Table.get?_put_self horder _
    by_cases hnew : new = .pendingPayment
    · subst hnew
      refine .inr ⟨order, ?_, ?_, fun name => ?_, fun q name hq => ?_⟩
      · rw [if_pos rfl, horder, Option.filter_some, if_pos (by simp [hstatus])]
        rfl
      · intro name hholds
        obtain ⟨order', horder', hpending, -⟩ := holds_iff.mp hholds
        cases horder.symm.trans horder'
        exact hstatus hpending
      · rw [holds_iff]
        constructor
        · rintro ⟨order', horder', -, hname⟩
          cases hself.symm.trans horder'
          rwa [moved_holdsDomain] at hname
        · intro hname
          refine ⟨_, hself, moved_status _ _ _, ?_⟩
          rwa [moved_holdsDomain]
      · exact holds_congr (Table.get?_put_of_ne hq _) name
    · refine .inl ⟨if_neg hnew, fun q name hholds => ?_⟩
      by_cases hq : q = pk
      · subst hq
        obtain ⟨order', horder', hpending, -⟩ := holds_iff.mp hholds
        cases hself.symm.trans horder'
        rw [moved_status] at hpending
        exact absurd hpending hnew
      · exact (holds_congr (Table.get?_put_of_ne hq _) name).mp hholds

/-- A step of a checkout that commits nothing brings no order in. -/
theorem placing_eq_none {a : Advance} {t : Phase} {stage : Stage Store Phase}
    (h : step limits a s t = .ok stage) (hstage : ∀ s', stage ≠ .commits s') :
    placing s a t = none := by
  cases a with
  | fail => rfl
  | next w =>
    cases t with
    | begun request => rfl
    | passed request method => rfl
    | opened request method cart => rfl
    | locked request method cart => rfl
    | placed request cart order =>
      cases h
      exact absurd rfl (hstage _)

/-- An order whose names no one holds has them free. -/
theorem reserved_eq_false_iff {name : String} :
    s.domainReservedByPendingOrder name = false ↔ ∀ pk, ¬Holds s pk name := by
  rw [← Bool.not_eq_true, reserved_iff, not_exists]

/-- A line of a cart is priced only where its name is free. -/
theorem free_of_priceItem {shop : Shop} {item : CartItem} {verify : Bool} {price : ℤ × ℤ}
    (h : priceItem s shop item verify = .ok price) (hkind : item.kind.isDomain = true) :
    s.domainReservedByPendingOrder item.domainName = false := by
  unfold priceItem at h
  split at h
  · next hhosting => rw [hhosting] at hkind; cases hkind
  · next haddon => rw [haddon] at hkind; cases hkind
  · simp only [priceDomainRegister, bind_eq_ok] at h
    obtain ⟨_, -, _, -, _, -, _, hfree, -⟩ := h
    exact ensure_eq_ok.mp hfree
  · simp only [priceDomainTransfer, bind_eq_ok] at h
    obtain ⟨_, -, _, -, _, -, _, -, _, -, _, hfree, -⟩ := h
    exact ensure_eq_ok.mp hfree

/-- **The look of a checkout**: the names of the order a priced cart turns into are free. -/
theorem free_of_priceCart {env : Env} {shop : Shop} {pk client : ℕ} {cart : Cart} {actor : Actor}
    {method : PaymentMethod} {priced : PricedCart} {name : String}
    (h : priceCart env shop s pk cart true = .ok priced)
    (hname : (orderOf shop actor client method priced).holdsDomain name = true) :
    s.domainReservedByPendingOrder name = false := by
  simp only [priceCart, bind_eq_ok, pure_eq_ok] at h
  obtain ⟨_, -, lines, hlines, _, -, rfl⟩ := h
  -- the name is that of a line, and the line that of an item
  simp only [Order.holdsDomain, Site.orderOf, List.any_eq_true, List.mem_map, Bool.and_eq_true,
    decide_eq_true_eq] at hname
  obtain ⟨_, ⟨⟨line, i⟩, hmem, rfl⟩, hkind, rfl⟩ := hname
  obtain ⟨entry, -, hentry⟩ := mapM_eq_ok hlines line (List.fst_mem_of_mem_zipIdx hmem)
  unfold priceLine at hentry
  simp only [if_true] at hentry
  split at hentry
  · next hprice =>
    cases hentry
    exact free_of_priceItem hprice hkind
  · split at hentry <;> cases hentry

/-- An order is written with names that are free. -/
theorem free_of_goes {a : Advance} {t t' : Phase} (h : step limits a s t = .ok (.goes t')) :
    Free s t' := by
  intro name hplacing
  cases t' with
  | begun request => cases hplacing
  | passed request method => cases hplacing
  | opened request method cart => cases hplacing
  | locked request method cart => cases hplacing
  | placed request cart order =>
    obtain ⟨w, method, priced, client, hpriced, -, rfl⟩ := priced_of_goes h
    exact free_of_priceCart hpriced hplacing

/-- What is committed by a checkout is the order that was about to be. -/
theorem placing_of_commits {a : Advance} {t : Phase}
    (h : step limits a s t = .ok (.commits s')) :
    ∃ order, placing s a t = some (s.orders.nextPk, order) ∧ s'.orders = s.orders.insert order
      ∧ (Unpaid t → order.status = .pendingPayment) := by
  obtain ⟨request, cart, order, rfl, hinsert⟩ := placed_of_commits h
  cases a with
  | fail => cases h
  | next w => exact ⟨order, rfl, hinsert, id⟩

/-- An order is written to await payment. -/
theorem unpaid_of_goes {a : Advance} {t t' : Phase} (h : step limits a s t = .ok (.goes t')) :
    Unpaid t' := by
  cases t' with
  | begun request => trivial
  | passed request method => trivial
  | opened request method cart => trivial
  | locked request method cart => trivial
  | placed request cart order =>
    obtain ⟨w, method, priced, client, -, -, rfl⟩ := priced_of_goes h
    rfl

variable {x x' : System (Database Store Redemptions.Row) (Option Phase)}
  {turn : Turn Request Advance Change} {out : List PUnit}

/-- **A turn brings in no order, or the one it is about to.** -/
theorem entered_of_commits (hx : Kept x)
    (h : (checkouts limits).interleaving.machine.Commits turn x x' out) :
    (entering x turn = none ∧ NoneEntered x.shared.committed x'.shared.committed)
      ∨ ∃ pk order, entering x turn = some (pk, order)
        ∧ Entered x.shared.committed x'.shared.committed pk order := by
  cases turn with
  | start b =>
    obtain ⟨w, hstart, -⟩ := Interleaving.start_eq_ok h
    obtain ⟨hdb, -⟩ := Prod.mk.inj (Except.ok.inj hstart)
    rw [← hdb]
    exact .inl ⟨rfl, fun _ _ => id⟩
  | step i a =>
    obtain ⟨w, w', hw, hstep, -⟩ := Interleaving.step_eq_ok h
    cases w with
    | none => cases hstep
    | some t =>
      obtain ⟨stage, hstage, hsettle⟩ := bind_eq_ok.mp hstep
      have hentering : entering x (.step i a) = placing x.shared.committed a t := by
        unfold entering
        dsimp only
        rw [hw]
        rfl
      rw [hentering]
      cases stage with
      | goes t' =>
        obtain ⟨-, hdb, -⟩ := Transactions.settle_goes hsettle
        rw [hdb]
        exact .inl ⟨placing_eq_none hstage fun s' hs' => (by cases hs'), fun _ _ => id⟩
      | commits s =>
        obtain ⟨hdb, -⟩ := Prod.mk.inj (Except.ok.inj hsettle)
        obtain ⟨order, hplacing, hinsert, hunpaid⟩ := placing_of_commits hstage
        rw [← hdb]
        exact .inr ⟨_, order, hplacing, entered_insert (hunpaid (hx.unpaid i _ hw t rfl)) hinsert⟩
      | rollsBack =>
        obtain ⟨hdb, -⟩ := Prod.mk.inj (Except.ok.inj hsettle)
        rw [← hdb]
        exact .inl ⟨placing_eq_none hstage fun s' hs' => (by cases hs'), fun _ _ => id⟩
  | outside c =>
    obtain ⟨houtside, -⟩ := Interleaving.outside_eq_ok h
    obtain ⟨-, s, hs, hdb⟩ := Transactions.outside_eq_ok houtside
    rw [hdb]
    rcases moved_of_change hs with ⟨htarget, hsame⟩ | ⟨pk, new, htarget, hmoved⟩
    · refine .inl ⟨?_, .of_orders hsame⟩
      show releasing _ c = none
      unfold releasing
      rw [htarget]
      rfl
    · rcases entered_of_moved htarget hmoved with hnone | ⟨order, hentered⟩
      · exact .inl hnone
      · exact .inr ⟨pk, order, hentered⟩

theorem unpaid_of_commits (hx : Kept x)
    (h : (checkouts limits).interleaving.machine.Commits turn x x' out) :
    x'.workers.Forall fun _ w => ∀ t ∈ w, Unpaid t := by
  rintro i w hw t rfl
  obtain ⟨b, rfl⟩ | ⟨a, t₀, hgoes, -⟩ | ⟨hbefore, -⟩ := Transactions.worker_of_commits h hw
  · trivial
  · exact unpaid_of_goes hgoes
  · exact hx.unpaid i _ hbefore t rfl

/-- In a turn that keeps apart the order that enters finds its names free: a checkout has looked,
    and no order that was released or committed since has the name. -/
theorem unreserved_of_apart (hx : Kept x)
    (h : (checkouts limits).interleaving.machine.Commits turn x x' out) (hapart : Apart x turn) :
    Unreserved x turn := by
  intro entry hentry name hname
  obtain ⟨item, hitem, hkind⟩ := List.any_eq_true.mp hname
  rw [Bool.and_eq_true, decide_eq_true_eq] at hkind
  obtain ⟨hdomain, rfl⟩ := hkind
  cases turn with
  | start b => cases hentry
  | step i a =>
    obtain ⟨w, hw, hplacing⟩ := Option.bind_eq_some_iff.mp hentry
    obtain ⟨t, rfl, hplacing⟩ := Option.bind_eq_some_iff.mp hplacing
    have hfree := hx.free i _ hw t rfl
    cases a with
    | fail => cases hplacing
    | next world =>
      cases t with
      | begun request => cases hplacing
      | passed request method => cases hplacing
      | opened request method cart => cases hplacing
      | locked request method cart => cases hplacing
      | placed request cart order =>
        cases hplacing
        exact hfree item.domainName hname
  | outside c => exact (hapart entry hentry item hitem hdomain).1 rfl

/-- Names that were free stay free but for those of the order that entered. -/
theorem reserved_of_entered {pk : ℕ} {order : Order} {name : String} (h : Entered s s' pk order)
    (hfree : s.domainReservedByPendingOrder name = false) (hname : order.holdsDomain name ≠ true) :
    s'.domainReservedByPendingOrder name = false := by
  rw [reserved_eq_false_iff] at hfree ⊢
  intro q hholds
  by_cases hq : q = pk
  · subst hq
    exact hname ((h.own name).mp hholds)
  · exact hfree q ((h.others q name hq).mp hholds)

theorem reserved_of_noneEntered {name : String} (h : NoneEntered s s')
    (hfree : s.domainReservedByPendingOrder name = false) :
    s'.domainReservedByPendingOrder name = false := by
  rw [reserved_eq_false_iff] at hfree ⊢
  exact fun q hholds => hfree q (h q name hholds)

/-- What a checkout found free stays free, but for the one that takes the turn. -/
theorem free_of_others (hx : Kept x)
    (h : (checkouts limits).interleaving.machine.Commits turn x x' out) (hapart : Apart x turn)
    {i : ℕ} {w : Option Phase} (hw : x.workers.get? i = some w) (hi : mover turn ≠ some i) :
    ∀ t ∈ w, Free x'.shared.committed t := by
  intro t ht name hplacing
  have hfree := hx.free i w hw t ht name hplacing
  rcases entered_of_commits hx h with ⟨-, hnone⟩ | ⟨pk, order, hentering, hentered⟩
  · exact reserved_of_noneEntered hnone hfree
  · refine reserved_of_entered hentered hfree fun hname => ?_
    obtain ⟨item, hitem, hkind⟩ := List.any_eq_true.mp hname
    rw [Bool.and_eq_true, decide_eq_true_eq] at hkind
    obtain ⟨hdomain, rfl⟩ := hkind
    exact (hapart _ hentering item hitem hdomain).2 i w hw hi t ht hplacing

theorem free_of_commits (hx : Kept x)
    (h : (checkouts limits).interleaving.machine.Commits turn x x' out) (hapart : Apart x turn) :
    x'.workers.Forall fun _ w => ∀ t ∈ w, Free x'.shared.committed t := by
  rintro i w hw t rfl
  obtain ⟨b, rfl⟩ | ⟨a, t₀, hgoes, hsame⟩ | ⟨hbefore, hmover⟩ :=
    Transactions.worker_of_commits h hw
  · exact fun name hplacing => hplacing.elim
  · rw [hsame]
    exact free_of_goes hgoes
  · refine free_of_others hx h hapart hbefore (fun heq => ?_) t rfl
    cases turn with
    | start b => cases heq
    | step j a =>
      cases heq
      exact hmover a rfl
    | outside c => cases heq

/-- An order whose names are free keeps them to itself. -/
theorem exclusive_of_commits (hx : Kept x)
    (h : (checkouts limits).interleaving.machine.Commits turn x x' out)
    (hfree : Unreserved x turn) : Exclusive x'.shared.committed := by
  intro name pk pk' hpk hpk'
  rcases entered_of_commits hx h with ⟨-, hnone⟩ | ⟨new, order, hentering, hentered⟩
  · exact hx.exclusive name pk pk' (hnone pk name hpk) (hnone pk' name hpk')
  · -- whoever else holds the name held it before
    have hother : ∀ q, q ≠ new → Holds x'.shared.committed q name →
        ¬Holds x'.shared.committed new name := by
      intro q hq hholds hown
      have hreserved := reserved_iff.mpr ⟨q, (hentered.others q name hq).mp hholds⟩
      rw [hfree _ hentering name ((hentered.own name).mp hown)] at hreserved
      cases hreserved
    by_cases hnew : pk = new
    · subst hnew
      by_contra hne
      exact hother pk' (Ne.symm hne) hpk' hpk
    · by_cases hnew' : pk' = new
      · subst hnew'
        exact absurd hpk' (hother pk hnew hpk)
      · exact hx.exclusive name pk pk' ((hentered.others pk name hnew).mp hpk)
          ((hentered.others pk' name hnew').mp hpk')

/-- **One turn of a run.** -/
theorem Kept.after (hx : Kept x) (h : (checkouts limits).interleaving.machine.Commits turn x x' out)
    (hapart : Apart x turn) : Kept x' :=
  ⟨exclusive_of_commits hx h (unreserved_of_apart hx h hapart), unpaid_of_commits hx h,
    free_of_commits hx h hapart⟩

end

/-- **Names are held once**: in every state of a run at most one unpaid order holds each name,
    where no order is released from fraud with a name that is held by then, and no two checkouts of
    one name overlap between their look and their commit. -/
theorem always_exclusive (limits : ℕ → Limits) (turns : List (Turn Request Advance Change))
    (h : (checkouts limits).interleaving.machine.EachStep (fun x turn _ => Apart x turn) turns
      ⟨⟨{}, []⟩, {}⟩) :
    (checkouts limits).interleaving.machine.Always (fun x => Exclusive x.shared.committed) turns
      ⟨⟨{}, []⟩, {}⟩ := by
  have hempty : Exclusive {} := by
    intro name pk pk' hpk
    obtain ⟨order, horder, -⟩ := holds_iff.mp hpk
    rw [Table.get?_empty] at horder
    cases horder
  exact Machine.always_of_eachStep (I := Kept) (fun _ hx => hx.exclusive)
    (fun _ _ _ _ hx hc hapart => hx.after hc hapart) turns _ ⟨hempty, .empty, .empty⟩ h

/-! ### A name that is held twice -/

private theorem tenDollars_nonneg : (0 : ℤ) ≤ 1000 := by decide

/-- A shop that registers names under `.com`. -/
def registrations : World := { smallWorld with shop := { smallWorld.shop with
  tldPricings := [{
    tld := ".com", registerPrice := 1000, renewPrice := 1000, transferPrice := 1000
    registerPrice_nonneg := tenDollars_nonneg
    renewPrice_nonneg := tenDollars_nonneg
    transferPrice_nonneg := tenDollars_nonneg }] } }

/-- Two clients want the same name. -/
def sameName : Change := .shop
  (Table.insert (Table.insert {} { user := some 0, client := some 0 })
    { user := some 1, client := some 1 })
  (Table.insert
    (Table.insert {} { cart := 0, kind := .domainRegister, domainName := "example.com" })
    { cart := 1, kind := .domainRegister, domainName := "example.com" })

/-- So many steps of a checkout. -/
def steps (cart count : ℕ) : List (Turn Request Advance Change) :=
  List.replicate count (.step cart (.next registrations))

/-- A checkout of the cart, from its start to its commit. -/
def placeOrder (cart : ℕ) : List (Turn Request Advance Change) :=
  .start ⟨staff, cart, "bank", true⟩ :: steps cart 5

/-- The second cart is refused while the first order awaits payment, and checked out once that is
    cancelled. -/
def oneAfterTheOther : List (Turn Request Advance Change) :=
  [.outside sameName] ++ placeOrder 0 ++ [.start ⟨staff, 1, "bank", true⟩] ++ steps 1 1
    ++ [.outside (.transition 0 .cancelled "")] ++ steps 1 5

theorem always_exclusive_oneAfterTheOther :
    ((((checkouts fun _ => ⟨none, false⟩).interleaving.machine.run oneAfterTheOther
        ⟨⟨{}, []⟩, {}⟩).shared.committed.orders.entries.map (·.2.status)))
        = [.cancelled, .pendingPayment]
      ∧ (checkouts fun _ => ⟨none, false⟩).interleaving.machine.Always
        (fun x => Exclusive x.shared.committed) oneAfterTheOther ⟨⟨{}, []⟩, {}⟩ :=
  ⟨by decide +kernel, always_exclusive (fun _ => ⟨none, false⟩) oneAfterTheOther
    (Machine.eachStep_of_trace (by decide +kernel))⟩

/-- The first order is held as fraud while the second is placed, and released afterwards. -/
def releasedLate : List (Turn Request Advance Change) :=
  [.outside sameName] ++ placeOrder 0 ++ [.outside (.markFraud staff 0 "")] ++ placeOrder 1
    ++ [.outside (.clearFraud staff 0 "" {})]

/-- **A released order takes its name back**, whoever holds it by then. -/
theorem not_always_exclusive :
    ¬∀ (limits : ℕ → Limits) (turns : List (Turn Request Advance Change)),
      (checkouts limits).interleaving.machine.Always (fun x => Exclusive x.shared.committed) turns
        ⟨⟨{}, []⟩, {}⟩ := by
  intro h
  have hlast := (h (fun _ => ⟨none, false⟩) releasedLate).last
  exact absurd (hlast "example.com" 0 1 (by decide +kernel) (by decide +kernel)) (by decide)

end WPanel.Orders.Reservations
