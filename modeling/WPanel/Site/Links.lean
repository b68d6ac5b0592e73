import WPanel.Site.Effects

namespace WPanel.Site

open WPanel.Lib WPanel.Billing WPanel.Orders WPanel.Renewals

/-!
# Orders and their invoices

An order and its invoice are two records that only signals keep in step.  What ties them
together in every reachable state:

* `Linked` — every order has exactly one invoice, which is issued and asks for the order's
  total;
* `Steady` — what the services of the order lifecycle leave alone;
* `Linked.exec` — every committed call keeps orders and invoices linked.
-/

/-- The same orders, with the same totals. -/
def SameTotals : Table Order → Table Order → Prop := Table.Related fun _ a b => b.total = a.total

theorem SameTotals.refl (t : Table Order) : SameTotals t t := by
  apply Table.Related.refl
  exact fun _ _ => rfl

theorem SameTotals.put {t : Table Order} {pk : ℕ} {a b : Order} (ha : t.get? pk = some a)
    (h : b.total = a.total) : SameTotals t (t.put pk b) := by
  refine Table.Related.put ?_ ha h
  exact fun _ _ => rfl

/-- Every order has exactly one invoice: an issued one, with the order's total. -/
structure Linked (invoices : Table Ledger) (orders : Table Order) : Prop where
  invoice : ∀ pk order, orders.get? pk = some order →
    ∃ q l, invoices.get? q = some l ∧ l.invoice.order = some pk
  order : ∀ q l pk, invoices.get? q = some l → l.invoice.order = some pk →
    l.invoice.status ≠ .draft ∧ ∃ order, orders.get? pk = some order ∧ order.total = l.invoice.total
  unique : ∀ q q' l l' pk, invoices.get? q = some l → l.invoice.order = some pk →
    invoices.get? q' = some l' → l'.invoice.order = some pk → q = q'

section Linked

variable {invoices invoices' : Table Ledger} {orders orders' : Table Order}

theorem Linked.empty : Linked {} {} := by
  constructor
  · intro pk order h
    rw [Table.get?_empty] at h
    cases h
  · intro q l pk h
    rw [Table.get?_empty] at h
    cases h
  · intro q q' l l' pk h
    rw [Table.get?_empty] at h
    cases h

/-- The invoice of an order is the only one. -/
theorem Linked.eq (h : Linked invoices orders) {q q' pk : ℕ} {l l' : Ledger}
    (hl : invoices.get? q = some l) (horder : l.invoice.order = some pk)
    (hl' : invoices.get? q' = some l') (horder' : l'.invoice.order = some pk) :
    q = q' ∧ l = l' := by
  obtain rfl := h.unique q q' l l' pk hl horder hl' horder'
  exact ⟨rfl, Option.some.inj (hl.symm.trans hl')⟩

/-- Orders may change in any way that keeps their totals. -/
theorem Linked.orders_related (h : Linked invoices orders)
    (hrel : SameTotals orders orders') : Linked invoices orders' := by
  refine ⟨fun pk order horder => ?_, fun q l pk hl hlinked => ?_, h.unique⟩
  · obtain ⟨before, hbefore, _⟩ := hrel.some_of horder
    exact h.invoice pk before hbefore
  · obtain ⟨hissued, before, hbefore, htotal⟩ := h.order q l pk hl hlinked
    obtain ⟨order, horder, heq⟩ := hrel.of_some hbefore
    exact ⟨hissued, order, horder, heq.trans htotal⟩

/-- Invoices may move in any way that saves no draft for an order. -/
theorem Linked.moves {may : Policy} {out : List Signal} (h : Linked invoices orders)
    (hcreate : ∀ pk l, may pk .create l → l.invoice.order = none)
    (hm : Moves may invoices invoices' out) : Linked invoices' orders := by
  constructor
  · intro pk order horder
    obtain ⟨q, l, hl, hlinked⟩ := h.invoice pk order horder
    obtain ⟨l', hl', _, heq, _⟩ := hm.issued_kept hl (h.order q l pk hl hlinked).1
    exact ⟨q, l', hl', heq.trans hlinked⟩
  · -- the invoice was there before, and was issued: its total is final
    intro q l' pk hl' hlinked
    obtain ⟨l, hl, hlinked'⟩ := hm.linked hcreate hl' hlinked
    obtain ⟨hissued, order, horder, htotal⟩ := h.order q l pk hl hlinked'
    obtain ⟨l₁, hl₁, hissued', _, hfigures⟩ := hm.issued_kept hl hissued
    cases hl'.symm.trans hl₁
    exact ⟨hissued', order, horder, htotal.trans (congrArg Figures.total hfigures).symm⟩
  · intro q q' l l' pk hl hlinked hl' hlinked'
    obtain ⟨l₁, hl₁, h₁⟩ := hm.linked hcreate hl hlinked
    obtain ⟨l₂, hl₂, h₂⟩ := hm.linked hcreate hl' hlinked'
    exact h.unique q q' l₁ l₂ pk hl₁ h₁ hl₂ h₂

/-- A new order with its invoice. -/
theorem Linked.checkout {l l' : Ledger} {order : Order} {out : List Signal}
    (h : Linked invoices orders) (hstep : Step invoices.nextPk .issue l l' out)
    (hlinked : l.invoice.order = some orders.nextPk) (htotal : l'.invoice.total = order.total) :
    Linked ((invoices.insert l).put invoices.nextPk l') (orders.insert order) := by
  have hlinked' : l'.invoice.order = some orders.nextPk := hstep.order_eq.trans hlinked
  have hissued : l'.invoice.status ≠ .draft := by
    cases hstep
    simp only [Invoice.opened]
    split <;> decide
  have hget : ∀ q, ((invoices.insert l).put invoices.nextPk l').get? q
      = if q = invoices.nextPk then some l' else invoices.get? q := by
    intro q
    rw [Table.get?_put (Table.get?_insert_self invoices l), Table.get?_insert]
    split <;> rfl
  -- no invoice was for this order before
  have hfresh : ∀ q a, invoices.get? q = some a → a.invoice.order ≠ some orders.nextPk := by
    intro q a ha horder
    obtain ⟨_, before, hbefore, _⟩ := h.order q a _ ha horder
    rw [Table.get?_nextPk] at hbefore
    cases hbefore
  constructor
  · intro pk row hrow
    rw [Table.get?_insert] at hrow
    split at hrow
    · next hpk => exact ⟨invoices.nextPk, l', by rw [hget, if_pos rfl], hpk ▸ hlinked'⟩
    · obtain ⟨q, a, ha, horder⟩ := h.invoice pk row hrow
      refine ⟨q, a, ?_, horder⟩
      rw [hget, if_neg (Nat.ne_of_lt (Table.lt_nextPk ha)), ha]
  · intro q a pk ha horder
    rw [hget] at ha
    split at ha
    · cases ha
      rw [hlinked'] at horder
      cases horder
      exact ⟨hissued, order, Table.get?_insert_self _ _, htotal.symm⟩
    · obtain ⟨hdraft, row, hrow, heq⟩ := h.order q a pk ha horder
      exact ⟨hdraft, row, Table.get?_insert_of_some hrow, heq⟩
  · intro q q' a a' pk ha horder ha' horder'
    rw [hget] at ha ha'
    split at ha <;> split at ha'
    · next hq hq' => rw [hq, hq']
    · cases ha
      rw [hlinked'] at horder
      cases horder
      exact absurd horder' (hfresh q' a' ha')
    · cases ha'
      rw [hlinked'] at horder'
      cases horder'
      exact absurd horder (hfresh q a ha)
    · exact h.unique q q' a a' pk ha horder ha' horder'

end Linked

/-! ### The order lifecycle -/

/-- The order keeps its total, and is paid or awaiting payment only if it was. -/
structure Steady (order order' : Order) : Prop where
  total : order'.total = order.total
  paid : order'.status = .paid → order.status = .paid
  pending : order'.status = .pendingPayment → order.status = .pendingPayment

theorem Steady.refl (order : Order) : Steady order order := ⟨rfl, id, id⟩

/-- Every order of a store stays steady. -/
def AllSteady : Table Order → Table Order → Prop := Table.Related fun _ => Steady

theorem AllSteady.refl (t : Table Order) : AllSteady t t :=
  Table.Related.refl (fun _ => Steady.refl) t

theorem AllSteady.trans {t t' t'' : Table Order} (h : AllSteady t t') (h' : AllSteady t' t'') :
    AllSteady t t'' :=
  Table.Related.trans (fun _ _ _ _ hab hbc => ⟨hbc.total.trans hab.total,
    fun hp => hab.paid (hbc.paid hp), fun hp => hab.pending (hbc.pending hp)⟩) h h'

theorem AllSteady.totals {t t' : Table Order} (h : AllSteady t t') : SameTotals t t' :=
  Table.Related.mono (fun _ _ _ hsteady => hsteady.total) h

section Lifecycle

variable {s s' : Orders.Store} {pk : ℕ} {new : OrderStatus}

/-- Moving an order keeps the totals. -/
theorem moved_totals (h : Moved s pk new s') : SameTotals s.orders s'.orders := by
  cases h with
  | stay => exact .refl _
  | move reason horder => exact .put horder (moved_total _ _ _)

/-- Moving an order elsewhere than to paid or awaiting payment. -/
theorem moved_steady (h : Moved s pk new s') (hpaid : new ≠ .paid)
    (hpending : new ≠ .pendingPayment) :
    AllSteady s.orders s'.orders := by
  cases h with
  | stay => exact .refl _
  | move reason horder =>
    refine Table.Related.put (fun _ => Steady.refl) horder ⟨moved_total _ _ _, ?_, ?_⟩
    · intro h
      rw [moved_status] at h
      exact absurd h hpaid
    · intro h
      rw [moved_status] at h
      exact absurd h hpending

theorem transition_steady {reason : String} (h : transition s pk new reason = .ok s')
    (hnew : new ≠ .paid ∧ new ≠ .pendingPayment) : AllSteady s.orders s'.orders :=
  moved_steady (transition_moved h) hnew.1 hnew.2

theorem claimOrder_steady (h : claimOrder pk s = .ok s') : AllSteady s.orders s'.orders := by
  unfold claimOrder at h
  simp only [bind_eq_ok] at h
  obtain ⟨order, _, h⟩ := h
  split at h
  · simp only [bind_eq_ok] at h
    obtain ⟨s₁, h₁, h₂⟩ := h
    exact (transition_steady h₁ (by decide)).trans (transition_steady h₂ (by decide))
  · cases h
    exact .refl _

theorem finishOrder_steady {failures : List String} (h : finishOrder pk failures s = .ok s') :
    AllSteady s.orders s'.orders := by
  unfold finishOrder at h
  simp only [bind_eq_ok] at h
  obtain ⟨order, _, h⟩ := h
  split at h
  · cases h
    exact .refl _
  · split at h
    · exact transition_steady h (by decide)
    · exact transition_steady h (by decide)

theorem resetOrder_steady {stuck : Bool} (h : resetOrder pk stuck s = .ok s') :
    AllSteady s.orders s'.orders := by
  unfold resetOrder at h
  simp only [bind_eq_ok] at h
  obtain ⟨order, _, h⟩ := h
  split at h
  · simp only [bind_eq_ok] at h
    obtain ⟨s₁, h₁, h₂⟩ := h
    have hfirst : AllSteady s.orders s₁.orders := by
      split at h₁
      · exact transition_steady h₁ (by decide)
      · cases h₁
        exact .refl _
    exact hfirst.trans (transition_steady h₂ (by decide))
  · cases h
    exact .refl _

/-- Only releasing a held order makes an order paid or awaiting payment again. -/
theorem orderCall_steady {b : Billing.Store} {call : OrderCall} (h : call.exec b s = .ok s')
    (hclear : ∀ actor pk reason, call ≠ .clearFraud actor pk reason) :
    AllSteady s.orders s'.orders := by
  cases call with
  | markFraud actor pk reason =>
    simp only [OrderCall.exec, markFraud, bind_eq_ok, requirePerm_eq_ok, exists_and_left,
      exists_const] at h
    exact transition_steady h.2 (by decide)
  | clearFraud actor pk reason => exact absurd rfl (hclear actor pk reason)
  | claimOrder pk => exact claimOrder_steady h
  | finishOrder pk failures => exact finishOrder_steady h
  | resetOrder pk stuck => exact resetOrder_steady h
  | suspendOrder actor pk reason failures =>
    simp only [OrderCall.exec, suspendOrder, bind_eq_ok, requirePerm_eq_ok, ensure_eq_ok,
      exists_and_left, exists_const] at h
    obtain ⟨_, _, _, _, _, _, h⟩ := h
    exact transition_steady h (by decide)
  | unsuspendOrder actor pk failures =>
    simp only [OrderCall.exec, unsuspendOrder, bind_eq_ok, requirePerm_eq_ok, ensure_eq_ok,
      exists_and_left, exists_const] at h
    obtain ⟨_, _, _, _, _, _, h⟩ := h
    exact transition_steady h (by decide)
  | terminateOrder actor pk reason failures =>
    simp only [OrderCall.exec, terminateOrder, bind_eq_ok, requirePerm_eq_ok, ensure_eq_ok,
      exists_and_left, exists_const] at h
    obtain ⟨_, _, _, _, _, _, h⟩ := h
    exact transition_steady h (by decide)

/-- Releasing a held order: paid if its invoice was paid or refunded, else awaiting payment. -/
theorem clearFraud_moved {actor : Actor} {reason : String} {b : Billing.Store}
    (h : clearFraud actor pk reason b s = .ok s') :
    ∃ order reason, s.orders.get? pk = some order ∧ order.status = .fraud
      ∧ s'.orders = s.orders.put pk
        (order.moved (if isPaid b pk then .paid else .pendingPayment) reason) := by
  unfold clearFraud at h
  simp only [bind_eq_ok, requirePerm_eq_ok, ensure_eq_ok, lockOrder_eq_ok, exists_and_left,
    exists_const] at h
  obtain ⟨_, order, horder, hfraud, htransition⟩ := h
  cases transition_moved htransition with
  | stay horder' hstatus =>
    cases horder.symm.trans horder'
    rw [hfraud] at hstatus
    split at hstatus <;> cases hstatus
  | move reason horder' =>
    cases horder.symm.trans horder'
    exact ⟨order, reason, horder, hfraud, rfl⟩

theorem orderCall_totals {b : Billing.Store} {call : OrderCall} (h : call.exec b s = .ok s') :
    SameTotals s.orders s'.orders := by
  by_cases hclear : ∃ actor pk reason, call = .clearFraud actor pk reason
  · obtain ⟨actor, pk, reason, rfl⟩ := hclear
    obtain ⟨order, reason', horder, _, heq⟩ := clearFraud_moved h
    rw [heq]
    exact .put horder (moved_total _ _ _)
  · push Not at hclear
    exact (orderCall_steady h hclear).totals

end Lifecycle

/-! ### Every call -/

/-- Only checkout saves an invoice for an order. -/
theorem may_create {panel : Panel} {a : Act} {pk : ℕ} {l : Ledger} (h : a.May panel pk .create l)
    (ha : ∀ w actor cart methodCode agreed, a ≠ .checkout w actor cart methodCode agreed) :
    l.invoice.order = none := by
  cases a with
  | billing w call =>
    cases call with
    | cancelInvoice => exact absurd h.2.1 (by decide)
    | refundPayment => exact absurd h.2 (by decide)
    | handleWebhook =>
      obtain ⟨event, _, hmay⟩ := h
      exact absurd hmay.1 (by decide)
    | _ => exact h.2.2 rfl
  | checkout w actor cart methodCode agreed => exact absurd rfl (ha w actor cart methodCode agreed)
  | _ => exact h.2.2 rfl

/-- What a call writes of its own keeps the totals of the orders, but for a new order. -/
theorem Own.totals {panel panel₁ : Panel} {a : Act} {events : List Renewals.Event}
    (h : Own panel a panel₁ events)
    (ha : ∀ w actor cart methodCode agreed, a ≠ .checkout w actor cart methodCode agreed) :
    SameTotals panel.orders.orders panel₁.orders.orders := by
  cases h with
  | checkout => exact absurd rfl (ha _ _ _ _ _)
  | cancelOrder h => exact moved_totals h
  | order h => exact orderCall_totals h
  | _ => exact .refl _

theorem answer_totals {b : Billing.Store} {signals : List Signal} {t t' : Table Order}
    (h : Table.Related (Answer b signals) t t') : SameTotals t t' :=
  Table.Related.mono (fun _ _ _ hanswer => hanswer.total) h

/-- The orders and invoices of a panel are linked. -/
abbrev Panel.Linked (panel : Panel) : Prop :=
  Site.Linked panel.billing.invoices panel.orders.orders

/-- **Every committed call keeps orders and invoices linked.** -/
theorem Panel.Linked.exec {panel panel' : Panel} {a : Act} {events : List Event}
    (hlinked : panel.Linked) (hs : Kept panel.billing)
    (h : Site.exec a panel = .ok (panel', events)) : panel'.Linked := by
  by_cases ha : ∃ w actor cart methodCode agreed, a = .checkout w actor cart methodCode agreed
  · obtain ⟨w, actor, cart, methodCode, agreed, rfl⟩ := ha
    obtain ⟨order, carts, b, l, l', signals, _, horder, htotal, hsaved, hreacts⟩ := checkout_steps h
    have hnew := hlinked.checkout hsaved.step horder htotal
    rw [← hsaved.invoices] at hnew
    have hrel := answer_totals hreacts.orders
    show Site.Linked panel'.billing.invoices panel'.orders.orders
    rw [hreacts.billing]
    exact hnew.orders_related hrel
  · push Not at ha
    obtain ⟨panel₁, own, rest, hown, heffect, _⟩ := exec_effect hs h
    have h₁ : panel₁.Linked := by
      show Site.Linked panel₁.billing.invoices panel₁.orders.orders
      rw [hown.billing_eq]
      exact hlinked.orders_related (hown.totals ha)
    exact (h₁.moves (fun pk l hmay => may_create hmay ha) heffect.invoices).orders_related
      (answer_totals heffect.orders)

end WPanel.Site
