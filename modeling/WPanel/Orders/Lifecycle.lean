import WPanel.Orders.Models

namespace WPanel.Orders

open WPanel.Lib WPanel.Billing

/-!
# The order lifecycle

`orders/lifecycle.py`, the staff actions of `orders/staff_actions.py`, the status changes of
`orders/fulfilment.py` and the reactions to billing signals of `orders/signals.py`.

* `allowed` / `transition` — every status change goes through `transition`, which refuses a
  move the table does not allow;
* `markFraud`, `clearFraud` — hold an order, and release it again;
* `markOrderPaid`, `cancelUnpaidOrder` — what an order does when its invoice is paid or
  cancelled;
* `transition_moved` — the only thing a transition can do;
* `Answered` — what an order does when its invoice is announced as paid or cancelled.

The work between the two halves of a fulfilment (hosting servers, registrars) is not
modelled: its outcome, the list of what failed, is an argument.
-/

/-- The moves the lifecycle allows from each status. -/
def allowed : OrderStatus → List OrderStatus
  | .draft => [.pendingPayment, .cancelled]
  | .pendingPayment => [.paid, .cancelled, .fraud]
  | .paid => [.processing, .fraud]
  | .processing => [.provisioning, .failed]
  | .provisioning => [.active, .failed]
  | .active => [.suspended, .terminated]
  | .suspended => [.active, .terminated]
  | .failed => [.processing, .fraud, .cancelled]
  | .fraud => [.pendingPayment, .paid, .cancelled]
  | .cancelled => []
  | .terminated => []

/-- `Order.objects.select_for_update().get(pk=pk)`. -/
def lockOrder (s : Store) (pk : ℕ) : Except Err Order :=
  match s.orders.get? pk with
  | some order => .ok order
  | none => .error (.doesNotExist "Order")

/-- The order in its new status, with the reason it was given. -/
def Order.moved (order : Order) (new : OrderStatus) (reason : String) : Order :=
  if new = .cancelled then { order with status := new, cancelReason := reason }
  else { order with status := new, statusReason := reason }

/-- Move an order to `new`.  A move to the status it already has changes nothing. -/
def transition (s : Store) (pk : ℕ) (new : OrderStatus) (reason : String := "") :
    Except Err Store := do
  let order ← lockOrder s pk
  if order.status = new then return s
  else
    ensure (new ∈ allowed order.status)
      (.service ("An order that is " ++ order.status.label.map Char.toLower ++ " cannot become "
        ++ new.label.map Char.toLower ++ ".") "invalid_transition" 409)
    return { s with orders := s.orders.put pk (order.moved new (clip 500 (strip reason))) }

def invalidStatus (message : String) : Err := serviceError message "invalid_status"

/-! ### Fraud -/

/-- `_is_paid`: an invoice of the order is paid or refunded. -/
def isPaid (b : Billing.Store) (pk : ℕ) : Bool :=
  b.invoices.entries.any fun (_, l) =>
    l.invoice.order = some pk && (l.invoice.status = .paid || l.invoice.status = .refunded)

/-- Hold an order as suspected fraud. -/
def markFraud (actor : Actor) (pk : ℕ) (reason : String) (s : Store) : Except Err Store := do
  requirePerm actor .manageOrders
  transition s pk .fraud reason

/-- Release a held order: it resumes as paid if its invoice was paid, else as awaiting
    payment. -/
def clearFraud (actor : Actor) (pk : ℕ) (reason : String) (b : Billing.Store) (s : Store) :
    Except Err Store := do
  requirePerm actor .manageOrders
  let order ← lockOrder s pk
  ensure (order.status = .fraud) (invalidStatus "This order is not being held as fraud.")
  transition s pk (if isPaid b pk then .paid else .pendingPayment) reason

/-! ### Fulfilment -/

/-- The first half of `fulfil_order`: claim a paid or failed order.  `none` when there is
    nothing to fulfil. -/
def claimOrder (pk : ℕ) (s : Store) : Except Err Store := do
  let order ← lockOrder s pk
  if order.status = .paid ∨ order.status = .failed then
    let s ← transition s pk .processing
    transition s pk .provisioning
  else return s

/-- The second half of `fulfil_order`: record how it went. -/
def finishOrder (pk : ℕ) (failures : List String) (s : Store) : Except Err Store := do
  let order ← lockOrder s pk
  if order.status ≠ .provisioning then return s
  else if failures ≠ [] then transition s pk .failed ("; ".intercalate failures)
  else transition s pk .active

/-- The second loop of `sweep`: fail an order stuck in mid-fulfilment.  `stuck` says that the
    row has not been written for too long. -/
def resetOrder (pk : ℕ) (stuck : Bool) (s : Store) : Except Err Store := do
  let order ← lockOrder s pk
  if (order.status = .processing ∨ order.status = .provisioning) ∧ stuck then
    let s ← (if order.status = .processing then transition s pk .provisioning else .ok s)
    transition s pk .failed "Fulfilment was interrupted. Retry it."
  else return s

/-- `_cascade`: the change made to every service of the order must have succeeded. -/
def requireCascade (label : String) (failures : List String) : Except Err Unit :=
  ensure (failures = [])
    (serviceError ("Could not " ++ label ++ " every service, so the order was left as it is. "
      ++ "; ".intercalate failures ++ " Fix that and run it again.") "cascade_failed")

/-- Suspend an active order. -/
def suspendOrder (actor : Actor) (pk : ℕ) (reason : String) (failures : List String) (s : Store) :
    Except Err Store := do
  requirePerm actor .manageOrders
  let order ← lockOrder s pk
  ensure (order.status = .active) (invalidStatus "Only an active order can be suspended.")
  requireCascade "suspend" failures
  transition s pk .suspended reason

/-- Reactivate a suspended order. -/
def unsuspendOrder (actor : Actor) (pk : ℕ) (failures : List String) (s : Store) :
    Except Err Store := do
  requirePerm actor .manageOrders
  let order ← lockOrder s pk
  ensure (order.status = .suspended) (invalidStatus "Only a suspended order can be reactivated.")
  requireCascade "reactivate" failures
  transition s pk .active

/-- Terminate an order.  Final. -/
def terminateOrder (actor : Actor) (pk : ℕ) (reason : String) (failures : List String)
    (s : Store) : Except Err Store := do
  requirePerm actor .manageOrders
  let order ← lockOrder s pk
  ensure (order.status = .active ∨ order.status = .suspended)
    (invalidStatus "Only an active or suspended order can be terminated.")
  requireCascade "terminate" failures
  transition s pk .terminated reason

/-! ### Reactions to billing -/

/-- An order awaiting payment becomes paid with its invoice.  One that is already paid,
    cancelled or held as fraud stays as it is: payment alone does not release it. -/
def markOrderPaid (invoice : Invoice) (s : Store) : Except Err Store :=
  match invoice.order with
  | none => .ok s
  | some pk => do
    let order ← lockOrder s pk
    if order.status ≠ .pendingPayment then return s
    else transition s pk .paid

/-- An order awaiting payment is cancelled with its invoice. -/
def cancelUnpaidOrder (invoice : Invoice) (reason : String) (s : Store) : Except Err Store :=
  match invoice.order with
  | none => .ok s
  | some pk => do
    let order ← lockOrder s pk
    if order.status ≠ .pendingPayment then return s
    else transition s pk .cancelled (if reason = "" then "Invoice cancelled." else reason)

/-! ### What a transition does -/

theorem lockOrder_eq_ok {s : Store} {pk : ℕ} {order : Order} :
    lockOrder s pk = .ok order ↔ s.orders.get? pk = some order := by
  unfold lockOrder
  cases s.orders.get? pk <;> simp

@[simp] theorem moved_status (order : Order) (new : OrderStatus) (reason : String) :
    (order.moved new reason).status = new := by
  unfold Order.moved
  split <;> rfl

@[simp] theorem moved_total (order : Order) (new : OrderStatus) (reason : String) :
    (order.moved new reason).total = order.total := by
  unfold Order.moved
  split <;> rfl

/-- The order `pk` moves to `new`, or already is there; nothing else changes. -/
inductive Moved (s : Store) (pk : ℕ) (new : OrderStatus) : Store → Prop
  | stay {order : Order} (horder : s.orders.get? pk = some order) (hstatus : order.status = new) :
      Moved s pk new s
  | move {order : Order} (reason : String) (horder : s.orders.get? pk = some order)
      (hstatus : order.status ≠ new) (hallowed : new ∈ allowed order.status) :
      Moved s pk new { s with orders := s.orders.put pk (order.moved new reason) }

theorem transition_moved {s s' : Store} {pk : ℕ} {new : OrderStatus} {reason : String}
    (h : transition s pk new reason = .ok s') : Moved s pk new s' := by
  unfold transition at h
  simp only [bind_eq_ok, lockOrder_eq_ok] at h
  obtain ⟨order, horder, h⟩ := h
  split at h
  · next hstatus =>
    rw [pure_eq_ok] at h
    exact h ▸ .stay horder hstatus
  · next hstatus =>
    simp only [bind_eq_ok, ensure_eq_ok, exists_and_left, exists_const, pure_eq_ok] at h
    obtain ⟨hallowed, rfl⟩ := h
    exact .move _ horder hstatus hallowed

/-! ### What an announced invoice does -/

/-- An order that was awaiting payment moves to `new`; any other stays as it is. -/
inductive Answered (s : Store) (pk : ℕ) (new : OrderStatus) : Store → Prop
  | stay {order : Order} (horder : s.orders.get? pk = some order)
      (hstatus : order.status ≠ .pendingPayment) : Answered s pk new s
  | move {order : Order} (reason : String) (horder : s.orders.get? pk = some order)
      (hstatus : order.status = .pendingPayment) :
      Answered s pk new { s with orders := s.orders.put pk (order.moved new reason) }

/-- The guard both reactions share, and the transition after it. -/
private theorem answered_of_guard {s s' : Store} {pk : ℕ} {new : OrderStatus} {reason : String}
    (hnew : new ≠ .pendingPayment)
    (h : (lockOrder s pk >>= fun order =>
      if order.status ≠ OrderStatus.pendingPayment then pure s else transition s pk new reason)
        = .ok s') : Answered s pk new s' := by
  simp only [bind_eq_ok, lockOrder_eq_ok] at h
  obtain ⟨order, horder, h⟩ := h
  split at h
  · next hstatus =>
    rw [pure_eq_ok] at h
    exact h ▸ .stay horder hstatus
  · next hstatus =>
    have hpending := not_not.mp hstatus
    cases transition_moved h with
    | stay horder' hnew' =>
      cases horder.symm.trans horder'
      exact absurd (hnew'.symm.trans hpending) hnew
    | move reason horder' =>
      cases horder.symm.trans horder'
      exact .move reason horder hpending

theorem markOrderPaid_eq_ok {invoice : Invoice} {s s' : Store}
    (h : markOrderPaid invoice s = .ok s') :
    (invoice.order = none ∧ s' = s) ∨ ∃ pk, invoice.order = some pk ∧ Answered s pk .paid s' := by
  unfold markOrderPaid at h
  cases horder : invoice.order with
  | none =>
    rw [horder] at h
    exact .inl ⟨rfl, (Except.ok.inj h).symm⟩
  | some pk =>
    rw [horder] at h
    exact .inr ⟨pk, rfl, answered_of_guard (by decide) h⟩

theorem cancelUnpaidOrder_eq_ok {invoice : Invoice} {reason : String} {s s' : Store}
    (h : cancelUnpaidOrder invoice reason s = .ok s') :
    (invoice.order = none ∧ s' = s) ∨
      ∃ pk, invoice.order = some pk ∧ Answered s pk .cancelled s' := by
  unfold cancelUnpaidOrder at h
  cases horder : invoice.order with
  | none =>
    rw [horder] at h
    exact .inl ⟨rfl, (Except.ok.inj h).symm⟩
  | some pk =>
    rw [horder] at h
    exact .inr ⟨pk, rfl, answered_of_guard (by decide) h⟩

end WPanel.Orders
