import WPanel.Lib.Interleaving
import WPanel.Orders.Lifecycle

namespace WPanel.Fulfilment

open WPanel.Lib WPanel.Billing WPanel.Orders

/-!
# Turning a paid order into services

`orders/fulfilment.py`, one committed transaction at a time: the claim of an order, the reading
of its lines, the request for each line, the outcome of the slow calls, and the end.  Between
any two of them other workers, the sweeper and the rest of the panel may write.

* `Line`, `HostingAccount`, `Domain` — the rows fulfilment writes.  An account and a domain carry
  the line they were created for;
* `Phase`, `Worker` — where a worker is in `fulfil_order`, with the rows it has read;
* `Worker.next` — its steps, and its death;
* `Meanwhile` — what else changes an order or a domain;
* `fulfilling` — any number of workers, on any orders.

What the catalogue, the hosting server and the registrar answer is an argument of the steps
that ask them.
-/

inductive FulfilmentStatus where
  | pending
  | done
  | failed
  deriving DecidableEq, Repr

/-- An `OrderItem` as fulfilment sees it: what was sold, and what it has become. -/
structure Line where
  order : ℕ
  item : OrderItem
  /-- For an add-on, the line of the plan it goes with. -/
  parent : Option ℕ := none
  hostingAccount : Option ℕ := none
  domain : Option ℕ := none
  fulfilmentStatus : FulfilmentStatus := .pending
  fulfilmentError : String := ""
  deriving DecidableEq, Repr

/-- A hosting account created for the line `line`. -/
structure HostingAccount where
  line : ℕ
  client : ℕ
  product : Option ℕ
  domain : String
  deriving DecidableEq, Repr

/-- A domain, created for the line `line` or by hand.  `live` says that its status is one of
    `LIVE_STATUSES`. -/
structure Domain where
  line : Option ℕ
  client : ℕ
  name : String
  years : ℕ
  live : Bool := true
  deriving DecidableEq, Repr

structure Store where
  orders : Orders.Store := {}
  lines : Table Line := {}
  accounts : Table HostingAccount := {}
  domains : Table Domain := {}
  deriving DecidableEq

/-- `order.items.order_by("id")`. -/
def Store.linesOf (s : Store) (order : ℕ) : List (ℕ × Line) :=
  s.lines.entries.filter fun (_, line) => line.order = order

/-- `order.items.exclude(fulfilment_status=DONE)`, which `verify_order` reports for an active or
    suspended order. -/
def Store.undone (s : Store) (order : ℕ) : List (ℕ × Line) :=
  (s.linesOf order).filter fun (_, line) => line.fulfilmentStatus ≠ .done

/-- `OrderItem.objects.filter(pk=pk).update(…)`. -/
def Store.updateLine (s : Store) (pk : ℕ) (f : Line → Line) : Store :=
  { s with lines := s.lines.updateKeys [pk] f }

/-! ### The requests -/

/-- The message of an exception, as it is recorded on a line. -/
def errorText : Err → String
  | .service message _ _ => message
  | _ => "An unexpected error occurred."

/-- `request_hosting` and the line that points to the account, in one transaction. -/
def createHosting (answer : Except Err Unit) (client pk : ℕ) (line : Line) (s : Store) :
    Except Err Store := do
  answer
  let account : HostingAccount :=
    { line := pk, client, product := line.item.product, domain := line.item.domainName }
  let saved := { s with accounts := s.accounts.insert account }
  return saved.updateLine pk fun row => { row with hostingAccount := some s.accounts.nextPk }

/-- A domain of this name is created, unless a live one has it (`unique_live_domain_name`). -/
def createDomain (domain : Domain) (s : Store) : Except Err Store := do
  let taken := s.domains.entries.any fun (_, other) => other.live && other.name = domain.name
  ensure (taken = false) (.invalid "Domain" ["__all__"])
  return { s with domains := s.domains.insert domain }

/-- `request_registration` and the line that points to the domain, in one transaction. -/
def createRegistration (answer : Except Err Unit) (client pk : ℕ) (line : Line) (s : Store) :
    Except Err Store := do
  answer
  let name := (strip line.item.domainName).map Char.toLower
  let saved ← createDomain { line := some pk, client, name, years := line.item.years } s
  return saved.updateLine pk fun row => { row with domain := some s.domains.nextPk }

/-- `request_transfer_in` and the line that points to the domain, in one transaction.  The
    domain holds the authorization code from then on. -/
def createTransfer (answer : Except Err Unit) (client pk : ℕ) (line : Line) (s : Store) :
    Except Err Store := do
  ensure (line.item.authCodeEncrypted ≠ "")
    (serviceError "An authorization code is required." "auth_code_required")
  answer
  let name := (strip line.item.domainName).map Char.toLower
  let saved ← createDomain { line := some pk, client, name, years := line.item.years } s
  return saved.updateLine pk fun row =>
    { row with domain := some s.domains.nextPk, item.authCodeEncrypted := "" }

/-- How the handler of a line comes to its slow calls, or ends before them. -/
inductive Taken where
  /-- The plan of an add-on is not done (`_Waiting`). -/
  | waiting
  | refused (e : Err)
  | done
  | requested (s : Store)

/-- The handlers up to their slow calls.  They go by the copy of the line the worker has read;
    only an add-on looks at the database again. -/
def handle (answer : Except Err Unit) (client pk : ℕ) (line : Line) (s : Store) : Taken :=
  let create := fun (service : Option ℕ)
      (f : Except Err Unit → ℕ → ℕ → Line → Store → Except Err Store) =>
    if service.isSome then .requested s
    else match f answer client pk line s with
      | .error e => .refused e
      | .ok s => .requested s
  match line.item.kind with
  | .hosting => create line.hostingAccount createHosting
  | .addon =>
    let parentDone := (line.parent.bind s.lines.get?).any fun plan => plan.fulfilmentStatus = .done
    if parentDone then .done else .waiting
  | .domainRegister => create line.domain createRegistration
  | .domainTransfer => create line.domain createTransfer

/-! ### The workers -/

/-- Where a worker is in `fulfil_order`. -/
inductive Phase where
  | claiming
  | reading
  /-- These lines are still to be served, and so many have failed. -/
  | working (todo : List (ℕ × Line)) (failures : List String)
  /-- The slow calls for the line `pk` are under way. -/
  | serving (pk : ℕ) (line : Line) (todo : List (ℕ × Line)) (failures : List String)
  /-- They are over, with an error message or `none`. -/
  | answered (pk : ℕ) (line : Line) (error : Option String) (todo : List (ℕ × Line))
      (failures : List String)
  | finishing (failures : List String)
  | over
  deriving DecidableEq

structure Worker where
  order : ℕ
  /-- The client of the order, once it was claimed. -/
  client : ℕ := 0
  phase : Phase := .claiming
  deriving DecidableEq

/-- What a worker does next. -/
inductive Worker.Step where
  | claim
  | read
  | take (answer : Except Err Unit)
  | answer (answer : Except Err Unit)
  | record
  | check
  | finish
  /-- The worker is killed. -/
  | die

/-- Where `fulfil_order` is called. -/
inductive Origin where
  /-- By the queue, or by the first loop of `sweep`. -/
  | queued (order : ℕ)
  | retried (actor : Actor) (order : ℕ)

/-- A step that is not due. -/
def notDue : Err := .unexpected "This step is not due."

/-- `fulfil_order` is called; `retry_fulfilment` first looks whether the order has failed. -/
def Worker.start (origin : Origin) (s : Store) : Except Err (Store × Worker) :=
  match origin with
  | .queued order => .ok (s, { order })
  | .retried actor pk => do
    requirePerm actor .manageOrders
    let order ← lockOrder s.orders pk
    ensure (order.status = .failed)
      (invalidStatus "Only an order whose fulfilment failed can be retried.")
    return (s, { order := pk })

/-- The steps of `fulfil_order`. -/
def Worker.next (step : Worker.Step) (s : Store) (w : Worker) : Except Err (Store × Worker) :=
  match step, w.phase with
  | .claim, .claiming => do
    let order ← lockOrder s.orders w.order
    let orders ← claimOrder w.order s.orders
    if order.status = .paid ∨ order.status = .failed then
      return ({ s with orders }, { w with client := order.client, phase := .reading })
    else return (s, { w with phase := .over })
  | .read, .reading => .ok (s, { w with phase := .working (s.linesOf w.order) [] })
  | .take answer, .working ((pk, line) :: todo) failures =>
    if line.fulfilmentStatus = .done then .ok (s, { w with phase := .working todo failures })
    else match handle answer w.client pk line s with
      | .waiting => .ok (s, { w with phase := .working todo failures })
      | .refused e =>
        .ok (s, { w with phase := .answered pk line (some (errorText e)) todo failures })
      | .done => .ok (s, { w with phase := .answered pk line none todo failures })
      | .requested s => .ok (s, { w with phase := .serving pk line todo failures })
  | .answer (.ok _), .serving pk line todo failures =>
    .ok (s, { w with phase := .answered pk line none todo failures })
  | .answer (.error e), .serving pk line todo failures =>
    .ok (s, { w with phase := .answered pk line (some (errorText e)) todo failures })
  | .record, .answered pk _ none todo failures =>
    .ok (s.updateLine pk fun row => { row with fulfilmentStatus := .done, fulfilmentError := "" },
      { w with phase := .working todo failures })
  | .record, .answered pk line (some error) todo failures =>
    .ok (s.updateLine pk fun row =>
        { row with fulfilmentStatus := .failed, fulfilmentError := clip 500 error },
      { w with phase := .working todo (failures ++ [line.item.description ++ ": " ++ error]) })
  | .check, .working [] failures =>
    if failures = [] ∧ s.undone w.order ≠ [] then
      .ok (s, { w with phase := .finishing ["Some lines are still waiting to be fulfilled."] })
    else .ok (s, { w with phase := .finishing failures })
  | .finish, .finishing failures => do
    let orders ← finishOrder w.order failures s.orders
    return ({ s with orders }, { w with phase := .over })
  | .die, _ => .ok (s, { w with phase := .over })
  | _, _ => .error notDue

/-! ### The surroundings -/

/-- The lines of a new order, from the key `base` on: its items, in the order they were
    created. -/
def addLines (order base : ℕ) : List OrderItem → Table Line → Table Line
  | [], lines => lines
  | item :: items, lines =>
    addLines order base items
      (lines.insert { order, item, parent := item.parent.map fun place => base + place })

/-- An order is placed. -/
def Store.place (order : Order) (s : Store) : Store :=
  { s with
    orders := { s.orders with
      orders := s.orders.orders.insert { order with status := .pendingPayment } }
    lines := addLines s.orders.orders.nextPk s.lines.nextPk order.items s.lines }

/-- `cancel_order`, as far as the order itself is concerned. -/
def closeOrder (actor : Actor) (pk : ℕ) (reason : String) (s : Orders.Store) :
    Except Err Orders.Store := do
  let order ← lockOrder s pk
  ensure (actor.hasPerm .manageOrders = true ∨ actor.contactOf order.client = true) denied
  ensure (order.status = .pendingPayment ∨
      (actor.hasPerm .manageOrders = true ∧ (order.status = .fraud ∨ order.status = .failed)))
    (invalidStatus "Only an order that is awaiting payment can be cancelled.")
  transition s pk .cancelled reason

/-- What else is committed meanwhile. -/
inductive Meanwhile where
  | place (order : Order)
  | markOrderPaid (invoice : Invoice)
  | cancelUnpaidOrder (invoice : Invoice) (reason : String)
  | cancelOrder (actor : Actor) (pk : ℕ) (reason : String)
  | markFraud (actor : Actor) (pk : ℕ) (reason : String)
  | clearFraud (actor : Actor) (pk : ℕ) (reason : String) (b : Billing.Store)
  /-- The second loop of `sweep`. -/
  | resetOrder (pk : ℕ) (stuck : Bool)
  | suspendOrder (actor : Actor) (pk : ℕ) (reason : String) (failures : List String)
  | unsuspendOrder (actor : Actor) (pk : ℕ) (failures : List String)
  | terminateOrder (actor : Actor) (pk : ℕ) (reason : String) (failures : List String)
  /-- Staff ask for a domain that no order is about. -/
  | requestDomain (client : ℕ) (name : String) (years : ℕ)
  /-- The domain services write the status of a domain. -/
  | placeDomain (pk : ℕ) (live : Bool)

/-- The calls that change orders only. -/
def Meanwhile.onOrders (call : Meanwhile) (s : Orders.Store) : Except Err Orders.Store :=
  match call with
  | .markOrderPaid invoice => Orders.markOrderPaid invoice s
  | .cancelUnpaidOrder invoice reason => Orders.cancelUnpaidOrder invoice reason s
  | .cancelOrder actor pk reason => closeOrder actor pk reason s
  | .markFraud actor pk reason => Orders.markFraud actor pk reason s
  | .clearFraud actor pk reason b => Orders.clearFraud actor pk reason b s
  | .resetOrder pk stuck => Orders.resetOrder pk stuck s
  | .suspendOrder actor pk reason failures => Orders.suspendOrder actor pk reason failures s
  | .unsuspendOrder actor pk failures => Orders.unsuspendOrder actor pk failures s
  | .terminateOrder actor pk reason failures => Orders.terminateOrder actor pk reason failures s
  | _ => .ok s

def Meanwhile.exec (call : Meanwhile) (s : Store) : Except Err Store :=
  match call with
  | .place order => .ok (s.place order)
  | .requestDomain client name years => createDomain { line := none, client, name, years } s
  | .placeDomain pk live =>
    match s.domains.get? pk with
    | none => .error (.doesNotExist "Domain")
    | some domain => .ok { s with domains := s.domains.put pk { domain with live } }
  | call => do
    let orders ← call.onOrders s.orders
    return { s with orders }

/-- Workers on any orders, in any order of their steps. -/
def fulfilling : Interleaving Store Worker Origin Worker.Step Meanwhile Err where
  start := Worker.start
  step := Worker.next
  outside := Meanwhile.exec
  absent := notDue

end WPanel.Fulfilment
