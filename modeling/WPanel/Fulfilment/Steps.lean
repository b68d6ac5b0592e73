import WPanel.Fulfilment.Workers

namespace WPanel.Fulfilment

open WPanel.Lib WPanel.Billing WPanel.Orders

/-!
# What a step of a fulfilment does

A worker goes by the copies it has read.  As long as they are the rows as they are, it creates a
service only for a line that has none, and writes only lines that are not done.

* `OneEach` — a line has one hosting account and one domain at most;
* `Served`, `DoneStays` — the lines of an active or suspended order are all done, and a line
  that is done stays done;
* `Calm` — what the moves of an order may do to these;
* `Did`, `Worker.next_did` — what one step of a worker can do;
* `Sound` — what holds of the rows, `Worker.Knows` — what a worker knows of them;
* `Did.sound`, `Did.knows`, `Writes.knows` — a step keeps both, and disturbs no worker that is
  not busy with the same order;
* `exec_cases` — what the surroundings can do.
-/

/-- The worker has claimed its order and goes through its lines. -/
def Worker.busy (w : Worker) : Bool :=
  match w.phase with
  | .reading | .working .. | .serving .. | .answered .. => true
  | _ => false

/-- At most one hosting account and one domain was created for a line. -/
structure OneEach (s : Store) : Prop where
  accounts : ∀ k k' a a', s.accounts.get? k = some a → s.accounts.get? k' = some a' →
    a.line = a'.line → k = k'
  domains : ∀ k k' d d' pk, s.domains.get? k = some d → s.domains.get? k' = some d' →
    d.line = some pk → d'.line = some pk → k = k'

/-- The order is active or suspended. -/
def Delivered (order : Order) : Prop := order.status = .active ∨ order.status = .suspended

/-- Every line of an active or suspended order is done. -/
def Served (s : Store) : Prop :=
  ∀ pk order, s.orders.orders.get? pk = some order → Delivered order → s.undone pk = []

/-- A line that is done stays done. -/
def DoneStays (s s' : Store) : Prop :=
  ∀ pk line, s.lines.get? pk = some line → line.fulfilmentStatus = .done →
    ∃ line', s'.lines.get? pk = some line' ∧ line'.fulfilmentStatus = .done

/-! ### The rows of an order -/

/-- Every line of the order is done. -/
def Store.AllDone (s : Store) (order : ℕ) : Prop :=
  ∀ pk line, s.lines.get? pk = some line → line.order = order → line.fulfilmentStatus = .done

section

variable {s s' : Store} {order pk : ℕ} {line : Line}

theorem mem_linesOf : (pk, line) ∈ s.linesOf order ↔
    s.lines.get? pk = some line ∧ line.order = order := by
  unfold Store.linesOf
  rw [List.mem_filter, Table.mem_entries, decide_eq_true_eq]

theorem nodup_linesOf (s : Store) (order : ℕ) : ((s.linesOf order).map Prod.fst).Nodup :=
  List.Nodup.sublist (List.Sublist.map _ List.filter_sublist) s.lines.nodup_keys_entries

theorem undone_eq_nil : s.undone order = [] ↔ s.AllDone order := by
  unfold Store.undone
  rw [List.filter_eq_nil_iff]
  constructor
  · intro h pk line hline horder
    simpa using h (pk, line) (mem_linesOf.mpr ⟨hline, horder⟩)
  · rintro h ⟨pk, line⟩ hmem
    obtain ⟨hline, horder⟩ := mem_linesOf.mp hmem
    simpa using h pk line hline horder

theorem get?_updateLine (f : Line → Line) (hline : s.lines.get? pk = some line) (q : ℕ) :
    (s.updateLine pk f).lines.get? q = if q = pk then some (f line) else s.lines.get? q := by
  show (s.lines.updateKeys [pk] f).get? q = _
  rw [Table.get?_updateKeys]
  by_cases hq : q = pk
  · subst hq
    rw [if_pos (List.mem_singleton.mpr rfl), if_pos rfl, hline]
    rfl
  · rw [if_neg fun h => hq (List.mem_singleton.mp h), if_neg hq]

end

/-! ### The orders -/

/-- Every order is still there, and one became active or suspended only where `ready` allows. -/
def Calm (ready : ℕ → Prop) (t t' : Table Order) : Prop :=
  Table.Related (fun pk order order' => Delivered order' → Delivered order ∨ ready pk) t t'

section

variable {ready ready' : ℕ → Prop} {t t' t'' : Table Order} {s s' : Orders.Store} {pk : ℕ}
  {new : OrderStatus}

theorem Calm.refl (ready : ℕ → Prop) (t : Table Order) : Calm ready t t :=
  Table.Related.refl (fun _ _ h => .inl h) t

theorem Calm.trans (h : Calm ready t t') (h' : Calm ready t' t'') : Calm ready t t'' := by
  refine Table.Related.trans (fun pk a b c hab hbc hc => ?_) h h'
  exact (hbc hc).elim hab .inr

theorem Calm.mono (hready : ∀ pk, ready pk → ready' pk) (h : Calm ready t t') :
    Calm ready' t t' :=
  Table.Related.mono (fun pk _ _ hab hb => (hab hb).imp_right (hready pk)) h

/-- A transition away from, or between, the two statuses is calm; one to them has to be
    allowed. -/
theorem moved_calm (h : Moved s pk new s')
    (hnew : ∀ order, s.orders.get? pk = some order → new = .active ∨ new = .suspended →
      Delivered order ∨ ready pk) : Calm ready s.orders s'.orders := by
  cases h with
  | stay => exact .refl _ _
  | move reason horder hstatus hallowed =>
    refine Table.Related.put (fun _ _ h => .inl h) horder fun hdelivered => ?_
    unfold Delivered at hdelivered
    rw [moved_status] at hdelivered
    exact hnew _ horder hdelivered

theorem transition_calm {reason : String} (h : transition s pk new reason = .ok s')
    (hnew : ¬(new = .active ∨ new = .suspended)) : Calm ready s.orders s'.orders :=
  moved_calm (transition_moved h) fun _ _ h => absurd h hnew

/-- A claim moves a paid or failed order to provisioning, and leaves any other alone. -/
theorem claimOrder_calm (h : claimOrder pk s = .ok s') : Calm ready s.orders s'.orders := by
  unfold claimOrder at h
  simp only [bind_eq_ok, lockOrder_eq_ok] at h
  obtain ⟨order, _, h⟩ := h
  split at h
  · rw [bind_eq_ok] at h
    obtain ⟨between, hprocessing, hprovisioning⟩ := h
    exact (transition_calm hprocessing (by decide)).trans
      (transition_calm hprovisioning (by decide))
  · rw [pure_eq_ok] at h
    exact h ▸ .refl _ _

theorem finishOrder_calm {failures : List String} (h : finishOrder pk failures s = .ok s')
    (hready : failures = [] → ready pk) : Calm ready s.orders s'.orders := by
  unfold finishOrder at h
  simp only [bind_eq_ok, lockOrder_eq_ok] at h
  obtain ⟨order, horder, h⟩ := h
  split at h
  · rw [pure_eq_ok] at h
    exact h ▸ .refl _ _
  · split at h
    · exact transition_calm h (by decide)
    · next hfailures =>
      exact moved_calm (transition_moved h) fun _ _ _ => .inr (hready (not_not.mp hfailures))

theorem resetOrder_calm {stuck : Bool} (h : resetOrder pk stuck s = .ok s') :
    Calm ready s.orders s'.orders := by
  unfold resetOrder at h
  simp only [bind_eq_ok, lockOrder_eq_ok] at h
  obtain ⟨order, _, h⟩ := h
  split at h
  · rw [bind_eq_ok] at h
    obtain ⟨between, hbetween, hfailed⟩ := h
    refine Calm.trans ?_ (transition_calm hfailed (by decide))
    split at hbetween
    · exact transition_calm hbetween (by decide)
    · cases hbetween
      exact .refl _ _
  · rw [pure_eq_ok] at h
    exact h ▸ .refl _ _

theorem answered_calm (h : Answered s pk new s') (hnew : ¬(new = .active ∨ new = .suspended)) :
    Calm ready s.orders s'.orders := by
  cases h with
  | stay => exact .refl _ _
  | move reason horder =>
    refine Table.Related.put (fun _ _ h => .inl h) horder fun hdelivered => ?_
    unfold Delivered at hdelivered
    rw [moved_status] at hdelivered
    exact absurd hdelivered hnew

/-- The surroundings make no order active or suspended that was neither. -/
theorem onOrders_calm {call : Meanwhile} (h : call.onOrders s = .ok s') :
    Calm ready s.orders s'.orders := by
  cases call with
  | markOrderPaid invoice =>
    rcases markOrderPaid_eq_ok h with ⟨_, rfl⟩ | ⟨pk, _, hanswered⟩
    · exact .refl _ _
    · exact answered_calm hanswered (by decide)
  | cancelUnpaidOrder invoice reason =>
    rcases cancelUnpaidOrder_eq_ok h with ⟨_, rfl⟩ | ⟨pk, _, hanswered⟩
    · exact .refl _ _
    · exact answered_calm hanswered (by decide)
  | cancelOrder actor pk reason =>
    simp only [Meanwhile.onOrders, closeOrder, bind_eq_ok, ensure_eq_ok, exists_and_left,
      exists_const] at h
    obtain ⟨_, _, _, _, h⟩ := h
    exact transition_calm h (by decide)
  | markFraud actor pk reason =>
    simp only [Meanwhile.onOrders, Orders.markFraud, bind_eq_ok, requirePerm_eq_ok,
      exists_and_left, exists_const] at h
    exact transition_calm h.2 (by decide)
  | clearFraud actor pk reason b =>
    simp only [Meanwhile.onOrders, Orders.clearFraud, bind_eq_ok, requirePerm_eq_ok,
      ensure_eq_ok, exists_and_left, exists_const] at h
    obtain ⟨_, _, _, _, h⟩ := h
    exact transition_calm h (by split <;> decide)
  | resetOrder pk stuck => exact resetOrder_calm h
  | suspendOrder actor pk reason failures =>
    simp only [Meanwhile.onOrders, Orders.suspendOrder, bind_eq_ok, requirePerm_eq_ok,
      lockOrder_eq_ok, ensure_eq_ok, exists_and_left, exists_const] at h
    obtain ⟨_, order, horder, hactive, _, _, h⟩ := h
    refine moved_calm (transition_moved h) fun order' horder' _ => .inl (.inl ?_)
    rwa [Option.some.inj (horder'.symm.trans horder)]
  | unsuspendOrder actor pk failures =>
    simp only [Meanwhile.onOrders, Orders.unsuspendOrder, bind_eq_ok, requirePerm_eq_ok,
      lockOrder_eq_ok, ensure_eq_ok, exists_and_left, exists_const] at h
    obtain ⟨_, order, horder, hsuspended, _, _, h⟩ := h
    refine moved_calm (transition_moved h) fun order' horder' _ => .inl (.inr ?_)
    rwa [Option.some.inj (horder'.symm.trans horder)]
  | terminateOrder actor pk reason failures =>
    simp only [Meanwhile.onOrders, Orders.terminateOrder, bind_eq_ok, requirePerm_eq_ok,
      ensure_eq_ok, exists_and_left, exists_const] at h
    obtain ⟨_, _, _, _, _, _, h⟩ := h
    exact transition_calm h (by decide)
  | place order => cases h; exact .refl _ _
  | requestDomain client name years => cases h; exact .refl _ _
  | placeDomain pk live => cases h; exact .refl _ _

end

/-! ### What one step of a worker can do -/

/-- A line of the order that is not done is written; it stays a line of the order. -/
structure Wrote (s : Store) (order pk : ℕ) (line line' : Line) (s' : Store) : Prop where
  before : s.lines.get? pk = some line
  mine : line.order = order
  undone : line.fulfilmentStatus ≠ .done
  order_eq : line'.order = line.order
  after : ∀ q, s'.lines.get? q = if q = pk then some line' else s.lines.get? q

/-- What a request does for a line that was read as `line`. -/
inductive Requested (s : Store) (pk : ℕ) (line : Line) : Store → Prop
  /-- The line has its service already. -/
  | nothing : Requested s pk line s
  | account {a : HostingAccount} (hnone : line.hostingAccount = none) (hline : a.line = pk) :
      Requested s pk line (Store.updateLine { s with accounts := s.accounts.insert a } pk
        fun row => { row with hostingAccount := some s.accounts.nextPk })
  | domain {d : Domain} {f : Line → Line} (hnone : line.domain = none) (hline : d.line = some pk)
      (hf : ∀ row, (f row).order = row.order ∧ (f row).hostingAccount = row.hostingAccount
        ∧ (f row).domain = some s.domains.nextPk
        ∧ (f row).fulfilmentStatus = row.fulfilmentStatus) :
      Requested s pk line (Store.updateLine { s with domains := s.domains.insert d } pk f)

/-- What a worker can do in one step. -/
inductive Did (a : Worker.Step) (s : Store) (w : Worker) : Store → Worker → Prop
  /-- It claims its order. -/
  | claimed {order : Order} {orders : Orders.Store} (client : ℕ)
      (ha : a = .claim) (horder : s.orders.orders.get? w.order = some order)
      (hstatus : order.status = .paid ∨ order.status = .failed)
      (hcalm : Calm (fun _ => False) s.orders.orders orders.orders) :
      Did a s w { s with orders } { w with client, phase := .reading }
  | read (hphase : w.phase = .reading) :
      Did a s w s { w with phase := .working (s.linesOf w.order) [] }
  /-- It passes over a line that is done or has to wait. -/
  | passed {p : ℕ × Line} {todo : List (ℕ × Line)} {failures : List String}
      (hphase : w.phase = .working (p :: todo) failures) :
      Did a s w s { w with phase := .working todo failures }
  /-- It is through with a line without slow calls. -/
  | settled {pk : ℕ} {line : Line} {todo : List (ℕ × Line)} {failures : List String}
      (error : Option String) (hphase : w.phase = .working ((pk, line) :: todo) failures)
      (hundone : line.fulfilmentStatus ≠ .done) :
      Did a s w s { w with phase := .answered pk line error todo failures }
  | requested {s' : Store} {pk : ℕ} {line : Line} {todo : List (ℕ × Line)}
      {failures : List String} (hphase : w.phase = .working ((pk, line) :: todo) failures)
      (hundone : line.fulfilmentStatus ≠ .done) (hrequested : Requested s pk line s') :
      Did a s w s' { w with phase := .serving pk line todo failures }
  | answered {pk : ℕ} {line : Line} {todo : List (ℕ × Line)} {failures : List String}
      (error : Option String) (hphase : w.phase = .serving pk line todo failures) :
      Did a s w s { w with phase := .answered pk line error todo failures }
  | recorded {pk : ℕ} {line : Line} {error : Option String} {todo : List (ℕ × Line)}
      {failures : List String} {f : Line → Line} (failures' : List String)
      (hphase : w.phase = .answered pk line error todo failures)
      (hf : ∀ row, (f row).order = row.order ∧ (f row).hostingAccount = row.hostingAccount
        ∧ (f row).domain = row.domain) :
      Did a s w (s.updateLine pk f) { w with phase := .working todo failures' }
  /-- It has looked at the lines once more, and counts no failure only if all are done. -/
  | checked {failed failures : List String} (hphase : w.phase = .working [] failed)
      (hfailures : failures = [] → s.undone w.order = []) :
      Did a s w s { w with phase := .finishing failures }
  | finished {orders : Orders.Store} {failures : List String}
      (hphase : w.phase = .finishing failures)
      (hcalm : Calm (fun pk => pk = w.order ∧ failures = []) s.orders.orders orders.orders) :
      Did a s w { s with orders } { w with phase := .over }
  /-- It has nothing to do, or is killed. -/
  | stopped : Did a s w s { w with phase := .over }

section

variable {s s' : Store} {w w' other : Worker} {pk client : ℕ} {line : Line}
  {answer : Except Err Unit}

theorem createHosting_requested (h : createHosting answer client pk line s = .ok s')
    (hnone : line.hostingAccount = none) : Requested s pk line s' := by
  unfold createHosting at h
  simp only [bind_eq_ok, pure_eq_ok] at h
  obtain ⟨_, _, rfl⟩ := h
  exact .account hnone rfl

theorem createDomain_eq_ok {d : Domain} (h : createDomain d s = .ok s') :
    s' = { s with domains := s.domains.insert d } := by
  unfold createDomain at h
  simp only [bind_eq_ok, ensure_eq_ok, exists_and_left, exists_const, pure_eq_ok] at h
  exact h.2.symm

theorem createRegistration_requested (h : createRegistration answer client pk line s = .ok s')
    (hnone : line.domain = none) : Requested s pk line s' := by
  unfold createRegistration at h
  simp only [bind_eq_ok, pure_eq_ok] at h
  obtain ⟨_, _, saved, hsaved, rfl⟩ := h
  rw [createDomain_eq_ok hsaved]
  exact .domain hnone rfl fun row => ⟨rfl, rfl, rfl, rfl⟩

theorem createTransfer_requested (h : createTransfer answer client pk line s = .ok s')
    (hnone : line.domain = none) : Requested s pk line s' := by
  unfold createTransfer at h
  simp only [bind_eq_ok, pure_eq_ok] at h
  obtain ⟨_, _, _, _, saved, hsaved, rfl⟩ := h
  rw [createDomain_eq_ok hsaved]
  exact .domain hnone rfl fun row => ⟨rfl, rfl, rfl, rfl⟩

/-- The one shape of the three handlers that create something. -/
private theorem requested_of_create {service : Option ℕ} {result : Except Err Store}
    (h : (if service.isSome then Taken.requested s
      else match result with
        | .error e => .refused e
        | .ok s => .requested s) = .requested s')
    (hcreate : service = none → ∀ saved, result = .ok saved → Requested s pk line saved) :
    Requested s pk line s' := by
  cases service with
  | some k => cases h; exact .nothing
  | none =>
    cases result with
    | error e => cases h
    | ok saved => cases h; exact hcreate rfl _ rfl

theorem handle_requested (h : handle answer client pk line s = .requested s') :
    Requested s pk line s' := by
  unfold handle at h
  dsimp only at h
  split at h
  · exact requested_of_create h fun hnone _ hsaved => createHosting_requested hsaved hnone
  · split at h <;> cases h
  · exact requested_of_create h fun hnone _ hsaved => createRegistration_requested hsaved hnone
  · exact requested_of_create h fun hnone _ hsaved => createTransfer_requested hsaved hnone

theorem Worker.next_did {a : Worker.Step} (h : w.next a s = .ok (s', w')) :
    Did a s w s' w' := by
  unfold Worker.next at h
  split at h
  · simp only [bind_eq_ok, lockOrder_eq_ok] at h
    obtain ⟨order, horder, orders, hclaim, h⟩ := h
    split at h
    · next hstatus =>
      rw [pure_eq_ok] at h
      cases h
      exact .claimed _ rfl horder hstatus (claimOrder_calm hclaim)
    · rw [pure_eq_ok] at h
      cases h
      exact .stopped
  · next hphase => cases h; exact .read hphase
  · next answer pk line todo failures hphase =>
    split at h
    · cases h; exact .passed hphase
    · next hundone =>
      split at h
      · cases h; exact .passed hphase
      · cases h; exact .settled _ hphase hundone
      · cases h; exact .settled _ hphase hundone
      · next saved hhandle => cases h; exact .requested hphase hundone (handle_requested hhandle)
  · next hphase => cases h; exact .answered _ hphase
  · next hphase => cases h; exact .answered _ hphase
  · next hphase => cases h; exact .recorded _ hphase fun row => ⟨rfl, rfl, rfl⟩
  · next hphase => cases h; exact .recorded _ hphase fun row => ⟨rfl, rfl, rfl⟩
  · next failures hphase =>
    split at h
    · cases h; exact .checked hphase fun hnil => absurd hnil (by simp)
    · next hnot =>
      cases h
      exact .checked hphase fun hnil => not_not.mp fun hundone => hnot ⟨hnil, hundone⟩
  · next failures hphase =>
    simp only [bind_eq_ok, pure_eq_ok, Prod.mk.injEq] at h
    obtain ⟨orders, hfinish, rfl, rfl⟩ := h
    exact .finished hphase (finishOrder_calm hfinish fun hnil => ⟨rfl, hnil⟩)
  · cases h; exact .stopped
  · cases h

end

/-! ### What holds of the rows -/

/-- An account or domain created for a line is the one its line points to, and the lines of an
    active or suspended order are done. -/
structure Sound (s : Store) : Prop where
  accounts : s.accounts.Forall fun k a =>
    ∃ line, s.lines.get? a.line = some line ∧ line.hostingAccount = some k
  domains : s.domains.Forall fun k d =>
    ∀ pk, d.line = some pk → ∃ line, s.lines.get? pk = some line ∧ line.domain = some k
  orders : s.lines.Forall fun _ line => ∃ order, s.orders.orders.get? line.order = some order
  served : ∀ pk order, s.orders.orders.get? pk = some order → Delivered order → s.AllDone pk

section

variable {s s' : Store} {order other pk q : ℕ} {line line' row : Line} {g : Line → Option ℕ}

theorem Sound.empty : Sound {} where
  accounts := .empty
  domains := .empty
  orders := .empty
  served := fun pk order h => by rw [Table.get?_empty] at h; cases h

/-- A line points to one account and one domain at most. -/
theorem Sound.oneEach (hs : Sound s) : OneEach s := by
  refine ⟨fun k k' a a' ha ha' heq => ?_, fun k k' d d' pk hd hd' hline hline' => ?_⟩
  · obtain ⟨line, hline, hk⟩ := hs.accounts k a ha
    obtain ⟨line', hline', hk'⟩ := hs.accounts k' a' ha'
    rw [heq] at hline
    cases hline.symm.trans hline'
    exact Option.some.inj (hk.symm.trans hk')
  · obtain ⟨line, hrow, hk⟩ := hs.domains k d hd pk hline
    obtain ⟨line', hrow', hk'⟩ := hs.domains k' d' hd' pk hline'
    cases hrow.symm.trans hrow'
    exact Option.some.inj (hk.symm.trans hk')

theorem Sound.isServed (hs : Sound s) : Served s := fun pk order horder hdelivered =>
  undone_eq_nil.mpr (hs.served pk order horder hdelivered)

/-- The orders may move, as long as only one that is done is delivered. -/
theorem Sound.of_calm (hs : Sound s) {ready : ℕ → Prop} {orders : Orders.Store}
    (hcalm : Calm ready s.orders.orders orders.orders) (hready : ∀ pk, ready pk → s.AllDone pk) :
    Sound { s with orders } where
  accounts := hs.accounts
  domains := hs.domains
  orders := by
    intro pk line hline
    obtain ⟨order, horder⟩ := hs.orders pk line hline
    obtain ⟨order', horder', _⟩ := hcalm.of_some horder
    exact ⟨order', horder'⟩
  served := by
    intro pk order' horder' hdelivered
    obtain ⟨order, horder, hmove⟩ := hcalm.some_of horder'
    exact (hmove hdelivered).elim (hs.served pk order horder) (hready pk)

/-- What a write does not change of its line, it changes of no line. -/
theorem Wrote.reads (h : Wrote s order pk line line' s') (hrow : s.lines.get? q = some row)
    (hg : q = pk → g line' = g line) : ∃ row', s'.lines.get? q = some row' ∧ g row' = g row := by
  rw [h.after]
  by_cases hq : q = pk
  · subst hq
    cases hrow.symm.trans h.before
    exact ⟨line', if_pos rfl, hg rfl⟩
  · exact ⟨row, by rw [if_neg hq, hrow], rfl⟩

/-- A write is to a line that was not done, so an order that was done is untouched. -/
theorem Wrote.allDone (h : Wrote s order pk line line' s') (hdone : s.AllDone other) :
    s'.AllDone other := by
  intro q row hrow hother
  rw [h.after] at hrow
  split at hrow
  · cases hrow
    exact absurd (hdone pk line h.before (h.order_eq.symm.trans hother)) h.undone
  · exact hdone q row hrow hother

theorem wrote_updateLine (saved : Store) (f : Line → Line) (hsaved : saved.lines = s.lines)
    (hline : s.lines.get? pk = some line) (horder : line.order = order)
    (hundone : line.fulfilmentStatus ≠ .done) (hf : (f line).order = line.order) :
    Wrote s order pk line (f line) (saved.updateLine pk f) := by
  refine ⟨hline, horder, hundone, hf, fun q => ?_⟩
  rw [← hsaved] at hline
  rw [get?_updateLine f hline, hsaved]

theorem Wrote.orders (h : Wrote s order pk line line' s') (hs : Sound s)
    (hsame : s'.orders = s.orders) :
    s'.lines.Forall fun _ row => ∃ order, s'.orders.orders.get? row.order = some order := by
  intro q row hrow
  rw [h.after] at hrow
  rw [hsame]
  split at hrow
  · cases hrow
    rw [h.order_eq]
    exact hs.orders pk line h.before
  · exact hs.orders q row hrow

theorem Wrote.served (h : Wrote s order pk line line' s') (hs : Sound s)
    (hsame : s'.orders = s.orders) (other : ℕ) (o : Order)
    (ho : s'.orders.orders.get? other = some o) (hdelivered : Delivered o) : s'.AllDone other := by
  rw [hsame] at ho
  exact h.allDone (hs.served other o ho hdelivered)

/-- A line that is not done is recorded. -/
theorem Wrote.sound (h : Wrote s order pk line line' s') (hs : Sound s)
    (horders : s'.orders = s.orders) (haccounts : s'.accounts = s.accounts)
    (hdomains : s'.domains = s.domains) (haccount : line'.hostingAccount = line.hostingAccount)
    (hdomain : line'.domain = line.domain) : Sound s' where
  accounts := by
    rw [haccounts]
    intro k a ha
    obtain ⟨row, hrow, hk⟩ := hs.accounts k a ha
    obtain ⟨row', hrow', hsame⟩ := h.reads (g := Line.hostingAccount) hrow fun _ => haccount
    exact ⟨row', hrow', hsame.trans hk⟩
  domains := by
    rw [hdomains]
    intro k d hd pk hline
    obtain ⟨row, hrow, hk⟩ := hs.domains k d hd pk hline
    obtain ⟨row', hrow', hsame⟩ := h.reads (g := Line.domain) hrow fun _ => hdomain
    exact ⟨row', hrow', hsame.trans hk⟩
  orders := h.orders hs horders
  served := h.served hs horders

/-- A request writes the line it is for, and keeps its status; or it has nothing to do. -/
theorem Requested.wrote (h : Requested s pk line s') (hline : s.lines.get? pk = some line)
    (horder : line.order = order) (hundone : line.fulfilmentStatus ≠ .done) :
    s' = s ∨ ∃ line', Wrote s order pk line line' s'
      ∧ line'.fulfilmentStatus = line.fulfilmentStatus := by
  cases h with
  | nothing => exact .inl rfl
  | account => exact .inr ⟨_, wrote_updateLine _ _ rfl hline horder hundone rfl, rfl⟩
  | domain _ _ hf =>
    exact .inr ⟨_, wrote_updateLine _ _ rfl hline horder hundone (hf line).1, (hf line).2.2.2⟩

/-- What is created for a line that had none is the only one the line has. -/
theorem Requested.sound (h : Requested s pk line s') (hs : Sound s)
    (hline : s.lines.get? pk = some line) (hundone : line.fulfilmentStatus ≠ .done) :
    Sound s' := by
  cases h with
  | nothing => exact hs
  | @account a hnone ha =>
    have hwrote := wrote_updateLine (s := s) { s with accounts := s.accounts.insert a }
      (fun row => { row with hostingAccount := some s.accounts.nextPk }) rfl hline rfl hundone rfl
    refine ⟨.insert ?_ ?_, fun k d hd q hq => ?_, hwrote.orders hs rfl, hwrote.served hs rfl⟩
    · -- an account of this line would be one the line points to
      intro k b hb
      obtain ⟨row, hrow, hk⟩ := hs.accounts k b hb
      obtain ⟨row', hrow', hsame⟩ := hwrote.reads (g := Line.hostingAccount) hrow fun hq => by
        rw [hq] at hrow
        cases hrow.symm.trans hline
        rw [hnone] at hk
        cases hk
      exact ⟨row', hrow', hsame.trans hk⟩
    · exact ⟨_, by rw [ha, hwrote.after, if_pos rfl], rfl⟩
    · obtain ⟨row, hrow, hk⟩ := hs.domains k d hd q hq
      obtain ⟨row', hrow', hsame⟩ := hwrote.reads (g := Line.domain) hrow fun _ => rfl
      exact ⟨row', hrow', hsame.trans hk⟩
  | @domain d f hnone hd hf =>
    have hwrote := wrote_updateLine (s := s) { s with domains := s.domains.insert d } f rfl hline
      rfl hundone (hf line).1
    refine ⟨fun k a ha => ?_, .insert ?_ ?_, hwrote.orders hs rfl, hwrote.served hs rfl⟩
    · obtain ⟨row, hrow, hk⟩ := hs.accounts k a ha
      obtain ⟨row', hrow', hsame⟩ := hwrote.reads (g := Line.hostingAccount) hrow fun _ =>
        (hf line).2.1
      exact ⟨row', hrow', hsame.trans hk⟩
    · -- a domain of this line would be one the line points to
      intro k b hb q hq
      obtain ⟨row, hrow, hk⟩ := hs.domains k b hb q hq
      obtain ⟨row', hrow', hsame⟩ := hwrote.reads (g := Line.domain) hrow fun heq => by
        rw [heq] at hrow
        cases hrow.symm.trans hline
        rw [hnone] at hk
        cases hk
      exact ⟨row', hrow', hsame.trans hk⟩
    · intro q hq
      cases hd.symm.trans hq
      exact ⟨f line, by rw [hwrote.after, if_pos rfl], (hf line).2.2.1⟩

end

/-! ### What a worker knows -/

/-- The copies are the rows as they are, of different lines of the order. -/
structure Copies (s : Store) (order : ℕ) (todo : List (ℕ × Line)) : Prop where
  read : ∀ p ∈ todo, s.lines.get? p.1 = some p.2 ∧ p.2.order = order
  nodup : (todo.map Prod.fst).Nodup

/-- The line is one of the order, and not done. -/
def Unserved (s : Store) (order pk : ℕ) : Prop :=
  ∃ line, s.lines.get? pk = some line ∧ line.order = order ∧ line.fulfilmentStatus ≠ .done

/-- What is true of a worker that no other one disturbs. -/
def Worker.Knows (s : Store) (w : Worker) : Prop :=
  match w.phase with
  | .claiming | .reading | .over => True
  | .working todo _ => Copies s w.order todo
  | .serving pk _ todo _ | .answered pk _ _ todo _ =>
    Unserved s w.order pk ∧ pk ∉ todo.map Prod.fst ∧ Copies s w.order todo
  | .finishing failures => failures = [] → s.AllDone w.order

/-- A worker that has claimed an order has claimed one that exists. -/
def Worker.Claimed (s : Store) (w : Worker) : Prop :=
  w.phase = .claiming ∨ w.phase = .over ∨ ∃ order, s.orders.orders.get? w.order = some order

/-- What a worker writes: a line of its own, while it is busy. -/
def Writes (s : Store) (w : Worker) (s' : Store) : Prop :=
  s'.lines = s.lines ∨
    (w.busy = true ∧ ∃ pk line line', Wrote s w.order pk line line' s')

section

variable {s s' : Store} {order order' pk : ℕ} {line line' : Line} {p : ℕ × Line}
  {todo : List (ℕ × Line)} {w w' other : Worker} {a : Worker.Step}

theorem Copies.head (h : Copies s order ((pk, line) :: todo)) :
    s.lines.get? pk = some line ∧ line.order = order := h.read _ List.mem_cons_self

theorem Copies.tail (h : Copies s order (p :: todo)) : Copies s order todo where
  read := fun q hq => h.read q (List.mem_cons_of_mem _ hq)
  nodup := (List.nodup_cons.mp h.nodup).2

theorem Copies.notMem (h : Copies s order (p :: todo)) : p.1 ∉ todo.map Prod.fst :=
  (List.nodup_cons.mp h.nodup).1

theorem Copies.of_lines (h : Copies s order todo) (hlines : s'.lines = s.lines) :
    Copies s' order todo where
  read := by rw [hlines]; exact h.read
  nodup := h.nodup

/-- A write to another line leaves the copies true. -/
theorem Copies.wrote (h : Copies s order todo) (hwrote : Wrote s order' pk line line' s')
    (hpk : pk ∉ todo.map Prod.fst) : Copies s' order todo where
  read := by
    intro q hq
    have hne : q.1 ≠ pk := fun heq => hpk (heq ▸ List.mem_map_of_mem hq)
    rw [hwrote.after, if_neg hne]
    exact h.read q hq
  nodup := h.nodup

/-- A write for another order is a write to another line. -/
theorem Copies.wrote_other (h : Copies s order todo) (hwrote : Wrote s order' pk line line' s')
    (hne : order' ≠ order) : Copies s' order todo := by
  refine h.wrote hwrote fun hmem => ?_
  obtain ⟨q, hq, rfl⟩ := List.mem_map.mp hmem
  obtain ⟨hrow, horder⟩ := h.read q hq
  cases hwrote.before.symm.trans hrow
  exact hne (hwrote.mine.symm.trans horder)

theorem Unserved.wrote_other {q : ℕ} (h : Unserved s order q)
    (hwrote : Wrote s order' pk line line' s') (hne : order' ≠ order) : Unserved s' order q := by
  obtain ⟨row, hrow, horder, hundone⟩ := h
  refine ⟨row, ?_, horder, hundone⟩
  have hq : q ≠ pk := by
    rintro rfl
    cases hwrote.before.symm.trans hrow
    exact hne (hwrote.mine.symm.trans horder)
  rw [hwrote.after, if_neg hq, hrow]

/-- A line that is done is not written. -/
theorem Writes.doneStays (h : Writes s w s') : DoneStays s s' := by
  intro q row hrow hdone
  rcases h with hlines | ⟨_, pk, line, line', hwrote⟩
  · exact ⟨row, by rw [hlines, hrow], hdone⟩
  · have hq : q ≠ pk := by
      rintro rfl
      cases hwrote.before.symm.trans hrow
      exact hwrote.undone hdone
    exact ⟨row, by rw [hwrote.after, if_neg hq, hrow], hdone⟩

theorem Writes.allDone (h : Writes s w s') (hdone : s.AllDone order) : s'.AllDone order := by
  rcases h with hlines | ⟨_, pk, line, line', hwrote⟩
  · intro q row hrow
    exact hdone q row (hlines ▸ hrow)
  · exact hwrote.allDone hdone

/-- What a worker knows stays true where its copies, and the lines of a finished order, do. -/
theorem Worker.Knows.keep (h : other.Knows s)
    (hcopies : other.busy = true → ∀ todo, Copies s other.order todo → Copies s' other.order todo)
    (hunserved : other.busy = true → ∀ q, Unserved s other.order q → Unserved s' other.order q)
    (hdone : s.AllDone other.order → s'.AllDone other.order) : other.Knows s' := by
  unfold Worker.Knows at h ⊢
  cases hphase : other.phase with
  | claiming => trivial
  | reading => trivial
  | «over» => trivial
  | working todo failures =>
    simp only [hphase] at h
    exact hcopies (by rw [Worker.busy, hphase]) todo h
  | serving pk line todo failures | answered pk line error todo failures =>
    simp only [hphase] at h
    have hbusy : other.busy = true := by rw [Worker.busy, hphase]
    exact ⟨hunserved hbusy pk h.1, h.2.1, hcopies hbusy todo h.2.2⟩
  | finishing failures =>
    simp only [hphase] at h
    exact fun hnil => hdone (h hnil)

/-- A worker that is not busy, or is busy with another order, is not disturbed. -/
theorem Writes.knows (h : Writes s w s') (hother : other.Knows s)
    (hpair : w.order = other.order → w.busy = true → other.busy = false) : other.Knows s' := by
  refine hother.keep (fun hbusy todo hcopies => ?_) (fun hbusy q hunserved => ?_) h.allDone
  · rcases h with hlines | ⟨hbusy', pk, line, line', hwrote⟩
    · exact hcopies.of_lines hlines
    · refine hcopies.wrote_other hwrote fun heq => ?_
      rw [hpair heq hbusy'] at hbusy
      cases hbusy
  · rcases h with hlines | ⟨hbusy', pk, line, line', hwrote⟩
    · unfold Unserved
      rw [hlines]
      exact hunserved
    · refine hunserved.wrote_other hwrote fun heq => ?_
      rw [hpair heq hbusy'] at hbusy
      cases hbusy

/-- What a request leaves of the line it was for. -/
theorem Requested.unserved (h : Requested s pk line s') (hline : s.lines.get? pk = some line)
    (horder : line.order = order) (hundone : line.fulfilmentStatus ≠ .done) :
    Unserved s' order pk := by
  rcases h.wrote hline horder hundone with rfl | ⟨line', hwrote, hstatus⟩
  · exact ⟨line, hline, horder, hundone⟩
  · exact ⟨line', by rw [hwrote.after, if_pos rfl], hwrote.order_eq.trans horder, hstatus ▸ hundone⟩

theorem Requested.copies (h : Requested s pk line s') (hline : s.lines.get? pk = some line)
    (horder : line.order = order) (hundone : line.fulfilmentStatus ≠ .done)
    (hpk : pk ∉ todo.map Prod.fst) (hcopies : Copies s order todo) : Copies s' order todo := by
  rcases h.wrote hline horder hundone with rfl | ⟨line', hwrote, _⟩
  · exact hcopies
  · exact hcopies.wrote hwrote hpk

/-- The record of a line is a write. -/
theorem Unserved.wrote {f : Line → Line} (h : Unserved s order pk)
    (hf : ∀ row, (f row).order = row.order) :
    ∃ line, Wrote s order pk line (f line) (s.updateLine pk f) := by
  obtain ⟨line, hline, horder, hundone⟩ := h
  exact ⟨line, wrote_updateLine _ _ rfl hline horder hundone (hf line)⟩

/-! ### One step of a worker -/

/-- A worker writes its own lines only. -/
theorem Did.writes (h : Did a s w s' w') (hknows : w.Knows s) : Writes s w s' := by
  unfold Worker.Knows at hknows
  cases h with
  | requested hphase hundone hrequested =>
    simp only [hphase] at hknows
    obtain ⟨hline, horder⟩ := hknows.head
    rcases hrequested.wrote hline horder hundone with rfl | ⟨line', hwrote, _⟩
    · exact .inl rfl
    · exact .inr ⟨by rw [Worker.busy, hphase], _, _, _, hwrote⟩
  | recorded failures' hphase hf =>
    simp only [hphase] at hknows
    obtain ⟨line, hwrote⟩ := hknows.1.wrote fun row => (hf row).1
    exact .inr ⟨by rw [Worker.busy, hphase], _, _, _, hwrote⟩
  | claimed | finished => exact .inl rfl
  | read | passed | settled | answered | checked | stopped => exact .inl rfl

/-- A worker keeps the rows sound. -/
theorem Did.sound (h : Did a s w s' w') (hs : Sound s) (hknows : w.Knows s) : Sound s' := by
  unfold Worker.Knows at hknows
  cases h with
  | claimed client ha horder hstatus hcalm => exact hs.of_calm hcalm fun pk hpk => hpk.elim
  | finished hphase hcalm =>
    simp only [hphase] at hknows
    refine hs.of_calm hcalm ?_
    rintro pk ⟨rfl, hnil⟩
    exact hknows hnil
  | requested hphase hundone hrequested =>
    simp only [hphase] at hknows
    exact hrequested.sound hs hknows.head.1 hundone
  | recorded failures' hphase hf =>
    simp only [hphase] at hknows
    obtain ⟨line, hwrote⟩ := hknows.1.wrote fun row => (hf row).1
    exact hwrote.sound hs rfl rfl rfl (hf line).2.1 (hf line).2.2
  | read | passed | settled | answered | checked | stopped => exact hs

/-- A worker goes on to know what it has to. -/
theorem Did.knows (h : Did a s w s' w') (hknows : w.Knows s) : w'.Knows s' := by
  unfold Worker.Knows at hknows
  cases h with
  | claimed | finished | stopped => trivial
  | read hphase => exact ⟨fun p hp => mem_linesOf.mp hp, nodup_linesOf s w.order⟩
  | passed hphase =>
    simp only [hphase] at hknows
    exact hknows.tail
  | settled error hphase hundone =>
    simp only [hphase] at hknows
    exact ⟨⟨_, hknows.head.1, hknows.head.2, hundone⟩, hknows.notMem, hknows.tail⟩
  | requested hphase hundone hrequested =>
    simp only [hphase] at hknows
    obtain ⟨hline, horder⟩ := hknows.head
    exact ⟨hrequested.unserved hline horder hundone, hknows.notMem,
      hrequested.copies hline horder hundone hknows.notMem hknows.tail⟩
  | answered error hphase =>
    simp only [hphase] at hknows
    exact hknows
  | recorded failures' hphase hf =>
    simp only [hphase] at hknows
    obtain ⟨line, hwrote⟩ := hknows.1.wrote fun row => (hf row).1
    exact hknows.2.2.wrote hwrote hknows.2.1
  | checked hphase hfailures => exact fun hnil => undone_eq_nil.mp (hfailures hnil)

/-- A worker becomes busy by claiming its order. -/
theorem Did.busy (h : Did a s w s' w') (hbusy : w'.busy = true) : w.busy = true ∨
    (a = .claim ∧ ∃ order, s.orders.orders.get? w.order = some order
      ∧ (order.status = .paid ∨ order.status = .failed)) := by
  cases h with
  | claimed client ha horder hstatus => exact .inr ⟨ha, _, horder, hstatus⟩
  | read hphase | passed hphase | settled _ hphase | requested hphase | answered _ hphase
  | recorded _ hphase => exact .inl (by rw [Worker.busy, hphase])
  | checked | finished | stopped => cases hbusy

theorem Worker.Claimed.keep {ready : ℕ → Prop} (h : w.Claimed s)
    (hcalm : Calm ready s.orders.orders s'.orders.orders) : w.Claimed s' := by
  refine h.imp_right (.imp_right ?_)
  rintro ⟨order, horder⟩
  obtain ⟨order', horder', _⟩ := hcalm.of_some horder
  exact ⟨order', horder'⟩

/-- No step of a worker removes an order. -/
theorem Did.calm (h : Did a s w s' w') :
    Calm (fun _ => True) s.orders.orders s'.orders.orders := by
  cases h with
  | claimed _ _ _ _ hcalm | finished _ hcalm => exact hcalm.mono fun _ _ => trivial
  | requested _ _ hrequested => cases hrequested <;> exact .refl _ _
  | read | passed | settled | answered | recorded | checked | stopped => exact .refl _ _

theorem Did.stillClaimed (h : Did a s w s' w') (hclaimed : w.Claimed s) : w'.Claimed s' := by
  have hkeep := hclaimed.keep h.calm
  unfold Worker.Claimed at hkeep ⊢
  cases h with
  | claimed client ha horder hstatus hcalm =>
    obtain ⟨order', horder', _⟩ := hcalm.of_some horder
    exact .inr (.inr ⟨order', horder'⟩)
  | finished | stopped => exact .inr (.inl rfl)
  | read hphase | passed hphase | settled _ hphase | requested hphase | answered _ hphase
  | recorded _ hphase | checked hphase =>
    simp only [hphase, reduceCtorEq, false_or] at hkeep
    exact .inr (.inr hkeep)

end

/-! ### One step of the surroundings -/

section

variable {s s' : Store} {order base pk : ℕ} {line : Line} {items : List OrderItem}
  {lines : Table Line} {o : Order} {call : Meanwhile} {w : Worker}

/-- A new order leaves the other lines as they are. -/
theorem get?_addLines_of_some (h : lines.get? pk = some line) :
    (addLines order base items lines).get? pk = some line := by
  induction items generalizing lines with
  | nil => exact h
  | cons item items ih => exact ih (Table.get?_insert_of_some h)

/-- A line is one of the new order, or was there. -/
theorem addLines_cases (h : (addLines order base items lines).get? pk = some line) :
    line.order = order ∨ lines.get? pk = some line := by
  induction items generalizing lines with
  | nil => exact .inr h
  | cons item items ih =>
    rcases ih h with hnew | hold
    · exact .inl hnew
    · rw [Table.get?_insert] at hold
      split at hold
      · cases hold; exact .inl rfl
      · exact .inr hold

theorem place_allDone (hdone : s.AllDone order) (h : s.orders.orders.get? order = some o)
    (new : Order) : (s.place new).AllDone order := by
  intro q row hrow hmine
  rcases addLines_cases hrow with hnew | hold
  · exact absurd (hmine.symm.trans hnew) (Nat.ne_of_lt (Table.lt_nextPk h))
  · exact hdone q row hold hmine

theorem Sound.place (hs : Sound s) (new : Order) : Sound (s.place new) where
  accounts := by
    intro k a ha
    obtain ⟨row, hrow, hk⟩ := hs.accounts k a ha
    exact ⟨row, get?_addLines_of_some hrow, hk⟩
  domains := by
    intro k d hd q hq
    obtain ⟨row, hrow, hk⟩ := hs.domains k d hd q hq
    exact ⟨row, get?_addLines_of_some hrow, hk⟩
  orders := by
    intro q row hrow
    show ∃ order, (s.orders.orders.insert _).get? row.order = some order
    rcases addLines_cases hrow with hnew | hold
    · exact ⟨_, by rw [hnew]; exact Table.get?_insert_self _ _⟩
    · obtain ⟨order, horder⟩ := hs.orders q row hold
      exact ⟨order, Table.get?_insert_of_some horder⟩
  served := by
    intro pk order horder hdelivered
    replace horder : (s.orders.orders.insert _).get? pk = some order := horder
    rw [Table.get?_insert] at horder
    split at horder
    · cases horder
      exact absurd hdelivered (by simp [Delivered])
    · exact place_allDone (hs.served pk order horder hdelivered) horder new

/-- What the surroundings do: they move orders, place one, or write domains, but none that was
    created for a line. -/
theorem exec_cases (h : call.exec s = .ok s') :
    (∃ orders, s' = { s with orders } ∧ Calm (fun _ => False) s.orders.orders orders.orders) ∨
    (∃ new, s' = s.place new) ∨
    (∃ domains, s' = { s with domains } ∧ ∀ k d, domains.get? k = some d →
      d.line = none ∨ ∃ d', s.domains.get? k = some d' ∧ d.line = d'.line) := by
  cases call with
  | place new => cases h; exact .inr (.inl ⟨new, rfl⟩)
  | requestDomain client name years =>
    obtain rfl := createDomain_eq_ok h
    refine .inr (.inr ⟨_, rfl, fun k d hd => ?_⟩)
    rw [Table.get?_insert] at hd
    split at hd
    · cases hd; exact .inl rfl
    · exact .inr ⟨d, hd, rfl⟩
  | placeDomain k live =>
    unfold Meanwhile.exec at h
    dsimp only at h
    split at h
    · cases h
    · next domain hdomain =>
      cases h
      refine .inr (.inr ⟨_, rfl, fun j d hd => .inr ?_⟩)
      rw [Table.get?_put hdomain] at hd
      split at hd
      · next hj => cases hd; exact ⟨domain, hj ▸ hdomain, rfl⟩
      · exact ⟨d, hd, rfl⟩
  | markOrderPaid | cancelUnpaidOrder | cancelOrder | markFraud | clearFraud | resetOrder
  | suspendOrder | unsuspendOrder | terminateOrder =>
    simp only [Meanwhile.exec, bind_eq_ok, pure_eq_ok] at h
    obtain ⟨orders, horders, rfl⟩ := h
    exact .inl ⟨orders, rfl, onOrders_calm horders⟩

theorem exec_sound (h : call.exec s = .ok s') (hs : Sound s) : Sound s' := by
  rcases exec_cases h with ⟨orders, rfl, hcalm⟩ | ⟨new, rfl⟩ | ⟨domains, rfl, hdomains⟩
  · exact hs.of_calm hcalm fun pk hpk => hpk.elim
  · exact hs.place new
  · refine ⟨hs.accounts, fun k d hd q hq => ?_, hs.orders, hs.served⟩
    rcases hdomains k d hd with hnone | ⟨d', hd', heq⟩
    · rw [hnone] at hq; cases hq
    · exact hs.domains k d' hd' q (heq.symm.trans hq)

theorem exec_claimed (h : call.exec s = .ok s') (hclaimed : w.Claimed s) : w.Claimed s' := by
  rcases exec_cases h with ⟨orders, rfl, hcalm⟩ | ⟨new, rfl⟩ | ⟨domains, rfl, _⟩
  · exact hclaimed.keep hcalm
  · refine hclaimed.imp_right (.imp_right ?_)
    rintro ⟨order, horder⟩
    exact ⟨order, Table.get?_insert_of_some horder⟩
  · exact hclaimed

theorem exec_knows (h : call.exec s = .ok s') (hclaimed : w.Claimed s) (hknows : w.Knows s) :
    w.Knows s' := by
  rcases exec_cases h with ⟨orders, rfl, _⟩ | ⟨new, rfl⟩ | ⟨domains, rfl, _⟩
  · exact hknows.keep (fun _ _ h => h.of_lines rfl) (fun _ _ h => h) fun h => h
  · rcases hclaimed with hphase | hphase | ⟨order, horder⟩
    · unfold Worker.Knows; rw [hphase]; trivial
    · unfold Worker.Knows; rw [hphase]; trivial
    · refine hknows.keep (fun _ todo hcopies => ⟨fun p hp => ?_, hcopies.nodup⟩)
        (fun _ q hunserved => ?_) fun hdone => place_allDone hdone horder new
      · obtain ⟨hrow, hmine⟩ := hcopies.read p hp
        exact ⟨get?_addLines_of_some hrow, hmine⟩
      · obtain ⟨row, hrow, hmine, hundone⟩ := hunserved
        exact ⟨row, get?_addLines_of_some hrow, hmine, hundone⟩
  · exact hknows.keep (fun _ _ h => h.of_lines rfl) (fun _ _ h => h) fun h => h

/-- No call of the surroundings writes a line. -/
theorem exec_doneStays (h : call.exec s = .ok s') : DoneStays s s' := by
  intro q row hrow hdone
  rcases exec_cases h with ⟨orders, rfl, _⟩ | ⟨new, rfl⟩ | ⟨domains, rfl, _⟩
  · exact ⟨row, hrow, hdone⟩
  · exact ⟨row, get?_addLines_of_some hrow, hdone⟩
  · exact ⟨row, hrow, hdone⟩

end

end WPanel.Fulfilment
