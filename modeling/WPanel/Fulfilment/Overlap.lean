import WPanel.Fulfilment.Steps

namespace WPanel.Fulfilment

open WPanel.Lib WPanel.Billing WPanel.Orders

/-!
# Two workers on one order

The claim of an order is its status: a worker takes a paid or a failed order, and moves it to
provisioning.  The sweeper fails an order that has been in flight for too long, whether its
worker is dead or only slow, and the order may be claimed again.  From then on two workers may
go through its lines, each by the copies it has read.

* `Alone` — no order is claimed while another worker goes through its lines;
* `one_each` — in a run in which workers are alone, a line gets one account and one domain;
* `served_and_done` — in such a run an active or suspended order is served, and what is done
  stays done;
* `two_accounts`, `done_then_failed` — a worker that was only slow breaks both.
-/

/-! ### Workers that are alone -/

/-- An order that can be claimed is not claimed while another worker goes through its lines. -/
def Alone : Discipline Store Worker Worker.Step Meanwhile where
  step s w a other := match a with
    | .claim => w.order = other.order → other.busy = true →
        ∀ order ∈ s.orders.orders.get? w.order, order.status ≠ .paid ∧ order.status ≠ .failed
    | _ => True
  outside _ _ _ := True

instance (s : Store) (w : Worker) (a : Worker.Step) (other : Worker) :
    Decidable (Alone.step s w a other) :=
  match a with
  | .claim => inferInstanceAs (Decidable (w.order = other.order → other.busy = true →
      ∀ order ∈ s.orders.orders.get? w.order, order.status ≠ .paid ∧ order.status ≠ .failed))
  | .read => isTrue trivial
  | .take _ => isTrue trivial
  | .answer _ => isTrue trivial
  | .record => isTrue trivial
  | .check => isTrue trivial
  | .finish => isTrue trivial
  | .die => isTrue trivial

instance (s : Store) (call : Meanwhile) (other : Worker) :
    Decidable (Alone.outside s call other) := isTrue trivial

/-- Two workers are not busy with one order. -/
def Worker.Apart (w w' : Worker) : Prop := w.order = w'.order → ¬(w.busy = true ∧ w'.busy = true)

section

variable {s s' : Store} {w w' other : Worker} {a : Worker.Step}

theorem Worker.Apart.symm (h : w.Apart w') : w'.Apart w := fun heq hbusy =>
  h heq.symm hbusy.symm

theorem Worker.start_eq_ok {origin : Origin} (h : Worker.start origin s = .ok (s', w)) :
    s' = s ∧ w.phase = .claiming := by
  unfold Worker.start at h
  split at h
  · cases h; exact ⟨rfl, rfl⟩
  · simp only [bind_eq_ok, pure_eq_ok, Prod.mk.injEq] at h
    obtain ⟨_, _, _, _, _, _, rfl, rfl⟩ := h
    exact ⟨rfl, rfl⟩

theorem Did.order_eq (h : Did a s w s' w') : w'.order = w.order := by cases h <;> rfl

/-- A worker that is alone when it claims its order stays apart from the others. -/
theorem Did.apart (h : Did a s w s' w') (hapart : w.Apart other)
    (halone : Alone.step s w a other) : w'.Apart other := by
  rintro heq ⟨hbusy, hother⟩
  rw [h.order_eq] at heq
  rcases h.busy hbusy with hbusy | ⟨rfl, order, horder, hstatus⟩
  · exact hapart heq ⟨hbusy, hother⟩
  · obtain ⟨hpaid, hfailed⟩ := halone heq hother order horder
    exact hstatus.elim hpaid hfailed

/-- Why workers that are alone keep the rows sound. -/
def fulfillingOutline : Outline fulfilling Alone where
  shared := Sound
  own s w := w.Knows s ∧ w.Claimed s
  pair := Worker.Apart
  pair_symm := fun _ _ h => h.symm
  start_own := by
    intro origin s s' w h hs
    obtain ⟨rfl, hphase⟩ := Worker.start_eq_ok h
    refine ⟨hs, ?_, .inl hphase⟩
    unfold Worker.Knows
    rw [hphase]
    trivial
  start_other := by
    intro origin s s' w other h _ hother
    obtain ⟨rfl, hphase⟩ := Worker.start_eq_ok h
    refine ⟨hother, fun _ hbusy => ?_⟩
    rw [Worker.busy, hphase] at hbusy
    cases hbusy.1
  step_own := by
    rintro a s s' w w' h hs ⟨hknows, hclaimed⟩
    have hdid := Worker.next_did h
    exact ⟨hdid.sound hs hknows, hdid.knows hknows, hdid.stillClaimed hclaimed⟩
  step_other := by
    rintro a s s' w w' other h _ ⟨hknows, _⟩ ⟨hother, hclaimed⟩ hapart halone
    have hdid := Worker.next_did h
    refine ⟨⟨(hdid.writes hknows).knows hother fun heq hbusy => ?_, hclaimed.keep hdid.calm⟩,
      hdid.apart hapart halone⟩
    simpa [hbusy] using hapart heq
  outside_shared := fun _ _ _ h hs => exec_sound h hs
  outside_other := fun _ _ _ _ h _ hother _ =>
    ⟨exec_knows h hother.2 hother.1, exec_claimed h hother.2⟩

end

/-- **A line gets one account and one domain**, in every run in which workers are alone. -/
theorem one_each (ts : List (Turn Origin Worker.Step Meanwhile))
    (h : fulfilling.machine.EachStep (fun s t _ => Alone.Respected s t) ts ⟨{}, {}⟩) :
    fulfilling.machine.Always (fun s => OneEach s.shared) ts ⟨{}, {}⟩ :=
  fulfillingOutline.always (fun _ hs => hs.shared.oneEach) ts _ (.start _ .empty) h

/-- **An active or suspended order is served, and what is done stays done**, in every run in
    which workers are alone. -/
theorem served_and_done (ts : List (Turn Origin Worker.Step Meanwhile))
    (h : fulfilling.machine.EachStep (fun s t _ => Alone.Respected s t) ts ⟨{}, {}⟩) :
    fulfilling.machine.Always (fun s => Served s.shared) ts ⟨{}, {}⟩
      ∧ fulfilling.machine.EachStep (fun s _ s' => DoneStays s.shared s'.shared) ts ⟨{}, {}⟩ := by
  have hstart : fulfillingOutline.Holds ⟨{}, {}⟩ := .start _ Sound.empty
  refine ⟨fulfillingOutline.always (fun _ hs => hs.shared.isServed) ts _ hstart h,
    fulfillingOutline.eachStep (fun t s s' out hs hcommits _ => ?_) ts _ hstart h⟩
  cases t with
  | start origin =>
    obtain ⟨w, hw, _⟩ := Interleaving.start_eq_ok hcommits
    rw [(Worker.start_eq_ok hw).1]
    exact fun pk line hline hdone => ⟨line, hline, hdone⟩
  | step i a =>
    obtain ⟨w, w', hw, hstep, _⟩ := Interleaving.step_eq_ok hcommits
    exact ((Worker.next_did hstep).writes (hs.own i w hw).1).doneStays
  | outside call => exact exec_doneStays (Interleaving.outside_eq_ok hcommits).1

/-! ### A worker that was only slow -/

/-- A plan for `shop.example`, ordered and paid for. -/
def planOrder : Order where
  client := 0
  placedBy := 0
  status := .pendingPayment
  currency := "USD"
  subtotal := 1000
  discountTotal := 0
  taxName := ""
  taxRate := 0
  taxTotal := 0
  total := 1000
  coupon := none
  couponCode := ""
  paymentMethodName := ""
  items := [{
    kind := .hosting, description := "Plan", product := some 0, addon := none, parent := none,
    domainName := "shop.example", billingCycle := "monthly", customMonths := 0, years := 1,
    unitPrice := 1000, setupFee := 0, lineTotal := 1000, authCodeEncrypted := "" }]
  redemption := none

/-- The order is placed, and its invoice is paid. -/
def paidFor : List (Turn Origin Worker.Step Meanwhile) := [
  .outside (.place planOrder),
  .outside (.markOrderPaid { client := 0, order := some 0, status := .paid, currency := "USD" })]

def manager : Actor where
  pk := 0
  hasPerm := fun permission => permission = .manageOrders
  contactOf := fun _ => false
  isStaff := true

private abbrev ServeTurns : Type := List (Turn Origin Worker.Step Meanwhile)

/-- The worker `i` goes through the one line of the order, with success. -/
def serveAll (i : ℕ) : List (Turn Origin Worker.Step Meanwhile) := [
  .step i .claim, .step i .read, .step i (.take (.ok ())), .step i (.answer (.ok ())),
  .step i .record, .step i .check, .step i .finish]

/-- What the hosting server answers when the domain has an account there. -/
def alreadyHosted : Err :=
  serviceError "Provisioning failed: the domain already exists." "adapter_error"

/-- A worker dies after it has created the account; the sweeper resets the order, and staff retry
    it: the second worker uses that account. -/
def retriedAfterDeath : List (Turn Origin Worker.Step Meanwhile) :=
  paidFor ++ ([.start (.queued 0), .step 0 .claim, .step 0 .read, .step 0 (.take (.ok ())),
    .step 0 .die, .outside (.resetOrder 0 true), .start (.retried manager 0)] : ServeTurns)
    ++ serveAll 1

theorem one_each_after_death : fulfilling.machine.Always (fun s => OneEach s.shared)
    retriedAfterDeath ⟨{}, {}⟩ :=
  one_each _ (Machine.eachStep_of_trace (by decide +kernel))

theorem served_and_done_after_death :
    fulfilling.machine.Always (fun s => Served s.shared) retriedAfterDeath ⟨{}, {}⟩
      ∧ fulfilling.machine.EachStep (fun s _ s' => DoneStays s.shared s'.shared)
        retriedAfterDeath ⟨{}, {}⟩ :=
  served_and_done _ (Machine.eachStep_of_trace (by decide +kernel))

/-- A worker reads the line of the order and is slow; the sweeper resets the order, and a retry
    fulfils it.  Then the first worker goes on. -/
def retriedWhileSlow : List (Turn Origin Worker.Step Meanwhile) :=
  paidFor ++ ([.start (.queued 0), .step 0 .claim, .step 0 .read, .outside (.resetOrder 0 true),
    .start (.retried manager 0)] : ServeTurns) ++ serveAll 1
    ++ ([.step 0 (.take (.ok ()))] : ServeTurns)

/-- Two accounts are created for one line. -/
theorem two_accounts : ¬fulfilling.machine.Always (fun s => OneEach s.shared)
    retriedWhileSlow ⟨{}, {}⟩ := by
  intro h
  have hrun : let accounts := (fulfilling.machine.run retriedWhileSlow ⟨{}, {}⟩).shared.accounts
      ∃ a ∈ accounts.get? 0, ∃ a' ∈ accounts.get? 1, a.line = a'.line := by
    decide +kernel
  obtain ⟨a, ha, a', ha', hline⟩ := hrun
  cases h.last.accounts 0 1 a a' ha ha' hline

/-- The server refuses the second account, and the line fails under the active order. -/
theorem done_then_failed :
    ¬(fulfilling.machine.Always (fun s => Served s.shared)
        (retriedWhileSlow
          ++ ([.step 0 (.answer (.error alreadyHosted)), .step 0 .record] : ServeTurns)) ⟨{}, {}⟩
      ∧ fulfilling.machine.EachStep (fun s _ s' => DoneStays s.shared s'.shared)
        (retriedWhileSlow
          ++ ([.step 0 (.answer (.error alreadyHosted)), .step 0 .record] : ServeTurns))
        ⟨{}, {}⟩) := by
  rintro ⟨h, _⟩
  have hrun : let s := (fulfilling.machine.run (retriedWhileSlow
        ++ ([.step 0 (.answer (.error alreadyHosted)), .step 0 .record] : ServeTurns))
          ⟨{}, {}⟩).shared
      ∃ order ∈ s.orders.orders.get? 0, order.status = .active ∧ s.undone 0 ≠ [] := by
    decide +kernel
  obtain ⟨order, horder, hactive, hundone⟩ := hrun
  exact hundone (h.last 0 order horder (.inl hactive))

end WPanel.Fulfilment
