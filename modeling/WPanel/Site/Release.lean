import WPanel.Site.Links
import WPanel.Site.Money

namespace WPanel.Site

open WPanel.Lib WPanel.Billing WPanel.Orders WPanel.Renewals

/-!
# Releasing orders and waiting for payment

An order is released to fulfilment as paid in two places: when its invoice is announced as
paid, and when staff release it after a fraud hold, going by the status of its invoice alone.

* `ReleasesCovered` — an order moved to paid has an invoice that received its total;
* `released_iff` — a run releases only such orders exactly when no held order is released
  against an invoice that was refunded before it was paid in full;
* `Waiting` — every order that awaits payment has an invoice that can still be paid;
* `waiting_iff` — a run keeps it so exactly when no held order is released with its invoice
  cancelled, and no order awaiting payment gets all its money back.
-/

/-! ### Reading the invoice of an order -/

theorem isPaid_iff {b : Billing.Store} {pk : ℕ} :
    isPaid b pk = true ↔ ∃ q l, b.invoices.get? q = some l ∧ l.invoice.order = some pk
      ∧ (l.invoice.status = .paid ∨ l.invoice.status = .refunded) := by
  simp only [isPaid, List.any_eq_true, Prod.exists, Table.mem_entries, Bool.and_eq_true,
    Bool.or_eq_true, decide_eq_true_eq]

/-- An issued invoice that is neither paid nor refunded nor cancelled is open. -/
theorem open_of_ne {status : InvoiceStatus} (hdraft : status ≠ .draft)
    (hcancelled : status ≠ .cancelled) (hpaid : ¬(status = .paid ∨ status = .refunded)) :
    status ∈ openStatuses := by
  cases status with
  | draft => exact absurd rfl hdraft
  | cancelled => exact absurd rfl hcancelled
  | paid => exact absurd (.inl rfl) hpaid
  | refunded => exact absurd (.inr rfl) hpaid
  | unpaid => decide
  | partiallyPaid => decide

section

variable {panel panel₁ panel' : Panel} {a : Act}

/-- But for checkout and the release of held orders, what a call writes of its own leaves the
    orders steady. -/
theorem Own.steady {events : List Renewals.Event} (h : Own panel a panel₁ events)
    (hcheckout : ∀ w actor cart methodCode agreed, a ≠ .checkout w actor cart methodCode agreed)
    (hclear : ∀ actor pk reason, a ≠ .order (.clearFraud actor pk reason)) :
    AllSteady panel.orders.orders panel₁.orders.orders := by
  cases h with
  | checkout => exact absurd rfl (hcheckout _ _ _ _ _)
  | cancelOrder h => exact moved_steady h (by decide) (by decide)
  | order h =>
    refine orderCall_steady h ?_
    rintro actor pk reason rfl
    exact hclear actor pk reason rfl
  | _ => exact .refl _

/-- A billing service writes nothing else. -/
theorem Own.of_billing {w : World} {call : Billing.Call} {events : List Renewals.Event}
    (h : Own panel (.billing w call) panel₁ events) : panel₁ = panel ∧ events = [] := by
  cases h with
  | billing => exact ⟨rfl, rfl⟩
  | again ha => cases ha
  | change ha => cases ha

/-- An order that is still awaiting payment was left alone, and nothing was said of it. -/
theorem Answer.of_pending {b : Billing.Store} {signals : List Signal} {pk : ℕ}
    {order order' : Order} (h : Answer b signals pk order order')
    (hpending : order'.status = .pendingPayment) :
    order' = order ∧ ¬Announces b signals .invoicePaid pk
      ∧ ¬Announces b signals .invoiceCancelled pk := by
  cases h with
  | kept hquiet => exact ⟨rfl, hquiet hpending⟩
  | paid => rw [moved_status] at hpending; cases hpending
  | cancelled => rw [moved_status] at hpending; cases hpending

/-! ### Orders moved to paid -/

/-- Every order that is now paid, and was not before, has an invoice that received its total. -/
def ReleasesCovered (panel panel' : Panel) : Prop :=
  ∀ pk order, panel'.orders.orders.get? pk = some order → order.status = .paid →
    (∀ before, panel.orders.orders.get? pk = some before → before.status ≠ .paid) →
    ∀ q l, panel'.billing.invoices.get? q = some l → l.invoice.order = some pk →
      l.invoice.total ≤ l.paidTotal

/-- A held order is released although its invoice was refunded before it was paid in full. -/
def ClearsUncovered (panel : Panel) : Act → Prop
  | .order (.clearFraud _ pk _) => ∃ q l, panel.billing.invoices.get? q = some l
      ∧ l.invoice.order = some pk ∧ l.invoice.status = .refunded
      ∧ l.invoice.amountPaid < l.invoice.total
  | _ => False

/-- What a call writes of its own makes an order paid only by releasing a held one. -/
theorem Own.paid_before {events : List Renewals.Event} (h : Own panel a panel₁ events)
    (hclear : ∀ actor pk reason, a ≠ .order (.clearFraud actor pk reason)) {pk : ℕ} {order : Order}
    (horder : panel₁.orders.orders.get? pk = some order) (hpaid : order.status = .paid) :
    ∃ before, panel.orders.orders.get? pk = some before ∧ before.status = .paid := by
  by_cases hcheckout : ∃ w actor cart methodCode agreed,
      a = .checkout w actor cart methodCode agreed
  · obtain ⟨w, actor, cart, methodCode, agreed, rfl⟩ := hcheckout
    cases h with
    | checkout hstatus =>
      -- the new order awaits payment, the others are as they were
      simp only [Table.get?_insert] at horder
      split at horder
      · cases horder
        rw [hstatus] at hpaid
        cases hpaid
      · exact ⟨order, horder, hpaid⟩
    | again ha => cases ha
    | change ha => cases ha
  · push Not at hcheckout
    obtain ⟨before, hbefore, hsteady⟩ := (h.steady hcheckout hclear).some_of horder
    exact ⟨before, hbefore, hsteady.paid hpaid⟩

/-- Releasing a held order pays no more and no less. -/
theorem clearFraud_cases {actor : Actor} {pk : ℕ} {reason : String} {events : List Event}
    (h : exec (.order (.clearFraud actor pk reason)) panel = .ok (panel', events)) :
    panel'.billing = panel.billing ∧ ∃ order reason, panel.orders.orders.get? pk = some order
      ∧ order.status = .fraud
      ∧ panel'.orders.orders = panel.orders.orders.put pk
        (order.moved (if isPaid panel.billing pk then .paid else .pendingPayment) reason) := by
  obtain ⟨orders, hcall, heq⟩ := map_eq_ok.mp h
  cases heq
  exact ⟨rfl, clearFraud_moved hcall⟩

/-- Of the invoice of an order that was paid when its signal came, the total was received. -/
theorem total_le_of_linked (hs : Kept panel.billing) (hlinked : panel.Linked) {pk q q' : ℕ}
    {l l' : Ledger} (hl : panel.billing.invoices.get? q = some l)
    (horder : l.invoice.order = some pk) (hpaid : l.invoice.total ≤ l.invoice.amountPaid)
    (hl' : panel.billing.invoices.get? q' = some l') (horder' : l'.invoice.order = some pk) :
    l'.invoice.total ≤ l'.paidTotal := by
  obtain ⟨rfl, rfl⟩ := hlinked.eq hl horder hl' horder'
  rw [(hs.invoices q l hl).paid]
  exact hpaid

/-- Any call but the release of a held order moves only covered orders to paid. -/
theorem releasesCovered_of_ne {events : List Event} (hs : Kept panel.billing)
    (hlinked : panel.Linked) (h : exec a panel = .ok (panel', events))
    (hclear : ∀ actor pk reason, a ≠ .order (.clearFraud actor pk reason)) :
    ReleasesCovered panel panel' := by
  obtain ⟨panel₁, own, rest, hown, heffect, rfl⟩ := exec_effect hs h
  intro pk order' horder' hpaid hbefore q l hl horder
  obtain ⟨order, horder₁, hanswer⟩ := heffect.orders.some_of horder'
  cases hanswer with
  | kept =>
    obtain ⟨before, hget, hpaid'⟩ := hown.paid_before hclear horder₁ hpaid
    exact absurd hpaid' (hbefore before hget)
  | paid reason _ hannounced =>
    -- its invoice was announced as paid, so it is
    obtain ⟨q₀, l₀, hmem, hl₀, horder₀⟩ := hannounced
    obtain ⟨l₁, hl₁, hstatus⟩ := exec_paid_signal hs h (q := q₀) (by
      rw [signalsOf_append]
      exact List.mem_append_right _ hmem)
    cases hl₀.symm.trans hl₁
    exact total_le_of_linked heffect.kept (hlinked.exec hs h) hl₀ horder₀
      ((heffect.kept.invoices q₀ l₀ hl₀).total_le_paid hstatus) hl horder
  | cancelled => rw [moved_status] at hpaid; cases hpaid

/-- Releasing a held order moves it to paid only when covered, but for an invoice refunded too
    early. -/
theorem releasesCovered_clearFraud_iff {actor : Actor} {pk : ℕ} {reason : String}
    {events : List Event} (hs : Kept panel.billing) (hlinked : panel.Linked)
    (h : exec (.order (.clearFraud actor pk reason)) panel = .ok (panel', events)) :
    ReleasesCovered panel panel'
      ↔ ¬ClearsUncovered panel (.order (.clearFraud actor pk reason)) := by
  obtain ⟨hbilling, order, reason', horder, hfraud, heq⟩ := clearFraud_cases h
  constructor
  · rintro hcovered ⟨q, l, hl, hl', hrefunded, hlt⟩
    -- such an invoice counts as paid, so the order is released
    have hreleased : panel'.orders.orders.get? pk = some (order.moved .paid reason') := by
      rw [heq, if_pos (isPaid_iff.mpr ⟨q, l, hl, hl', .inr hrefunded⟩), Table.get?_put_self horder]
    have hle := hcovered pk _ hreleased (moved_status _ _ _)
      (fun before hbefore => by cases horder.symm.trans hbefore; rw [hfraud]; nofun)
      q l (by rw [hbilling]; exact hl) hl'
    rw [(hs.invoices q l hl).paid] at hle
    omega
  · intro hclears p row hrow hpaid hbefore q l hl hl'
    rw [hbilling] at hl
    rw [heq, Table.get?_put horder] at hrow
    split at hrow
    · next hp =>
      subst hp
      cases hrow
      rw [moved_status] at hpaid
      split at hpaid
      · next hisPaid =>
        obtain ⟨q₀, l₀, hl₀, horder₀, hstatus⟩ := isPaid_iff.mp hisPaid
        refine total_le_of_linked hs hlinked hl₀ horder₀ ?_ hl hl'
        rcases hstatus with hstatus | hstatus
        · exact (hs.invoices q₀ l₀ hl₀).total_le_paid hstatus
        · by_contra hlt
          exact hclears ⟨q₀, l₀, hl₀, horder₀, hstatus, by omega⟩
      · cases hpaid
    · exact absurd hpaid (hbefore row hrow)

end

/-- **A run moves only orders to paid whose invoice received its total, exactly when it never
    releases a held order whose invoice was refunded before it was paid in full.** -/
theorem released_iff (as : List Act) :
    machine.EachStep (fun panel _ panel' => ReleasesCovered panel panel') as {}
      ↔ machine.EachStep (fun panel a _ => ¬ClearsUncovered panel a) as {} := by
  refine Machine.eachStep_iff_eachStep (m := machine)
    (I := fun panel => Kept panel.billing ∧ panel.Linked)
    (fun a panel panel' events hI h => ⟨kept_step hI.1 h, hI.2.exec hI.1 h⟩) ?_ as {}
    ⟨Kept.empty, Linked.empty⟩
  rintro a panel panel' events ⟨hs, hlinked⟩ h
  by_cases hclear : ∃ actor pk reason, a = .order (.clearFraud actor pk reason)
  · obtain ⟨actor, pk, reason, rfl⟩ := hclear
    exact releasesCovered_clearFraud_iff hs hlinked h
  · push Not at hclear
    refine iff_of_true (releasesCovered_of_ne hs hlinked h hclear) ?_
    cases a with
    | order call =>
      cases call with
      | clearFraud actor pk reason => exact absurd rfl (hclear actor pk reason)
      | _ => exact not_false
    | _ => exact not_false

/-- An order of 100.00 gets 40.00, is held as fraud, and the 40.00 are given back. -/
def heldAndRefunded : List Act :=
  orderPlan ++ [receive0 4000, .order (.markFraud staff 0 ""), refund0 0 4000]

/-- Releasing it moves it to paid: of 100.00, only 40.00 ever came in. -/
theorem released_uncovered :
    ¬machine.EachStep (fun panel _ panel' => ReleasesCovered panel panel')
      (heldAndRefunded ++ [Act.order (.clearFraud staff 0 "")]) {} := by
  intro h
  have hrun : let panel := machine.run heldAndRefunded {}
      let panel' := machine.next (.order (.clearFraud staff 0 "")) panel
      (machine.exec (.order (.clearFraud staff 0 "")) panel).isOk = true
        ∧ (∀ order ∈ panel.orders.orders.get? 0, order.status ≠ .paid)
        ∧ (∃ order ∈ panel'.orders.orders.get? 0, order.status = .paid)
        ∧ ∃ l ∈ panel'.billing.invoices.get? 0, l.invoice.order = some 0
            ∧ l.paidTotal < l.invoice.total := by
    decide +kernel
  obtain ⟨hok, hbefore, ⟨order, horder, hpaid⟩, l, hl, hlinked, hlt⟩ := hrun
  have hle := h.last hok 0 order horder hpaid hbefore 0 l hl hlinked
  omega

/-! ### Orders awaiting payment -/

/-- Every order that awaits payment has an invoice that can still be paid. -/
def Waiting (panel : Panel) : Prop :=
  ∀ pk order, panel.orders.orders.get? pk = some order → order.status = .pendingPayment →
    ∃ q l, panel.billing.invoices.get? q = some l ∧ l.invoice.order = some pk
      ∧ l.invoice.status ∈ openStatuses

/-- A refund of this amount on this payment takes back all that was received and not given
    back yet. -/
def GivesAllBack (l : Ledger) (id : TxId) (amount : Option Typed) : Prop :=
  ∃ payment cents, l.transactions[id.index]? = some payment
    ∧ amountOr amount (refundableAmount l id.index payment) = .ok cents
    ∧ l.invoice.amountPaid ≤ l.invoice.amountRefunded + cents

/-- What leaves an order waiting for a payment that cannot come: a held order is released with
    its invoice cancelled, or everything an open invoice received so far is given back. -/
def Strands (panel : Panel) : Act → Prop
  | .order (.clearFraud _ pk _) => ∃ q l, panel.billing.invoices.get? q = some l
      ∧ l.invoice.order = some pk ∧ l.invoice.status = .cancelled
  | .billing _ (.refundPayment _ id amount _) => ∃ l pk order,
      panel.billing.invoices.get? id.invoice = some l ∧ l.invoice.order = some pk
        ∧ panel.orders.orders.get? pk = some order ∧ order.status = .pendingPayment
        ∧ l.invoice.status ∈ openStatuses ∧ GivesAllBack l id amount
  | _ => False

section

variable {panel panel₁ panel' : Panel} {a : Act} {events : List Event}

/-- An order still awaiting payment after a call, with what the call wrote of its own before. -/
theorem pending_before {may : Policy} (h : Effect may panel₁ panel' events) {pk : ℕ}
    {order : Order} (horder : panel'.orders.orders.get? pk = some order)
    (hpending : order.status = .pendingPayment) :
    panel₁.orders.orders.get? pk = some order
      ∧ ¬Announces panel'.billing (signalsOf events) .invoicePaid pk
      ∧ ¬Announces panel'.billing (signalsOf events) .invoiceCancelled pk := by
  obtain ⟨before, hbefore, hanswer⟩ := h.orders.some_of horder
  obtain ⟨rfl, hquiet⟩ := hanswer.of_pending hpending
  exact ⟨hbefore, hquiet⟩

/-- An invoice that was open and of which nothing was said is open still, where nothing is
    given back. -/
theorem open_of_quiet {may : Policy} (hs : Kept panel₁.billing)
    (hrefund : ∀ pk l, ¬may pk .refund l) (h : Effect may panel₁ panel' events) {pk q : ℕ}
    {l : Ledger} (hl : panel₁.billing.invoices.get? q = some l) (horder : l.invoice.order = some pk)
    (hopen : l.invoice.status ∈ openStatuses)
    (hpaid : ¬Announces panel'.billing (signalsOf events) .invoicePaid pk)
    (hcancelled : ¬Announces panel'.billing (signalsOf events) .invoiceCancelled pk) :
    ∃ l', panel'.billing.invoices.get? q = some l' ∧ l'.invoice.order = some pk
      ∧ l'.invoice.status ∈ openStatuses := by
  obtain ⟨l', hl', _, horder', _⟩ := h.invoices.issued_kept hl (ne_of_open hopen).1
  have hlinked := horder'.trans horder
  rcases h.invoices.open_kept hrefund hs.invoices hl hopen with hmem | hmem | ⟨l₁, hl₁, hopen'⟩
  · exact absurd ⟨q, l', hmem, hl', hlinked⟩ hpaid
  · exact absurd ⟨q, l', hmem, hl', hlinked⟩ hcancelled
  · cases hl'.symm.trans hl₁
    exact ⟨l', hl', hlinked, hopen'⟩

/-- A refund leaves its invoice open exactly when it leaves some of the money received. -/
theorem refund_open_iff {l : Ledger} (hs : Sound l) (hopen : l.invoice.status ∈ openStatuses)
    {tx : Transaction} (htype : tx.type = .refund) (hstatus : tx.status = .succeeded)
    (hpaid : 0 < l.invoice.amountPaid) (now : Moment) (pk : ℕ) :
    (l.book now pk (l.transactions ++ [tx])).1.invoice.status ∈ openStatuses
      ↔ ¬l.invoice.amountPaid ≤ l.invoice.amountRefunded + tx.amount := by
  have hlt := hs.paid_lt_total hopen
  rw [book_status, if_pos (ne_of_open hopen), hs.book_refund_paid htype,
    hs.book_refund_refunded htype hstatus, statusFor]
  by_cases hall : l.invoice.amountPaid ≤ l.invoice.amountRefunded + tx.amount
  · rw [if_pos ⟨hpaid, hall⟩]
    exact iff_of_false (by decide) (not_not.mpr hall)
  · rw [if_neg fun h => hall h.2, if_neg (by omega), if_pos hpaid]
    exact iff_of_true (by decide) hall

/-- Of an invoice whose succeeded payment is being refunded, some money was received. -/
theorem paid_pos_of_refund {pk : ℕ} {l l' : Ledger} {out : List Signal} (hs : Sound l)
    (h : Step pk .refund l l' out) : 0 < l.invoice.amountPaid := by
  have hs' := (h.sound hs).refunded_le_paid
  cases h with
  | refund htx hpayment hsucceeded htype hstatus hparent hamount havailable =>
    rw [book_amountPaid, book_amountRefunded, hs.book_refund_paid htype,
      hs.book_refund_refunded htype hstatus] at hs'
    have := hs.refunded_nonneg
    omega

/-- Signals about refunds set nothing off. -/
theorem dispatch_refunded {w : World} {signals : List Signal}
    (hsignals : ∀ signal ∈ signals, ∃ q, signal = .invoiceRefunded q)
    (h : dispatch w signals panel = .ok (panel', events)) : panel' = panel := by
  induction signals generalizing events with
  | nil => cases h; rfl
  | cons signal rest ih =>
    obtain ⟨q, rfl⟩ := hsignals signal List.mem_cons_self
    simp only [dispatch, receive, bind_eq_ok, pure_eq_ok, Prod.exists, Prod.mk.injEq] at h
    obtain ⟨_, _, hfirst, _, _, hrest, rfl, _⟩ := h
    cases hfirst
    exact ih (fun s hs => hsignals s (List.mem_cons_of_mem _ hs)) hrest

/-- **A refund on an open invoice** leaves it open exactly when it does not give all back, and
    touches nothing else. -/
theorem refund_of_open {w : World} {actor : Actor} {id : TxId} {amount : Option Typed}
    {gateway : Except String String} (hs : Kept panel.billing)
    (h : exec (.billing w (.refundPayment actor id amount gateway)) panel = .ok (panel', events)) :
    ∃ l l', panel.billing.invoices.get? id.invoice = some l
      ∧ panel'.billing.invoices = panel.billing.invoices.put id.invoice l'
      ∧ l'.invoice.order = l.invoice.order
      ∧ (l.invoice.status ∈ openStatuses →
        (l'.invoice.status ∈ openStatuses ↔ ¬GivesAllBack l id amount)
          ∧ panel'.orders = panel.orders ∧ panel'.renewals = panel.renewals) := by
  obtain ⟨l, payment, tx, hl, hpayment, hamount, htype, hstatus, hstep, hinvoices, hsignals⟩ :=
    refund_cases h
  refine ⟨l, _, hl, hinvoices, by rw [book_order], fun hopen => ?_⟩
  have hsound := hs.invoices _ l hl
  have hpos := paid_pos_of_refund hsound hstep
  refine ⟨?_, ?_⟩
  · rw [refund_open_iff hsound hopen htype hstatus hpos, not_iff_not]
    constructor
    · exact fun hall => ⟨payment, tx.amount, hpayment, hamount, hall⟩
    · rintro ⟨payment', cents, hpayment', hcents, hall⟩
      cases hpayment.symm.trans hpayment'
      cases hamount.symm.trans hcents
      exact hall
  · simp only [exec, billingCall, bill, bind_eq_ok, ensure_eq_ok, exists_and_left, exists_const,
      pure_eq_ok, Prod.exists, Prod.mk.injEq] at h
    obtain ⟨panel₁, events₁, ⟨b, signals, hcall, hdispatch⟩, _, _, rfl, rfl⟩ := h
    have hsent : signals = signalsOf events₁ := (dispatch_reacts hdispatch).sent.symm
    have hsame := dispatch_refunded (fun signal hmem => ?_) hdispatch
    · rw [hsame]
      exact ⟨rfl, rfl⟩
    rw [hsent, hsignals, hstep.refund_signals hsound] at hmem
    exact ⟨_, List.mem_singleton.mp hmem⟩

/-- A refund strands an order exactly when it takes back all its open invoice received. -/
theorem waiting_refund_iff {w : World} {actor : Actor} {id : TxId} {amount : Option Typed}
    {gateway : Except String String} (hs : Kept panel.billing) (hlinked : panel.Linked)
    (hwaiting : Waiting panel)
    (h : exec (.billing w (.refundPayment actor id amount gateway)) panel = .ok (panel', events)) :
    Waiting panel' ↔ ¬Strands panel (.billing w (.refundPayment actor id amount gateway)) := by
  obtain ⟨l, l', hl, hinvoices, hsameOrder, hofOpen⟩ := refund_of_open hs h
  obtain ⟨panel₁, own, rest, hown, heffect, rfl⟩ := exec_effect hs h
  obtain ⟨rfl, rfl⟩ := hown.of_billing
  have hget : panel'.billing.invoices.get? id.invoice = some l' := by
    rw [hinvoices, Table.get?_put_self hl]
  constructor
  · rintro hwaits ⟨l₀, pk, order, hl₀, horder, hget₀, hpending, hopen, hall⟩
    cases hl.symm.trans hl₀
    obtain ⟨hopen_iff, horders, _⟩ := hofOpen hopen
    -- the order still waits, and its only invoice is open no more
    obtain ⟨q, l₁, hl₁, horder₁, hopen₁⟩ := hwaits pk order (by rw [horders]; exact hget₀) hpending
    obtain ⟨_, rfl⟩ := (hlinked.exec hs h).eq hget (hsameOrder.trans horder) hl₁ horder₁
    exact hopen_iff.mp hopen₁ hall
  · intro hstrands pk order horder hpending
    obtain ⟨horder₁, _, _⟩ := pending_before heffect horder hpending
    obtain ⟨q, l₀, hl₀, hlinked₀, hopen⟩ := hwaiting pk order horder₁ hpending
    by_cases hq : q = id.invoice
    · subst hq
      cases hl.symm.trans hl₀
      refine ⟨id.invoice, l', hget, hsameOrder.trans hlinked₀, (hofOpen hopen).1.mpr ?_⟩
      exact fun hall => hstrands ⟨l, pk, order, hl, hlinked₀, horder₁, hpending, hopen, hall⟩
    · exact ⟨q, l₀, by rw [hinvoices, Table.get?_put_of_ne hq, hl₀], hlinked₀, hopen⟩

/-- Releasing a held order strands it exactly when its invoice is cancelled. -/
theorem waiting_clearFraud_iff {actor : Actor} {pk : ℕ} {reason : String}
    (hlinked : panel.Linked) (hwaiting : Waiting panel)
    (h : exec (.order (.clearFraud actor pk reason)) panel = .ok (panel', events)) :
    Waiting panel' ↔ ¬Strands panel (.order (.clearFraud actor pk reason)) := by
  obtain ⟨hbilling, order, reason', horder, hfraud, heq⟩ := clearFraud_cases h
  obtain ⟨q, l, hl, hlinked₀⟩ := hlinked.invoice pk order horder
  obtain ⟨hissued, _⟩ := hlinked.order q l pk hl hlinked₀
  constructor
  · rintro hwaits ⟨q₁, l₁, hl₁, hlinked₁, hcancelled⟩
    obtain ⟨rfl, rfl⟩ := hlinked.eq hl hlinked₀ hl₁ hlinked₁
    -- a cancelled invoice does not count as paid, so the order waits again
    have hunpaid : ¬isPaid panel.billing pk = true := by
      rw [isPaid_iff]
      rintro ⟨q₂, l₂, hl₂, hlinked₂, hstatus⟩
      obtain ⟨_, rfl⟩ := hlinked.eq hl hlinked₀ hl₂ hlinked₂
      rw [hcancelled] at hstatus
      rcases hstatus with hstatus | hstatus <;> cases hstatus
    have hget : panel'.orders.orders.get? pk = some (order.moved .pendingPayment reason') := by
      rw [heq, if_neg hunpaid, Table.get?_put_self horder]
    obtain ⟨q₂, l₂, hl₂, hlinked₂, hopen⟩ := hwaits pk _ hget (moved_status _ _ _)
    rw [hbilling] at hl₂
    obtain ⟨_, rfl⟩ := hlinked.eq hl hlinked₀ hl₂ hlinked₂
    exact (ne_of_open hopen).2 hcancelled
  · intro hstrands p row hrow hpending
    rw [heq, Table.get?_put horder] at hrow
    rw [hbilling]
    split at hrow
    · next hp =>
      subst hp
      cases hrow
      rw [moved_status] at hpending
      split at hpending
      · cases hpending
      · next hunpaid =>
        refine ⟨q, l, hl, hlinked₀, open_of_ne hissued (fun hc => ?_) fun hstatus => hunpaid ?_⟩
        · exact hstrands ⟨q, l, hl, hlinked₀, hc⟩
        · exact isPaid_iff.mpr ⟨q, l, hl, hlinked₀, hstatus⟩
    · exact hwaiting p row hrow hpending

/-- The invoice of a new order is open, or it was announced as paid. -/
theorem waiting_checkout {w : World} {actor : Actor} {cart : ℕ} {methodCode : String}
    {policiesAgreed : Bool} (hs : Kept panel.billing) (hwaiting : Waiting panel)
    (h : exec (.checkout w actor cart methodCode policiesAgreed) panel = .ok (panel', events)) :
    Waiting panel' := by
  obtain ⟨order, carts, b, l, l', signals, _, hlinked, _, hsaved, hreacts⟩ := checkout_steps h
  have heffect : Effect (fun _ act _ => act ≠ .refund)
      { panel with orders :=
        { panel.orders with orders := panel.orders.orders.insert order, carts } }
      panel' events := by
    have hmoves : Moves (fun _ act _ => act ≠ .refund) panel.billing.invoices b.invoices signals :=
      hsaved.moves (by decide) (by decide)
    exact .of_reacts hmoves
      ⟨hmoves.sound hs.invoices, by rw [QuotesPriced, hsaved.quotes]; exact hs.quotes⟩ hreacts
  intro pk row hrow hpending
  obtain ⟨hrow₁, hpaid, hcancelled⟩ := pending_before heffect hrow hpending
  replace hrow₁ : (panel.orders.orders.insert order).get? pk = some row := hrow₁
  rw [Table.get?_insert] at hrow₁
  split at hrow₁
  · next hpk =>
    -- the order of this checkout: were its invoice paid, the order would be too
    have hb : panel'.billing = b := hreacts.billing
    have hget : panel'.billing.invoices.get? panel.billing.invoices.nextPk = some l' := by
      rw [hb, hsaved.invoices, Table.get?_put_self (Table.get?_insert_self _ _)]
    have horder' : l'.invoice.order = some pk := by rw [hsaved.step.order_eq, hlinked, hpk]
    refine ⟨_, l', hget, horder', hsaved.step.issue_opens.resolve_right fun hmem => hpaid ?_⟩
    rw [hreacts.sent]
    exact ⟨_, l', hmem, hget, horder'⟩
  · obtain ⟨q, l₀, hl₀, hlinked₀, hopen⟩ := hwaiting pk row hrow₁ hpending
    refine ⟨q, open_of_quiet ?_ (fun _ _ hmay => hmay rfl) heffect hl₀ hlinked₀ hopen hpaid
      hcancelled⟩
    exact hs

/-- Any other call keeps every order that awaits payment with an open invoice. -/
theorem waiting_of_ne (hs : Kept panel.billing) (hwaiting : Waiting panel)
    (h : exec a panel = .ok (panel', events)) (hrefund : a.isRefund = false)
    (hcheckout : ∀ w actor cart methodCode agreed, a ≠ .checkout w actor cart methodCode agreed)
    (hclear : ∀ actor pk reason, a ≠ .order (.clearFraud actor pk reason)) : Waiting panel' := by
  obtain ⟨panel₁, own, rest, hown, heffect, _⟩ := exec_effect hs h
  intro pk order' horder' hpending
  obtain ⟨horder₁, hpaid, hcancelled⟩ := pending_before heffect horder' hpending
  obtain ⟨order, horder, hsteady⟩ := (hown.steady hcheckout hclear).some_of horder₁
  obtain ⟨q, l, hl, hlinked, hopen⟩ := hwaiting pk order horder (hsteady.pending hpending)
  rw [← hown.billing_eq] at hl hs
  refine ⟨q, open_of_quiet hs (fun _ _ hmay => ?_) heffect hl hlinked hopen hpaid hcancelled⟩
  rw [may_refund hmay] at hrefund
  cases hrefund

end

/-- **In every state of a run every order that awaits payment has an invoice that can still be
    paid, exactly when the run strands none**: no held order is released with its invoice
    cancelled, and no order awaiting payment gets all its money back. -/
theorem waiting_iff (as : List Act) :
    machine.Always Waiting as {} ↔ machine.EachStep (fun panel a _ => ¬Strands panel a) as {} := by
  have hstep : ∀ a panel panel' events, Kept panel.billing → panel.Linked → Waiting panel →
      machine.Commits a panel panel' events → (Waiting panel' ↔ ¬Strands panel a) := by
    intro a panel panel' events hs hlinked hwaiting h
    by_cases hclear : ∃ actor pk reason, a = .order (.clearFraud actor pk reason)
    · obtain ⟨actor, pk, reason, rfl⟩ := hclear
      exact waiting_clearFraud_iff hlinked hwaiting h
    by_cases hrefund : ∃ w actor id amount gateway,
        a = .billing w (.refundPayment actor id amount gateway)
    · obtain ⟨w, actor, id, amount, gateway, rfl⟩ := hrefund
      exact waiting_refund_iff hs hlinked hwaiting h
    push Not at hclear hrefund
    refine iff_of_true ?_ ?_
    · by_cases hcheckout : ∃ w actor cart methodCode agreed,
          a = .checkout w actor cart methodCode agreed
      · obtain ⟨w, actor, cart, methodCode, agreed, rfl⟩ := hcheckout
        exact waiting_checkout hs hwaiting h
      · push Not at hcheckout
        refine waiting_of_ne hs hwaiting h ?_ hcheckout hclear
        cases a with
        | billing w call =>
          cases call with
          | refundPayment => exact absurd rfl (hrefund _ _ _ _ _)
          | _ => rfl
        | _ => rfl
    · cases a with
      | billing w call =>
        cases call with
        | refundPayment => exact absurd rfl (hrefund _ _ _ _ _)
        | _ => exact not_false
      | order call =>
        cases call with
        | clearFraud => exact absurd rfl (hclear _ _ _)
        | _ => exact not_false
      | _ => exact not_false
  refine Machine.always_iff_eachStep (m := machine)
    (I := fun panel => Kept panel.billing ∧ panel.Linked ∧ Waiting panel) (fun _ h => h.2.2) ?_ ?_
    as {} ⟨Kept.empty, Linked.empty, fun pk order h => by
      rw [show ({} : Panel).orders.orders.get? pk = none from Table.get?_empty pk] at h
      cases h⟩
  · rintro a panel panel' events ⟨hs, hlinked, hwaiting⟩ h hgood
    exact ⟨kept_step hs h, hlinked.exec hs h, (hstep a _ _ _ hs hlinked hwaiting h).mpr hgood⟩
  · rintro a panel panel' events ⟨hs, hlinked, hwaiting⟩ h hwaits
    exact (hstep a _ _ _ hs hlinked hwaiting h).mp hwaits

/-- An order is held as fraud, its invoice is cancelled meanwhile, and it is released: it waits
    for a payment nobody can make. -/
theorem released_stranded :
    ¬machine.Always Waiting (orderPlan ++ [Act.order (.markFraud staff 0 ""),
      .billing smallWorld (.cancelInvoice staff 0 ""), .order (.clearFraud staff 0 "")]) {} := by
  intro h
  have hrun : let panel := machine.run (orderPlan ++ [Act.order (.markFraud staff 0 ""),
        .billing smallWorld (.cancelInvoice staff 0 ""), .order (.clearFraud staff 0 "")]) {}
      (∃ order ∈ panel.orders.orders.get? 0, order.status = .pendingPayment)
        ∧ ∀ entry ∈ panel.billing.invoices.entries, entry.2.invoice.status ∉ openStatuses := by
    decide +kernel
  obtain ⟨⟨order, horder, hpending⟩, hclosed⟩ := hrun
  obtain ⟨q, l, hl, _, hopen⟩ := h.last 0 order horder hpending
  exact hclosed (q, l) (Table.mem_entries.mpr hl) hopen

end WPanel.Site
