import WPanel.Billing.PaymentMoves
import WPanel.Site.State

namespace WPanel.Site

open WPanel.Lib WPanel.Billing WPanel.Orders WPanel.Renewals

/-!
# What the signals of billing set off

The receivers, described once: what hearing a list of signals does to the orders, to the
changes and to the paid terms.

* `Announces` — some of the signals are about an invoice of this order;
* `Answer` — what becomes of an order: one that awaits payment is paid or cancelled with its
  invoice, any other stays as it is;
* `Charged` — the invoices announced as paid asked for what their changes are worth;
* `Reacts` — everything together, with `dispatch_reacts` and `bill_reacts`.
-/

/-! ### The record of a call -/

def Event.signal? : Event → Option Signal
  | .billing signal => some signal
  | .renewals _ => none

def Event.renewal? : Event → Option Renewals.Event
  | .billing _ => none
  | .renewals event => some event

/-- The signals billing sent. -/
def signalsOf (events : List Event) : List Signal := events.filterMap Event.signal?

/-- What the renewals recorded. -/
def renewalsOf (events : List Event) : List Renewals.Event := events.filterMap Event.renewal?

@[simp] theorem signalsOf_nil : signalsOf [] = [] := rfl

@[simp] theorem renewalsOf_nil : renewalsOf [] = [] := rfl

@[simp] theorem signalsOf_append (events events' : List Event) :
    signalsOf (events ++ events') = signalsOf events ++ signalsOf events' := List.filterMap_append

@[simp] theorem renewalsOf_append (events events' : List Event) :
    renewalsOf (events ++ events') = renewalsOf events ++ renewalsOf events' :=
  List.filterMap_append

@[simp] theorem signalsOf_billing (signal : Signal) (events : List Event) :
    signalsOf (.billing signal :: events) = signal :: signalsOf events := rfl

@[simp] theorem renewalsOf_billing (signal : Signal) (events : List Event) :
    renewalsOf (.billing signal :: events) = renewalsOf events := rfl

@[simp] theorem signalsOf_renewals (events : List Renewals.Event) :
    signalsOf (events.map .renewals) = [] := by
  simp [signalsOf, List.filterMap_map, Function.comp_def, Event.signal?]

@[simp] theorem renewalsOf_renewals (events : List Renewals.Event) :
    renewalsOf (events.map .renewals) = events := by
  simp [renewalsOf, List.filterMap_map, Function.comp_def, Event.renewal?]

/-! ### Orders -/

/-- One of these signals is about an invoice of the order `pk`. -/
def Announces (b : Billing.Store) (signals : List Signal) (about : ℕ → Signal) (pk : ℕ) : Prop :=
  ∃ q l, about q ∈ signals ∧ b.invoices.get? q = some l ∧ l.invoice.order = some pk

theorem announces_append {b : Billing.Store} {signals signals' : List Signal}
    {about : ℕ → Signal} {pk : ℕ} :
    Announces b (signals ++ signals') about pk
      ↔ Announces b signals about pk ∨ Announces b signals' about pk := by
  constructor
  · rintro ⟨q, l, hmem, hl⟩
    exact (List.mem_append.mp hmem).imp (fun h => ⟨q, l, h, hl⟩) (fun h => ⟨q, l, h, hl⟩)
  · rintro (⟨q, l, hmem, hl⟩ | ⟨q, l, hmem, hl⟩)
    · exact ⟨q, l, List.mem_append_left _ hmem, hl⟩
    · exact ⟨q, l, List.mem_append_right _ hmem, hl⟩

/-- What becomes of the order `pk` when these signals are heard. -/
inductive Answer (b : Billing.Store) (signals : List Signal) (pk : ℕ) (order : Order) :
    Order → Prop
  | kept (h : order.status = .pendingPayment →
      ¬Announces b signals .invoicePaid pk ∧ ¬Announces b signals .invoiceCancelled pk) :
      Answer b signals pk order order
  | paid (reason : String) (hstatus : order.status = .pendingPayment)
      (h : Announces b signals .invoicePaid pk) :
      Answer b signals pk order (order.moved .paid reason)
  | cancelled (reason : String) (hstatus : order.status = .pendingPayment)
      (h : Announces b signals .invoiceCancelled pk) :
      Answer b signals pk order (order.moved .cancelled reason)

section Answer

variable {b : Billing.Store} {signals signals' : List Signal} {pk : ℕ} {order order' : Order}

theorem Answer.total (h : Answer b signals pk order order') : order'.total = order.total := by
  cases h with
  | kept => rfl
  | paid => exact moved_total _ _ _
  | cancelled => exact moved_total _ _ _

/-- Where nothing is said, nothing happens. -/
theorem Answer.nil (pk : ℕ) (order : Order) : Answer b [] pk order order := by
  refine .kept fun _ => ⟨?_, ?_⟩ <;> rintro ⟨_, _, hmem, _⟩ <;> cases hmem

theorem Answer.append {order'' : Order} (h : Answer b signals pk order order')
    (h' : Answer b signals' pk order' order'') :
    Answer b (signals ++ signals') pk order order'' := by
  cases h with
  | kept hquiet =>
    cases h' with
    | kept hquiet' =>
      refine .kept fun hpending => ?_
      simp only [announces_append, not_or]
      obtain ⟨h1, h2⟩ := hquiet hpending
      obtain ⟨h3, h4⟩ := hquiet' hpending
      exact ⟨⟨h1, h3⟩, h2, h4⟩
    | paid reason hstatus h => exact .paid reason hstatus (announces_append.mpr (.inr h))
    | cancelled reason hstatus h => exact .cancelled reason hstatus (announces_append.mpr (.inr h))
  | paid reason hstatus h =>
    -- once paid, an order does not hear of its invoice any more
    cases h' with
    | kept => exact .paid reason hstatus (announces_append.mpr (.inl h))
    | paid _ hstatus' => rw [moved_status] at hstatus'; cases hstatus'
    | cancelled _ hstatus' => rw [moved_status] at hstatus'; cases hstatus'
  | cancelled reason hstatus h =>
    cases h' with
    | kept => exact .cancelled reason hstatus (announces_append.mpr (.inl h))
    | paid _ hstatus' => rw [moved_status] at hstatus'; cases hstatus'
    | cancelled _ hstatus' => rw [moved_status] at hstatus'; cases hstatus'

end Answer

/-- The orders of a store, each related to what the reaction to one invoice makes of it. -/
private theorem related_of_answered {R : ℕ → Order → Order → Prop} {s s' : Orders.Store} {pk : ℕ}
    {new : OrderStatus} (h : Answered s pk new s')
    (hkept : ∀ q order, (q = pk → order.status ≠ .pendingPayment) → R q order order)
    (hmove : ∀ order reason, order.status = .pendingPayment → R pk order (order.moved new reason)) :
    Table.Related R s.orders s'.orders := by
  intro q
  cases h with
  | stay horder hstatus =>
    cases hq : s.orders.get? q with
    | none => exact .none
    | some order =>
      refine .some (hkept q order ?_)
      rintro rfl
      cases horder.symm.trans hq
      exact hstatus
  | move reason horder hstatus =>
    show Option.Rel (R q) _ ((s.orders.put pk _).get? q)
    rw [Table.get?_put horder]
    split
    · next hq =>
      subst hq
      rw [horder]
      exact .some (hmove _ _ hstatus)
    · next hq =>
      cases s.orders.get? q with
      | none => exact .none
      | some order => exact .some (hkept q order fun h => absurd h hq)

/-! ### Changes -/

/-- The invoices these signals announce as paid asked for the value of their changes, less the
    credit they show. -/
def Charged (b : Billing.Store) (signals : List Signal) (changes : Table ServiceChange) : Prop :=
  ∀ pk change l, changes.get? pk = some change → .invoicePaid change.invoice ∈ signals →
    b.invoices.get? change.invoice = some l →
    change.paidValue = charged l.invoice + l.invoice.discountTotal ∧ 0 ≤ l.invoice.discountTotal

section Charged

variable {b : Billing.Store} {signals signals' : List Signal}
  {changes changes' : Table ServiceChange} {paid : ℕ → Prop}

theorem Charged.mono (hsub : ∀ signal ∈ signals', signal ∈ signals)
    (h : Charged b signals changes) : Charged b signals' changes :=
  fun pk change l hchange hpaid hl => h pk change l hchange (hsub _ hpaid) hl

theorem Charged.advanced (h : Charged b signals changes)
    (hadv : ChangesAdvanced paid changes changes') : Charged b signals changes' := by
  intro pk change l hchange hpaid hl
  obtain ⟨before, hbefore, hrel⟩ := hadv.some_of hchange
  rw [hrel.1.invoice] at hpaid hl
  rw [hrel.1.paidValue]
  exact h pk before l hbefore hpaid hl

end Charged

/-! ### Everything together -/

/-- The invoice `q` is announced as paid or as cancelled. -/
def Closes (signals : List Signal) (q : ℕ) : Prop :=
  .invoicePaid q ∈ signals ∨ .invoiceCancelled q ∈ signals

theorem closes_append {signals signals' : List Signal} {q : ℕ} :
    Closes (signals ++ signals') q ↔ Closes signals q ∨ Closes signals' q := by
  simp only [Closes, List.mem_append]
  tauto

/-- What hearing these signals does. -/
structure Reacts (signals : List Signal) (panel panel' : Panel) (events : List Event) : Prop where
  billing : panel'.billing = panel.billing
  sent : signalsOf events = signals
  orders : Table.Related (Answer panel.billing signals) panel.orders.orders panel'.orders.orders
  changes : ChangesAdvanced (fun q => .invoicePaid q ∈ signals) panel.renewals.changes
    panel'.renewals.changes
  pending : ChangesPending (Closes signals) panel.renewals.changes panel'.renewals.changes
  addons : AddonsPending (Closes signals) panel.renewals.addonOrders panel'.renewals.addonOrders
  terms : ∀ n, Charged panel.billing signals panel.renewals.changes →
    Accounted panel.renewals.accounts n →
    Accounted panel'.renewals.accounts (counted n (renewalsOf events))

theorem Reacts.nil (panel : Panel) : Reacts [] panel panel [] := by
  have hquiet : ∀ q, ¬Closes [] q := fun q h => by simp [Closes] at h
  exact ⟨rfl, rfl, Table.Related.refl Answer.nil _, .refl _, .refl hquiet _, .refl hquiet _,
    fun _ _ h => h⟩

theorem Reacts.append {signals signals' : List Signal} {panel panel' panel'' : Panel}
    {events events' : List Event} (h : Reacts signals panel panel' events)
    (h' : Reacts signals' panel' panel'' events') :
    Reacts (signals ++ signals') panel panel'' (events ++ events') := by
  refine ⟨h'.billing.trans h.billing, ?_, ?_, ?_,
    (h.pending.trans h'.pending).mono fun _ => closes_append.mp,
    (h.addons.trans h'.addons).mono fun _ => closes_append.mp, ?_⟩
  · rw [signalsOf_append, h.sent, h'.sent]
  · refine Table.Related.trans (fun _ _ _ _ => Answer.append) h.orders ?_
    rw [← h.billing]
    exact h'.orders
  · exact (h.changes.mono fun _ => List.mem_append_left _).trans
      (h'.changes.mono fun _ => List.mem_append_right _)
  · intro n hcharged hterms
    rw [renewalsOf_append, counted_append]
    apply h'.terms
    · rw [h.billing]
      exact (hcharged.mono fun _ => List.mem_append_right _).advanced h.changes
    · exact h.terms n (hcharged.mono fun _ => List.mem_append_left _) hterms

section

variable {w : World} {panel panel' : Panel} {events : List Event}

/-- Hearing one signal names the orders of its invoice, as what it says of it. -/
private theorem announces_singleton {b : Billing.Store} {q : ℕ} {l : Ledger} (about : ℕ → Signal)
    (habout : Function.Injective about) (hl : b.invoices.get? q = some l) (pk : ℕ) :
    Announces b [about q] about pk ↔ l.invoice.order = some pk := by
  constructor
  · rintro ⟨q', l', hmem, hl', horder⟩
    cases habout (List.mem_singleton.mp hmem)
    cases hl.symm.trans hl'
    exact horder
  · exact fun horder => ⟨q, l, List.mem_singleton_self _, hl, horder⟩

private theorem not_announces_singleton {b : Billing.Store} {signal : Signal} {about : ℕ → Signal}
    (habout : ∀ q, about q ≠ signal) (pk : ℕ) : ¬Announces b [signal] about pk := by
  rintro ⟨q, _, hmem, _⟩
  exact habout q (List.mem_singleton.mp hmem)

/-- The orders after a reaction to the invoice `l`, where `hnamed` says that the signal names
    its order. -/
private theorem answers {b : Billing.Store} {signal : Signal} {l : Ledger} {s s' : Orders.Store}
    {new : OrderStatus}
    (h : (l.invoice.order = none ∧ s' = s) ∨
      ∃ pk, l.invoice.order = some pk ∧ Answered s pk new s')
    (hnamed : ∀ pk, Announces b [signal] .invoicePaid pk
      ∨ Announces b [signal] .invoiceCancelled pk →
      l.invoice.order = some pk)
    (hmove : ∀ pk order reason, l.invoice.order = some pk → order.status = .pendingPayment →
      Answer b [signal] pk order (order.moved new reason)) :
    Table.Related (Answer b [signal]) s.orders s'.orders := by
  have hkept : ∀ pk order, (l.invoice.order = some pk → order.status ≠ .pendingPayment) →
      Answer b [signal] pk order order := fun pk order hnot =>
    .kept fun hpending => ⟨fun ha => hnot (hnamed pk (.inl ha)) hpending,
      fun ha => hnot (hnamed pk (.inr ha)) hpending⟩
  rcases h with ⟨hnone, rfl⟩ | ⟨pk, horder, hanswered⟩
  · exact Table.Related.refl (fun pk order => hkept pk order fun h => by rw [hnone] at h; cases h) _
  · apply related_of_answered hanswered
    · intro q order hnot
      exact hkept q order fun h => hnot (by rw [horder] at h; cases h; rfl)
    · exact fun order reason hpending => hmove pk order reason horder hpending

theorem receive_reacts {signal : Signal} (h : receive w panel signal = .ok (panel', events)) :
    Reacts [signal] panel panel' (.billing signal :: events) := by
  cases signal with
  | invoicePaid q =>
    simp only [receive, bind_eq_ok, lockInvoice_eq_ok, pure_eq_ok, Prod.mk.injEq] at h
    obtain ⟨l, hl, orders, horders, rfl, rfl⟩ := h
    have hpaid := announces_singleton .invoicePaid (fun _ _ h => by cases h; rfl) hl
    have hcloses : ∀ q', Closes [.invoicePaid q] q' → q' = q := by
      rintro q' (hmem | hmem) <;> cases List.mem_singleton.mp hmem
      rfl
    refine ⟨rfl, by simp, ?_, ?_, applyPaidInvoice_pending.mono hcloses, ?_, ?_⟩
    · refine answers (markOrderPaid_eq_ok horders) (fun pk ha => ?_)
        fun pk order reason horder hpending => .paid reason hpending ((hpaid pk).mpr horder)
      rcases ha with ha | ha
      · exact (hpaid pk).mp ha
      · exact absurd ha (not_announces_singleton (by simp) pk)
    · refine (applyAll_advanced _ (pendingChanges_changesOf _ q)).mono ?_
      rintro _ rfl
      exact List.mem_singleton_self _
    · have haddons := applyPaidAddonOrders_pending w.env.now q
        (s := (applyPaidInvoice w.env w.providers q l.invoice panel.renewals).1)
      rw [applyPaidInvoice, applyAll_addonOrders] at haddons
      exact haddons.mono hcloses
    · intro n hcharged hterms
      simp only [renewalsOf_billing, renewalsOf_renewals]
      refine applyAll_accounted (fun pk row hrow hq => ?_) _ (pendingChanges_changesOf _ q) hterms
      subst hq
      exact hcharged pk row l hrow (List.mem_singleton_self _) hl
  | invoiceCancelled q =>
    simp only [receive, bind_eq_ok, lockInvoice_eq_ok, pure_eq_ok, Prod.mk.injEq] at h
    obtain ⟨l, hl, orders, horders, rfl, rfl⟩ := h
    have hcancelled := announces_singleton .invoiceCancelled (fun _ _ h => by cases h; rfl) hl
    have hcloses : ∀ q', Closes [.invoiceCancelled q] q' → q' = q := by
      rintro q' (hmem | hmem) <;> cases List.mem_singleton.mp hmem
      rfl
    refine ⟨rfl, by simp, ?_, voidChanges_advanced q _, (voidChanges_pending q).mono hcloses,
      (voidAddonOrders_pending (s := voidChanges q panel.renewals) q).mono hcloses,
      fun _ _ hterms => hterms⟩
    refine answers (cancelUnpaidOrder_eq_ok horders) (fun pk ha => ?_)
      fun pk order reason horder hpending => .cancelled reason hpending ((hcancelled pk).mpr horder)
    rcases ha with ha | ha
    · exact absurd ha (not_announces_singleton (by simp) pk)
    · exact (hcancelled pk).mp ha
  | invoiceRefunded q =>
    cases h
    have hquiet : ∀ q', ¬Closes [.invoiceRefunded q] q' := fun q' h => by simp [Closes] at h
    refine ⟨rfl, rfl, Table.Related.refl (fun pk order => .kept fun _ => ?_) _, .refl _,
      .refl hquiet _, .refl hquiet _, fun _ _ hterms => hterms⟩
    exact ⟨not_announces_singleton (by simp) pk, not_announces_singleton (by simp) pk⟩

/-- **What hearing a list of signals does.** -/
theorem dispatch_reacts {signals : List Signal}
    (h : dispatch w signals panel = .ok (panel', events)) : Reacts signals panel panel' events := by
  induction signals generalizing panel events with
  | nil =>
    cases h
    exact .nil _
  | cons signal rest ih =>
    simp only [dispatch, bind_eq_ok, pure_eq_ok, Prod.exists, Prod.mk.injEq] at h
    obtain ⟨panel₁, events₁, hfirst, panel₂, events₂, hrest, rfl, rfl⟩ := h
    exact (receive_reacts hfirst).append (ih hrest)

/-- **What a billing service does** to the panel: its own changes to the billing records, and
    what its signals set off. -/
theorem bill_reacts {service : Billing.Store → Except Err (Billing.Store × List Signal)}
    (h : bill w service panel = .ok (panel', events)) :
    ∃ b signals, service panel.billing = .ok (b, signals)
      ∧ Reacts signals { panel with billing := b } panel' events := by
  simp only [bill, bind_eq_ok, Prod.exists] at h
  obtain ⟨b, signals, hservice, hdispatch⟩ := h
  exact ⟨b, signals, hservice, dispatch_reacts hdispatch⟩

end

end WPanel.Site
