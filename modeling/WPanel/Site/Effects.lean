import WPanel.Billing.Announcements
import WPanel.Site.Machine
import WPanel.Site.Reactions

namespace WPanel.Site

open WPanel.Lib WPanel.Billing WPanel.Orders WPanel.Renewals

/-!
# What a call does

Every committed call writes something of its own, to the orders or to the services, and then
changes invoices, whose signals set off the rest.

* `Own` — what each call writes of its own;
* `Act.May` — the changes it can make to invoices;
* `Effect` — the changes to invoices and what their signals set off;
* `exec_effect` — every committed call is the one followed by the other.
-/

/-! ### What a call writes of its own -/

/-- The calls that invoice a renewal or an upgrade. -/
inductive Act.InvoicesChange : Act → Prop
  | hostingRenewal {w : World} {actor : Option Actor} {pk : ℕ} :
      InvoicesChange (.createHostingRenewal w actor pk)
  | domainRenewal {w : World} {actor : Option Actor} {pk years : ℕ} :
      InvoicesChange (.createDomainRenewal w actor pk years)
  | upgrade {w : World} {actor : Actor} {pk newPk : ℕ} :
      InvoicesChange (.createUpgrade w actor pk newPk)

/-- What a call writes to the orders and to the services before it changes any invoice. -/
inductive Own (panel : Panel) : Act → Panel → List Renewals.Event → Prop
  | billing {w : World} {call : Billing.Call} : Own panel (.billing w call) panel []
  | shop {carts : Table Cart} {cartItems : Table CartItem} :
      Own panel (.shop carts cartItems)
        { panel with orders := { panel.orders with carts, cartItems } } []
  /-- The order is saved, still awaiting payment. -/
  | checkout {w : World} {actor : Actor} {cart : ℕ} {methodCode : String} {policiesAgreed : Bool}
      {order : Order} {carts : Table Cart} (hstatus : order.status = .pendingPayment) :
      Own panel (.checkout w actor cart methodCode policiesAgreed)
        { panel with orders :=
          { panel.orders with orders := panel.orders.orders.insert order, carts } } []
  | cancelOrder {w : World} {actor : Actor} {pk : ℕ} {reason : String} {orders : Orders.Store}
      (h : Moved panel.orders pk .cancelled orders) :
      Own panel (.cancelOrder w actor pk reason) { panel with orders } []
  | order {call : OrderCall} {orders : Orders.Store}
      (h : call.exec panel.billing panel.orders = .ok orders) :
      Own panel (.order call) { panel with orders } []
  | service {call : ServiceCall} {renewals : Renewals.Store} {events : List Renewals.Event}
      (h : call.exec panel.renewals = .ok (renewals, events)) :
      Own panel (.service call) { panel with renewals } events
  /-- The renewal or upgrade was invoiced before. -/
  | again {a : Act} (ha : a.InvoicesChange) : Own panel a panel []
  | change {a : Act} {change : ServiceChange} (ha : a.InvoicesChange)
      (hstatus : change.status = .pending) :
      Own panel a
        { panel with renewals :=
          { panel.renewals with changes := panel.renewals.changes.insert change } } []
  /-- The extra was ordered before. -/
  | extraAgain {w : World} {actor : Actor} {addon : ℕ} {service : Service} :
      Own panel (.buyAddon w actor addon service) panel []
  | extra {w : World} {actor : Actor} {addon : ℕ} {service : Service} {order : AddonOrder}
      (hstatus : order.status = .pending) :
      Own panel (.buyAddon w actor addon service)
        { panel with renewals :=
          { panel.renewals with addonOrders := panel.renewals.addonOrders.insert order } } []
  | retry {w : World} {actor : Actor} {pk : ℕ} {change : ServiceChange} {l : Ledger}
      (hchange : panel.renewals.changes.get? pk = some change) (hstatus : change.status = .failed)
      (hinvoice : panel.billing.invoices.get? change.invoice = some l)
      (hpaid : l.invoice.total ≤ l.invoice.amountPaid) :
      Own panel (.retryChange w actor pk)
        { panel with renewals := (apply w.env w.providers l.invoice pk change panel.renewals).1 }
        (apply w.env w.providers l.invoice pk change panel.renewals).2

theorem Own.billing_eq {panel panel₁ : Panel} {a : Act} {events : List Renewals.Event}
    (h : Own panel a panel₁ events) : panel₁.billing = panel.billing := by
  cases h <;> rfl

/-! ### What follows -/

/-- Changes to invoices, and what their signals set off. -/
structure Effect (may : Policy) (panel panel' : Panel) (events : List Event) : Prop where
  invoices : Moves may panel.billing.invoices panel'.billing.invoices (signalsOf events)
  kept : Kept panel'.billing
  orders : Table.Related (Answer panel'.billing (signalsOf events)) panel.orders.orders
    panel'.orders.orders
  changes : ChangesAdvanced (fun q => .invoicePaid q ∈ signalsOf events) panel.renewals.changes
    panel'.renewals.changes
  pending : ChangesPending (Closes (signalsOf events)) panel.renewals.changes
    panel'.renewals.changes
  addons : AddonsPending (Closes (signalsOf events)) panel.renewals.addonOrders
    panel'.renewals.addonOrders
  terms : ∀ n, Charged panel'.billing (signalsOf events) panel.renewals.changes →
    Accounted panel.renewals.accounts n →
    Accounted panel'.renewals.accounts (counted n (renewalsOf events))

section

variable {may : Policy} {w : World} {panel panel₁ panel' : Panel} {events events' : List Event}

/-- A billing service and the receivers of its signals. -/
theorem Effect.of_reacts {b : Billing.Store} {signals : List Signal}
    (hmoves : Moves may panel.billing.invoices b.invoices signals) (hs : Kept b)
    (h : Reacts signals { panel with billing := b } panel' events) :
    Effect may panel panel' events := by
  obtain ⟨hbilling, rfl, horders, hchanges, hpending, haddons, hterms⟩ := h
  have hb : panel'.billing = b := hbilling
  exact ⟨hb ▸ hmoves, hb ▸ hs, hb ▸ horders, hchanges, hpending, haddons,
    fun n hcharged => hterms n (hb ▸ hcharged)⟩

theorem Effect.mono {may' : Policy} (hmay : ∀ pk act l, may pk act l → may' pk act l)
    (h : Effect may panel panel' events) : Effect may' panel panel' events :=
  { h with invoices := h.invoices.mono hmay }

theorem Effect.refl (hs : Kept panel.billing) : Effect may panel panel [] :=
  .of_reacts (.refl _) hs (.nil panel)

/-- The orders a signal is about can be read off any later state that still has its invoice. -/
theorem Announces.congr {b b' : Billing.Store} {signals : List Signal} {about : ℕ → Signal}
    (h : ∀ q, about q ∈ signals → ∃ l l', b.invoices.get? q = some l ∧ b'.invoices.get? q = some l'
      ∧ l'.invoice.order = l.invoice.order) (pk : ℕ) :
    Announces b signals about pk ↔ Announces b' signals about pk := by
  constructor
  · rintro ⟨q, l, hmem, hl, horder⟩
    obtain ⟨l₁, l', hl₁, hl', heq⟩ := h q hmem
    cases hl.symm.trans hl₁
    exact ⟨q, l', hmem, hl', heq.trans horder⟩
  · rintro ⟨q, l', hmem, hl', horder⟩
    obtain ⟨l, l₁, hl, hl₁, heq⟩ := h q hmem
    cases hl'.symm.trans hl₁
    exact ⟨q, l, hmem, hl, heq.symm.trans horder⟩

theorem Answer.congr {b b' : Billing.Store} {signals : List Signal} {pk : ℕ} {order order' : Order}
    (hpaid : ∀ pk, Announces b signals .invoicePaid pk ↔ Announces b' signals .invoicePaid pk)
    (hcancelled : ∀ pk,
      Announces b signals .invoiceCancelled pk ↔ Announces b' signals .invoiceCancelled pk)
    (h : Answer b signals pk order order') : Answer b' signals pk order order' := by
  cases h with
  | kept hquiet => exact .kept fun hp => by rw [← hpaid, ← hcancelled]; exact hquiet hp
  | paid reason hstatus ha => exact .paid reason hstatus ((hpaid pk).mp ha)
  | cancelled reason hstatus ha => exact .cancelled reason hstatus ((hcancelled pk).mp ha)

/-- Only invoices were cancelled. -/
def OnlyCancels (events : List Event) : Prop :=
  ∀ signal ∈ signalsOf events, ∃ q, signal = .invoiceCancelled q

theorem OnlyCancels.not_paid (h : OnlyCancels events) (q : ℕ) :
    .invoicePaid q ∉ signalsOf events := by
  intro hmem
  obtain ⟨_, heq⟩ := h _ hmem
  cases heq

/-- Cancelling some invoices and then others. -/
theorem Effect.append (h : Effect may panel panel₁ events) (h' : Effect may panel₁ panel' events')
    (hcancels : OnlyCancels events) (hcancels' : OnlyCancels events') :
    Effect may panel panel' (events ++ events') := by
  have hcongr : ∀ pk, Announces panel₁.billing (signalsOf events) .invoiceCancelled pk ↔
      Announces panel'.billing (signalsOf events) .invoiceCancelled pk := by
    apply Announces.congr
    intro q hmem
    obtain ⟨l, hl, hcancelled⟩ := h.invoices.cancelled_signal hmem
    obtain ⟨l', hl', _, horder, _⟩ := h'.invoices.issued_kept hl (by rw [hcancelled]; nofun)
    exact ⟨l, l', hl, hl', horder⟩
  have hnone : ∀ b pk, ¬Announces b (signalsOf events) .invoicePaid pk := by
    rintro b pk ⟨q, _, hmem, _⟩
    exact hcancels.not_paid q hmem
  refine ⟨?_, h'.kept, ?_, ?_, ?_, ?_, ?_⟩
  · rw [signalsOf_append]
    exact h.invoices.trans h'.invoices
  · rw [signalsOf_append]
    refine Table.Related.trans (fun pk a b c hab hbc => ?_) h.orders h'.orders
    exact (hab.congr (fun pk => iff_of_false (hnone _ pk) (hnone _ pk)) hcongr).append hbc
  · rw [signalsOf_append]
    exact (h.changes.mono fun _ => List.mem_append_left _).trans
      (h'.changes.mono fun _ => List.mem_append_right _)
  · rw [signalsOf_append]
    exact (h.pending.trans h'.pending).mono fun _ => closes_append.mp
  · rw [signalsOf_append]
    exact (h.addons.trans h'.addons).mono fun _ => closes_append.mp
  · intro n _ hterms
    rw [renewalsOf_append, counted_append]
    apply h'.terms _ fun _ _ _ _ hpaid => absurd hpaid (hcancels'.not_paid _)
    exact h.terms _ (fun _ _ _ _ hpaid => absurd hpaid (hcancels.not_paid _)) hterms

/-- Cancelling an invoice that is not a draft. -/
theorem cancel_effect {pk : ℕ} {reason : String} (hs : Kept panel.billing)
    (hissued : ∀ l, panel.billing.invoices.get? pk = some l → l.invoice.status ≠ .draft)
    (h : bill w (cancelInvoiceInternal pk reason) panel = .ok (panel', events)) :
    Effect Moneyless panel panel' events ∧ OnlyCancels events := by
  obtain ⟨b, signals, hcancel, hreacts⟩ := bill_reacts h
  have hmay : ∀ l, panel.billing.invoices.get? pk = some l → Moneyless pk .cancel l :=
    fun l hl => ⟨⟨by decide, fun _ => hissued l hl, nofun⟩, by decide⟩
  obtain ⟨hmoves, hquotes, _⟩ := cancelInvoiceInternal_moves hmay hcancel
  have hb : Kept b := ⟨hmoves.sound hs.invoices, by rw [QuotesPriced, hquotes]; exact hs.quotes⟩
  refine ⟨.of_reacts hmoves hb hreacts, fun signal hmem => ?_⟩
  rw [hreacts.sent] at hmem
  obtain ⟨l, _, _, _, ⟨_, _, rfl⟩ | ⟨l', hstep, _⟩⟩ := cancelInvoiceInternal_cases hcancel
  · cases hmem
  · cases hstep
    exact ⟨pk, List.mem_singleton.mp hmem⟩

/-- Cancelling a list of issued invoices. -/
theorem cancelInvoices_effect {reason : String} {pks : List ℕ} (hs : Kept panel.billing)
    (hissued : ∀ pk ∈ pks, ∃ l, panel.billing.invoices.get? pk = some l
      ∧ l.invoice.status ≠ .draft)
    (h : cancelInvoices w reason pks panel = .ok (panel', events)) :
    Effect Moneyless panel panel' events ∧ OnlyCancels events := by
  induction pks generalizing panel events with
  | nil =>
    cases h
    exact ⟨.refl hs, nofun⟩
  | cons pk rest ih =>
    simp only [cancelInvoices, bind_eq_ok, pure_eq_ok, Prod.exists, Prod.mk.injEq] at h
    obtain ⟨panel₁, events₁, hfirst, panel₂, events₂, hrest, rfl, rfl⟩ := h
    obtain ⟨l, hl, hdraft⟩ := hissued pk List.mem_cons_self
    obtain ⟨heffect, honly⟩ := cancel_effect hs
      (fun l' hl' => by cases hl.symm.trans hl'; exact hdraft) hfirst
    -- what was issued stays issued
    have hissued' : ∀ q ∈ rest, ∃ l, panel₁.billing.invoices.get? q = some l
        ∧ l.invoice.status ≠ .draft := by
      intro q hq
      obtain ⟨l, hl, hdraft⟩ := hissued q (List.mem_cons_of_mem _ hq)
      obtain ⟨l', hl', hdraft', _⟩ := heffect.invoices.issued_kept hl hdraft
      exact ⟨l', hl', hdraft'⟩
    obtain ⟨heffect', honly'⟩ := ih heffect.kept hissued' hrest
    refine ⟨heffect.append heffect' honly honly', fun signal hmem => ?_⟩
    rw [signalsOf_append] at hmem
    exact (List.mem_append.mp hmem).elim (honly signal) (honly' signal)

/-! ### Invoicing a change -/

/-- A draft is saved, then something about it, and it is opened: the new invoice charges the
    sum of the lines. -/
theorem draftAndIssue_steps {client q : ℕ} {draft : Draft} {billing : Billing.Store}
    {renewals : Renewals.Store} (hs : Kept panel.billing)
    (hdraft : createDraftInvoice w.env client draft panel.billing = .ok (q, billing))
    (hbill : bill w (issueDraftInvoice w.env q) { panel with billing, renewals }
      = .ok (panel', events)) :
    ∃ l l' b signals lines, q = panel.billing.invoices.nextPk ∧ Born l ∧ l.invoice.order = none
      ∧ Step q .issue l l' signals
      ∧ b.invoices = (panel.billing.invoices.insert l).put q l' ∧ b.quotes = panel.billing.quotes
      ∧ cleanLines draft.lines = .ok lines
      ∧ l'.invoice.subtotal = (lines.map (·.amount)).sum ∧ 0 ≤ l'.invoice.discountTotal
      ∧ Reacts signals { panel with billing := b, renewals } panel' events := by
  obtain ⟨l, lines, rfl, hinserted, hquotes, hborn, horder, hlines, hsum⟩ :=
    createDraftInvoice_step hdraft
  obtain ⟨b, signals, hissue, hreacts⟩ := bill_reacts hbill
  have hsound : billing.invoices.Forall fun _ l => Sound l := by
    rw [hinserted]
    exact hs.invoices.insert hborn.sound
  obtain ⟨l₁, l', hl₁, hstep, hput, hquotes', hsubtotal, hdiscount⟩ :=
    issueDraftInvoice_step (fun pk l hl => (hsound pk l hl).lines) hissue
  rw [hinserted, Table.get?_insert_self] at hl₁
  cases hl₁
  exact ⟨l, l', b, signals, lines, rfl, hborn, horder, hstep, by rw [hput, hinserted],
    hquotes'.trans hquotes, hlines, hsubtotal.trans hsum, hdiscount, hreacts⟩

/-- **Invoicing a change** saves a draft and the change, and opens the draft: the new invoice
    charges the sum of the lines. -/
theorem invoiceChange_steps {client : ℕ} {draft : Draft} {change : ℕ → ServiceChange}
    (hs : Kept panel.billing)
    (h : invoiceChange w client draft change panel = .ok (panel', events)) :
    ∃ l l' b signals lines, let q := panel.billing.invoices.nextPk
      Born l ∧ l.invoice.order = none ∧ Step q .issue l l' signals
        ∧ b.invoices = (panel.billing.invoices.insert l).put q l' ∧ b.quotes = panel.billing.quotes
        ∧ cleanLines draft.lines = .ok lines
        ∧ l'.invoice.subtotal = (lines.map (·.amount)).sum ∧ 0 ≤ l'.invoice.discountTotal
        ∧ Reacts signals { panel with
            billing := b
            renewals := { panel.renewals with
              changes := panel.renewals.changes.insert (change q) } } panel' events := by
  unfold invoiceChange saveChange at h
  simp only [bind_eq_ok, Prod.exists, fullClean_eq_ok, exists_and_left, exists_const, pure_eq_ok,
    Prod.mk.injEq] at h
  obtain ⟨q, billing, hdraft, _, _, ⟨_, _, rfl⟩, hbill⟩ := h
  obtain ⟨l, l', b, signals, lines, rfl, hsteps⟩ := draftAndIssue_steps hs hdraft hbill
  exact ⟨l, l', b, signals, lines, hsteps⟩

/-- What the calls that invoice a change of a service do: nothing when they asked before, else
    invoice one line for the value the change pays for. -/
def InvoicesOneLine (w : World) (service : Service) (panel panel' : Panel) (events : List Event) :
    Prop :=
  (panel' = panel ∧ events = []) ∨
    ∃ client description price discount change,
      invoiceChange w client (oneLine description price discount) change panel
        = .ok (panel', events)
        ∧ ∀ q, (change q).invoice = q ∧ (change q).status = .pending ∧ (change q).paidValue = price
          ∧ (change q).service = service

theorem hostingRenewal_cases {pk : ℕ} (h : hostingRenewal w pk panel = .ok (panel', events)) :
    InvoicesOneLine w (.hosting pk) panel panel' events := by
  unfold hostingRenewal at h
  simp only [bind_eq_ok, ensure_eq_ok, exists_and_left, exists_const, Prod.exists] at h
  obtain ⟨account, _, _, _, _, _, _, _, _, h⟩ := h
  split at h
  · split at h
    · cases h
      exact .inl ⟨rfl, rfl⟩
    · cases h
  · simp only [bind_eq_ok] at h
    obtain ⟨_, _, row, _, _, _, h⟩ := h
    exact .inr ⟨_, _, _, _, _, h, fun _ => ⟨rfl, rfl, rfl, rfl⟩⟩

theorem domainRenewal_cases {pk years : ℕ}
    (h : domainRenewal w pk years panel = .ok (panel', events)) :
    InvoicesOneLine w (.domain pk) panel panel' events := by
  unfold domainRenewal at h
  simp only [bind_eq_ok, ensure_eq_ok, exists_and_left, exists_const] at h
  obtain ⟨domain, _, _, _, _, pricing, _, _, h⟩ := h
  split at h
  · split at h
    · cases h
      exact .inl ⟨rfl, rfl⟩
    · cases h
  · exact .inr ⟨_, _, _, _, _, h, fun _ => ⟨rfl, rfl, rfl, rfl⟩⟩

theorem createUpgrade_cases {actor : Actor} {pk newPk : ℕ}
    (h : createUpgrade w actor pk newPk panel = .ok (panel', events)) :
    InvoicesOneLine w (.hosting pk) panel panel' events := by
  unfold createUpgrade at h
  simp only [bind_eq_ok, ensure_eq_ok, exists_and_left, exists_const] at h
  obtain ⟨account, _, _, h⟩ := h
  split at h
  · split at h
    · cases h
      exact .inl ⟨rfl, rfl⟩
    · cases h
  · simp only [bind_eq_ok] at h
    obtain ⟨preview, _, h⟩ := h
    exact .inr ⟨_, _, _, _, _, h, fun _ => ⟨rfl, rfl, rfl, rfl⟩⟩

/-! ### Checkout -/

/-- **What `checkout` does**: the order is saved, its invoice is saved and opened with the
    order's total, and the receivers hear of it. -/
theorem checkout_steps {actor : Actor} {cart : ℕ} {methodCode : String} {policiesAgreed : Bool}
    (h : checkout w actor cart methodCode policiesAgreed panel = .ok (panel', events)) :
    ∃ order carts b l l' signals,
      order.status = .pendingPayment ∧ l.invoice.order = some panel.orders.orders.nextPk
        ∧ l'.invoice.total = order.total
        ∧ SavedAndIssued panel.billing b panel.billing.invoices.nextPk l l' signals
        ∧ Reacts signals { panel with
            billing := b
            orders := { panel.orders with
              orders := panel.orders.orders.insert order, carts } } panel' events := by
  unfold checkout at h
  simp only [bind_eq_ok, Prod.exists] at h
  obtain ⟨cart', _, priced, client, method, _, hbill⟩ := h
  obtain ⟨b, signals, hinvoice, hreacts⟩ := bill_reacts hbill
  obtain ⟨⟨q, b', signals'⟩, hcreate, heq⟩ := map_eq_ok.mp hinvoice
  cases heq
  obtain ⟨totals, l, l', htotals, hsaved, horder, hfigures⟩ := createInvoiceForOrder_steps hcreate
  obtain rfl := hsaved.key
  refine ⟨_, _, b, l, l', signals, rfl, horder, ?_, hsaved, hreacts⟩
  exact (congrArg Figures.total hfigures).trans (orderTotals_eq_ok.mp htotals).2.2

/-! ### Every call -/

end

/-- The changes a call can make to invoices. -/
def Act.May (panel : Panel) : Act → Policy
  | .billing _ call => call.May panel.billing
  | .checkout .. => Only [.create, .issue]
  | _ => Routine

/-- The calls by which money moves. -/
def Act.movesMoney : Act → Bool
  | .billing _ call => call.movesMoney
  | _ => false

/-- The changes a call can make to invoices, where only some calls move money. -/
def Act.Can (panel : Panel) (a : Act) : Policy := fun pk act l =>
  a.May panel pk act l ∧ (a.movesMoney = false → NoMoney pk act l)

section

variable {panel panel' : Panel} {events : List Event}

theorem billingCall_reacts {w : World} {call : Billing.Call}
    (h : billingCall w call panel = .ok (panel', events)) :
    ∃ b signals, call.exec w.env panel.billing = .ok (b, signals)
      ∧ Reacts signals { panel with billing := b } panel' events := by
  unfold billingCall at h
  simp only [bind_eq_ok, ensure_eq_ok, exists_and_left, exists_const, pure_eq_ok, Prod.exists,
    Prod.mk.injEq] at h
  obtain ⟨_, _, hbill, _, _, rfl, rfl⟩ := h
  exact bill_reacts hbill

/-- A draft saved and opened with all that follows, where no order is concerned. -/
private theorem issued_effect {l l' : Ledger} {b : Billing.Store} {signals : List Signal}
    {renewals : Renewals.Store} (hs : Kept panel.billing) (hborn : Born l)
    (horder : l.invoice.order = none)
    (hstep : Step panel.billing.invoices.nextPk .issue l l' signals)
    (hinvoices : b.invoices
      = (panel.billing.invoices.insert l).put panel.billing.invoices.nextPk l')
    (hquotes : b.quotes = panel.billing.quotes)
    (hreacts : Reacts signals { panel with billing := b, renewals } panel' events) :
    Effect Moneyless { panel with renewals } panel' events := by
  have hmoves : Moves Moneyless panel.billing.invoices b.invoices signals := by
    rw [hinvoices]
    exact (Moves.create hborn ⟨⟨by decide, nofun, fun _ => horder⟩, by decide⟩).after
      (.step (Table.get?_insert_self _ _) hstep (moneyless (by decide)))
  exact .of_reacts hmoves
    ⟨hmoves.sound hs.invoices, by rw [QuotesPriced, hquotes]; exact hs.quotes⟩ hreacts

/-- Invoicing a change, after the change is saved. -/
private theorem invoices_effect {a : Act} {w : World} {service : Service} (ha : a.InvoicesChange)
    (hs : Kept panel.billing) (h : InvoicesOneLine w service panel panel' events) :
    ∃ panel₁, Own panel a panel₁ [] ∧ Effect Moneyless panel₁ panel' events := by
  rcases h with ⟨rfl, rfl⟩ | ⟨client, description, price, discount, change, hrun, hchange⟩
  · exact ⟨_, .again ha, .refl hs⟩
  · obtain ⟨l, l', b, signals, lines, hborn, horder, hstep, hinvoices, hquotes, _, _, _, hreacts⟩ :=
      invoiceChange_steps hs hrun
    exact ⟨_, .change ha (hchange panel.billing.invoices.nextPk).2.1,
      issued_effect hs hborn horder hstep hinvoices hquotes hreacts⟩

/-- Ordering an extra: nothing when it was ordered before, else the order is saved and its
    invoice opened. -/
theorem buyAddon_cases {w : World} {actor : Actor} {addon : ℕ} {service : Service}
    (hs : Kept panel.billing)
    (h : buyAddon w actor addon service panel = .ok (panel', events)) :
    (panel' = panel ∧ events = []) ∨ ∃ order l l' b signals,
      order.status = .pending ∧ order.invoice = panel.billing.invoices.nextPk ∧ Born l
        ∧ l.invoice.order = none ∧ Step panel.billing.invoices.nextPk .issue l l' signals
        ∧ b.invoices = (panel.billing.invoices.insert l).put panel.billing.invoices.nextPk l'
        ∧ b.quotes = panel.billing.quotes
        ∧ Reacts signals { panel with
            billing := b
            renewals := { panel.renewals with
              addonOrders := panel.renewals.addonOrders.insert order } } panel' events := by
  unfold buyAddon at h
  simp only [bind_eq_ok, ensure_eq_ok, exists_and_left, exists_const, Prod.exists] at h
  obtain ⟨client, label, allowed, running, _, _, h⟩ := h
  split at h
  · cases h
  · simp only [bind_eq_ok, ensure_eq_ok, exists_and_left, exists_const] at h
    obtain ⟨_, _, _, h⟩ := h
    split at h
    · split at h
      · cases h
      · cases h
        exact .inl ⟨rfl, rfl⟩
    · split at h
      · cases h
      · simp only [bind_eq_ok, Prod.exists] at h
        obtain ⟨q, billing, hdraft, hbill⟩ := h
        obtain ⟨l, l', b, signals, lines, rfl, hborn, horder, hstep, hinvoices, hquotes, _, _, _,
          hreacts⟩ := draftAndIssue_steps hs hdraft hbill
        exact .inr ⟨_, l, l', b, signals, rfl, rfl, hborn, horder, hstep, hinvoices, hquotes,
          hreacts⟩

/-- **What every committed call does**: what it writes of its own, then its changes to
    invoices and what their signals set off. -/
theorem exec_effect_can {a : Act} (hs : Kept panel.billing)
    (h : exec a panel = .ok (panel', events)) :
    ∃ panel₁ own rest, Own panel a panel₁ own ∧ Effect (a.Can panel) panel₁ panel' rest
      ∧ events = own.map .renewals ++ rest := by
  cases a with
  | billing w call =>
    obtain ⟨b, signals, hcall, hreacts⟩ := billingCall_reacts h
    obtain ⟨hmoves, hb⟩ := Call.exec_can hs hcall
    exact ⟨panel, [], events, .billing, .of_reacts hmoves hb hreacts, rfl⟩
  | shop carts cartItems =>
    cases h
    exact ⟨_, [], [], .shop, .refl hs, rfl⟩
  -- the order is new, and so is its invoice
  | checkout w actor cart methodCode policiesAgreed =>
    obtain ⟨order, carts, b, l, l', signals, hstatus, _, _, hsaved, hreacts⟩ := checkout_steps h
    refine ⟨_, [], events, .checkout hstatus, .of_reacts (hsaved.moves ?_ ?_) ?_ hreacts, rfl⟩
    · exact ⟨List.mem_cons_self, fun _ => by simp [NoMoney]⟩
    · exact ⟨List.mem_cons_of_mem _ List.mem_cons_self, fun _ => by simp [NoMoney]⟩
    · have hmoves : Moves (fun _ _ _ => True) panel.billing.invoices b.invoices signals :=
        hsaved.moves trivial trivial
      exact ⟨hmoves.sound hs.invoices, by rw [QuotesPriced, hsaved.quotes]; exact hs.quotes⟩
  | cancelOrder w actor pk reason =>
    simp only [exec, cancelOrder, bind_eq_ok, ensure_eq_ok, exists_and_left, exists_const] at h
    obtain ⟨order, _, _, _, orders, htransition, hcancels⟩ := h
    refine ⟨_, [], events, .cancelOrder (transition_moved htransition), ?_, rfl⟩
    refine (cancelInvoices_effect ?_ (fun q hq => ?_) hcancels).1.mono fun _ _ _ => Moneyless.can
    · exact hs
    simp only [openInvoices, List.mem_map, List.mem_filter, Prod.exists, exists_and_right,
      exists_eq_right, Table.mem_entries, decide_eq_true_eq] at hq
    obtain ⟨l, hl, _, hopen⟩ := hq
    exact ⟨l, hl, (ne_of_open hopen).1⟩
  | order call =>
    obtain ⟨orders, hcall, heq⟩ := map_eq_ok.mp h
    cases heq
    exact ⟨_, [], [], .order hcall, .refl hs, rfl⟩
  | service call =>
    obtain ⟨⟨renewals, own⟩, hcall, heq⟩ := map_eq_ok.mp h
    cases heq
    exact ⟨_, own, [], .service hcall, .refl hs, (List.append_nil _).symm⟩
  | createHostingRenewal w actor pk =>
    simp only [exec, createHostingRenewal, bind_eq_ok, ensure_eq_ok, exists_and_left,
      exists_const] at h
    obtain ⟨_, _, _, h⟩ := h
    obtain ⟨panel₁, hown, heffect⟩ := invoices_effect .hostingRenewal hs (hostingRenewal_cases h)
    exact ⟨panel₁, [], events, hown, heffect.mono fun _ _ _ => Moneyless.can, rfl⟩
  | createDomainRenewal w actor pk years =>
    simp only [exec, createDomainRenewal, bind_eq_ok, ensure_eq_ok, exists_and_left,
      exists_const] at h
    obtain ⟨_, _, _, h⟩ := h
    obtain ⟨panel₁, hown, heffect⟩ := invoices_effect .domainRenewal hs (domainRenewal_cases h)
    exact ⟨panel₁, [], events, hown, heffect.mono fun _ _ _ => Moneyless.can, rfl⟩
  | createUpgrade w actor pk newPk =>
    obtain ⟨panel₁, hown, heffect⟩ := invoices_effect .upgrade hs (createUpgrade_cases h)
    exact ⟨panel₁, [], events, hown, heffect.mono fun _ _ _ => Moneyless.can, rfl⟩
  | buyAddon w actor addon service =>
    rcases buyAddon_cases hs h with ⟨rfl, rfl⟩ | ⟨order, l, l', b, signals, hstatus, _, hborn,
      horder, hstep, hinvoices, hquotes, hreacts⟩
    · exact ⟨_, [], [], .extraAgain, .refl hs, rfl⟩
    · exact ⟨_, [], events, .extra hstatus,
        (issued_effect hs hborn horder hstep hinvoices hquotes hreacts).mono
          fun _ _ _ => Moneyless.can, rfl⟩
  | retryChange w actor pk =>
    simp only [exec, retryChange, bind_eq_ok, requirePerm_eq_ok, ensure_eq_ok, lockInvoice_eq_ok,
      lockChange_eq_ok, exists_and_left, exists_const, pure_eq_ok, Prod.mk.injEq] at h
    obtain ⟨_, change, hchange, l, hl, hfailed, hpaid, rfl, rfl⟩ := h
    exact ⟨_, _, [], .retry hchange hfailed hl hpaid, .refl hs, (List.append_nil _).symm⟩

/-- What every committed call does, whoever can move money. -/
theorem exec_effect {a : Act} (hs : Kept panel.billing) (h : exec a panel = .ok (panel', events)) :
    ∃ panel₁ own rest, Own panel a panel₁ own ∧ Effect (a.May panel) panel₁ panel' rest
      ∧ events = own.map .renewals ++ rest := by
  obtain ⟨panel₁, own, rest, hown, heffect, heq⟩ := exec_effect_can hs h
  exact ⟨panel₁, own, rest, hown, heffect.mono fun _ _ _ => And.left, heq⟩

/-- The changes a committed call made to invoices, and the signals they sent. -/
theorem exec_moves_can {a : Act} (hs : Kept panel.billing)
    (h : exec a panel = .ok (panel', events)) :
    Moves (a.Can panel) panel.billing.invoices panel'.billing.invoices (signalsOf events)
      ∧ Kept panel'.billing := by
  obtain ⟨panel₁, own, rest, hown, heffect, rfl⟩ := exec_effect_can hs h
  rw [signalsOf_append, signalsOf_renewals, List.nil_append, ← hown.billing_eq]
  exact ⟨heffect.invoices, heffect.kept⟩

theorem exec_moves {a : Act} (hs : Kept panel.billing) (h : exec a panel = .ok (panel', events)) :
    Moves (a.May panel) panel.billing.invoices panel'.billing.invoices (signalsOf events)
      ∧ Kept panel'.billing :=
  (exec_moves_can hs h).imp_left fun hmoves => hmoves.mono fun _ _ _ => And.left

end

end WPanel.Site
