import WPanel.Site.PaidTerms
import WPanel.Site.Release

namespace WPanel.Site

open WPanel.Lib WPanel.Billing WPanel.Orders WPanel.Renewals

/-!
# Changes and extras that await their payment

A pending change blocks its service until its invoice is announced as paid or as cancelled.

* `Awaits` — a pending change or extra hangs on the invoice;
* `Payable` — every such invoice can still be paid;
* `payable_iff` — a run keeps it so exactly when it never gives back everything such an invoice
  received.
-/

/-- A pending change or a pending extra hangs on the invoice `q`. -/
def Awaits (renewals : Renewals.Store) (q : ℕ) : Prop :=
  (∃ pk change, renewals.changes.get? pk = some change ∧ change.IsPending ∧ change.invoice = q) ∨
    ∃ pk order, renewals.addonOrders.get? pk = some order ∧ order.IsPending ∧ order.invoice = q

/-- Every invoice a pending change or extra hangs on can still be paid. -/
def Payable (panel : Panel) : Prop :=
  ∀ q, Awaits panel.renewals q →
    ∃ l, panel.billing.invoices.get? q = some l ∧ l.invoice.status ∈ openStatuses

/-- A refund takes back everything an invoice received that a pending change or extra hangs
    on. -/
def StrandsChange (panel : Panel) : Act → Prop
  | .billing _ (.refundPayment _ id amount _) => Awaits panel.renewals id.invoice
      ∧ ∃ l, panel.billing.invoices.get? id.invoice = some l ∧ GivesAllBack l id amount
  | _ => False

section

variable {panel panel₁ panel' : Panel} {a : Act} {events : List Event}

/-- What is still awaited after the signals was awaited before, and nothing was said of it. -/
theorem awaits_before {s s' : Renewals.Store} {told : ℕ → Prop} {q : ℕ} (h : Awaits s' q)
    (hchanges : ChangesPending told s.changes s'.changes)
    (haddons : AddonsPending told s.addonOrders s'.addonOrders) : Awaits s q ∧ ¬told q := by
  rcases h with ⟨pk, change, hget, hpending, rfl⟩ | ⟨pk, order, hget, hpending, rfl⟩
  · obtain ⟨hbefore, hnot⟩ := hchanges pk change hget hpending
    exact ⟨.inl ⟨pk, change, hbefore, hpending, rfl⟩, hnot⟩
  · obtain ⟨hbefore, hnot⟩ := haddons pk order hget hpending
    exact ⟨.inr ⟨pk, order, hbefore, hpending, rfl⟩, hnot⟩

/-- The services of accounts, domains and changes let nothing new wait. -/
theorem Served.awaits {s s' : Renewals.Store} {events : List Renewals.Event} {q : ℕ}
    (h : Served s s' events) (hq : Awaits s' q) : Awaits s q := by
  have hquiet : ∀ q, ¬(fun _ : ℕ => False) q := fun _ => not_false
  cases h with
  | dismissed hget hfailed =>
    exact (awaits_before (s := s) hq (.put hget nofun) (.refl hquiet _)).1
  | @done pk order order' hget hpaid hdone =>
    have hnot : ¬order'.IsPending := fun hp => by
      rw [AddonOrder.IsPending, hdone] at hp
      cases hp
    exact (awaits_before (s := s) hq (.refl hquiet _) (.put hget hnot)).1
  | _ => exact hq

/-- What a call writes of its own lets nothing new wait, but for a new change or extra. -/
theorem Own.awaits {own : List Renewals.Event} (h : Own panel a panel₁ own)
    (hchange : ¬a.InvoicesChange)
    (hextra : ∀ w actor addon service, a ≠ .buyAddon w actor addon service)
    {q : ℕ} (hq : Awaits panel₁.renewals q) : Awaits panel.renewals q := by
  cases h with
  | service h => exact (serviceCall_served h).awaits hq
  | change ha => exact absurd ha hchange
  | extra => exact absurd rfl (hextra _ _ _ _)
  | @retry w actor pk change l hget =>
    have hquiet : ∀ q, ¬(fun _ : ℕ => False) q := fun _ => not_false
    have hchanges : ChangesPending (fun _ => False) panel.renewals.changes
        (apply w.env w.providers l.invoice pk change panel.renewals).1.changes :=
      fun p row hrow hpending => ⟨(apply_pending hget hrow hpending).1, not_false⟩
    refine (awaits_before hq hchanges ?_).1
    rw [apply_addonOrders]
    exact .refl hquiet _
  | _ => exact hq

/-- An open invoice of which nothing was said is open still, where nothing is given back. -/
theorem open_of_not_closed {may : Policy} {t t' : Table Ledger} {signals : List Signal} {q : ℕ}
    {l : Ledger} (ht : t.Forall fun _ l => Sound l) (hrefund : ∀ pk l, ¬may pk .refund l)
    (hm : Moves may t t' signals) (hl : t.get? q = some l) (hopen : l.invoice.status ∈ openStatuses)
    (hquiet : ¬Closes signals q) :
    ∃ l', t'.get? q = some l' ∧ l'.invoice.status ∈ openStatuses := by
  rcases hm.open_kept hrefund ht hl hopen with hmem | hmem | hstill
  · exact absurd (.inl hmem) hquiet
  · exact absurd (.inr hmem) hquiet
  · exact hstill

/-- Something new hangs on an invoice saved and opened with it: either the invoice is open, or
    it was announced as paid and nothing waits for it. -/
theorem payable_issued {l l' : Ledger} {b : Billing.Store} {signals : List Signal}
    {renewals : Renewals.Store} (hs : Kept panel.billing) (hpayable : Payable panel)
    (hborn : Born l) (hstep : Step panel.billing.invoices.nextPk .issue l l' signals)
    (hinvoices : b.invoices
      = (panel.billing.invoices.insert l).put panel.billing.invoices.nextPk l')
    (hreacts : Reacts signals { panel with billing := b, renewals } panel' events)
    (hnew : ∀ q, Awaits renewals q →
      Awaits panel.renewals q ∨ q = panel.billing.invoices.nextPk) : Payable panel' := by
  intro q hq
  obtain ⟨hbefore, hquiet⟩ := awaits_before hq hreacts.pending hreacts.addons
  have hb : panel'.billing = b := hreacts.billing
  rw [hb]
  have hget : b.invoices.get? panel.billing.invoices.nextPk = some l' := by
    rw [hinvoices, Table.get?_put_self (Table.get?_insert_self _ _)]
  rcases hnew q hbefore with hq | rfl
  · obtain ⟨l₀, hl₀, hopen⟩ := hpayable q hq
    have hmoves : Moves (fun _ act _ => act ≠ .refund) panel.billing.invoices b.invoices
        signals := by
      rw [hinvoices]
      exact (Moves.create hborn (by decide)).after
        (.step (Table.get?_insert_self _ _) hstep (by decide))
    exact open_of_not_closed hs.invoices (fun _ _ hmay => hmay rfl) hmoves hl₀ hopen hquiet
  · exact ⟨l', hget, hstep.issue_opens.resolve_right fun hmem => hquiet (.inl hmem)⟩

/-- Invoicing a change keeps what is awaited payable. -/
theorem payable_invoicesChange (ha : a.InvoicesChange) (hs : Kept panel.billing)
    (hpayable : Payable panel) (h : exec a panel = .ok (panel', events)) : Payable panel' := by
  obtain ⟨w, _, hline⟩ := invoicesChange_cases ha h
  rcases hline with ⟨rfl, _⟩ | ⟨client, description, price, discount, change, hrun, hchange⟩
  · exact hpayable
  · obtain ⟨l, l', b, signals, lines, hborn, _, hstep, hinvoices, _, _, _, _, hreacts⟩ :=
      invoiceChange_steps hs hrun
    refine payable_issued hs hpayable hborn hstep hinvoices hreacts fun q hq => ?_
    rcases hq with ⟨pk, row, hget, hpending, rfl⟩ | hextra
    · simp only [Table.get?_insert] at hget
      split at hget
      · cases hget
        exact .inr (hchange _).1
      · exact .inl (.inl ⟨pk, row, hget, hpending, rfl⟩)
    · exact .inl (.inr hextra)

/-- Ordering an extra keeps what is awaited payable. -/
theorem payable_buyAddon {w : World} {actor : Actor} {addon : ℕ} {service : Service}
    (hs : Kept panel.billing) (hpayable : Payable panel)
    (h : exec (.buyAddon w actor addon service) panel = .ok (panel', events)) : Payable panel' := by
  rcases buyAddon_cases hs h with ⟨rfl, _⟩ | ⟨order, l, l', b, signals, _, hinvoice, hborn, _,
    hstep, hinvoices, _, hreacts⟩
  · exact hpayable
  · refine payable_issued hs hpayable hborn hstep hinvoices hreacts fun q hq => ?_
    rcases hq with hchange | ⟨pk, row, hget, hpending, rfl⟩
    · exact .inl (.inl hchange)
    · simp only [Table.get?_insert] at hget
      split at hget
      · cases hget
        exact .inr hinvoice
      · exact .inl (.inr ⟨pk, row, hget, hpending, rfl⟩)

/-- A refund keeps what is awaited payable exactly when it does not give all of it back. -/
theorem payable_refund_iff {w : World} {actor : Actor} {id : TxId} {amount : Option Typed}
    {gateway : Except String String} (hs : Kept panel.billing) (hpayable : Payable panel)
    (h : exec (.billing w (.refundPayment actor id amount gateway)) panel = .ok (panel', events)) :
    Payable panel' ↔ ¬StrandsChange panel
      (.billing w (.refundPayment actor id amount gateway)) := by
  obtain ⟨l, l', hl, hinvoices, _, hofOpen⟩ := refund_of_open hs h
  have hget : panel'.billing.invoices.get? id.invoice = some l' := by
    rw [hinvoices, Table.get?_put_self hl]
  obtain ⟨panel₁, own, rest, hown, heffect, _⟩ := exec_effect hs h
  obtain ⟨rfl, _⟩ := hown.of_billing
  constructor
  · rintro hpays ⟨hawaits, l₀, hl₀, hall⟩
    cases hl.symm.trans hl₀
    obtain ⟨l₁, hl₁, hopen⟩ := hpayable _ hawaits
    cases hl.symm.trans hl₁
    obtain ⟨hopen_iff, _, hrenewals⟩ := hofOpen hopen
    obtain ⟨l₂, hl₂, hopen₂⟩ := hpays _ (by rw [hrenewals]; exact hawaits)
    cases hget.symm.trans hl₂
    exact hopen_iff.mp hopen₂ hall
  · intro hstrands q hq
    obtain ⟨hbefore, _⟩ := awaits_before hq heffect.pending heffect.addons
    obtain ⟨l₀, hl₀, hopen⟩ := hpayable q hbefore
    by_cases hne : q = id.invoice
    · subst hne
      cases hl.symm.trans hl₀
      exact ⟨l', hget, (hofOpen hopen).1.mpr fun hall => hstrands ⟨hbefore, l, hl, hall⟩⟩
    · exact ⟨l₀, by rw [hinvoices, Table.get?_put_of_ne hne, hl₀], hopen⟩

/-- Any other call keeps what is awaited payable. -/
theorem payable_of_ne (hs : Kept panel.billing) (hpayable : Payable panel)
    (h : exec a panel = .ok (panel', events)) (hrefund : a.isRefund = false)
    (hchange : ¬a.InvoicesChange)
    (hextra : ∀ w actor addon service, a ≠ .buyAddon w actor addon service) : Payable panel' := by
  obtain ⟨panel₁, own, rest, hown, heffect, _⟩ := exec_effect hs h
  intro q hq
  obtain ⟨hbefore, hquiet⟩ := awaits_before hq heffect.pending heffect.addons
  obtain ⟨l, hl, hopen⟩ := hpayable q (hown.awaits hchange hextra hbefore)
  rw [← hown.billing_eq] at hl hs
  refine open_of_not_closed hs.invoices (fun _ _ hmay => ?_) heffect.invoices hl hopen hquiet
  rw [may_refund hmay] at hrefund
  cases hrefund

end

/-- **In every state of a run every invoice a pending change or extra hangs on can still be
    paid, exactly when the run never gives back everything such an invoice received.** -/
theorem payable_iff (as : List Act) :
    machine.Always Payable as {}
      ↔ machine.EachStep (fun panel a _ => ¬StrandsChange panel a) as {} := by
  have hstep : ∀ a panel panel' events, Kept panel.billing → Payable panel →
      machine.Commits a panel panel' events → (Payable panel' ↔ ¬StrandsChange panel a) := by
    intro a panel panel' events hs hpayable h
    by_cases hrefund : ∃ w actor id amount gateway,
        a = .billing w (.refundPayment actor id amount gateway)
    · obtain ⟨w, actor, id, amount, gateway, rfl⟩ := hrefund
      exact payable_refund_iff hs hpayable h
    push Not at hrefund
    have hnot : a.isRefund = false ∧ ¬StrandsChange panel a := by
      cases a with
      | billing w call =>
        cases call with
        | refundPayment => exact absurd rfl (hrefund _ _ _ _ _)
        | _ => exact ⟨rfl, not_false⟩
      | _ => exact ⟨rfl, not_false⟩
    refine iff_of_true ?_ hnot.2
    by_cases hchange : a.InvoicesChange
    · exact payable_invoicesChange hchange hs hpayable h
    by_cases hextra : ∃ w actor addon service, a = .buyAddon w actor addon service
    · obtain ⟨w, actor, addon, service, rfl⟩ := hextra
      exact payable_buyAddon hs hpayable h
    push Not at hextra
    exact payable_of_ne hs hpayable h hnot.1 hchange hextra
  refine Machine.always_iff_eachStep (m := machine)
    (I := fun panel => Kept panel.billing ∧ Payable panel) (fun _ h => h.2) ?_ ?_ as {}
    ⟨Kept.empty, ?_⟩
  · rintro a panel panel' events ⟨hs, hpayable⟩ h hgood
    exact ⟨kept_step hs h, (hstep a _ _ _ hs hpayable h).mpr hgood⟩
  · rintro a panel panel' events ⟨hs, hpayable⟩ h hpays
    exact (hstep a _ _ _ hs hpayable h).mp hpays
  · rintro q (⟨pk, change, hget, _⟩ | ⟨pk, order, hget, _⟩)
    · rw [show ({} : Panel).renewals.changes.get? pk = none from Table.get?_empty pk] at hget
      cases hget
    · rw [show ({} : Panel).renewals.addonOrders.get? pk = none from Table.get?_empty pk] at hget
      cases hget

/-- A renewal of 100.00 gets 40.00, which are given back. -/
def renewalRefunded : List Act :=
  startTerm ++ [.createHostingRenewal smallWorld none 0, receive0 4000, refund0 0 4000]

/-- It stays pending on an invoice that is refunded. -/
theorem refunded_stranded : ¬machine.Always Payable renewalRefunded {} := by
  intro h
  have hrun : let panel := machine.run renewalRefunded {}
      (∃ change ∈ panel.renewals.changes.get? 0, change.status = .pending ∧ change.invoice = 0)
        ∧ ∀ l ∈ panel.billing.invoices.get? 0, l.invoice.status = .refunded := by
    decide +kernel
  obtain ⟨⟨change, hget, hpending, hinvoice⟩, hrefunded⟩ := hrun
  obtain ⟨l, hl, hopen⟩ := h.last 0 (.inl ⟨0, change, hget, hpending, hinvoice⟩)
  rw [hrefunded l hl] at hopen
  revert hopen
  decide

end WPanel.Site
