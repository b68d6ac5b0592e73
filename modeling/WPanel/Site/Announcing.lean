import WPanel.Site.Money

namespace WPanel.Site

open WPanel.Lib WPanel.Billing WPanel.Orders WPanel.Renewals

/-!
# How often `invoice_paid` is sent

Everything that hangs on an invoice hears of its payment through one signal.  Over whole runs
it is sent at most once for each invoice, and exactly once for a paid one, but for one
thing: money that settles an invoice after all its money was given back, before it had ever been
paid in full.

* `told` — how often the signal was sent for each invoice, read off the log of the run;
* `BringsLateMoney` — the gateway event that breaks this;
* `announced_iff` — a run announces every paid invoice exactly once exactly when it brings no
  late money.
-/

/-- How often `invoice_paid` was sent for each invoice. -/
def told (log : List Event) (pk : ℕ) : ℕ := (signalsOf log).count (.invoicePaid pk)

theorem told_append (log events : List Event) :
    told (log ++ events) = heard (told log) (signalsOf events) := by
  funext pk
  simp [told, heard, List.count_append]

/-- A gateway event settles a payment of an invoice whose money was all given back before it
    was ever paid in full, and pays it in full. -/
def BringsLateMoney (panel : Panel) : Act → Prop
  | .billing _ (.handleWebhook provider parsed) => ∃ event id l tx, parsed = .ok (.ok event)
      ∧ ¬Received panel.billing provider event ∧ Settles panel.billing provider event id l tx
      ∧ l.invoice.status = .refunded ∧ l.invoice.amountPaid < l.invoice.total
      ∧ l.invoice.total ≤ l.invoice.amountPaid + tx.amount
  | _ => False

/-- `invoice_paid` was sent at most once for every invoice, and exactly once for a paid one. -/
def AnnouncedOnce (panel : Panel) (log : List Event) : Prop :=
  (∀ pk, told log pk ≤ 1) ∧
    ∀ pk l, panel.billing.invoices.get? pk = some l → l.invoice.status = .paid → told log pk = 1

/-- What keeps it so. -/
structure Announcing (panel : Panel) (log : List Event) : Prop where
  kept : Kept panel.billing
  told : AllTold panel.billing.invoices (told log)
  announced : AllAnnounced panel.billing.invoices (Site.told log)

theorem Announcing.once {panel : Panel} {log : List Event} (h : Announcing panel log) :
    AnnouncedOnce panel log := by
  refine ⟨fun pk => ?_, fun pk l hl hpaid => ?_⟩
  · cases hl : panel.billing.invoices.get? pk with
    | none => rw [h.told.absent pk hl]; omega
    | some l => exact (h.told.told pk l hl).once
  · exact h.announced pk l hl (.inl hpaid) ((h.kept.invoices pk l hl).total_le_paid hpaid)

section

variable {panel panel' : Panel} {a : Act} {events log : List Event}

/-- A settled payment is a step of its invoice. -/
theorem settles_step {b : Billing.Store} {provider : ℕ} {event : PaymentEvent} {id : TxId}
    {l : Ledger} {tx : Transaction} (h : Settles b provider event id l tx) (now : Moment) :
    let booked := l.book now id.invoice (l.transactions.set id.index (tx.succeed now ""))
    Step id.invoice .settle l booked.1 booked.2 := by
  obtain ⟨l₁, tx₁, hloc, _, _, htype⟩ := findPayment_some h.found
  cases hloc.invoice.symm.trans h.invoice
  cases hloc.transaction.symm.trans h.transaction
  exact .settle h.transaction htype h.status

/-- What a webhook does to the invoices: nothing, a payment fails, or one is settled. -/
theorem webhook_cases {w : World} {provider : ℕ}
    {parsed : Except String (Except String PaymentEvent)}
    (h : exec (.billing w (.handleWebhook provider parsed)) panel = .ok (panel', events)) :
    (panel'.billing.invoices = panel.billing.invoices ∧ signalsOf events = []) ∨
    (∃ pk l l', panel.billing.invoices.get? pk = some l ∧ Step pk .fail l l' []
      ∧ panel'.billing.invoices = panel.billing.invoices.put pk l' ∧ signalsOf events = []) ∨
    (∃ event id l tx, parsed = .ok (.ok event) ∧ ¬Received panel.billing provider event
      ∧ Settles panel.billing provider event id l tx
      ∧ let booked := l.book w.env.now id.invoice
          (l.transactions.set id.index (tx.succeed w.env.now ""))
        panel'.billing.invoices = panel.billing.invoices.put id.invoice booked.1
          ∧ signalsOf events = booked.2) := by
  obtain ⟨b, signals, hcall, hreacts⟩ := billingCall_reacts h
  have hb : panel'.billing = b := hreacts.billing
  obtain ⟨⟨result, b', signals'⟩, hrun, heq⟩ := map_eq_ok.mp hcall
  cases heq
  obtain ⟨event, hparsed, ⟨_, _, rfl, rfl⟩ | ⟨hnew, status, detail, b₁, happly, rfl⟩⟩ :=
    handleWebhook_cases hrun
  · exact .inl ⟨by rw [hb], hreacts.sent⟩
  · rcases applyEvent_cases happly with ⟨id, l, tx, hsettles, rfl, rfl⟩ |
      ⟨id, l, tx, reason, _, hloc, htype, hstatus, rfl, rfl⟩ | ⟨rfl, rfl⟩
    · exact .inr (.inr ⟨event, id, l, tx, hparsed, hnew, hsettles, by rw [hb]; rfl, hreacts.sent⟩)
    · exact .inr (.inl ⟨id.invoice, l, _, hloc.invoice, .fail hloc.transaction htype hstatus,
        by rw [hb]; rfl, hreacts.sent⟩)
    · exact .inl ⟨by rw [hb], hreacts.sent⟩

/-- What a settled payment adds to the amount paid. -/
theorem settles_late {b : Billing.Store} {provider : ℕ} {event : PaymentEvent} {id : TxId}
    {l : Ledger} {tx : Transaction} (hs : Sound l) (h : Settles b provider event id l tx)
    (now : Moment) :
    Late l (l.book now id.invoice (l.transactions.set id.index (tx.succeed now ""))).1 ↔
      l.invoice.status = .refunded ∧ l.invoice.amountPaid < l.invoice.total
        ∧ l.invoice.total ≤ l.invoice.amountPaid + tx.amount := by
  obtain ⟨l₁, tx₁, hloc, _, _, htype⟩ := findPayment_some h.found
  cases hloc.invoice.symm.trans h.invoice
  cases hloc.transaction.symm.trans h.transaction
  unfold Late
  rw [book_amountPaid, hs.book_set_paid h.transaction htype h.status]

/-- A call that brings no late money leaves every covered invoice announced. -/
theorem Announcing.exec (hI : Announcing panel log) (h : Site.exec a panel = .ok (panel', events))
    (hlate : ¬BringsLateMoney panel a) : Announcing panel' (log ++ events) := by
  obtain ⟨hmoves, hkept⟩ := exec_moves hI.kept h
  have htold := hmoves.told hI.kept.invoices hI.told
  refine ⟨hkept, by rw [told_append]; exact htold, ?_⟩
  rw [told_append]
  by_cases ha : a.isWebhook = true
  · cases a with
    | billing w call =>
      cases call with
      | handleWebhook provider parsed =>
        rcases webhook_cases h with ⟨hinvoices, hsignals⟩ |
          ⟨pk, l, l', hl, hstep, hinvoices, hsignals⟩ |
          ⟨event, id, l, tx, hparsed, hnew, hsettles, hinvoices, hsignals⟩
        · rw [hinvoices, hsignals, heard_nil]
          exact hI.announced
        · rw [hinvoices, hsignals]
          exact hI.announced.step hI.told hI.kept.invoices hl hstep
            (hstep.not_late (by decide) (hI.kept.invoices pk l hl))
        · rw [hinvoices, hsignals]
          have hsound := hI.kept.invoices _ l hsettles.invoice
          refine hI.announced.step hI.told hI.kept.invoices hsettles.invoice
            (settles_step hsettles w.env.now) fun hl => hlate ?_
          exact ⟨event, id, l, tx, hparsed, hnew, hsettles, (settles_late hsound hsettles _).mp hl⟩
      | _ => cases ha
    | _ => cases ha
  · exact hmoves.announced (fun pk l hmay => ha (may_settle hmay)) hI.kept.invoices hI.told
      hI.announced

/-- Late money leaves a paid invoice that was never announced. -/
theorem not_announced_of_late (hI : Announcing panel log)
    (h : Site.exec a panel = .ok (panel', events)) (hlate : BringsLateMoney panel a) :
    ¬AnnouncedOnce panel' (log ++ events) := by
  cases a with
  | billing w call =>
    cases call with
    | handleWebhook provider parsed =>
      obtain ⟨event, id, l, tx, rfl, hnew, hsettles, hl⟩ := hlate
      have hsound := hI.kept.invoices _ l hsettles.invoice
      have hstep := settles_step hsettles w.env.now
      obtain ⟨hpaid, hnever⟩ := hstep.late_unannounced hsound (hI.told.told _ l hsettles.invoice)
        ((settles_late hsound hsettles _).mpr hl)
      -- the event is new and settles, so the call is exactly this step
      obtain ⟨b, signals, hcall, hreacts⟩ := billingCall_reacts h
      have hb : panel'.billing = b := hreacts.billing
      obtain ⟨⟨result, b', signals'⟩, hrun, heq⟩ := map_eq_ok.mp hcall
      cases heq
      obtain ⟨event', hparsed, ⟨hreceived, _⟩ | ⟨_, status, detail, b₁, happly, rfl⟩⟩ :=
        handleWebhook_cases hrun
      · cases hparsed
        exact absurd hreceived hnew
      · cases hparsed
        rw [applyEvent_of_settles hsettles] at happly
        cases happly
        rintro ⟨_, honce⟩
        have hget : panel'.billing.invoices.get? id.invoice = some (l.book w.env.now id.invoice
            (l.transactions.set id.index (tx.succeed w.env.now ""))).1 := by
          rw [hb]
          exact Table.get?_put_self hsettles.invoice _
        have hone := honce id.invoice _ hget hpaid
        rw [told_append, heard, hreacts.sent, hnever] at hone
        cases hone
    | _ => exact hlate.elim
  | _ => exact hlate.elim

end

/-- **A run announces every paid invoice exactly once, and none more than once, exactly when
    it brings no late money.** -/
theorem announced_iff (as : List Act) :
    machine.recorded.Always (fun p => AnnouncedOnce p.1 p.2) as ({}, [])
      ↔ machine.recorded.EachStep (fun p a _ => ¬BringsLateMoney p.1 a) as ({}, []) := by
  refine Machine.always_iff_eachStep (I := fun p : Panel × List Event => Announcing p.1 p.2)
    (fun _ h => h.once) ?_ ?_ as ({}, []) ⟨Kept.empty, AllTold.empty, .empty⟩
  · rintro a ⟨panel, log⟩ ⟨panel', log'⟩ events hI h hlate
    obtain ⟨hexec, rfl⟩ := Machine.recorded_commits.mp h
    exact hI.exec hexec hlate
  · rintro a ⟨panel, log⟩ ⟨panel', log'⟩ events hI h honce hlate
    obtain ⟨hexec, rfl⟩ := Machine.recorded_commits.mp h
    exact not_announced_of_late hI hexec hlate honce

/-- An invoice of 100.00 is part paid and refunded while a gateway payment of 100.00 is on its
    way; then the gateway confirms it. -/
def lateMoney : List Act := [
  draftInvoice, .billing smallWorld (.issueInvoice staff 0),
  .billing smallWorld (.startGatewayPayment staff 0
    (some { code := "card", name := "Card", isActive := true, provider := some ⟨7, true⟩ })
    (.ok (.ok "pay_1"))),
  receive0 4000, refund0 1 4000,
  .billing smallWorld (.handleWebhook 7 (.ok (.ok {
    eventId := "evt_1", type := "payment.succeeded", externalId := "pay_1", amount := some 100
    currency := "USD" })))]

/-- Late money: the invoice is paid, and nobody was told. -/
theorem late_money_unannounced :
    ¬machine.recorded.Always (fun p => AnnouncedOnce p.1 p.2) lateMoney ({}, []) := by
  intro h
  have hrun : let p := machine.recorded.run lateMoney ({}, [])
      (∃ l ∈ p.1.billing.invoices.get? 0, l.invoice.status = .paid) ∧ told p.2 0 = 0 := by
    decide +kernel
  obtain ⟨⟨l, hl, hpaid⟩, hnever⟩ := hrun
  have hone := h.last.2 0 l hl hpaid
  rw [hnever] at hone
  cases hone

end WPanel.Site
