import WPanel.Site.Announcing

namespace WPanel.Site

open WPanel.Lib WPanel.Billing

/-!
# The calls that bring money

Money comes in by three calls: staff record a payment or confirm one that was announced, and
the gateway settles one.  Each books one invoice and does nothing else to any.

* `Pays` — the call makes a payment of some amount succeed;
* `Booked` — what that does to the invoices;
* `paying_cases` — but for a refund, a committed call books one payment or moves no money;
* `moves_unmoved`, `moves_zero_signal` — where no money moves, the amounts of issued invoices
  stay, and an invoice announced as paid had nothing to pay.
-/

/-! ### Where no money moves -/

section

variable {pk : ℕ} {act : Billing.Act} {l l' : Ledger} {out : List Signal} {t t' : Table Ledger}

/-- Without a payment or a refund an issued invoice keeps what was paid and given back. -/
theorem step_unmoved (hmay : NoMoney pk act l) (h : Step pk act l l' out)
    (hissued : l.invoice.status ≠ .draft) : l'.invoice.amountPaid = l.invoice.amountPaid
      ∧ l'.invoice.amountRefunded = l.invoice.amountRefunded := by
  cases h with
  | edit hdraft => exact absurd hdraft hissued
  | issue hdraft => exact absurd hdraft hissued
  | request => exact ⟨rfl, rfl⟩
  | fail => exact ⟨rfl, rfl⟩
  | cancel => exact ⟨rfl, rfl⟩
  | _ => exact absurd (by simp) hmay

theorem moves_unmoved (hm : Moves NoMoney t t' out) {pk : ℕ} {l : Ledger}
    (hl : t.get? pk = some l) (hissued : l.invoice.status ≠ .draft) :
    ∃ l', t'.get? pk = some l' ∧ l'.invoice.status ≠ .draft
      ∧ l'.invoice.amountPaid = l.invoice.amountPaid
      ∧ l'.invoice.amountRefunded = l.invoice.amountRefunded := by
  refine hm.persist (Q := fun l' => l'.invoice.status ≠ .draft
    ∧ l'.invoice.amountPaid = l.invoice.amountPaid
    ∧ l'.invoice.amountRefunded = l.invoice.amountRefunded) (fun _ h => h.1) ?_ hl
    ⟨hissued, rfl, rfl⟩
  rintro act a b out hmay hs ⟨hd, hpaid, hrefunded⟩
  obtain ⟨hpaid', hrefunded'⟩ := step_unmoved hmay hs hd
  exact ⟨hs.issued hd, hpaid'.trans hpaid, hrefunded'.trans hrefunded⟩

/-- Without a payment or a refund only an invoice of zero is announced as paid. -/
theorem step_zero_signal (hmay : NoMoney pk act l) (h : Step pk act l l' out) {q : ℕ} :
    .invoiceRefunded q ∉ out
      ∧ (.invoicePaid q ∈ out → q = pk ∧ l'.invoice.status ≠ .draft ∧ l'.invoice.total = 0) := by
  cases h with
  | @issue _ doc _ _ _ _ _ _ _ hdraft =>
    by_cases h0 : doc.total = 0
    · rw [if_pos h0]
      refine ⟨by simp, fun hmem => ⟨by simpa using hmem, ?_, h0⟩⟩
      simp only [Invoice.opened]
      split <;> decide
    · rw [if_neg h0]
      exact ⟨by simp, by simp⟩
  | cancel => exact ⟨by simp, by simp⟩
  | edit => exact ⟨by simp, by simp⟩
  | request => exact ⟨by simp, by simp⟩
  | fail => exact ⟨by simp, by simp⟩
  | _ => exact absurd (by simp) hmay

/-- Where no money moves nothing is announced as refunded, and only an invoice of zero as
    paid. -/
theorem moves_zero_signal (hm : Moves NoMoney t t' out) {q : ℕ} : .invoiceRefunded q ∉ out
    ∧ (.invoicePaid q ∈ out →
      ∃ l', t'.get? q = some l' ∧ l'.invoice.status ≠ .draft ∧ l'.invoice.total = 0) := by
  induction hm with
  | refl t => exact ⟨by simp, by simp⟩
  | create _ _ => exact ⟨by simp, by simp⟩
  | step ha hs hmay =>
    obtain ⟨hrefunded, hpaid⟩ := step_zero_signal hmay hs (q := q)
    refine ⟨hrefunded, fun hmem => ?_⟩
    obtain ⟨rfl, hissued, h0⟩ := hpaid hmem
    exact ⟨_, Table.get?_put_self ha _, hissued, h0⟩
  | delete _ _ => exact ⟨by simp, by simp⟩
  | trans hm hm' ih ih' =>
    refine ⟨fun hmem => (List.mem_append.mp hmem).elim ih.1 ih'.1, fun hmem => ?_⟩
    rcases List.mem_append.mp hmem with hmem | hmem
    · obtain ⟨l, hl, hissued, h0⟩ := ih.2 hmem
      obtain ⟨l', hl', hissued', _, hfigures⟩ := hm'.issued_kept hl hissued
      exact ⟨l', hl', hissued', (congrArg Figures.total hfigures).trans h0⟩
    · exact ih'.2 hmem

end

/-! ### Payments that succeed -/

/-- The call makes a payment of this amount on the invoice `pk` succeed. -/
inductive Pays (b : Billing.Store) : Act → ℕ → ℤ → Prop
  | record {w : World} {actor : Actor} {pk : ℕ} {typed : Typed} {occurredAt : Option Moment}
      {key : String} {cents : ℤ} (hamount : amountOf typed = .ok cents) (hkey : ¬KeyUsed b key) :
      Pays b (.billing w (.recordPayment actor pk typed occurredAt key)) pk cents
  | confirm {w : World} {actor : Actor} {id : TxId} {l : Ledger} {tx : Transaction}
      (hl : b.invoices.get? id.invoice = some l) (htx : l.transactions[id.index]? = some tx) :
      Pays b (.billing w (.confirmPayment actor id)) id.invoice tx.amount
  | settle {w : World} {provider : ℕ} {event : PaymentEvent} {id : TxId} {l : Ledger}
      {tx : Transaction} (hnew : ¬Received b provider event)
      (hsettles : Settles b provider event id l tx) :
      Pays b (.billing w (.handleWebhook provider (.ok (.ok event)))) id.invoice tx.amount

/-- The call books a payment on the invoice `pk`, and does nothing else to the invoices. -/
structure Booked (panel panel' : Panel) (now : Moment) (signals : List Signal) (pk : ℕ)
    (amount : ℤ) (l : Ledger) (txs : List Transaction) : Prop where
  invoice : panel.billing.invoices.get? pk = some l
  issued : l.invoice.status ≠ .draft
  pos : 0 < amount
  paid : succeededTotal .payment txs = l.invoice.amountPaid + amount
  refunded : succeededTotal .refund txs = l.invoice.amountRefunded
  invoices : panel'.billing.invoices = panel.billing.invoices.put pk (l.book now pk txs).1
  signals : signals = (l.book now pk txs).2

section

variable {panel panel' : Panel} {a : Act} {events : List Event}

/-- **A committed call that refunds nothing** books one payment, or moves no money. -/
theorem paying_cases (hs : Kept panel.billing) (h : exec a panel = .ok (panel', events))
    (hrefund : a.isRefund = false) :
    Moves NoMoney panel.billing.invoices panel'.billing.invoices (signalsOf events) ∨
      ∃ w call pk amount l txs, a = .billing w call ∧ Pays panel.billing a pk amount
        ∧ Booked panel panel' w.env.now (signalsOf events) pk amount l txs := by
  -- three services book a payment
  by_cases hmoney : a.movesMoney = true
  · cases a with
    | billing w call =>
      cases call with
      | recordPayment actor pk typed occurredAt key =>
        obtain ⟨b, signals, hcall, hreacts⟩ := billingCall_reacts h
        have hb : panel'.billing = b := hreacts.billing
        obtain ⟨⟨id, b', signals'⟩, hrun, heq⟩ := map_eq_ok.mp hcall
        cases heq
        rw [hb, hreacts.sent]
        rcases recordPayment_cases hrun with ⟨rfl, rfl⟩ |
          ⟨l, tx, hl, hamount, hkey, hopen, htype, hstatus, hpos, _, rfl, rfl⟩
        · exact .inl (.refl _)
        · have hsound := hs.invoices pk l hl
          exact .inr ⟨w, _, pk, tx.amount, l, _, rfl, .record hamount hkey, hl,
            (ne_of_open hopen).1, hpos, hsound.book_append_paid htype hstatus,
            hsound.book_append_refunded htype,
            by rw [hb]; rfl, rfl⟩
      | confirmPayment actor id =>
        obtain ⟨b, signals, hcall, hreacts⟩ := billingCall_reacts h
        have hb : panel'.billing = b := hreacts.billing
        obtain ⟨l, tx, hl, htx, htype, hpending, _, rfl, rfl⟩ := confirmPayment_step hcall
        rw [hreacts.sent]
        have hsound := hs.invoices _ l hl
        have hstatus : tx.status ≠ .succeeded := by rw [hpending]; decide
        exact .inr ⟨w, _, id.invoice, tx.amount, l, _, rfl, .confirm hl htx, hl,
          hsound.issued_of_transaction htx, hsound.kept.amount tx (List.mem_of_getElem? htx),
          hsound.book_set_paid htx htype hstatus _ _,
          hsound.book_set_refunded htx htype hstatus _ _, by rw [hb]; rfl, rfl⟩
      | handleWebhook provider parsed =>
        rcases webhook_cases h with ⟨hinvoices, hsignals⟩ |
          ⟨pk, l, l', hl, hstep, hinvoices, hsignals⟩ |
          ⟨event, id, l, tx, rfl, hnew, hsettles, hinvoices, hsignals⟩
        · rw [hinvoices, hsignals]
          exact .inl (.refl _)
        · rw [hinvoices, hsignals]
          exact .inl (.step hl hstep (by simp [NoMoney]))
        · have hsound := hs.invoices _ l hsettles.invoice
          obtain ⟨l₁, tx₁, hloc, _, _, htype⟩ := findPayment_some hsettles.found
          cases hloc.invoice.symm.trans hsettles.invoice
          cases hloc.transaction.symm.trans hsettles.transaction
          exact .inr ⟨w, _, id.invoice, tx.amount, l, _, rfl, .settle hnew hsettles,
            hsettles.invoice, hsound.issued_of_transaction hsettles.transaction,
            hsound.kept.amount tx (List.mem_of_getElem? hsettles.transaction),
            hsound.book_set_paid hsettles.transaction htype hsettles.status _ _,
            hsound.book_set_refunded hsettles.transaction htype hsettles.status _ _,
            hinvoices, hsignals⟩
      | refundPayment => cases hrefund
      | _ => cases hmoney
    | _ => cases hmoney
  · exact .inl ((exec_moves_can hs h).1.mono fun _ _ _ hcan =>
      hcan.2 (Bool.not_eq_true _ ▸ hmoney))

end

end WPanel.Site
