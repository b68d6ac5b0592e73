import WPanel.Site.Effects

namespace WPanel.Site

open WPanel.Lib WPanel.Billing WPanel.Orders WPanel.Renewals

/-!
# Money on invoices, over whole runs

What holds of the money of every invoice in every state of every run, whatever the order in
which payments, refunds and gateway events come.

* `MoneyKept` — an invoice's paid, refunded and overpaid amounts against its transactions;
* `PaidGrows` — no call lowers the amount paid;
* `money_conserved` — all of it along a run, and without the gateway nothing is overpaid.
-/

/-! ### Who may do what -/

/-- A gateway delivers an event. -/
def Act.isWebhook : Act → Bool
  | .billing _ (.handleWebhook ..) => true
  | _ => false

/-- Staff give money back. -/
def Act.isRefund : Act → Bool
  | .billing _ (.refundPayment ..) => true
  | _ => false

/-- Only the gateway settles a payment. -/
theorem may_settle {panel : Panel} {a : Act} {pk : ℕ} {l : Ledger} (h : a.May panel pk .settle l) :
    a.isWebhook = true := by
  cases a with
  | billing w call =>
    cases call with
    | handleWebhook => rfl
    | cancelInvoice => exact absurd h.2.1 (by decide)
    | refundPayment => exact absurd h.2 (by decide)
    | _ => exact absurd h.1 (by decide)
  | checkout => exact absurd (show Billing.Act.settle ∈ [.create, .issue] from h) (by decide)
  | _ => exact absurd h.1 (by decide)

/-- Only a refund gives money back. -/
theorem may_refund {panel : Panel} {a : Act} {pk : ℕ} {l : Ledger} (h : a.May panel pk .refund l) :
    a.isRefund = true := by
  cases a with
  | billing w call =>
    cases call with
    | handleWebhook =>
      obtain ⟨event, _, hmay⟩ := h
      exact absurd hmay.1 (by decide)
    | cancelInvoice => exact absurd h.2.1 (by decide)
    | refundPayment => rfl
    | _ => exact absurd h.1 (by decide)
  | checkout => exact absurd (show Billing.Act.refund ∈ [.create, .issue] from h) (by decide)
  | _ => exact absurd h.1 (by decide)

section

variable {panel panel' : Panel} {a : Act} {events : List Event}

/-- A refund is one step of its invoice. -/
theorem refund_cases {w : World} {actor : Actor} {id : TxId} {amount : Option Typed}
    {gateway : Except String String}
    (h : exec (.billing w (.refundPayment actor id amount gateway)) panel = .ok (panel', events)) :
    ∃ l payment, ∃ tx : Transaction, panel.billing.invoices.get? id.invoice = some l
      ∧ l.transactions[id.index]? = some payment
      ∧ amountOr amount (refundableAmount l id.index payment) = .ok tx.amount
      ∧ tx.type = .refund ∧ tx.status = .succeeded
      ∧ let booked := l.book w.env.now id.invoice (l.transactions ++ [tx])
        Step id.invoice .refund l booked.1 booked.2
          ∧ panel'.billing.invoices = panel.billing.invoices.put id.invoice booked.1
          ∧ signalsOf events = booked.2 := by
  obtain ⟨b, signals, hcall, hreacts⟩ := billingCall_reacts h
  have hb : panel'.billing = b := hreacts.billing
  obtain ⟨l, payment, tx, hl, hpayment, hamount, htype, hstatus, hstep, heq, hsignals⟩ :=
    refundPayment_step hcall
  exact ⟨l, payment, tx, hl, hpayment, hamount, htype, hstatus, hstep, by rw [hb, heq]; rfl,
    hreacts.sent.trans hsignals⟩

/-- **An invoice announced as paid is paid** once the call has committed. -/
theorem exec_paid_signal (hs : Kept panel.billing) (h : exec a panel = .ok (panel', events)) {q : ℕ}
    (hpaid : .invoicePaid q ∈ signalsOf events) :
    ∃ l, panel'.billing.invoices.get? q = some l ∧ l.invoice.status = .paid := by
  by_cases ha : a.isRefund = true
  · cases a with
    | billing w call =>
      cases call with
      | refundPayment actor id amount gateway =>
        obtain ⟨l, _, tx, hl, _, _, _, _, hstep, hinvoices, hsignals⟩ := refund_cases h
        rw [hsignals] at hpaid
        obtain ⟨rfl, hstatus, _⟩ := hstep.paid_signal hpaid
        exact ⟨_, by rw [hinvoices, Table.get?_put_self hl], hstatus⟩
      | _ => cases ha
    | _ => cases ha
  · exact (exec_moves hs h).1.paid_signal (fun _ _ hmay => ha (may_refund hmay)) hs.invoices hpaid

end

/-! ### Money -/

/-- The money of an invoice is that of its transactions: no payment gave back more than it
    brought, and what is held beyond the amount owed is what `overpaid` reports. -/
structure MoneyKept (l : Ledger) : Prop where
  refunds : ∀ i payment, l.transactions[i]? = some payment → payment.type = .payment →
    ((refundsOf l.transactions i).map (·.amount)).sum ≤ payment.amount
  paid : l.invoice.amountPaid = l.paidTotal
  refunded : l.invoice.amountRefunded = l.refundedTotal
  refunded_le_paid : l.invoice.amountRefunded ≤ l.invoice.amountPaid
  overpaid : l.invoice.overpaid = max (l.paidTotal - l.refundedTotal
    - if l.invoice.status = .cancelled then 0 else l.invoice.total) 0

theorem moneyKept_of_sound {l : Ledger} (h : Sound l) : MoneyKept l :=
  ⟨fun _ _ hpayment _ => h.refunds_le hpayment, h.paid.symm, h.refunded.symm, h.refunded_le_paid,
    h.overpaid_eq⟩

/-- No invoice that is still there has less paid on it. -/
def PaidGrows (t t' : Table Ledger) : Prop :=
  ∀ pk l l', t.get? pk = some l → t'.get? pk = some l' →
    l.invoice.amountPaid ≤ l'.invoice.amountPaid

/-- **Whatever moves are made, the amount paid never decreases.** -/
theorem moves_paidGrows {may : Policy} {t t' : Table Ledger} {out : List Signal}
    (hm : Moves may t t' out) (ht : t.Forall fun _ l => Sound l) : PaidGrows t t' := by
  intro pk l l' hl hl'
  -- along the way every step needs the invoice to be sound, and leaves it so
  have hrel := hm.relates
    (R := fun a b => Sound a → Sound b ∧ a.invoice.amountPaid ≤ b.invoice.amountPaid)
    (fun a ha => ⟨ha, le_refl _⟩)
    (fun a b c hab hbc ha =>
      ⟨(hbc (hab ha).1).1, (hab ha).2.trans (hbc (hab ha).1).2⟩)
    (fun _ _ _ _ _ _ hstep ha => ⟨hstep.sound ha, hstep.paid_mono ha⟩) pk l hl
  rcases hrel with hnone | ⟨b, hb, hR⟩
  · rw [hl'] at hnone
    cases hnone
  · cases hl'.symm.trans hb
    exact (hR (ht pk l hl)).2

/-- Nothing is overpaid. -/
def WithinTotal (t : Table Ledger) : Prop :=
  t.Forall fun _ l => l.invoice.amountPaid ≤ l.invoice.total

/-- Moves without the gateway overpay nothing. -/
theorem moves_withinTotal {may : Policy} {t t' : Table Ledger} {out : List Signal}
    (hsettle : ∀ pk l, ¬may pk .settle l) (hm : Moves may t t' out)
    (ht : t.Forall fun _ l => Sound l) (hwithin : WithinTotal t) : WithinTotal t' := by
  have hboth : t'.Forall fun _ l => Sound l ∧ l.invoice.amountPaid ≤ l.invoice.total := by
    refine hm.preserve (fun pk l _ hborn => ⟨hborn.sound, ?_⟩) ?_
      fun pk l hl => ⟨ht pk l hl, hwithin pk l hl⟩
    · rw [hborn.amountPaid]
      exact hborn.total
    · rintro pk act l l' out hmay hstep ⟨hsound, hle⟩
      refine ⟨hstep.sound hsound, hstep.paid_le_total hsound ?_ hle⟩
      rintro rfl
      exact hsettle pk l hmay
  exact fun pk l hl => (hboth pk l hl).2

/-! ### Runs -/

theorem kept_step {a : Act} {panel panel' : Panel} {events : List Event} (hs : Kept panel.billing)
    (h : machine.Commits a panel panel' events) : Kept panel'.billing := (exec_moves hs h).2

/-- **Money is conserved.**  In every state of every run the money of every invoice is that of
    its transactions; no call lowers an amount paid; and in a run without gateway events no
    invoice is ever overpaid. -/
theorem money_conserved (as : List Act) :
    machine.Always (fun panel => panel.billing.invoices.Forall fun _ l => MoneyKept l) as {}
      ∧ machine.EachStep (fun panel _ panel' =>
          PaidGrows panel.billing.invoices panel'.billing.invoices) as {}
      ∧ ((∀ a ∈ as, a.isWebhook = false) →
          machine.Always (fun panel => WithinTotal panel.billing.invoices) as {}) := by
  refine ⟨?_, ?_, fun hwebhook => ?_⟩
  · have hkept := Machine.always_of_invariant (m := machine) (I := fun panel => Kept panel.billing)
      as (fun a _ _ _ _ hs h => kept_step hs h) {} Kept.empty
    exact hkept.mono fun panel hs pk l hl => moneyKept_of_sound (hs.invoices pk l hl)
  · exact Machine.eachStep_of_invariant (I := fun panel : Panel => Kept panel.billing)
      (fun _ _ _ _ hs h => kept_step hs h)
      (fun a _ _ _ hs h => moves_paidGrows (exec_moves hs h).1 hs.invoices) as {} Kept.empty
  · have hboth := Machine.always_of_invariant (m := machine)
      (I := fun panel => Kept panel.billing ∧ WithinTotal panel.billing.invoices) as
      (fun a ha panel panel' events hs h => by
        obtain ⟨hmoves, hkept⟩ := exec_moves hs.1 h
        refine ⟨hkept, moves_withinTotal (fun pk l hmay => ?_) hmoves hs.1.invoices hs.2⟩
        have := may_settle hmay
        rw [hwebhook a ha] at this
        cases this) {} ⟨Kept.empty, .empty⟩
    exact hboth.mono fun _ hs => hs.2

/-- An invoice is part paid, part of that is given back, and the rest is paid. -/
theorem money_conserved_part_paid :
    machine.Always (fun panel => WithinTotal panel.billing.invoices)
      [draftInvoice, .billing smallWorld (.issueInvoice staff 0), receive0 4000, refund0 0 1000,
        receive0 6000] {} := by
  refine (money_conserved _).2.2 ?_
  decide

end WPanel.Site
