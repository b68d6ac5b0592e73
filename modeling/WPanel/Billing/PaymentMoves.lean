import WPanel.Billing.Ledger

namespace WPanel.Billing

open WPanel.Lib

/-!
# What the payment services do to the invoices

One lemma for each function of `Payments`: when it returns, the invoices have made `Moves`.
All of them are `Moneyless` but those by which money moves, which are described exactly:
`recordPayment_cases`, `confirmPayment_step`, `refundPayment_step` and `handleWebhook_cases`.
-/

/-! ### Reading the guards back -/

theorem lockInvoice_eq_ok {s : Store} {pk : ℕ} {l : Ledger} :
    lockInvoice s pk = .ok l ↔ s.invoices.get? pk = some l := by
  unfold lockInvoice
  cases s.invoices.get? pk <;> simp

theorem lockTransaction_eq_ok {l : Ledger} {index : ℕ} {tx : Transaction} :
    lockTransaction l index = .ok tx ↔ l.transactions[index]? = some tx := by
  unfold lockTransaction
  cases l.transactions[index]? <;> simp

theorem requireOpen_eq_ok {invoice : Invoice} {u : Unit} :
    requireOpen invoice = .ok u ↔ invoice.status ∈ openStatuses ∧ 0 < invoice.balanceDue :=
  ensure_eq_ok

theorem requireAmountWithinBalance_eq_ok {invoice : Invoice} {amount : ℤ} {u : Unit} :
    requireAmountWithinBalance invoice amount = .ok u ↔ amount ≤ invoice.balanceDue :=
  ensure_eq_ok

theorem requireClientAccess_eq_ok {actor : Actor} {client : ℕ} {u : Unit} :
    requireClientAccess actor client = .ok u
      ↔ actor.hasPerm .manageBilling = true ∨ actor.contactOf client = true := ensure_eq_ok

/-- A new transaction has a positive amount and comes last. -/
theorem createTransaction_eq_ok {s : Store} {l l' : Ledger} {tx : Transaction}
    (h : createTransaction s l tx = .ok l') :
    0 < tx.amount ∧ l' = { l with transactions := l.transactions ++ [tx] } := by
  unfold createTransaction at h
  simp only [bind_eq_ok, ensure_eq_ok, exists_and_left, exists_const, pure_eq_ok] at h
  exact ⟨h.1.1, h.2.2.2.symm⟩

/-- An act that moves money through no gateway, cancels nothing and creates nothing is
    routine. -/
theorem routine {pk : ℕ} {act : Act} {l : Ledger}
    (h : act ∉ [.settle, .refund, .cancel, .create]) : Routine pk act l := by
  simp only [List.mem_cons, List.not_mem_nil, or_false, not_or] at h
  obtain ⟨hs, hr, hc, hn⟩ := h
  exact ⟨by simp [hs, hr], fun h => absurd h hc, fun h => absurd h hn⟩

theorem moneyless {pk : ℕ} {act : Act} {l : Ledger}
    (h : act ∉ [.receive, .confirm, .settle, .refund, .cancel, .create]) : Moneyless pk act l := by
  simp only [List.mem_cons, List.not_mem_nil, or_false, not_or] at h
  exact ⟨routine (by simp [h]), by simp [h]⟩

/-- The policy of the services that issue nothing either. -/
def Plain : Policy := fun pk act l => Moneyless pk act l ∧ act ≠ .issue

/-- A service changed the invoices as its policy allows, and left the quotes and the sequence of
    the numbers alone. -/
structure Leaves (may : Policy) (s s' : Store) (out : List Signal) : Prop where
  moves : Moves may s.invoices s'.invoices out
  quotes : s'.quotes = s.quotes
  sequence : s'.invoiceSequence = s.invoiceSequence

/-- One change of one invoice. -/
theorem Leaves.of_step {s : Store} {pk : ℕ} {act : Act} {l l' : Ledger} {out : List Signal}
    (hl : s.invoices.get? pk = some l) (hstep : Step pk act l l' out)
    (hact : act ∉ [.receive, .confirm, .settle, .refund, .cancel, .create, .issue]) :
    Leaves Plain s (s.putInvoice pk l') out := by
  simp only [List.mem_cons, List.not_mem_nil, or_false, not_or] at hact
  exact ⟨.step hl hstep ⟨moneyless (by simp [hact]), hact.2.2.2.2.2.2⟩, rfl, rfl⟩

/-! ### Manual payments and refunds -/

section

variable {env : Env} {actor : Actor} {pk : ℕ} {id : TxId} {s s' : Store} {out : List Signal}

/-- A payment was recorded with this idempotency key before. -/
def KeyUsed (s : Store) (key : String) : Prop :=
  clip 100 (strip key) ≠ "" ∧ ∃ p ∈ s.transactions, p.2.idempotencyKey = clip 100 (strip key)

/-- Recording a payment books one more transaction, unless its key was used before. -/
theorem recordPayment_cases {amount : Typed} {occurredAt : Option Moment} {key : String}
    (h : recordPayment env actor pk amount occurredAt key s = .ok (id, s', out)) :
    (s' = s ∧ out = []) ∨ ∃ l, ∃ tx : Transaction, s.invoices.get? pk = some l
      ∧ amountOf amount = .ok tx.amount
      ∧ ¬KeyUsed s key ∧ l.invoice.status ∈ openStatuses ∧ tx.type = .payment
      ∧ tx.status = .succeeded ∧ 0 < tx.amount
      ∧ let booked := l.book env.now pk (l.transactions ++ [tx])
        Step pk .receive l booked.1 booked.2 ∧ s' = s.putInvoice pk booked.1 ∧ out = booked.2 := by
  unfold recordPayment at h
  simp only [bind_eq_ok, requirePerm_eq_ok, ensure_eq_ok, exists_and_left, exists_const,
    lockInvoice_eq_ok] at h
  obtain ⟨_, cents, hcents, _, l, hl, h⟩ := h
  split at h
  · -- the key was used before: nothing changes
    simp only [bind_eq_ok, ensure_eq_ok, exists_and_left, exists_const, pure_eq_ok,
      Prod.mk.injEq] at h
    obtain ⟨_, _, rfl, rfl⟩ := h
    exact .inl ⟨rfl, rfl⟩
  · next hfind =>
    simp only [bind_eq_ok, requireOpen_eq_ok, requireAmountWithinBalance_eq_ok, exists_and_left,
      exists_const, pure_eq_ok, Prod.mk.injEq] at h
    obtain ⟨⟨hopen, _⟩, hbalance, l', hcreate, _, rfl, rfl⟩ := h
    obtain ⟨hpos, rfl⟩ := createTransaction_eq_ok hcreate
    have hkey : ¬KeyUsed s key := by
      rintro ⟨hne, p, hp, heq⟩
      have hnot := List.find?_eq_none.mp hfind p hp
      simp only [decide_eq_true_eq, not_and] at hnot
      exact hnot hne heq
    exact .inr ⟨l, _, hl, hcents, hkey, hopen, rfl, rfl, hpos,
      .receive hopen rfl rfl rfl hpos hbalance, rfl, rfl⟩

theorem recordPayment_moves {amount : Typed} {occurredAt : Option Moment} {key : String}
    (h : recordPayment env actor pk amount occurredAt key s = .ok (id, s', out)) :
    Leaves (fun pk act l => Routine pk act l ∧ act ≠ .issue) s s' out := by
  rcases recordPayment_cases h with ⟨rfl, rfl⟩ | ⟨l, tx, hl, _, _, _, _, _, _, hstep, rfl, rfl⟩
  · exact ⟨.refl _, rfl, rfl⟩
  · exact ⟨.step hl hstep ⟨routine (by decide), by decide⟩, rfl, rfl⟩

theorem reportPayment_moves {method : Option PaymentMethod} {amount : Option Typed}
    {proof : Except String Unit}
    (h : reportPayment env actor pk method amount proof s = .ok (id, s', out)) :
    Leaves Plain s s' out := by
  unfold reportPayment at h
  simp only [bind_eq_ok, lockInvoice_eq_ok, requireClientAccess_eq_ok, requireOpen_eq_ok,
    requireAmountWithinBalance_eq_ok, ensure_eq_ok, exists_and_left, exists_const, pure_eq_ok,
    Prod.mk.injEq] at h
  obtain ⟨l, hl, _, ⟨hopen, _⟩, _, a, _, _, _, _, _, l', hcreate, _, rfl, rfl⟩ := h
  obtain ⟨hpos, rfl⟩ := createTransaction_eq_ok hcreate
  exact .of_step hl (.request hopen rfl rfl rfl hpos) (by decide)

/-- Confirming a payment books it as succeeded. -/
theorem confirmPayment_step (h : confirmPayment env actor id s = .ok (s', out)) :
    ∃ l tx, s.invoices.get? id.invoice = some l ∧ l.transactions[id.index]? = some tx
      ∧ tx.type = .payment ∧ tx.status = .pending
      ∧ let booked := l.book env.now id.invoice
          (l.transactions.set id.index (tx.succeed env.now tx.failureReason))
        Step id.invoice .confirm l booked.1 booked.2
          ∧ s' = s.putInvoice id.invoice booked.1 ∧ out = booked.2 := by
  unfold confirmPayment at h
  simp only [bind_eq_ok, requirePerm_eq_ok, lockInvoice_eq_ok, lockTransaction_eq_ok,
    ensure_eq_ok, requireOpen_eq_ok, requireAmountWithinBalance_eq_ok, exists_and_left,
    exists_const, pure_eq_ok, Prod.mk.injEq] at h
  obtain ⟨_, l, hl, tx, htx, ⟨htype, hstatus, _⟩, ⟨hopen, _⟩, hbalance, rfl, rfl⟩ := h
  exact ⟨l, tx, hl, htx, htype, hstatus, .confirm htx htype hstatus hopen hbalance, rfl, rfl⟩

theorem confirmPayment_moves (h : confirmPayment env actor id s = .ok (s', out)) :
    Leaves (fun pk act l => Routine pk act l ∧ act ≠ .issue) s s' out := by
  obtain ⟨l, tx, hl, _, _, _, hstep, rfl, rfl⟩ := confirmPayment_step h
  exact ⟨.step hl hstep ⟨routine (by decide), by decide⟩, rfl, rfl⟩

theorem rejectPayment_moves {reason : String}
    (h : rejectPayment actor id reason s = .ok (s', out)) : Leaves Plain s s' out := by
  unfold rejectPayment at h
  simp only [bind_eq_ok, requirePerm_eq_ok, lockInvoice_eq_ok, lockTransaction_eq_ok,
    ensure_eq_ok, exists_and_left, exists_const, pure_eq_ok, Prod.mk.injEq] at h
  obtain ⟨_, l, hl, tx, htx, ⟨htype, hstatus, _⟩, rfl, rfl⟩ := h
  exact .of_step hl (.fail htx htype hstatus) (by decide)

/-- A refund books one more transaction: the amount asked for, or all that is left of the
    payment, given back on that payment. -/
theorem refundPayment_step {amount : Option Typed} {gateway : Except String String}
    (h : refundPayment env actor id amount gateway s = .ok (s', out)) :
    ∃ l payment, ∃ tx : Transaction, s.invoices.get? id.invoice = some l
      ∧ l.transactions[id.index]? = some payment
      ∧ amountOr amount (refundableAmount l id.index payment) = .ok tx.amount
      ∧ tx.type = .refund ∧ tx.status = .succeeded
      ∧ let booked := l.book env.now id.invoice (l.transactions ++ [tx])
        Step id.invoice .refund l booked.1 booked.2
          ∧ s' = s.putInvoice id.invoice booked.1 ∧ out = booked.2 := by
  unfold refundPayment at h
  simp only [bind_eq_ok, requirePerm_eq_ok, lockInvoice_eq_ok, lockTransaction_eq_ok,
    ensure_eq_ok, exists_and_left, exists_const, pure_eq_ok, Prod.mk.injEq] at h
  obtain ⟨_, l, hl, payment, htx, ⟨htype, hstatus⟩, a, ha, havailable, _, _, l', hcreate, rfl,
    rfl⟩ := h
  obtain ⟨hpos, rfl⟩ := createTransaction_eq_ok hcreate
  exact ⟨l, payment, _, hl, htx, ha, rfl, rfl,
    .refund htx htype hstatus rfl rfl rfl hpos havailable, rfl, rfl⟩

/-! ### Gateway payments -/

theorem startGatewayPayment_moves {method : Option PaymentMethod} {gateway : GatewayAnswer}
    (h : startGatewayPayment env actor pk method gateway s = .ok (id, s', out)) :
    Leaves Plain s s' out := by
  unfold startGatewayPayment at h
  simp only [bind_eq_ok, lockInvoice_eq_ok, requireClientAccess_eq_ok, requireOpen_eq_ok,
    exists_and_left, exists_const] at h
  obtain ⟨l, hl, _, ⟨hopen, _⟩, provider, _, adapter, _, h⟩ := h
  split at h
  · simp only [pure_eq_ok, Prod.mk.injEq] at h
    obtain ⟨_, rfl, rfl⟩ := h
    exact ⟨.refl _, rfl, rfl⟩
  · simp only [bind_eq_ok, pure_eq_ok, Prod.mk.injEq] at h
    obtain ⟨_, _, l', hcreate, _, rfl, rfl⟩ := h
    obtain ⟨hpos, rfl⟩ := createTransaction_eq_ok hcreate
    exact .of_step hl (.request hopen rfl rfl rfl hpos) (by decide)

end

/-! ### Webhooks -/

/-- The transactions of the store are those of its invoices. -/
theorem mem_transactions {s : Store} {id : TxId} {tx : Transaction} :
    (id, tx) ∈ s.transactions ↔
      ∃ l, s.invoices.get? id.invoice = some l ∧ l.transactions[id.index]? = some tx := by
  unfold Store.transactions
  simp only [List.mem_flatMap, Prod.exists, Table.mem_entries, List.mem_map,
    List.mem_zipIdx_iff_getElem?, Prod.mk.injEq]
  constructor
  · rintro ⟨pk, l, hl, tx', i, htx, rfl, rfl⟩
    exact ⟨l, hl, htx⟩
  · rintro ⟨l, hl, htx⟩
    exact ⟨id.invoice, l, hl, tx, id.index, htx, rfl, rfl⟩

/-- The transaction `id` of the invoice `l` is `tx`. -/
structure Locates (s : Store) (id : TxId) (l : Ledger) (tx : Transaction) : Prop where
  invoice : s.invoices.get? id.invoice = some l
  transaction : l.transactions[id.index]? = some tx

theorem findPayment_some {s : Store} {provider : ℕ} {externalId : String} {id : TxId}
    (h : findPayment s provider externalId = some id) :
    ∃ l tx, Locates s id l tx ∧ tx.provider = some provider ∧ tx.externalId = externalId
      ∧ tx.type = .payment := by
  unfold findPayment at h
  split at h
  · cases h
  · rw [Option.map_eq_some_iff] at h
    obtain ⟨⟨id', tx⟩, hfind, rfl⟩ := h
    obtain ⟨l, hl, htx⟩ := mem_transactions.mp (List.mem_of_find?_eq_some hfind)
    have hp := List.find?_some hfind
    simp only [decide_eq_true_eq] at hp
    exact ⟨l, tx, ⟨hl, htx⟩, hp⟩

/-- The event says that exactly the transaction's money arrived. -/
structure PaymentEvent.Confirms (event : PaymentEvent) (tx : Transaction) : Prop where
  type : event.type = "payment.succeeded"
  amount : event.amount.map money = some tx.amount
  currency : event.currency = tx.currency

/-- The event makes a payment succeed: it confirms the payment its external id names, and
    that payment has not succeeded yet. -/
structure Settles (s : Store) (provider : ℕ) (event : PaymentEvent) (id : TxId) (l : Ledger)
    (tx : Transaction) : Prop extends Locates s id l tx where
  found : findPayment s provider event.externalId = some id
  confirms : event.Confirms tx
  status : tx.status ≠ .succeeded

section

variable {env : Env} {provider : ℕ} {event : PaymentEvent} {s s' : Store} {out : List Signal}

/-- A settling event is applied. -/
theorem applyEvent_of_settles {id : TxId} {l : Ledger} {tx : Transaction}
    (h : Settles s provider event id l tx) :
    let booked := l.book env.now id.invoice (l.transactions.set id.index (tx.succeed env.now ""))
    applyEvent env provider event s
      = .ok (.processed, "Payment applied.", s.putInvoice id.invoice booked.1, booked.2) := by
  have hne : ("payment.succeeded" : String) ≠ "payment.failed" := by decide
  unfold applyEvent
  simp only [h.confirms.type, h.found, lockInvoice_eq_ok.mpr h.invoice,
    lockTransaction_eq_ok.mpr h.transaction, h.status, h.confirms.amount, h.confirms.currency,
    ok_bind, hne, ne_eq, not_true_eq_false, false_and, or_self, if_false]
  rfl

/-- An event settles a payment, or fails a pending one, or changes nothing. -/
theorem applyEvent_cases {status : WebhookStatus} {detail : String}
    (h : applyEvent env provider event s = .ok (status, detail, s', out)) :
    (∃ id l tx, Settles s provider event id l tx ∧
      let booked := l.book env.now id.invoice (l.transactions.set id.index (tx.succeed env.now ""))
      s' = s.putInvoice id.invoice booked.1 ∧ out = booked.2) ∨
    (∃ id l tx reason, event.type = "payment.failed" ∧ Locates s id l tx ∧ tx.type = .payment
      ∧ tx.status = .pending ∧ out = [] ∧ s' = s.putInvoice id.invoice { l with
          transactions := l.transactions.set id.index
            { tx with status := .failed, failureReason := reason } }) ∨
    (s' = s ∧ out = []) := by
  unfold applyEvent at h
  split at h
  · simp only [pure_eq_ok, Prod.mk.injEq] at h
    exact .inr (.inr ⟨h.2.2.1.symm, h.2.2.2.symm⟩)
  · rename_i hhandled
    split at h
    · simp only [pure_eq_ok, Prod.mk.injEq] at h
      exact .inr (.inr ⟨h.2.2.1.symm, h.2.2.2.symm⟩)
    · rename_i id hfind
      simp only [bind_eq_ok, lockInvoice_eq_ok, lockTransaction_eq_ok] at h
      obtain ⟨l, hl, tx, htx, h⟩ := h
      have htype : tx.type = .payment := by
        obtain ⟨l', tx', hloc, _, _, ht⟩ := findPayment_some hfind
        obtain rfl : l' = l := Option.some.inj (hloc.invoice.symm.trans hl)
        obtain rfl : tx' = tx := Option.some.inj (hloc.transaction.symm.trans htx)
        exact ht
      split at h
      · rename_i hfailed
        split at h
        · simp only [pure_eq_ok, Prod.mk.injEq] at h
          exact .inr (.inr ⟨h.2.2.1.symm, h.2.2.2.symm⟩)
        · rename_i hpending
          simp only [pure_eq_ok, Prod.mk.injEq] at h
          exact .inr (.inl ⟨id, l, tx, _, hfailed, ⟨hl, htx⟩, htype, not_not.mp hpending,
            h.2.2.2.symm, h.2.2.1.symm⟩)
      · rename_i hnotfailed
        split at h
        · simp only [pure_eq_ok, Prod.mk.injEq] at h
          exact .inr (.inr ⟨h.2.2.1.symm, h.2.2.2.symm⟩)
        · rename_i hstatus
          split at h
          · simp only [pure_eq_ok, Prod.mk.injEq] at h
            exact .inr (.inr ⟨h.2.2.1.symm, h.2.2.2.symm⟩)
          · rename_i hmatch
            simp only [pure_eq_ok, Prod.mk.injEq] at h
            push Not at hhandled hmatch
            have hsucceeded : event.type = "payment.succeeded" := by
              by_contra hne
              exact hnotfailed (hhandled hne)
            exact .inl ⟨id, l, tx, ⟨⟨hl, htx⟩, hfind, ⟨hsucceeded, hmatch.1, hmatch.2⟩, hstatus⟩,
              h.2.2.1.symm, h.2.2.2.symm⟩

/-- The event was received before. -/
def Received (s : Store) (provider : ℕ) (event : PaymentEvent) : Prop :=
  ∃ w ∈ s.webhookEvents, w.provider = provider ∧ w.eventId = event.eventId

/-- A webhook is a repeat, or a verified event that is applied and recorded. -/
theorem handleWebhook_cases {parsed : Except String (Except String PaymentEvent)}
    {result : WebhookResult} (h : handleWebhook env provider parsed s = .ok (result, s', out)) :
    ∃ event, parsed = .ok (.ok event) ∧
      ((Received s provider event ∧ result = .duplicate ∧ s' = s ∧ out = []) ∨
        (¬Received s provider event ∧ ∃ status detail s₁,
          applyEvent env provider event s = .ok (status, detail, s₁, out) ∧
          s' = { s₁ with webhookEvents := s₁.webhookEvents ++ [{
            provider, eventId := event.eventId, eventType := event.type, status
            detail := clip 500 detail }] })) := by
  unfold handleWebhook at h
  simp only [bind_eq_ok, mapError_eq_ok] at h
  obtain ⟨parsed', hparsed, event, hevent, h⟩ := h
  refine ⟨event, by rw [hparsed, hevent], ?_⟩
  split at h
  · rename_i hrec
    simp only [pure_eq_ok, Prod.mk.injEq] at h
    exact .inl ⟨hrec, h.1.symm, h.2.1.symm, h.2.2.symm⟩
  · rename_i hrec
    simp only [bind_eq_ok, pure_eq_ok, Prod.exists] at h
    obtain ⟨status, detail, s₁, out', happly, h⟩ := h
    simp only [Prod.mk.injEq] at h
    obtain ⟨_, hs', rfl⟩ := h
    exact .inr ⟨hrec, status, detail, s₁, happly, hs'.symm⟩

/-- What a webhook may do: settle, on exactly the invoice a settling event names, or fail. -/
def GatewayMay (s : Store) (provider : ℕ) (event : PaymentEvent) : Policy := fun pk act l =>
  act ∈ [.settle, .fail] ∧ (act = .settle → ¬Received s provider event ∧
    ∃ id tx, id.invoice = pk ∧ Settles s provider event id l tx)

theorem handleWebhook_moves {parsed : Except String (Except String PaymentEvent)}
    {result : WebhookResult} (h : handleWebhook env provider parsed s = .ok (result, s', out)) :
    ∃ event, parsed = .ok (.ok event) ∧ Leaves (GatewayMay s provider event) s s' out := by
  obtain ⟨event, hparsed, ⟨_, _, rfl, rfl⟩ | ⟨hnew, status, detail, s₁, happly, rfl⟩⟩ :=
    handleWebhook_cases h
  · exact ⟨event, hparsed, .refl _, rfl, rfl⟩
  refine ⟨event, hparsed, ?_⟩
  rcases applyEvent_cases happly with ⟨id, l, tx, hsettles, rfl, rfl⟩ |
    ⟨id, l, tx, reason, _, hloc, htype, hstatus, rfl, rfl⟩ | ⟨rfl, rfl⟩
  · obtain ⟨l', tx', hloc, _, _, htype⟩ := findPayment_some hsettles.found
    obtain rfl : l' = l := Option.some.inj (hloc.invoice.symm.trans hsettles.invoice)
    obtain rfl : tx' = tx := Option.some.inj (hloc.transaction.symm.trans hsettles.transaction)
    exact ⟨.step hsettles.invoice (.settle hsettles.transaction htype hsettles.status)
      ⟨by decide, fun _ => ⟨hnew, id, tx', rfl, hsettles⟩⟩, rfl, rfl⟩
  · exact ⟨.step hloc.invoice (.fail hloc.transaction htype hstatus) ⟨by decide, nofun⟩, rfl, rfl⟩
  · exact ⟨.refl _, rfl, rfl⟩

end

end WPanel.Billing
