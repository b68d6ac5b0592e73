import WPanel.Billing.InvoiceMoves
import WPanel.Billing.Position

namespace WPanel.Billing

open WPanel.Lib

/-!
# The billing services as calls

Every service of `billing/invoicing.py` and `billing/payments.py` that other code or a person
calls, as one type.

* `Call`, `Call.exec` — a service with what it is given, and what it does to the store;
* `Call.May` — the changes a call can make: refunds, the gateway and staff cancelling an
  invoice have policies of their own, everything else is `Routine`;
* `Call.movesMoney` — the four calls by which money moves;
* `Kept` — the invariant of the store;
* `Call.exec_unissuing` — what a call does that issues nothing;
* `Call.exec_can` — a call makes the changes its policy allows, and keeps the store.
-/

/-- The billing services, with what they are given. -/
inductive Call where
  | createInvoice (actor : Actor) (client : ℕ) (draft : Draft)
  | updateInvoice (actor : Actor) (pk : ℕ) (draft : Draft)
  | deleteDraftInvoice (actor : Actor) (pk : ℕ)
  | issueInvoice (actor : Actor) (pk : ℕ)
  | cancelInvoice (actor : Actor) (pk : ℕ) (reason : String)
  | createBillableItem (actor : Actor) (client : ℕ) (raw : RawLine)
  | deleteBillableItem (actor : Actor) (pk : ℕ)
  | invoiceBillableItems (actor : Actor) (client : ℕ) (chosen : Option (List ℕ))
  | createQuote (actor : Actor) (client : ℕ) (draft : Draft) (validUntil : Option ℕ)
  | updateQuote (actor : Actor) (pk : ℕ) (draft : Draft) (validUntil : Option ℕ)
  | sendQuote (actor : Actor) (pk : ℕ)
  | acceptQuote (actor : Actor) (pk : ℕ)
  | declineQuote (actor : Actor) (pk : ℕ)
  | deleteDraftQuote (actor : Actor) (pk : ℕ)
  | cancelQuote (actor : Actor) (pk : ℕ)
  | recordPayment (actor : Actor) (pk : ℕ) (amount : Typed) (occurredAt : Option Moment)
      (idempotencyKey : String)
  | reportPayment (actor : Actor) (pk : ℕ) (method : Option PaymentMethod) (amount : Option Typed)
      (proof : Except String Unit)
  | confirmPayment (actor : Actor) (id : TxId)
  | rejectPayment (actor : Actor) (id : TxId) (reason : String)
  | refundPayment (actor : Actor) (id : TxId) (amount : Option Typed)
      (gateway : Except String String)
  | startGatewayPayment (actor : Actor) (pk : ℕ) (method : Option PaymentMethod)
      (gateway : GatewayAnswer)
  | handleWebhook (provider : ℕ) (parsed : Except String (Except String PaymentEvent))

/-- What a call does to the store, and the signals it sends. -/
def Call.exec (env : Env) (call : Call) (s : Store) : Except Err (Store × List Signal) :=
  match call with
  | .createInvoice actor client draft =>
    (Billing.createInvoice env actor client draft s).map fun (_, s) => (s, [])
  | .updateInvoice actor pk draft =>
    (Billing.updateInvoice env actor pk draft s).map fun s => (s, [])
  | .deleteDraftInvoice actor pk => (Billing.deleteDraftInvoice actor pk s).map fun s => (s, [])
  | .issueInvoice actor pk => Billing.issueInvoice env actor pk s
  | .cancelInvoice actor pk reason => Billing.cancelInvoice actor pk reason s
  | .createBillableItem actor client raw =>
    (Billing.createBillableItem actor client raw s).map fun (_, s) => (s, [])
  | .deleteBillableItem actor pk => (Billing.deleteBillableItem actor pk s).map fun s => (s, [])
  | .invoiceBillableItems actor client chosen =>
    (Billing.invoiceBillableItems env actor client chosen s).map fun (_, s) => (s, [])
  | .createQuote actor client draft validUntil =>
    (Billing.createQuote env actor client draft validUntil s).map fun (_, s) => (s, [])
  | .updateQuote actor pk draft validUntil =>
    (Billing.updateQuote env actor pk draft validUntil s).map fun s => (s, [])
  | .sendQuote actor pk => (Billing.sendQuote env actor pk s).map fun s => (s, [])
  | .acceptQuote actor pk => (Billing.acceptQuote env actor pk s).map fun (_, s, out) => (s, out)
  | .declineQuote actor pk => (Billing.declineQuote env actor pk s).map fun s => (s, [])
  | .deleteDraftQuote actor pk => (Billing.deleteDraftQuote actor pk s).map fun s => (s, [])
  | .cancelQuote actor pk => (Billing.cancelQuote actor pk s).map fun s => (s, [])
  | .recordPayment actor pk amount occurredAt key =>
    (Billing.recordPayment env actor pk amount occurredAt key s).map fun (_, s, out) => (s, out)
  | .reportPayment actor pk method amount proof =>
    (Billing.reportPayment env actor pk method amount proof s).map fun (_, s, out) => (s, out)
  | .confirmPayment actor id => Billing.confirmPayment env actor id s
  | .rejectPayment actor id reason => Billing.rejectPayment actor id reason s
  | .refundPayment actor id amount gateway => Billing.refundPayment env actor id amount gateway s
  | .startGatewayPayment actor pk method gateway =>
    (Billing.startGatewayPayment env actor pk method gateway s).map fun (_, s, out) => (s, out)
  | .handleWebhook provider parsed =>
    (Billing.handleWebhook env provider parsed s).map fun (_, s, out) => (s, out)

/-- The changes a call can make to invoices. -/
def Call.May (s : Store) : Call → Policy
  | .cancelInvoice actor pk _ => fun q act _ =>
    q = pk ∧ act = .cancel ∧ actor.hasPerm .manageBilling = true
  | .refundPayment _ id _ _ => fun q act _ => q = id.invoice ∧ act = .refund
  | .handleWebhook provider parsed => fun q act l =>
    ∃ event, parsed = .ok (.ok event) ∧ GatewayMay s provider event q act l
  | _ => Routine

/-- The calls by which money moves. -/
def Call.movesMoney : Call → Bool
  | .recordPayment .. => true
  | .confirmPayment .. => true
  | .refundPayment .. => true
  | .handleWebhook .. => true
  | _ => false

/-- No payment succeeds and nothing is given back. -/
def NoMoney : Policy := fun _ act _ => act ∉ [.receive, .confirm, .settle, .refund]

/-- The changes a call can make to invoices, where only some calls move money. -/
def Call.Can (s : Store) (call : Call) : Policy := fun pk act l =>
  call.May s pk act l ∧ (call.movesMoney = false → NoMoney pk act l)

/-- The invariant of the store. -/
structure Kept (s : Store) : Prop where
  invoices : s.invoices.Forall fun _ l => Sound l
  quotes : QuotesPriced s

theorem Kept.empty : Kept {} := ⟨.empty, .empty⟩

section

variable {env : Env} {call : Call} {s s' : Store} {out : List Signal} {may : Policy}
  {moves : Bool}

/-- A moneyless change is routine and moves no money. -/
theorem Moneyless.can {pk : ℕ} {act : Act} {l : Ledger}
    (h : Moneyless pk act l) : Routine pk act l ∧ (moves = false → NoMoney pk act l) := by
  refine ⟨h.1, fun _ hmem => ?_⟩
  obtain ⟨⟨hgateway, _⟩, hstaff⟩ := h
  rw [show [Act.receive, .confirm, .settle, .refund] = [.receive, .confirm] ++ [.settle, .refund]
    from rfl, List.mem_append] at hmem
  exact hmem.elim hstaff hgateway

/-- What a service that issues nothing does: it changes the invoices as its policy allows, leaves
    the sequence of the numbers alone, and keeps the quotes priced. -/
structure Unissuing (may : Policy) (s s' : Store) (out : List Signal) : Prop where
  moves : Moves (fun pk act l => may pk act l ∧ act ≠ .issue) s.invoices s'.invoices out
  sequence : s'.invoiceSequence = s.invoiceSequence
  priced : QuotesPriced s → QuotesPriced s'

theorem Leaves.unissuing {may' : Policy} (h : Leaves may' s s' out)
    (hmay : ∀ pk act l, may' pk act l → may pk act l ∧ act ≠ .issue) : Unissuing may s s' out :=
  ⟨h.moves.mono hmay, h.sequence, fun hpriced => by rw [QuotesPriced, h.quotes]; exact hpriced⟩

theorem Leaves.unissuing_plain (h : Leaves Plain s s' out) :
    Unissuing (fun pk act l => Routine pk act l ∧ (moves = false → NoMoney pk act l)) s s' out :=
  h.unissuing fun _ _ _ h => ⟨h.1.can, h.2⟩

theorem Requoted.unissuing (h : Requoted s s') : Unissuing may s s' [] :=
  ⟨h.invoices ▸ .refl _, h.sequence, h.priced⟩

/-- **What a service that issues nothing does.** -/
theorem Call.exec_unissuing (h : call.exec env s = .ok (s', out))
    (hissue : ∀ actor pk, call ≠ .issueInvoice actor pk)
    (haccept : ∀ actor pk, call ≠ .acceptQuote actor pk) :
    Unissuing (call.Can s) s s' out := by
  cases call with
  | createInvoice actor client draft =>
    obtain ⟨⟨pk, _⟩, hrun, heq⟩ := map_eq_ok.mp h
    cases heq
    exact (createInvoice_moves hrun).unissuing_plain
  | updateInvoice actor pk draft =>
    obtain ⟨_, hrun, heq⟩ := map_eq_ok.mp h
    cases heq
    exact (updateInvoice_moves hrun).unissuing_plain
  | deleteDraftInvoice actor pk =>
    obtain ⟨_, hrun, heq⟩ := map_eq_ok.mp h
    cases heq
    exact (deleteDraftInvoice_moves hrun).unissuing_plain
  | issueInvoice actor pk => exact absurd rfl (hissue actor pk)
  | cancelInvoice actor pk reason =>
    obtain ⟨hperm, h⟩ := cancelInvoice_eq_ok.mp h
    have hleaves : Leaves (fun q act l => (Call.cancelInvoice actor pk reason).Can s q act l
        ∧ act ≠ .issue) s s' out := cancelInvoiceInternal_moves
      (fun _ _ => ⟨⟨⟨rfl, rfl, hperm⟩, fun _ => by simp [NoMoney]⟩, by decide⟩) h
    exact hleaves.unissuing fun _ _ _ h => h
  | createBillableItem actor client raw =>
    obtain ⟨⟨pk, _⟩, hrun, heq⟩ := map_eq_ok.mp h
    cases heq
    exact (createBillableItem_unchanged hrun).unissuing
  | deleteBillableItem actor pk =>
    obtain ⟨_, hrun, heq⟩ := map_eq_ok.mp h
    cases heq
    exact (deleteBillableItem_unchanged hrun).unissuing
  | invoiceBillableItems actor client chosen =>
    obtain ⟨⟨pk, _⟩, hrun, heq⟩ := map_eq_ok.mp h
    cases heq
    exact (invoiceBillableItems_moves hrun).unissuing_plain
  | createQuote actor client draft validUntil =>
    obtain ⟨⟨pk, _⟩, hrun, heq⟩ := map_eq_ok.mp h
    cases heq
    -- quotes are no invoices
    exact (createQuote_requoted hrun).unissuing
  | updateQuote actor pk draft validUntil =>
    obtain ⟨_, hrun, heq⟩ := map_eq_ok.mp h
    cases heq
    exact (updateQuote_requoted hrun).unissuing
  | sendQuote actor pk =>
    obtain ⟨_, hrun, heq⟩ := map_eq_ok.mp h
    cases heq
    exact (sendQuote_requoted hrun).unissuing
  | acceptQuote actor pk => exact absurd rfl (haccept actor pk)
  | declineQuote actor pk =>
    obtain ⟨_, hrun, heq⟩ := map_eq_ok.mp h
    cases heq
    exact (declineQuote_requoted hrun).unissuing
  | deleteDraftQuote actor pk =>
    obtain ⟨_, hrun, heq⟩ := map_eq_ok.mp h
    cases heq
    exact (deleteDraftQuote_requoted hrun).unissuing
  | cancelQuote actor pk =>
    obtain ⟨_, hrun, heq⟩ := map_eq_ok.mp h
    cases heq
    exact (cancelQuote_requoted hrun).unissuing
  | recordPayment actor pk amount occurredAt key =>
    obtain ⟨⟨id, _, _⟩, hrun, heq⟩ := map_eq_ok.mp h
    cases heq
    exact (recordPayment_moves hrun).unissuing fun _ _ _ h => ⟨⟨h.1, nofun⟩, h.2⟩
  | reportPayment actor pk method amount proof =>
    obtain ⟨⟨id, _, _⟩, hrun, heq⟩ := map_eq_ok.mp h
    cases heq
    exact (reportPayment_moves hrun).unissuing_plain
  | confirmPayment actor id =>
    exact (confirmPayment_moves h).unissuing fun _ _ _ h => ⟨⟨h.1, nofun⟩, h.2⟩
  | rejectPayment actor id reason =>
    exact (rejectPayment_moves h).unissuing_plain
  | refundPayment actor id amount gateway =>
    obtain ⟨l, _, _, hl, _, _, _, _, hstep, rfl, rfl⟩ := refundPayment_step h
    exact ⟨.step hl hstep ⟨⟨⟨rfl, rfl⟩, nofun⟩, by decide⟩, rfl, fun h => h⟩
  | startGatewayPayment actor pk method gateway =>
    obtain ⟨⟨id, _, _⟩, hrun, heq⟩ := map_eq_ok.mp h
    cases heq
    exact (startGatewayPayment_moves hrun).unissuing_plain
  | handleWebhook provider parsed =>
    obtain ⟨⟨result, _, _⟩, hrun, heq⟩ := map_eq_ok.mp h
    cases heq
    obtain ⟨event, hparsed, hleaves⟩ := handleWebhook_moves hrun
    refine hleaves.unissuing fun _ _ _ hmay => ⟨⟨⟨event, hparsed, hmay⟩, nofun⟩, ?_⟩
    rintro rfl
    exact absurd hmay.1 (by decide)

/-- **What a billing service does.** -/
theorem Call.exec_can (hs : Kept s) (h : call.exec env s = .ok (s', out)) :
    Moves (call.Can s) s.invoices s'.invoices out ∧ Kept s' := by
  by_cases hissue : ∃ actor pk, call = .issueInvoice actor pk
  · obtain ⟨actor, pk, rfl⟩ := hissue
    obtain ⟨hmoves, hquotes⟩ := issueInvoice_moves (fun pk l hl => (hs.invoices pk l hl).lines) h
    exact ⟨hmoves.mono fun _ _ _ => Moneyless.can, hmoves.sound hs.invoices,
      by rw [QuotesPriced, hquotes]; exact hs.quotes⟩
  by_cases haccept : ∃ actor pk, call = .acceptQuote actor pk
  · obtain ⟨actor, pk, rfl⟩ := haccept
    obtain ⟨⟨pk, _, _⟩, hrun, heq⟩ := map_eq_ok.mp h
    cases heq
    obtain ⟨hmoves, hquotes⟩ := acceptQuote_moves hs.quotes hrun
    exact ⟨hmoves.mono fun _ _ _ => Moneyless.can, hmoves.sound hs.invoices, hquotes⟩
  obtain ⟨hmoves, _, hpriced⟩ := Call.exec_unissuing h (fun actor pk heq => hissue ⟨actor, pk, heq⟩)
    fun actor pk heq => haccept ⟨actor, pk, heq⟩
  exact ⟨hmoves.mono fun _ _ _ => And.left, hmoves.sound hs.invoices, hpriced hs.quotes⟩

end

end WPanel.Billing
