import WPanel.Site.Links

namespace WPanel.Site

open WPanel.Lib WPanel.Billing WPanel.Orders WPanel.Renewals

/-!
# What `verify_invoice` finds

`verify_invoice` derives every stored figure of an invoice again.  Over whole runs it finds
nothing, but for one thing: a draft that is cancelled was never numbered, and is checked as an
issued invoice from then on.

* `Numbered` — issued invoices have a number and dates, drafts have no number;
* `CancelsDraft` — the one call that breaks this;
* `verified_iff` — a run keeps every invoice free of problems exactly when it cancels no
  draft.
-/

/-! ### Numbers -/

/-- An issued invoice has a number and dates, a draft has no number. -/
structure Numbered (l : Ledger) : Prop where
  issued : l.invoice.status ≠ .draft → l.invoice.Numbered
  draft : l.invoice.status = .draft → l.invoice.number = ""

theorem Born.numbered {l : Ledger} (h : Born l) : Numbered l :=
  ⟨fun hd => absurd h.status hd, fun _ => h.number⟩

/-- A step keeps an issued invoice numbered, unless it cancels a draft. -/
theorem Step.numbered {pk : ℕ} {act : Billing.Act} {l l' : Ledger} {out : List Signal}
    (h : Step pk act l l' out) (hs : Sound l) (hcancel : act = .cancel → l.invoice.status ≠ .draft)
    (hn : Numbered l) : Numbered l' := by
  have hbook : ∀ now txs, l.invoice.status ≠ .draft → Numbered (l.book now pk txs).1 := by
    intro now txs hissued
    refine ⟨fun _ => (book_numbered l now pk txs).mpr (hn.issued hissued), fun hd => ?_⟩
    exact absurd ((book_status_draft l now pk txs).mp hd) hissued
  cases h with
  | edit hdraft => exact ⟨fun hd => absurd hdraft hd, fun _ => hn.draft hdraft⟩
  | issue _ _ _ hnumber =>
    refine ⟨fun _ => ⟨hnumber, (fun h => by cases h), fun h => by cases h⟩, fun hd => ?_⟩
    simp only [Invoice.opened] at hd
    split at hd <;> cases hd
  | request => exact ⟨hn.issued, hn.draft⟩
  | fail => exact ⟨hn.issued, hn.draft⟩
  | receive hopen => exact hbook _ _ (ne_of_open hopen).1
  | confirm htx => exact hbook _ _ (hs.issued_of_transaction htx)
  | settle htx => exact hbook _ _ (hs.issued_of_transaction htx)
  | refund htx => exact hbook _ _ (hs.issued_of_transaction htx)
  | cancel => exact ⟨fun _ => hn.issued (hcancel rfl), fun h => by cases h⟩

/-- Every invoice of the table is numbered as it should be. -/
def AllNumbered (t : Table Ledger) : Prop := t.Forall fun _ l => Numbered l

theorem moves_numbered {may : Policy} {t t' : Table Ledger} {out : List Signal}
    (hcancel : ∀ pk l, may pk .cancel l → l.invoice.status ≠ .draft) (hm : Moves may t t' out)
    (ht : t.Forall fun _ l => Sound l) (hn : AllNumbered t) : AllNumbered t' := by
  have hboth : t'.Forall fun _ l => Sound l ∧ Numbered l := by
    refine hm.preserve (fun pk l _ hborn => ⟨hborn.sound, Born.numbered hborn⟩) ?_
      fun pk l hl => ⟨ht pk l hl, hn pk l hl⟩
    rintro pk act l l' out hmay hstep ⟨hsound, hnum⟩
    exact ⟨hstep.sound hsound, Step.numbered hstep hsound
      (by rintro rfl; exact hcancel pk l hmay) hnum⟩
  exact fun pk l hl => (hboth pk l hl).2

/-! ### Cancelling a draft -/

/-- Staff cancel an invoice that is still a draft. -/
def CancelsDraft (panel : Panel) : Act → Prop
  | .billing _ (.cancelInvoice _ pk _) =>
    ∃ l, panel.billing.invoices.get? pk = some l ∧ l.invoice.status = .draft
  | _ => False

/-- Only cancelling an invoice can cancel a draft. -/
theorem may_cancel {panel : Panel} {a : Act} {pk : ℕ} {l : Ledger} (h : a.May panel pk .cancel l)
    (ha : ∀ w actor pk reason, a ≠ .billing w (.cancelInvoice actor pk reason)) :
    l.invoice.status ≠ .draft := by
  cases a with
  | billing w call =>
    cases call with
    | cancelInvoice actor pk reason => exact absurd rfl (ha w actor pk reason)
    | refundPayment => exact absurd h.2 (by decide)
    | handleWebhook =>
      obtain ⟨event, _, hmay⟩ := h
      exact absurd hmay.1 (by decide)
    | _ => exact h.2.1 rfl
  | checkout => exact absurd (show Billing.Act.cancel ∈ [.create, .issue] from h) (by decide)
  | _ => exact h.2.1 rfl

section

variable {panel panel' : Panel} {a : Act} {events : List Event}

/-- What staff cancelling an invoice does to the invoices. -/
theorem cancelInvoice_cases {w : World} {actor : Actor} {pk : ℕ} {reason : String}
    (h : exec (.billing w (.cancelInvoice actor pk reason)) panel = .ok (panel', events)) :
    ∃ l, panel.billing.invoices.get? pk = some l ∧
      ((l.invoice.status = .cancelled ∧ panel'.billing.invoices = panel.billing.invoices) ∨
        ∃ l' out, Step pk .cancel l l' out
          ∧ panel'.billing.invoices = panel.billing.invoices.put pk l') := by
  obtain ⟨b, signals, hcall, hreacts⟩ := billingCall_reacts h
  have hb : panel'.billing = b := hreacts.billing
  obtain ⟨l, hl, _, _, ⟨hcancelled, heq, _⟩ | ⟨l', hstep, heq⟩⟩ :=
    cancelInvoiceInternal_cases (cancelInvoice_eq_ok.mp hcall).2
  · exact ⟨l, hl, .inl ⟨hcancelled, by rw [hb, heq]⟩⟩
  · exact ⟨l, hl, .inr ⟨l', signals, hstep, by rw [hb, heq]⟩⟩

/-- A call that cancels no draft keeps every invoice numbered as it should be. -/
theorem exec_numbered (hs : Kept panel.billing) (hn : AllNumbered panel.billing.invoices)
    (h : exec a panel = .ok (panel', events)) (hcancel : ¬CancelsDraft panel a) :
    AllNumbered panel'.billing.invoices := by
  by_cases ha : ∃ w actor pk reason, a = .billing w (.cancelInvoice actor pk reason)
  · obtain ⟨w, actor, pk, reason, rfl⟩ := ha
    obtain ⟨l, hl, ⟨_, heq⟩ | ⟨l', out, hstep, heq⟩⟩ := cancelInvoice_cases h
    · rw [heq]
      exact hn
    · rw [heq]
      have hissued : l.invoice.status ≠ .draft := fun hd => hcancel ⟨l, hl, hd⟩
      exact hn.put (Step.numbered hstep (hs.invoices pk l hl) (fun _ => hissued) (hn pk l hl))
  · push Not at ha
    exact moves_numbered (fun pk l hmay => may_cancel hmay ha) (exec_moves hs h).1 hs.invoices hn

/-! ### The report -/

/-- What `verify_invoice` reads of the orders. -/
def Panel.orderTotal (panel : Panel) (pk : ℕ) : Option ℤ :=
  (panel.orders.orders.get? pk).map (·.total)

/-- `verify_invoice` finds no problem with any invoice. -/
def Verified (panel : Panel) : Prop :=
  ∀ pk l, panel.billing.invoices.get? pk = some l → verifyInvoice panel.orderTotal pk l = []

/-- What keeps the report empty. -/
structure Verifiable (panel : Panel) : Prop where
  kept : Kept panel.billing
  linked : panel.Linked
  numbered : AllNumbered panel.billing.invoices

theorem Verifiable.verified (h : Verifiable panel) : Verified panel := by
  intro pk l hl
  have hsound := h.kept.invoices pk l hl
  rw [verifyInvoice_eq_nil]
  refine ⟨hsound.lines, fun order horder => ?_, fun hissued => ⟨(h.numbered pk l hl).issued hissued,
    hsound.paid, hsound.refunded, hsound.status hissued⟩⟩
  obtain ⟨_, row, hrow, htotal⟩ := h.linked.order pk l order hl horder
  simp [Panel.orderTotal, hrow, htotal]

/-- A cancelled draft is reported: it has no number. -/
theorem not_verified_of_cancelsDraft (hn : AllNumbered panel.billing.invoices)
    (h : exec a panel = .ok (panel', events)) (hcancel : CancelsDraft panel a) :
    ¬Verified panel' := by
  cases a with
  | billing w call =>
    cases call with
    | cancelInvoice actor pk reason =>
      obtain ⟨l, hl, hdraft⟩ := hcancel
      obtain ⟨l₁, hl₁, ⟨hcancelled, _⟩ | ⟨l', out, hstep, heq⟩⟩ := cancelInvoice_cases h
      · cases hl.symm.trans hl₁
        rw [hdraft] at hcancelled
        cases hcancelled
      · cases hl.symm.trans hl₁
        intro hverified
        have hl' : panel'.billing.invoices.get? pk = some l' := by
          rw [heq, Table.get?_put_self hl]
        have hreport := verifyInvoice_eq_nil.mp (hverified pk l' hl')
        have hnumber := (hn pk l hl).draft hdraft
        cases hstep
        exact (hreport.2.2 nofun).1.1 hnumber
    | _ => exact hcancel.elim
  | _ => exact hcancel.elim

end

/-- **A run keeps every invoice verified exactly when it cancels no draft.** -/
theorem verified_iff (as : List Act) :
    machine.Always Verified as {}
      ↔ machine.EachStep (fun panel a _ => ¬CancelsDraft panel a) as {} := by
  refine Machine.always_iff_eachStep (I := Verifiable) (fun _ h => h.verified) ?_ ?_ as {}
    ⟨Kept.empty, Linked.empty, .empty⟩
  · intro a panel panel' events hI h hcancel
    exact ⟨(exec_moves hI.kept h).2, hI.linked.exec hI.kept h,
      exec_numbered hI.kept hI.numbered h hcancel⟩
  · exact fun a panel panel' events hI h hverified hcancel =>
      not_verified_of_cancelsDraft hI.numbered h hcancel hverified

/-- A draft is cancelled: the cancelled invoice has neither a number nor dates. -/
theorem cancelled_draft_reported :
    ¬machine.Always Verified
      [draftInvoice, .billing smallWorld (.cancelInvoice staff 0 "")] {} := by
  intro h
  have hreported : let panel :=
        machine.run [draftInvoice, .billing smallWorld (.cancelInvoice staff 0 "")] {}
      ∃ l ∈ panel.billing.invoices.get? 0, verifyInvoice panel.orderTotal 0 l ≠ [] := by
    decide +kernel
  obtain ⟨l, hl, hproblems⟩ := hreported
  exact hproblems (h.last 0 l hl)

end WPanel.Site
