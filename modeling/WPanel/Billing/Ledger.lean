import WPanel.Billing.Integrity
import WPanel.Billing.Payments

namespace WPanel.Billing

open WPanel.Lib

/-!
# What can happen to an invoice

Every service changes invoices in a handful of ways only.  `Step` lists them, each with the
guards under which it happens; `Moves` is a sequence of such changes on the invoices of the
store.  The invariants are proved about `Step`, once per kind of change, and each service
is shown to make `Moves` only.

* `Act` — the kinds of change;
* `Step` — one change of one invoice, with the signals it sends;
* `Born` — an invoice as it is first saved;
* `Moves` — changes one after the other, under a policy saying which acts may be used on
  which invoices;
* `Moves.preserve` — what new invoices have and every step keeps, `Moves` keep.
-/

/-- The kinds of change to an invoice. -/
inductive Act where
  /-- A draft is saved. -/
  | create
  /-- The lines and figures of a draft are replaced. -/
  | edit
  /-- A draft is numbered, dated and opened. -/
  | issue
  /-- A payment is announced or started: a pending transaction. -/
  | request
  /-- A pending payment fails. -/
  | fail
  /-- Staff record money received. -/
  | receive
  /-- Staff confirm a pending payment. -/
  | confirm
  /-- The gateway confirms a payment. -/
  | settle
  /-- Part or all of a payment is given back. -/
  | refund
  /-- The invoice is cancelled. -/
  | cancel
  deriving DecidableEq, Repr

/-- The figures of a document, written over those of an invoice. -/
def Invoice.withFigures (invoice : Invoice) (doc : Figures) (currency : String) (rate : Decimal) :
    Invoice :=
  { invoice with
    currency, subtotal := doc.subtotal, discountTotal := doc.discountTotal, taxRate := rate
    taxTotal := doc.taxTotal, total := doc.total }

/-- An invoice as it is opened. -/
def Invoice.opened (invoice : Invoice) (number : String) (issueDate dueDate : ℕ) (now : Moment) :
    Invoice :=
  { invoice with
    number, issueDate := some issueDate, dueDate := some dueDate
    status := if invoice.total = 0 then .paid else .unpaid
    paidAt := if invoice.total = 0 then some now else invoice.paidAt
    amountPaid := 0, amountRefunded := 0 }

/-- A succeeded transaction. -/
def Transaction.succeed (tx : Transaction) (now : Moment) (failureReason : String) : Transaction :=
  { tx with status := .succeeded, failureReason, occurredAt := now }

/-- The invoice `pk` with other transactions, and its position derived from them. -/
def Ledger.book (l : Ledger) (now : Moment) (pk : ℕ) (transactions : List Transaction) :
    Ledger × List Signal :=
  recomputeInvoice now pk { l with transactions }

/-- One change of the invoice `pk`. -/
inductive Step (pk : ℕ) : Act → Ledger → Ledger → List Signal → Prop
  | edit {l : Ledger} {doc : Figures} {currency : String} {rate : Decimal} {items : List LineItem}
      (hdraft : l.invoice.status = .draft) (hlines : LinesAgree doc items) (htotal : 0 ≤ doc.total)
      (htax : 0 ≤ doc.taxTotal) :
      Step pk .edit l { l with invoice := l.invoice.withFigures doc currency rate, items } []
  | issue {l : Ledger} {doc : Figures} {currency : String} {rate : Decimal} {items : List LineItem}
      {number : String} {issueDate dueDate : ℕ} {now : Moment}
      (hdraft : l.invoice.status = .draft) (hlines : LinesAgree doc items) (htotal : 0 ≤ doc.total)
      (hnumber : number ≠ "") (htax : 0 ≤ doc.taxTotal) :
      Step pk .issue l
        { l with
          invoice := (l.invoice.withFigures doc currency rate).opened number issueDate dueDate now
          items }
        (if doc.total = 0 then [.invoicePaid pk] else [])
  | request {l : Ledger} {tx : Transaction}
      (hopen : l.invoice.status ∈ openStatuses) (htype : tx.type = .payment)
      (hstatus : tx.status = .pending) (hparent : tx.parent = none) (hamount : 0 < tx.amount) :
      Step pk .request l { l with transactions := l.transactions ++ [tx] } []
  | fail {l : Ledger} {i : ℕ} {tx : Transaction} {reason : String}
      (htx : l.transactions[i]? = some tx) (htype : tx.type = .payment)
      (hstatus : tx.status = .pending) :
      Step pk .fail l
        { l with transactions :=
            l.transactions.set i { tx with status := .failed, failureReason := reason } } []
  | receive {l : Ledger} {tx : Transaction} {now : Moment}
      (hopen : l.invoice.status ∈ openStatuses) (htype : tx.type = .payment)
      (hstatus : tx.status = .succeeded) (hparent : tx.parent = none) (hamount : 0 < tx.amount)
      (hbalance : tx.amount ≤ l.invoice.balanceDue) :
      Step pk .receive l (l.book now pk (l.transactions ++ [tx])).1
        (l.book now pk (l.transactions ++ [tx])).2
  | confirm {l : Ledger} {i : ℕ} {tx : Transaction} {now : Moment}
      (htx : l.transactions[i]? = some tx) (htype : tx.type = .payment)
      (hstatus : tx.status = .pending) (hopen : l.invoice.status ∈ openStatuses)
      (hbalance : tx.amount ≤ l.invoice.balanceDue) :
      Step pk .confirm l (l.book now pk (l.transactions.set i (tx.succeed now tx.failureReason))).1
        (l.book now pk (l.transactions.set i (tx.succeed now tx.failureReason))).2
  | settle {l : Ledger} {i : ℕ} {tx : Transaction} {now : Moment}
      (htx : l.transactions[i]? = some tx) (htype : tx.type = .payment)
      (hstatus : tx.status ≠ .succeeded) :
      Step pk .settle l (l.book now pk (l.transactions.set i (tx.succeed now ""))).1
        (l.book now pk (l.transactions.set i (tx.succeed now ""))).2
  | refund {l : Ledger} {i : ℕ} {payment tx : Transaction} {now : Moment}
      (htx : l.transactions[i]? = some payment) (hpayment : payment.type = .payment)
      (hsucceeded : payment.status = .succeeded) (htype : tx.type = .refund)
      (hstatus : tx.status = .succeeded) (hparent : tx.parent = some i) (hamount : 0 < tx.amount)
      (havailable : tx.amount ≤ refundableAmount l i payment) :
      Step pk .refund l (l.book now pk (l.transactions ++ [tx])).1
        (l.book now pk (l.transactions ++ [tx])).2
  | cancel {l : Ledger} {reason cancelReason : String}
      (hstatus : l.invoice.status = .draft ∨ l.invoice.status = .unpaid)
      (hpaid : l.invoice.amountPaid ≤ 0) (hnone : ∀ tx ∈ l.transactions, tx.status ≠ .succeeded) :
      Step pk .cancel l
        { l with
          invoice := { l.invoice with status := .cancelled, cancelReason }
          transactions := l.transactions.map (failPending reason) }
        [.invoiceCancelled pk]

/-- An invoice as it is first saved: a draft without number, transactions or money. -/
structure Born (l : Ledger) : Prop where
  status : l.invoice.status = .draft
  number : l.invoice.number = ""
  transactions : l.transactions = []
  amountPaid : l.invoice.amountPaid = 0
  amountRefunded : l.invoice.amountRefunded = 0
  lines : LinesAgree l.invoice.figures l.items
  total : 0 ≤ l.invoice.total
  tax : 0 ≤ l.invoice.taxTotal

/-- Which acts may be used on which invoices. -/
abbrev Policy := ℕ → Act → Ledger → Prop

/-- Changes one after the other on the invoices of the store, each allowed by the policy. -/
inductive Moves (may : Policy) : Table Ledger → Table Ledger → List Signal → Prop
  | refl (t : Table Ledger) : Moves may t t []
  | create {t : Table Ledger} {l : Ledger} (hl : Born l) (hmay : may t.nextPk .create l) :
      Moves may t (t.insert l) []
  | step {t : Table Ledger} {pk : ℕ} {act : Act} {l l' : Ledger} {out : List Signal}
      (hl : t.get? pk = some l) (hstep : Step pk act l l' out) (hmay : may pk act l) :
      Moves may t (t.put pk l') out
  | delete {t : Table Ledger} {pk : ℕ} {l : Ledger} (hl : t.get? pk = some l)
      (hdraft : l.invoice.status = .draft) : Moves may t (t.erase pk) []
  | trans {t t' t'' : Table Ledger} {out out' : List Signal} :
      Moves may t t' out → Moves may t' t'' out' → Moves may t t'' (out ++ out')

/-- Only these acts, on any invoice. -/
def Only (acts : List Act) : Policy := fun _ act _ => act ∈ acts

/-- The policy of the everyday services: no payment is settled by a gateway or given back, no
    draft is cancelled, and no draft is saved for an order. -/
def Routine : Policy := fun _ act l =>
  act ∉ [.settle, .refund] ∧ (act = .cancel → l.invoice.status ≠ .draft)
    ∧ (act = .create → l.invoice.order = none)

/-- The policy of the everyday services that move no money either: no payment staff record or
    confirm. -/
def Moneyless : Policy := fun pk act l => Routine pk act l ∧ act ∉ [.receive, .confirm]

namespace Moves

variable {may may' : Policy} {t t' t'' : Table Ledger} {out out' : List Signal}

theorem mono (h : ∀ pk act l, may pk act l → may' pk act l) (hm : Moves may t t' out) :
    Moves may' t t' out := by
  induction hm with
  | refl t => exact .refl t
  | create hl hmay => exact .create hl (h _ _ _ hmay)
  | step hl hstep hmay => exact .step hl hstep (h _ _ _ hmay)
  | delete hl hdraft => exact .delete hl hdraft
  | trans _ _ ih ih' => exact .trans ih ih'

/-- Moves that send nothing before others leave the signals of the others. -/
theorem after (h : Moves may t t' []) (h' : Moves may t' t'' out) : Moves may t t'' out := by
  simpa using h.trans h'

/-- What a new invoice has and every step keeps, moves keep of all invoices. -/
theorem preserve {P : ℕ → Ledger → Prop}
    (hborn : ∀ pk l, may pk .create l → Born l → P pk l)
    (hstep : ∀ pk act l l' out, may pk act l → Step pk act l l' out → P pk l → P pk l')
    (hm : Moves may t t' out) : t.Forall P → t'.Forall P := by
  intro ht
  induction hm with
  | refl t => exact ht
  | create hl hmay => exact ht.insert (hborn _ _ hmay hl)
  | step hl hstep' hmay => exact ht.put (hstep _ _ _ _ _ hmay hstep' (ht _ _ hl))
  | delete hl hdraft => exact ht.erase _
  | trans _ _ ih ih' => exact ih' (ih ht)

/-- A relation every step satisfies holds between the two states of an invoice that was
    there before and after. -/
theorem relates {R : Ledger → Ledger → Prop} (hrefl : ∀ l, R l l)
    (htrans : ∀ a b c, R a b → R b c → R a c)
    (hstep : ∀ pk act l l' out, may pk act l → Step pk act l l' out → R l l')
    (hm : Moves may t t' out) :
    ∀ pk l, t.get? pk = some l → t'.get? pk = none ∨ ∃ l', t'.get? pk = some l' ∧ R l l' := by
  have hnone : ∀ (t t' : Table Ledger) (out : List Signal), Moves may t t' out →
      t.nextPk ≤ t'.nextPk ∧ ∀ pk, pk < t.nextPk → t.get? pk = none → t'.get? pk = none := by
    intro t t' out hm
    induction hm with
    | refl t => exact ⟨le_refl _, fun _ _ h => h⟩
    | create _ _ =>
      refine ⟨by simp, fun pk hlt h => ?_⟩
      rw [Table.get?_insert, if_neg (by omega), h]
    | step hl _ _ =>
      refine ⟨by simp, fun pk _ h => ?_⟩
      rw [Table.get?_put_of_ne (by rintro rfl; rw [hl] at h; cases h), h]
    | delete hl _ =>
      refine ⟨by simp, fun pk _ h => ?_⟩
      rw [Table.get?_erase, h, ite_self]
    | trans _ _ ih ih' =>
      exact ⟨ih.1.trans ih'.1, fun pk hlt h => ih'.2 pk (lt_of_lt_of_le hlt ih.1) (ih.2 pk hlt h)⟩
  induction hm with
  | refl t => intro pk l h; exact .inr ⟨l, h, hrefl l⟩
  | create _ _ => intro pk l h; exact .inr ⟨l, Table.get?_insert_of_some h, hrefl l⟩
  | @step t q act a b out hq hs hmay =>
    intro pk l h
    by_cases hpk : pk = q
    · subst hpk
      rw [hq] at h
      cases h
      exact .inr ⟨b, Table.get?_put_self hq b, hstep _ _ _ _ _ hmay hs⟩
    · exact .inr ⟨l, by rw [Table.get?_put_of_ne hpk, h], hrefl l⟩
  | @delete t q a hq _ =>
    intro pk l h
    by_cases hpk : pk = q
    · exact .inl (by rw [Table.get?_erase, if_pos hpk])
    · exact .inr ⟨l, by rw [Table.get?_erase, if_neg hpk, h], hrefl l⟩
  | @trans t t' t'' _ _ hm hm' ih ih' =>
    intro pk l h
    rcases ih pk l h with hgone | ⟨l', h', hr⟩
    · exact .inl ((hnone _ _ _ hm').2 pk
        (lt_of_lt_of_le (Table.lt_nextPk h) (hnone _ _ _ hm).1) hgone)
    · rcases ih' pk l' h' with hgone | ⟨l'', h'', hr'⟩
      · exact .inl hgone
      · exact .inr ⟨l'', h'', htrans _ _ _ hr hr'⟩

end Moves

end WPanel.Billing
