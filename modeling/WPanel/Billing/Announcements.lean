import WPanel.Billing.Signals

namespace WPanel.Billing

open WPanel.Lib

/-!
# What the signals say after any moves

The facts of `Billing.Signals`, carried from one step to the moves of a whole service.

* `Moves.persist` — an issued invoice is never lost, and what its steps keep is kept;
* `Moves.linked` — where no draft is saved for an order, no invoice gains one;
* `Moves.paid_signal`, `Moves.cancelled_signal` — an invoice announced as paid is paid, one
  announced as cancelled is cancelled;
* `Moves.open_kept` — an open invoice stays open until one of the two is sent;
* `AllTold`, `AllAnnounced` — how often `invoice_paid` was sent for every invoice.
-/

namespace Moves

variable {may : Policy} {t t' : Table Ledger} {out : List Signal}

/-- **Issued invoices persist**, with everything their steps keep. -/
theorem persist {Q : Ledger → Prop} {pk : ℕ} (hissued : ∀ l, Q l → l.invoice.status ≠ .draft)
    (hstep : ∀ act l l' out, may pk act l → Step pk act l l' out → Q l → Q l')
    (hm : Moves may t t' out) {l : Ledger} (hl : t.get? pk = some l) (hQ : Q l) :
    ∃ l', t'.get? pk = some l' ∧ Q l' := by
  induction hm generalizing l with
  | refl t => exact ⟨l, hl, hQ⟩
  | create _ _ => exact ⟨l, Table.get?_insert_of_some hl, hQ⟩
  | @step t q act a b out ha hs hmay =>
    by_cases hpk : pk = q
    · subst hpk
      cases ha.symm.trans hl
      exact ⟨b, Table.get?_put_self hl b, hstep _ _ _ _ hmay hs hQ⟩
    · exact ⟨l, by rw [Table.get?_put_of_ne hpk, hl], hQ⟩
  | @delete t q a ha hdraft =>
    have hpk : pk ≠ q := by
      rintro rfl
      cases ha.symm.trans hl
      exact hissued _ hQ hdraft
    exact ⟨l, by rw [Table.get?_erase, if_neg hpk, hl], hQ⟩
  | trans _ _ ih ih' =>
    obtain ⟨l', hl', hQ'⟩ := ih hl hQ
    exact ih' hl' hQ'

/-- The order and the figures of an issued invoice are final. -/
theorem issued_kept (hm : Moves may t t' out) {pk : ℕ} {l : Ledger} (hl : t.get? pk = some l)
    (hissued : l.invoice.status ≠ .draft) :
    ∃ l', t'.get? pk = some l' ∧ l'.invoice.status ≠ .draft ∧ l'.invoice.order = l.invoice.order
      ∧ l'.invoice.figures = l.invoice.figures := by
  refine hm.persist (Q := fun l' => l'.invoice.status ≠ .draft
    ∧ l'.invoice.order = l.invoice.order ∧ l'.invoice.figures = l.invoice.figures)
    (fun _ h => h.1) ?_ hl ⟨hissued, rfl, rfl⟩
  rintro act a b out _ hs ⟨hd, ho, hf⟩
  exact ⟨hs.issued hd, hs.order_eq.trans ho, (hs.figures_eq hd).trans hf⟩

/-- Where no draft is saved for an order, an order's invoice was there before. -/
theorem linked (hcreate : ∀ pk l, may pk .create l → l.invoice.order = none)
    (hm : Moves may t t' out) {pk order : ℕ} {l' : Ledger} (hl' : t'.get? pk = some l')
    (horder : l'.invoice.order = some order) :
    ∃ l, t.get? pk = some l ∧ l.invoice.order = some order := by
  induction hm generalizing l' with
  | refl t => exact ⟨l', hl', horder⟩
  | create _ hmay =>
    rw [Table.get?_insert] at hl'
    split at hl'
    · cases hl'
      rw [hcreate _ _ hmay] at horder
      cases horder
    · exact ⟨l', hl', horder⟩
  | @step t q act a b out ha hs hmay =>
    by_cases hpk : pk = q
    · subst hpk
      rw [Table.get?_put_self ha] at hl'
      cases hl'
      exact ⟨a, ha, by rw [← hs.order_eq, horder]⟩
    · rw [Table.get?_put_of_ne hpk] at hl'
      exact ⟨l', hl', horder⟩
  | delete _ _ =>
    rw [Table.get?_erase] at hl'
    split at hl'
    · cases hl'
    · exact ⟨l', hl', horder⟩
  | trans _ _ ih ih' =>
    obtain ⟨l, hl, ho⟩ := ih' hl' horder
    exact ih hl ho

/-- **An invoice announced as paid is paid**, where no money is given back. -/
theorem paid_signal (hrefund : ∀ pk l, ¬may pk .refund l) (hm : Moves may t t' out)
    (ht : t.Forall fun _ l => Sound l) {pk : ℕ} (h : .invoicePaid pk ∈ out) :
    ∃ l', t'.get? pk = some l' ∧ l'.invoice.status = .paid := by
  induction hm with
  | refl t => cases h
  | create _ _ => cases h
  | step ha hs _ =>
    obtain ⟨rfl, hpaid, _⟩ := hs.paid_signal h
    exact ⟨_, Table.get?_put_self ha _, hpaid⟩
  | delete _ _ => cases h
  | trans hm hm' ih ih' =>
    have ht' := hm.sound ht
    rcases List.mem_append.mp h with h | h
    · -- announced by the first half: the second half keeps it paid
      obtain ⟨l', hl', hpaid⟩ := ih ht h
      obtain ⟨l'', hl'', _, hpaid'⟩ := hm'.persist
        (Q := fun l => Sound l ∧ l.invoice.status = .paid)
        (fun l h => by rw [h.2]; nofun)
        (fun act a b out hmay hs hQ => ⟨hs.sound hQ.1,
          hs.stays_paid hQ.1 (by rintro rfl; exact hrefund _ _ hmay) hQ.2⟩)
        hl' ⟨ht' _ _ hl', hpaid⟩
      exact ⟨l'', hl'', hpaid'⟩
    · exact ih' ht' h

/-- **An invoice announced as cancelled is cancelled.** -/
theorem cancelled_signal (hm : Moves may t t' out) {pk : ℕ} (h : .invoiceCancelled pk ∈ out) :
    ∃ l', t'.get? pk = some l' ∧ l'.invoice.status = .cancelled := by
  induction hm with
  | refl t => cases h
  | create _ _ => cases h
  | step ha hs _ =>
    obtain ⟨rfl, hc⟩ := hs.cancelled_signal h
    exact ⟨_, Table.get?_put_self ha _, hc⟩
  | delete _ _ => cases h
  | trans _ hm' ih ih' =>
    rcases List.mem_append.mp h with h | h
    · obtain ⟨l', hl', hc⟩ := ih h
      exact hm'.persist (Q := fun l => l.invoice.status = .cancelled) (fun l h => by rw [h]; nofun)
        (fun act a b out _ hs hQ => hs.stays_cancelled hQ) hl' hc
    · exact ih' h

/-- **An open invoice stays open until it is announced**, where no money is given back. -/
theorem open_kept (hrefund : ∀ pk l, ¬may pk .refund l) (hm : Moves may t t' out)
    (ht : t.Forall fun _ l => Sound l) {pk : ℕ} {l : Ledger} (hl : t.get? pk = some l)
    (hopen : l.invoice.status ∈ openStatuses) :
    .invoicePaid pk ∈ out ∨ .invoiceCancelled pk ∈ out ∨
      ∃ l', t'.get? pk = some l' ∧ l'.invoice.status ∈ openStatuses := by
  induction hm generalizing l with
  | refl t => exact .inr (.inr ⟨l, hl, hopen⟩)
  | create _ _ => exact .inr (.inr ⟨l, Table.get?_insert_of_some hl, hopen⟩)
  | @step t q act a b out ha hs hmay =>
    by_cases hpk : pk = q
    · subst hpk
      cases ha.symm.trans hl
      rcases hs.open_kept (ht _ _ hl) (by rintro rfl; exact hrefund _ _ hmay)
        hopen with ho | hp | hc
      · exact .inr (.inr ⟨b, Table.get?_put_self hl b, ho⟩)
      · exact .inl hp
      · exact .inr (.inl hc)
    · exact .inr (.inr ⟨l, by rw [Table.get?_put_of_ne hpk, hl], hopen⟩)
  | @delete t q a ha hdraft =>
    have hpk : pk ≠ q := by
      rintro rfl
      cases ha.symm.trans hl
      exact (ne_of_open hopen).1 hdraft
    exact .inr (.inr ⟨l, by rw [Table.get?_erase, if_neg hpk, hl], hopen⟩)
  | trans hm _ ih ih' =>
    rcases ih ht hl hopen with hp | hc | ⟨l', hl', ho⟩
    · exact .inl (List.mem_append_left _ hp)
    · exact .inr (.inl (List.mem_append_left _ hc))
    · rcases ih' (hm.sound ht) hl' ho with hp | hc | hkept
      · exact .inl (List.mem_append_right _ hp)
      · exact .inr (.inl (List.mem_append_right _ hc))
      · exact .inr (.inr hkept)

end Moves

/-! ### Counting the announcements -/

/-- `n pk` can be how often `invoice_paid` was sent for each invoice `pk` of the store, and for
    those not there it was never sent. -/
structure AllTold (t : Table Ledger) (n : ℕ → ℕ) : Prop where
  told : t.Forall fun pk l => Told l (n pk)
  absent : ∀ pk, t.get? pk = none → n pk = 0

/-- Every invoice whose payments cover its total was announced. -/
def AllAnnounced (t : Table Ledger) (n : ℕ → ℕ) : Prop := t.Forall fun pk l => Announced l (n pk)

/-- The counts after some more signals. -/
def heard (n : ℕ → ℕ) (out : List Signal) : ℕ → ℕ := fun pk => n pk + out.count (.invoicePaid pk)

@[simp] theorem heard_nil (n : ℕ → ℕ) : heard n [] = n := by
  funext pk
  simp [heard]

theorem heard_append (n : ℕ → ℕ) (out out' : List Signal) :
    heard n (out ++ out') = heard (heard n out) out' := by
  funext pk
  simp [heard, List.count_append, Nat.add_assoc]

/-- A step says nothing about other invoices. -/
theorem Step.heard_of_ne {pk q : ℕ} {act : Act} {l l' : Ledger} {out : List Signal} {n : ℕ → ℕ}
    (h : Step pk act l l' out) (hq : q ≠ pk) : heard n out q = n q := by
  have hnot : .invoicePaid q ∉ out := fun hmem => hq (h.paid_signal hmem).1
  simp [heard, List.count_eq_zero.mpr hnot]

theorem AllTold.empty : AllTold {} fun _ => 0 := ⟨.empty, fun _ _ => rfl⟩

section Counting

variable {may : Policy} {t t' : Table Ledger} {out : List Signal} {n : ℕ → ℕ}

theorem AllTold.step {pk : ℕ} {act : Act} {l l' : Ledger} (h : AllTold t n)
    (ht : t.Forall fun _ l => Sound l) (hl : t.get? pk = some l) (hs : Step pk act l l' out) :
    AllTold (t.put pk l') (heard n out) := by
  constructor
  · intro q a ha
    by_cases hq : q = pk
    · subst hq
      cases (Table.get?_put_self hl l').symm.trans ha
      exact hs.told (ht _ _ hl) (h.told _ _ hl)
    · rw [Table.get?_put_of_ne hq] at ha
      show Told a (heard n out q)
      rw [hs.heard_of_ne hq]
      exact h.told q a ha
  · intro q hnone
    have hq : q ≠ pk := by
      rintro rfl
      rw [Table.get?_put_self hl] at hnone
      cases hnone
    rw [Table.get?_put_of_ne hq] at hnone
    rw [hs.heard_of_ne hq]
    exact h.absent q hnone

/-- **`invoice_paid` is sent at most once**, whatever happens. -/
theorem Moves.told (hm : Moves may t t' out) (ht : t.Forall fun _ l => Sound l)
    (h : AllTold t n) : AllTold t' (heard n out) := by
  induction hm generalizing n with
  | refl t => rw [heard_nil]; exact h
  | @create t l hborn _ =>
    rw [heard_nil]
    refine ⟨h.told.insert ?_, fun pk hnone => ?_⟩
    · rw [h.absent _ (Table.get?_nextPk t)]
      exact hborn.told.1
    · rw [Table.get?_insert] at hnone
      split at hnone
      · cases hnone
      · exact h.absent pk hnone
  | step hl hs _ => exact h.step ht hl hs
  | @delete t pk l hl hdraft =>
    rw [heard_nil]
    refine ⟨h.told.erase pk, fun q hnone => ?_⟩
    rw [Table.get?_erase] at hnone
    split at hnone
    · next hq =>
      subst hq
      exact (h.told _ l hl).unsettled (.inl (by rw [hdraft]; decide))
    · exact h.absent q hnone
  | trans hm _ ih ih' =>
    rw [heard_append]
    exact ih' (hm.sound ht) (ih ht h)

theorem AllAnnounced.step {pk : ℕ} {act : Act} {l l' : Ledger} (ha : AllAnnounced t n)
    (h : AllTold t n) (ht : t.Forall fun _ l => Sound l) (hl : t.get? pk = some l)
    (hs : Step pk act l l' out) (hlate : ¬Late l l') :
    AllAnnounced (t.put pk l') (heard n out) := by
  intro q a hget
  by_cases hq : q = pk
  · subst hq
    cases (Table.get?_put_self hl l').symm.trans hget
    exact hs.announced (ht _ _ hl) (h.told _ _ hl) (ha _ _ hl) hlate
  · rw [Table.get?_put_of_ne hq] at hget
    show Announced a (heard n out q)
    rw [hs.heard_of_ne hq]
    exact ha q a hget

/-- Only the gateway can bring late money. -/
theorem Step.not_late {pk : ℕ} {act : Act} {l l' : Ledger} (hs : Step pk act l l' out)
    (hact : act ≠ .settle) (hsound : Sound l) : ¬Late l l' := by
  rintro ⟨hrefunded, hlt, hle⟩
  have := hs.paid_mono hsound
  have hissued : l.invoice.status ≠ .draft := by rw [hrefunded]; nofun
  have htotal := hs.total_eq hissued
  have := hs.paid_le_total hsound hact hlt.le
  cases hs with
  | edit hdraft => exact hissued hdraft
  | issue hdraft => exact hissued hdraft
  | request hopen => rw [hrefunded] at hopen; exact absurd hopen (by decide)
  | fail => exact absurd hle (by simpa using hlt)
  | receive hopen => rw [hrefunded] at hopen; exact absurd hopen (by decide)
  | confirm _ _ _ hopen => rw [hrefunded] at hopen; exact absurd hopen (by decide)
  | settle => exact hact rfl
  | refund _ _ _ htype =>
    rw [book_amountPaid, hsound.book_refund_paid htype] at hle
    omega
  | cancel hstatus => rcases hstatus with h | h <;> rw [hrefunded] at h <;> cases h

/-- **Without the gateway every covered invoice stays announced.** -/
theorem Moves.announced (hsettle : ∀ pk l, ¬may pk .settle l) (hm : Moves may t t' out)
    (ht : t.Forall fun _ l => Sound l) (h : AllTold t n) (ha : AllAnnounced t n) :
    AllAnnounced t' (heard n out) := by
  induction hm generalizing n with
  | refl t => rw [heard_nil]; exact ha
  | @create t l hborn _ =>
    rw [heard_nil]
    refine ha.insert ?_
    rw [h.absent _ (Table.get?_nextPk t)]
    exact hborn.told.2
  | step hl hs hmay =>
    exact ha.step h ht hl hs
      (hs.not_late (by rintro rfl; exact hsettle _ _ hmay) (ht _ _ hl))
  | delete _ _ => rw [heard_nil]; exact ha.erase _
  | trans hm _ ih ih' =>
    rw [heard_append]
    exact ih' (hm.sound ht) (hm.told ht h) (ih ht h ha)

end Counting

end WPanel.Billing
