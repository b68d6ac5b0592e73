import WPanel.Renewals.Terms

namespace WPanel.Renewals

open WPanel.Lib WPanel.Billing

/-!
# Extras

`renewals/addon_orders.py`, as far as it touches the orders for extras only: an extra (an SSL
certificate, WHOIS privacy) is invoiced on the spot, and set up by a person once it is paid.

* `openOrder` — the order in progress, or done, for a kind of extra on a service;
* `applyPaidAddonOrders`, `voidAddonOrders` — what a paid or cancelled invoice does to its
  orders;
* `markDone` — staff record that a paid extra is set up.
-/

def lockAddonOrder (s : Store) (pk : ℕ) : Except Err AddonOrder :=
  match s.addonOrders.get? pk with
  | some order => .ok order
  | none => .error (.doesNotExist "AddonOrder")

theorem lockAddonOrder_eq_ok {s : Store} {pk : ℕ} {order : AddonOrder} :
    lockAddonOrder s pk = .ok order ↔ s.addonOrders.get? pk = some order := by
  unfold lockAddonOrder
  cases s.addonOrders.get? pk <;> simp

/-- The newest order for this kind of extra on this service that is not cancelled. -/
def openOrder (addons : ℕ → Option Addon) (kind : AddonKind) (service : Service) (s : Store) :
    Option (ℕ × AddonOrder) :=
  s.addonOrders.entries.reverse.find? fun entry =>
    (addons entry.2.addon).map (·.kind) = some kind ∧ entry.2.status ≠ .void
      ∧ entry.2.service = service

/-- `addon_orders.apply_paid_invoice(invoice)`. -/
def applyPaidAddonOrders (now : Moment) (invoice : ℕ) (s : Store) : Store :=
  let addonOrders := s.addonOrders.updateWhere
    (fun order => order.invoice = invoice ∧ order.status = .pending)
    fun order => { order with status := .paid, paidAt := some now }
  { s with addonOrders }

/-- `addon_orders.void_orders(invoice)`. -/
def voidAddonOrders (invoice : ℕ) (s : Store) : Store :=
  let addonOrders := s.addonOrders.updateWhere
    (fun order => order.invoice = invoice ∧ order.status = .pending)
    fun order => { order with status := .void }
  { s with addonOrders }

/-- Staff: a paid extra is set up. -/
def markDone (now : Moment) (actor : Actor) (pk : ℕ) (s : Store) : Except Err Store := do
  requirePerm actor .manageBilling
  let order ← lockAddonOrder s pk
  ensure (order.status = .paid)
    (serviceError "Only a paid order can be marked done." "invalid_status")
  let order := { order with status := .done, doneAt := some now, doneBy := some actor.pk }
  return { s with addonOrders := s.addonOrders.put pk order }

/-! ### What is still pending -/

/-- Every row of `t'` that is still pending is a row of `t`, untouched, and its invoice is not
    one of those `told`. -/
def StillPending {α : Type} (pending : α → Prop) (invoice : α → ℕ) (told : ℕ → Prop)
    (t t' : Table α) : Prop :=
  ∀ pk a, t'.get? pk = some a → pending a → t.get? pk = some a ∧ ¬told (invoice a)

/-- A change awaits its payment. -/
def ServiceChange.IsPending (change : ServiceChange) : Prop := change.status = .pending

/-- An extra awaits its payment. -/
def AddonOrder.IsPending (order : AddonOrder) : Prop := order.status = .pending

/-- What is still pending of the changes. -/
abbrev ChangesPending (told : ℕ → Prop) : Table ServiceChange → Table ServiceChange → Prop :=
  StillPending ServiceChange.IsPending ServiceChange.invoice told

/-- What is still pending of the extras. -/
abbrev AddonsPending (told : ℕ → Prop) : Table AddonOrder → Table AddonOrder → Prop :=
  StillPending AddonOrder.IsPending AddonOrder.invoice told

section StillPending

variable {α : Type} {pending : α → Prop} {invoice : α → ℕ} {told told' : ℕ → Prop}
  {t t' t'' : Table α}

theorem StillPending.refl (h : ∀ q, ¬told q) (t : Table α) :
    StillPending pending invoice told t t := by
  intro pk a ha _
  exact ⟨ha, h _⟩

/-- What was told along the way adds up. -/
theorem StillPending.trans (h : StillPending pending invoice told t t')
    (h' : StillPending pending invoice told' t' t'') :
    StillPending pending invoice (fun q => told q ∨ told' q) t t'' := by
  intro pk a ha hpending
  obtain ⟨ha', hnot'⟩ := h' pk a ha hpending
  obtain ⟨ha'', hnot⟩ := h pk a ha' hpending
  exact ⟨ha'', fun htold => htold.elim hnot hnot'⟩

theorem StillPending.mono (h : ∀ q, told' q → told q)
    (hstill : StillPending pending invoice told t t') :
    StillPending pending invoice told' t t' := by
  intro pk a ha hpending
  obtain ⟨ha', hnot⟩ := hstill pk a ha hpending
  exact ⟨ha', fun htold => hnot (h _ htold)⟩

/-- Writing a row that is pending no more, of which nothing was told. -/
theorem StillPending.put {pk : ℕ} {a b : α} (ha : t.get? pk = some a) (hb : ¬pending b) :
    StillPending pending invoice (fun _ => False) t (t.put pk b) := by
  intro q c hc hpending
  rw [Table.get?_put ha] at hc
  split at hc
  · cases hc
    exact absurd hpending hb
  · exact ⟨hc, not_false⟩

/-- Taking every pending row of one invoice out of waiting. -/
theorem StillPending.updateWhere {q : ℕ} {p : α → Bool} {f : α → α}
    (hp : ∀ a, p a = true ↔ invoice a = q ∧ pending a) (hf : ∀ a, ¬pending (f a)) :
    StillPending pending invoice (· = q) t (t.updateWhere p f) := by
  intro pk a ha hpending
  rw [Table.get?_updateWhere] at ha
  obtain ⟨b, hb, heq⟩ := Option.map_eq_some_iff.mp ha
  split at heq
  · subst heq
    exact absurd hpending (hf b)
  · next hnot =>
    subst heq
    exact ⟨hb, fun hq => hnot ((hp b).mpr ⟨hq, hpending⟩)⟩

end StillPending

section

variable {env : Env} {providers : Providers} {s s' : Store}

/-- Applying one change takes it out of waiting and touches no other. -/
theorem apply_pending {invoice : Invoice} {pk q : ℕ} {row change a : ServiceChange}
    (hrow : s.changes.get? pk = some row)
    (ha : (apply env providers invoice pk change s).1.changes.get? q = some a)
    (hpending : a.IsPending) : s.changes.get? q = some a ∧ q ≠ pk := by
  have hput : ∀ {b : ServiceChange}, (s.changes.put pk b).get? q = some a →
      b.status ≠ .pending → s.changes.get? q = some a ∧ q ≠ pk := by
    intro b hget hb
    rw [Table.get?_put hrow] at hget
    split at hget
    · cases hget
      exact absurd hpending hb
    · next hq => exact ⟨hget, hq⟩
  unfold apply at ha
  split at ha
  · next s₁ fresh happly =>
    simp only [Store.putChange, (applyToService_cases happly).1] at ha
    exact hput ha (by simp)
  · exact hput ha (by simp)

/-- **Applying changes takes each of them out of waiting.**  The induction is on the changes
    still to be applied. -/
theorem applyAll_pending {invoice : Invoice} {q pk : ℕ} {a : ServiceChange}
    (entries : List (ℕ × ServiceChange)) (hentries : ChangesOf s q entries)
    (ha : (applyAll env providers invoice entries s).1.changes.get? pk = some a)
    (hpending : a.IsPending) :
    s.changes.get? pk = some a ∧ ∀ entry ∈ entries, pk ≠ entry.1 := by
  induction entries generalizing s with
  | nil => exact ⟨ha, by simp⟩
  | cons entry entries ih =>
    obtain ⟨_, row, hrow, _⟩ := hentries _ List.mem_cons_self
    obtain ⟨_, hrest⟩ := ChangesOf.tail env providers invoice hentries
    obtain ⟨hget, hnot⟩ := ih hrest ha
    obtain ⟨hbefore, hne⟩ := apply_pending hrow hget hpending
    refine ⟨hbefore, fun e he => ?_⟩
    rcases List.mem_cons.mp he with rfl | he
    · exact hne
    · exact hnot e he

/-- A paid invoice leaves none of its changes waiting, and touches no other. -/
theorem applyPaidInvoice_pending {invoice : Invoice} {q : ℕ} :
    ChangesPending (· = q) s.changes (applyPaidInvoice env providers q invoice s).1.changes := by
  intro pk a ha hpending
  obtain ⟨hget, hnot⟩ := applyAll_pending _ (pendingChanges_changesOf s q) ha hpending
  refine ⟨hget, fun hq => hnot (pk, a) ?_ rfl⟩
  simp only [Store.pendingChanges, List.mem_filter, Table.mem_entries, decide_eq_true_eq]
  exact ⟨hget, hq, hpending⟩

theorem apply_addonOrders {invoice : Invoice} (s : Store) (pk : ℕ) (change : ServiceChange) :
    (apply env providers invoice pk change s).1.addonOrders = s.addonOrders := by
  unfold apply
  split
  · next happly => exact (applyToService_cases happly).2.1
  · rfl

theorem applyAll_addonOrders {invoice : Invoice} (entries : List (ℕ × ServiceChange)) (s : Store) :
    (applyAll env providers invoice entries s).1.addonOrders = s.addonOrders := by
  induction entries generalizing s with
  | nil => rfl
  | cons entry entries ih =>
    simp only [applyAll]
    rw [ih, apply_addonOrders]

/-- A cancelled invoice leaves none of its changes waiting. -/
theorem voidChanges_pending (q : ℕ) :
    ChangesPending (· = q) s.changes (voidChanges q s).changes := by
  refine StillPending.updateWhere (fun change => ?_) fun _ h => by cases h
  rw [decide_eq_true_eq]
  rfl

/-- A paid invoice leaves none of its extras waiting. -/
theorem applyPaidAddonOrders_pending (now : Moment) (q : ℕ) :
    AddonsPending (· = q) s.addonOrders (applyPaidAddonOrders now q s).addonOrders := by
  refine StillPending.updateWhere (fun order => ?_) fun _ h => by cases h
  rw [decide_eq_true_eq]
  rfl

/-- A cancelled invoice leaves none of its extras waiting. -/
theorem voidAddonOrders_pending (q : ℕ) :
    AddonsPending (· = q) s.addonOrders (voidAddonOrders q s).addonOrders := by
  refine StillPending.updateWhere (fun order => ?_) fun _ h => by cases h
  rw [decide_eq_true_eq]
  rfl

end

end WPanel.Renewals
