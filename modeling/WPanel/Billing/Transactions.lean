import WPanel.Billing.Payments
import WPanel.Lib.Grouping

namespace WPanel.Billing

open WPanel.Lib

/-!
# The transactions of one invoice

`WellKept` is what every service relies on and keeps: amounts are positive, refunds belong
to succeeded payments, and no payment is refunded beyond its amount.  From it,
`refunded_le_paid`: an invoice never gave back more than it received.

The sums read by `recompute_invoice` are followed through the three ways the list changes: a
row is added, the status of a row changes, pending rows fail.
-/

/-- What a transaction adds to the sum of its type. -/
def credit (type : TransactionType) (tx : Transaction) : ℤ :=
  if tx.status = .succeeded ∧ tx.type = type then tx.amount else 0

theorem succeededTotal_eq (type : TransactionType) (txs : List Transaction) :
    succeededTotal type txs = (txs.map (credit type)).sum := by
  unfold succeededTotal credit
  simp only [sum_map_filter, decide_eq_true_eq]

@[simp] theorem succeededTotal_nil (type : TransactionType) : succeededTotal type [] = 0 := rfl

theorem succeededTotal_append (type : TransactionType) (txs : List Transaction) (tx : Transaction) :
    succeededTotal type (txs ++ [tx]) = succeededTotal type txs + credit type tx := by
  simp [succeededTotal_eq]

/-- Replacing a row replaces what it adds. -/
theorem succeededTotal_set {type : TransactionType} {txs : List Transaction} {i : ℕ}
    {tx : Transaction} (htx : txs[i]? = some tx) (tx' : Transaction) :
    succeededTotal type (txs.set i tx')
      = succeededTotal type txs - credit type tx + credit type tx' := by
  rw [succeededTotal_eq, succeededTotal_eq, sum_map_set _ htx]

/-- Failing the pending rows changes no sum. -/
theorem succeededTotal_failPending (type : TransactionType) (reason : String)
    (txs : List Transaction) :
    succeededTotal type (txs.map (failPending reason)) = succeededTotal type txs := by
  rw [succeededTotal_eq, succeededTotal_eq, List.map_map]
  congr 1
  refine List.map_congr_left fun tx _ => ?_
  simp only [Function.comp_apply, failPending]
  by_cases h : tx.status = .pending
  · rw [if_pos h]
    simp [credit, h]
  · rw [if_neg h]

/-- A row that did not succeed adds nothing. -/
theorem credit_of_not_succeeded {type : TransactionType} {tx : Transaction}
    (h : tx.status ≠ .succeeded) : credit type tx = 0 := by
  simp [credit, h]

/-! ### Refunds of a payment -/

/-- The sum of the succeeded refunds of the payment at `index`. -/
def refundedOn (txs : List Transaction) (index : ℕ) : ℤ :=
  ((refundsOf txs index).map (·.amount)).sum

theorem refundableAmount_eq (l : Ledger) (index : ℕ) (payment : Transaction) :
    refundableAmount l index payment = payment.amount - refundedOn l.transactions index := rfl

/-- What a transaction gives back of the payment at `index`. -/
def givenBack (index : ℕ) (tx : Transaction) : ℤ :=
  if tx.parent = some index ∧ tx.status = .succeeded then tx.amount else 0

theorem refundedOn_eq (txs : List Transaction) (j : ℕ) :
    refundedOn txs j = (txs.map (givenBack j)).sum := by
  unfold refundedOn refundsOf givenBack
  simp only [sum_map_filter, decide_eq_true_eq]

theorem refundedOn_append (txs : List Transaction) (tx : Transaction) (j : ℕ) :
    refundedOn (txs ++ [tx]) j = refundedOn txs j + givenBack j tx := by
  simp [refundedOn_eq]

theorem givenBack_of_parent_ne {j : ℕ} {tx : Transaction} (h : tx.parent ≠ some j) :
    givenBack j tx = 0 := if_neg fun hc => h hc.1

/-- Rows that refund nothing may be replaced by such rows. -/
theorem refundedOn_set {txs : List Transaction} {i : ℕ} {tx tx' : Transaction}
    (htx : txs[i]? = some tx) (hp : tx.parent = none) (hp' : tx'.parent = none) (j : ℕ) :
    refundedOn (txs.set i tx') j = refundedOn txs j := by
  rw [refundedOn_eq, refundedOn_eq, sum_map_set _ htx, givenBack_of_parent_ne (by simp [hp]),
    givenBack_of_parent_ne (by simp [hp'])]
  ring

theorem refundedOn_failPending (reason : String) (txs : List Transaction) (j : ℕ) :
    refundedOn (txs.map (failPending reason)) j = refundedOn txs j := by
  rw [refundedOn_eq, refundedOn_eq, List.map_map]
  congr 1
  refine List.map_congr_left fun tx _ => ?_
  simp only [Function.comp_apply, failPending]
  by_cases h : tx.status = .pending
  · rw [if_pos h]
    simp [givenBack, h]
  · rw [if_neg h]

/-! ### Well-kept transactions -/

/-- What holds of the transactions of an invoice at all times. -/
structure WellKept (txs : List Transaction) : Prop where
  amount : ∀ tx ∈ txs, 0 < tx.amount
  /-- A payment refunds nothing. -/
  payment : ∀ tx ∈ txs, tx.type = .payment → tx.parent = none
  /-- A refund has succeeded, and gives back a succeeded payment of the same invoice. -/
  refund : ∀ tx ∈ txs, tx.type = .refund → tx.status = .succeeded ∧
    ∃ j payment, tx.parent = some j ∧ txs[j]? = some payment ∧ payment.type = .payment
      ∧ payment.status = .succeeded
  /-- No payment is refunded beyond its amount. -/
  bound : ∀ j payment, txs[j]? = some payment → refundedOn txs j ≤ payment.amount

namespace WellKept

variable {txs : List Transaction}

theorem nil : WellKept [] := ⟨by simp, by simp, by simp, by simp⟩

/-- A place of the list keeps its row when a row is added. -/
private theorem getElem?_append_of_some {i : ℕ} {tx : Transaction} (h : txs[i]? = some tx)
    (new : Transaction) : (txs ++ [new])[i]? = some tx := by
  obtain ⟨hlt, _⟩ := List.getElem?_eq_some_iff.mp h
  rw [List.getElem?_append_left hlt, h]

/-- The row at a place of a longer list is the new one or an old one. -/
private theorem of_getElem?_append {i : ℕ} {tx new : Transaction}
    (h : (txs ++ [new])[i]? = some tx) : (i = txs.length ∧ tx = new) ∨ txs[i]? = some tx := by
  rcases Nat.lt_or_ge i txs.length with hlt | hge
  · rw [List.getElem?_append_left hlt] at h
    exact .inr h
  · rw [List.getElem?_append_right hge] at h
    obtain ⟨hi, hval⟩ := List.getElem?_eq_some_iff.mp h
    simp only [List.length_singleton] at hi
    refine .inl ⟨by omega, ?_⟩
    rw [← hval]
    simp [show i - txs.length = 0 by omega]

/-- A row that gives something back is a refund. -/
theorem type_of_parent (h : WellKept txs) {tx : Transaction} (htx : tx ∈ txs) {j : ℕ}
    (hparent : tx.parent = some j) : tx.type = .refund := by
  cases ht : tx.type with
  | refund => rfl
  | payment =>
    rw [h.payment tx htx ht] at hparent
    cases hparent

/-- Nothing refunds a place that is not there yet. -/
theorem refundedOn_length (h : WellKept txs) : refundedOn txs txs.length = 0 := by
  have hnil : refundsOf txs txs.length = [] := by
    unfold refundsOf
    rw [List.filter_eq_nil_iff]
    intro tx htx
    simp only [decide_eq_true_eq, not_and]
    intro hparent
    obtain ⟨_, j, payment, hj, hget, _⟩ := h.refund tx htx (h.type_of_parent htx hparent)
    rw [hparent] at hj
    cases hj
    simp at hget
  simp [refundedOn, hnil]

/-- A row is added: a payment that refunds nothing, or a refund of a payment that is there. -/
private theorem append_row (h : WellKept txs) {tx : Transaction} (hamount : 0 < tx.amount)
    (hpayment : tx.type = .payment → tx.parent = none)
    (hrefund : tx.type = .refund → tx.status = .succeeded ∧ ∃ j payment, tx.parent = some j
      ∧ txs[j]? = some payment ∧ payment.type = .payment ∧ payment.status = .succeeded)
    (hbound : ∀ j payment, (txs ++ [tx])[j]? = some payment →
      refundedOn (txs ++ [tx]) j ≤ payment.amount) : WellKept (txs ++ [tx]) := by
  refine ⟨fun y hy => ?_, fun y hy => ?_, fun y hy htype => ?_, hbound⟩
  · rcases List.mem_append.mp hy with hy | hy
    · exact h.amount y hy
    · rwa [List.mem_singleton.mp hy]
  · rcases List.mem_append.mp hy with hy | hy
    · exact h.payment y hy
    · rwa [List.mem_singleton.mp hy]
  · rcases List.mem_append.mp hy with hy | hy
    · obtain ⟨hs, j, payment, hj, hget, hp⟩ := h.refund y hy htype
      exact ⟨hs, j, payment, hj, getElem?_append_of_some hget tx, hp⟩
    · cases List.mem_singleton.mp hy
      obtain ⟨hs, j, payment, hj, hget, hp⟩ := hrefund htype
      exact ⟨hs, j, payment, hj, getElem?_append_of_some hget tx, hp⟩

/-- A payment is added. -/
theorem append_payment (h : WellKept txs) {tx : Transaction} (htype : tx.type = .payment)
    (hparent : tx.parent = none) (hamount : 0 < tx.amount) : WellKept (txs ++ [tx]) := by
  have hsame : ∀ j, refundedOn (txs ++ [tx]) j = refundedOn txs j := by
    intro j
    rw [refundedOn_append, givenBack_of_parent_ne (by simp [hparent]), add_zero]
  refine h.append_row hamount (fun _ => hparent) (fun hrefund => ?_) fun j payment hget => ?_
  · cases htype.symm.trans hrefund
  · rw [hsame]
    rcases of_getElem?_append hget with ⟨rfl, rfl⟩ | hget
    · rw [h.refundedOn_length]; exact hamount.le
    · exact h.bound j payment hget

/-- A refund within what is left of its payment is added. -/
theorem append_refund (h : WellKept txs) {tx payment : Transaction} {i : ℕ}
    (htx : txs[i]? = some payment) (hpayment : payment.type = .payment)
    (hsucceeded : payment.status = .succeeded) (htype : tx.type = .refund)
    (hstatus : tx.status = .succeeded) (hparent : tx.parent = some i) (hamount : 0 < tx.amount)
    (havailable : refundedOn txs i + tx.amount ≤ payment.amount) : WellKept (txs ++ [tx]) := by
  have hlt : i < txs.length := (List.getElem?_eq_some_iff.mp htx).1
  refine h.append_row hamount (fun hpay => ?_)
    (fun _ => ⟨hstatus, i, payment, hparent, htx, hpayment, hsucceeded⟩) fun j p hget => ?_
  · cases htype.symm.trans hpay
  · rw [refundedOn_append]
    rcases of_getElem?_append hget with ⟨rfl, rfl⟩ | hget
    · rw [h.refundedOn_length, givenBack_of_parent_ne (by simp [hparent]; omega)]
      simpa using hamount.le
    · by_cases hij : i = j
      · subst hij
        obtain rfl : payment = p := Option.some.inj (htx.symm.trans hget)
        rw [givenBack, if_pos ⟨hparent, hstatus⟩]
        exact havailable
      · rw [givenBack_of_parent_ne (by simp [hparent, hij]), add_zero]
        exact h.bound j p hget

/-- The status of a payment changes, unless it has succeeded already. -/
theorem set_payment (h : WellKept txs) {tx tx' : Transaction} {i : ℕ} (htx : txs[i]? = some tx)
    (htype : tx.type = .payment) (hstatus : tx.status ≠ .succeeded) (htype' : tx'.type = .payment)
    (hparent' : tx'.parent = none) (hamount' : tx'.amount = tx.amount) :
    WellKept (txs.set i tx') := by
  obtain ⟨hlt, hval⟩ := List.getElem?_eq_some_iff.mp htx
  have hmem : tx ∈ txs := hval ▸ List.getElem_mem hlt
  have hsame := refundedOn_set htx (h.payment tx hmem htype) hparent'
  have hget : ∀ j p, (txs.set i tx')[j]? = some p → (j = i ∧ p = tx')
    ∨ (j ≠ i ∧ txs[j]? = some p) := by
    intro j p hj
    rw [List.getElem?_set] at hj
    by_cases hij : i = j
    · subst hij
      rw [if_pos rfl, if_pos hlt] at hj
      exact .inl ⟨rfl, (Option.some.inj hj).symm⟩
    · rw [if_neg hij] at hj
      exact .inr ⟨Ne.symm hij, hj⟩
  have hmem' : ∀ y ∈ txs.set i tx', y = tx' ∨ y ∈ txs := fun y hy => by
    rcases List.mem_or_eq_of_mem_set hy with hy | hy
    · exact .inr hy
    · exact .inl hy
  refine ⟨?_, ?_, ?_, ?_⟩
  · intro y hy
    rcases hmem' y hy with rfl | hy
    · rw [hamount']; exact h.amount tx hmem
    · exact h.amount y hy
  · intro y hy hyt
    rcases hmem' y hy with rfl | hy
    · exact hparent'
    · exact h.payment y hy hyt
  · intro y hy hyt
    rcases hmem' y hy with rfl | hy
    · rw [htype'] at hyt; cases hyt
    · obtain ⟨hs, j, p, hj, hp, hpt, hps⟩ := h.refund y hy hyt
      have hji : i ≠ j := by
        rintro rfl
        rw [htx] at hp
        cases hp
        exact hstatus hps
      exact ⟨hs, j, p, hj, by rw [List.getElem?_set, if_neg hji, hp], hpt, hps⟩
  · intro j p hj
    rw [hsame]
    rcases hget j p hj with ⟨rfl, rfl⟩ | ⟨_, hj⟩
    · rw [hamount']; exact h.bound _ tx htx
    · exact h.bound j p hj

/-- The pending rows fail. -/
theorem map_failPending (h : WellKept txs) (reason : String) :
    WellKept (txs.map (failPending reason)) := by
  have hfields : ∀ tx : Transaction, (failPending reason tx).amount = tx.amount
      ∧ (failPending reason tx).type = tx.type ∧ (failPending reason tx).parent = tx.parent
      ∧ (tx.status = .succeeded → (failPending reason tx).status = .succeeded) := by
    intro tx
    unfold failPending
    split
    · rename_i hpending
      exact ⟨rfl, rfl, rfl, fun hs => by rw [hpending] at hs; cases hs⟩
    · exact ⟨rfl, rfl, rfl, id⟩
  refine ⟨?_, ?_, ?_, ?_⟩
  · intro y hy
    obtain ⟨tx, htx, rfl⟩ := List.mem_map.mp hy
    rw [(hfields tx).1]
    exact h.amount tx htx
  · intro y hy hyt
    obtain ⟨tx, htx, rfl⟩ := List.mem_map.mp hy
    rw [(hfields tx).2.2.1]
    exact h.payment tx htx ((hfields tx).2.1 ▸ hyt)
  · intro y hy hyt
    obtain ⟨tx, htx, rfl⟩ := List.mem_map.mp hy
    obtain ⟨hs, j, p, hj, hp, hpt, hps⟩ := h.refund tx htx ((hfields tx).2.1 ▸ hyt)
    refine ⟨(hfields tx).2.2.2 hs, j, failPending reason p, ?_, ?_, ?_, ?_⟩
    · rw [(hfields tx).2.2.1, hj]
    · rw [List.getElem?_map, hp]; rfl
    · rw [(hfields p).2.1, hpt]
    · exact (hfields p).2.2.2 hps
  · intro j p hj
    rw [List.getElem?_map, Option.map_eq_some_iff] at hj
    obtain ⟨q, hq, rfl⟩ := hj
    rw [refundedOn_failPending, (hfields q).1]
    exact h.bound j q hq

/-- **Never more back than in.** The succeeded refunds stay within the succeeded payments. -/
theorem refunded_le_paid (h : WellKept txs) :
    succeededTotal .refund txs ≤ succeededTotal .payment txs := by
  rw [succeededTotal_eq, succeededTotal_eq]
  have hrefund : ∀ tx ∈ txs, credit .refund tx ≠ 0 → tx.type = .refund := by
    intro tx _ hne
    by_contra ht
    exact hne (if_neg fun hc => ht hc.2)
  refine sum_le_sum_of_groups txs (·.parent) _ _ ?_ ?_
  · intro tx htx hne
    obtain ⟨_, j, p, hj, hp, _⟩ := h.refund tx htx (hrefund tx htx hne)
    exact ⟨j, (List.getElem?_eq_some_iff.mp hp).1, hj⟩
  · intro j payment hget
    have hgroup : ((txs.filter fun tx => tx.parent = some j).map (credit .refund)).sum
        = refundedOn txs j := by
      rw [sum_map_filter, refundedOn_eq]
      congr 1
      refine List.map_congr_left fun tx htx => ?_
      by_cases hparent : tx.parent = some j
      · simp [credit, givenBack, hparent, h.type_of_parent htx hparent]
      · simp [givenBack, hparent]
    rw [hgroup]
    by_cases hp : payment.status = .succeeded ∧ payment.type = .payment
    · rw [credit, if_pos hp]
      exact h.bound j payment hget
    · -- nothing gives back what is not a succeeded payment
      rw [credit, if_neg hp, refundedOn_eq]
      refine (List.sum_eq_zero fun v hv => ?_).le
      obtain ⟨tx, htx, rfl⟩ := List.mem_map.mp hv
      refine givenBack_of_parent_ne fun hparent => ?_
      obtain ⟨_, k, p, hk, hget', hpt, hps⟩ := h.refund tx htx (h.type_of_parent htx hparent)
      rw [hparent] at hk
      cases hk
      obtain rfl : payment = p := Option.some.inj (hget.symm.trans hget')
      exact hp ⟨hps, hpt⟩

end WellKept

end WPanel.Billing
