import Mathlib.Data.List.Dedup
import Mathlib.Data.List.Perm.Basic

namespace WPanel.Lib

/-!
# Messages in any order

A receiver that takes messages one after the other.  Where two messages can change places and
a repeated message changes nothing, only the set of messages matters.

* `foldl_repeat` — a message that is heard again later changes nothing;
* `foldl_dedup` — so every message may be heard once only;
* `foldl_eq_of_mem_iff` — two lists of the same messages leave the receiver in one state.
-/

universe u v

variable {σ : Type u} {α : Type v} {step : σ → α → σ} {S : α → Prop}

/-- Two messages can change places, and a message that comes twice in a row counts once. -/
structure OrderFree (step : σ → α → σ) (S : α → Prop) : Prop where
  comm : ∀ s a b, S a → S b → step (step s a) b = step (step s b) a
  idem : ∀ s a, S a → step (step s a) a = step s a

/-- A message that is heard again later changes nothing. -/
theorem foldl_repeat (h : OrderFree step S) {a : α} {l : List α} (hl : ∀ b ∈ l, S b)
    (ha : a ∈ l) (s : σ) : l.foldl step (step s a) = l.foldl step s := by
  induction l generalizing s with
  | nil => cases ha
  | cons b l ih =>
    have hb : S b := hl b List.mem_cons_self
    have hrest : ∀ c ∈ l, S c := fun c hc => hl c (List.mem_cons_of_mem _ hc)
    rw [List.foldl_cons, List.foldl_cons]
    rcases List.mem_cons.mp ha with rfl | ha
    · rw [h.idem s a hb]
    · -- the message goes past the first one
      rw [h.comm s a b (hrest a ha) hb]
      exact ih hrest ha (step s b)

/-- Every message may be heard once only. -/
theorem foldl_dedup [DecidableEq α] (h : OrderFree step S) {l : List α} (hl : ∀ b ∈ l, S b)
    (s : σ) : l.dedup.foldl step s = l.foldl step s := by
  induction l generalizing s with
  | nil => rfl
  | cons a l ih =>
    have hrest : ∀ c ∈ l, S c := fun c hc => hl c (List.mem_cons_of_mem _ hc)
    by_cases ha : a ∈ l
    · rw [List.dedup_cons_of_mem ha, ih hrest, List.foldl_cons, foldl_repeat h hrest ha]
    · rw [List.dedup_cons_of_notMem ha, List.foldl_cons, List.foldl_cons, ih hrest]

/-- **Only the set of messages matters.** -/
theorem foldl_eq_of_mem_iff (h : OrderFree step S) {l l' : List α} (hl : ∀ b ∈ l, S b)
    (hmem : ∀ b, b ∈ l ↔ b ∈ l') (s : σ) : l.foldl step s = l'.foldl step s := by
  classical
  have hl' : ∀ b ∈ l', S b := fun b hb => hl b ((hmem b).mpr hb)
  rw [← foldl_dedup h hl, ← foldl_dedup h hl']
  have hperm : l.dedup.Perm l'.dedup := by
    rw [List.perm_ext_iff_of_nodup (List.nodup_dedup l) (List.nodup_dedup l')]
    intro b
    rw [List.mem_dedup, List.mem_dedup, hmem]
  apply hperm.foldl_eq'
  intro a ha b hb t
  exact (h.comm t a b (hl a (List.mem_dedup.mp ha)) (hl b (List.mem_dedup.mp hb)))

end WPanel.Lib
