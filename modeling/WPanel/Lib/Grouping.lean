import Mathlib.Algebra.BigOperators.Group.Finset.Basic
import Mathlib.Algebra.BigOperators.Fin
import Mathlib.Algebra.Order.BigOperators.Group.Finset
import Mathlib.Algebra.Order.Ring.Int
import Mathlib.Tactic.Ring

namespace WPanel.Lib

/-!
# Sums grouped by the place they refer to

Entries of a list may refer to another place of the same list (`key`).  Grouped by the place
they refer to, the weights add up to the same sum; so if at every place the group stays
within a cap, the whole sum stays within the sum of the caps.
-/

open Finset

variable {α : Type*}

/-- A sum over a list as a sum over its places. -/
theorem sum_map_eq_sum_range (l : List α) (f : α → ℤ) :
    (l.map f).sum = ∑ i ∈ range l.length, (l[i]?.map f).getD 0 := by
  induction l with
  | nil => simp
  | cons x l ih =>
    rw [List.length_cons, Finset.sum_range_succ', List.map_cons, List.sum_cons, ih, add_comm]
    simp

/-- A sum over the entries a test picks, as a sum over all of them. -/
theorem sum_map_filter (l : List α) (p : α → Bool) (w : α → ℤ) :
    ((l.filter p).map w).sum = (l.map fun x => if p x then w x else 0).sum := by
  induction l with
  | nil => rfl
  | cons x l ih =>
    by_cases hx : p x = true
    · rw [List.filter_cons_of_pos hx, List.map_cons, List.map_cons, List.sum_cons, List.sum_cons,
        ih, if_pos hx]
    · rw [List.filter_cons_of_neg hx, List.map_cons, List.sum_cons, ih, if_neg hx, zero_add]

/-- Replacing an entry replaces its weight in the sum. -/
theorem sum_map_set (w : α → ℤ) {l : List α} {i : ℕ} {x : α} (hx : l[i]? = some x) (x' : α) :
    ((l.set i x').map w).sum = (l.map w).sum - w x + w x' := by
  induction l generalizing i with
  | nil => simp at hx
  | cons y l ih =>
    cases i with
    | zero =>
      obtain rfl : y = x := by simpa using hx
      simp only [List.set_cons_zero, List.map_cons, List.sum_cons]
      ring
    | succ i =>
      simp only [List.set_cons_succ, List.map_cons, List.sum_cons, ih (by simpa using hx)]
      ring

/-- Grouping by key keeps the sum, if every entry with a weight has its key below `n`. -/
theorem sum_groups (l : List α) (key : α → Option ℕ) (w : α → ℤ) (n : ℕ)
    (h : ∀ x ∈ l, w x ≠ 0 → ∃ j < n, key x = some j) :
    ∑ j ∈ range n, ((l.filter fun x => key x = some j).map w).sum = (l.map w).sum := by
  induction l with
  | nil => simp
  | cons x l ih =>
    have ih' := ih fun y hy => h y (List.mem_cons_of_mem _ hy)
    have hsplit : ∀ j, (((x :: l).filter fun x => key x = some j).map w).sum
        = (if key x = some j then w x else 0)
          + ((l.filter fun x => key x = some j).map w).sum := by
      intro j
      by_cases hj : key x = some j
      · rw [List.filter_cons_of_pos (by simpa using hj), if_pos hj, List.map_cons, List.sum_cons]
      · rw [List.filter_cons_of_neg (by simpa using hj), if_neg hj, zero_add]
    have hone : ∑ j ∈ range n, (if key x = some j then w x else 0) = w x := by
      by_cases hw : w x = 0
      · simp [hw]
      · obtain ⟨j, hj, hkey⟩ := h x List.mem_cons_self hw
        simp only [hkey, Option.some.injEq]
        rw [Finset.sum_ite_eq, if_pos (Finset.mem_range.mpr hj)]
    rw [Finset.sum_congr rfl fun j _ => hsplit j, Finset.sum_add_distrib, hone, ih',
      List.map_cons, List.sum_cons]

/-- **Groups within their caps.** If every entry with a weight refers to a place of the list,
    and the entries referring to a place stay within the cap of that place, then the whole
    weight stays within the sum of the caps. -/
theorem sum_le_sum_of_groups (l : List α) (key : α → Option ℕ) (w cap : α → ℤ)
    (hkey : ∀ x ∈ l, w x ≠ 0 → ∃ j < l.length, key x = some j)
    (hcap : ∀ j x, l[j]? = some x → ((l.filter fun y => key y = some j).map w).sum ≤ cap x) :
    (l.map w).sum ≤ (l.map cap).sum := by
  rw [← sum_groups l key w l.length hkey, sum_map_eq_sum_range l cap]
  refine Finset.sum_le_sum fun j hj => ?_
  have hlt := Finset.mem_range.mp hj
  rw [List.getElem?_eq_getElem hlt]
  exact hcap j _ (List.getElem?_eq_getElem hlt)

/-! ### Sums over the entries a test picks -/

/-- One entry more in a sum over the ones a test picks. -/
theorem sum_filter_middle (p : α → Bool) (w : α → ℤ) (front back : List α) (x : α) :
    (((front ++ x :: back).filter p).map w).sum
      = (((front ++ back).filter p).map w).sum + if p x then w x else 0 := by
  simp only [sum_map_filter, List.map_append, List.map_cons, List.sum_append, List.sum_cons]
  omega

/-- A sum over the ones a test picks, in two parts. -/
theorem sum_filter_add {p q r : α → Bool} (w : α → ℤ) (l : List α)
    (h : ∀ x, (if p x then w x else 0) = (if q x then w x else 0) + if r x then w x else 0) :
    ((l.filter p).map w).sum = ((l.filter q).map w).sum + ((l.filter r).map w).sum := by
  simp only [sum_map_filter]
  induction l with
  | nil => rfl
  | cons x l ih =>
    simp only [List.map_cons, List.sum_cons, h x, ih]
    omega

/-- **Grouped by their keys, the entries are those whose keys there are.** -/
theorem sum_by_key {κ : Type*} [DecidableEq κ] {keys : List κ} (hnodup : keys.Nodup)
    (key : α → κ) (w : α → ℤ) (l : List α) :
    (keys.map fun k => ((l.filter fun x => key x = k).map w).sum).sum
      = ((l.filter fun x => key x ∈ keys).map w).sum := by
  induction keys with
  | nil => simp
  | cons k keys ih =>
    obtain ⟨hk, hrest⟩ := List.nodup_cons.mp hnodup
    rw [List.map_cons, List.sum_cons, ih hrest]
    refine (sum_filter_add w l fun x => ?_).symm
    simp only [decide_eq_true_eq, List.mem_cons]
    by_cases hx : key x = k
    · rw [if_pos (.inl hx), if_pos hx, if_neg (by rwa [hx]), add_zero]
    · simp only [hx, false_or, if_false, zero_add]

end WPanel.Lib
