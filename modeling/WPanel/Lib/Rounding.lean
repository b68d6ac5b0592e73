import Mathlib.Data.Rat.Floor
import Mathlib.Tactic.Linarith
import Mathlib.Tactic.Positivity

namespace WPanel.Lib

/-!
# Rounding half up

`roundHalfUp` takes a rational to the nearest integer and a tie away from zero, the
rule decimal libraries call `ROUND_HALF_UP`.  On non-negative numbers it is
`⌊q + 1/2⌋`; `lt_roundHalfUp` and `roundHalfUp_le` are the two sides of that, and the
rest of the file is what an allocation argument needs of them.
-/

/-- The nearest integer to `q`; a tie goes away from zero. -/
def roundHalfUp (q : ℚ) : ℤ := if 0 ≤ q then ⌊q + 1 / 2⌋ else -⌊-q + 1 / 2⌋

/-- Without a sign there is only one branch. -/
theorem roundHalfUp_of_nonneg {q : ℚ} (hq : 0 ≤ q) : roundHalfUp q = ⌊q + 1 / 2⌋ := if_pos hq

/-- An integer rounds to itself. -/
@[simp] theorem roundHalfUp_intCast (n : ℤ) : roundHalfUp (n : ℚ) = n := by
  have hfloor : ∀ m : ℤ, ⌊(m : ℚ) + 1 / 2⌋ = m := by
    intro m
    rw [Int.floor_eq_iff]
    constructor <;> linarith
  unfold roundHalfUp
  split
  · exact hfloor n
  · rw [show (-(n : ℚ)) = ((-n : ℤ) : ℚ) by push_cast; ring, hfloor, neg_neg]

@[simp] theorem roundHalfUp_zero : roundHalfUp 0 = 0 := by
  simpa using roundHalfUp_intCast 0

/-- Rounding moves a non-negative number down by less than one half. -/
theorem lt_roundHalfUp {q : ℚ} (hq : 0 ≤ q) : q - 1 / 2 < roundHalfUp q := by
  rw [roundHalfUp_of_nonneg hq]
  have h := Int.lt_floor_add_one (q + 1 / 2)
  linarith

/-- Rounding moves a non-negative number up by at most one half. -/
theorem roundHalfUp_le {q : ℚ} (hq : 0 ≤ q) : (roundHalfUp q : ℚ) ≤ q + 1 / 2 := by
  rw [roundHalfUp_of_nonneg hq]
  exact Int.floor_le _

theorem roundHalfUp_nonneg {q : ℚ} (hq : 0 ≤ q) : 0 ≤ roundHalfUp q := by
  rw [roundHalfUp_of_nonneg hq, Int.floor_nonneg]
  positivity

/-- A number at most `1/2` below `n` already rounds to `n` or more. -/
theorem le_roundHalfUp_of_sub_le {q : ℚ} (hq : 0 ≤ q) {n : ℤ} (h : (n : ℚ) - 1 / 2 ≤ q) :
    n ≤ roundHalfUp q := by
  rw [roundHalfUp_of_nonneg hq, Int.le_floor]
  linarith

/-- Rounding a non-negative number never passes an integer above it. -/
theorem roundHalfUp_le_of_le {q : ℚ} (hq : 0 ≤ q) {n : ℤ} (h : q ≤ n) : roundHalfUp q ≤ n := by
  have hle := roundHalfUp_le hq
  have hlt : (roundHalfUp q : ℚ) < n + 1 := by linarith
  have hint : roundHalfUp q < n + 1 := by exact_mod_cast hlt
  omega

/-- A number that reaches `n - 1/2` is what rounds to at least `n`. -/
theorem sub_le_of_le_roundHalfUp {q : ℚ} (hq : 0 ≤ q) {n : ℤ} (h : n ≤ roundHalfUp q) :
    (n : ℚ) - 1 / 2 ≤ q := by
  have hle := roundHalfUp_le hq
  have hcast : (n : ℚ) ≤ roundHalfUp q := by exact_mod_cast h
  linarith

end WPanel.Lib
