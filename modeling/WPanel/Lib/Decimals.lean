import WPanel.Lib.Rounding
import Mathlib.Algebra.Order.Round
import Mathlib.Data.Int.Log

namespace WPanel.Lib

/-!
# Decimals of so many digits

What decimal arithmetic of a fixed precision makes of an exact result: the nearest number of that
many digits.

* `roundHalfEven` — rounding to an integer, halves to the even one;
* `lastPlace` — what the last digit of a number counts;
* `toPrecision` — the exact result, rounded to that place;
* `abs_toPrecision_sub_le` — **the error is at most half of what the last digit counts**;
* `le_toPrecision` — a number of few places is not passed.
-/

/-! ### Integers -/

/-- `ROUND_HALF_EVEN` to an integer. -/
def roundHalfEven (q : ℚ) : ℤ := if Int.fract q = 1 / 2 ∧ ⌊q⌋ % 2 = 0 then ⌊q⌋ else round q

theorem abs_sub_roundHalfEven (q : ℚ) : |q - roundHalfEven q| ≤ 1 / 2 := by
  unfold roundHalfEven
  split
  · next h =>
    have hfract : q - ⌊q⌋ = 1 / 2 := h.1
    rw [hfract, abs_of_pos one_half_pos]
  · exact abs_sub_round q

@[simp] theorem roundHalfEven_zero : roundHalfEven 0 = 0 := by simp [roundHalfEven]

/-- Rounding does not pass an integer. -/
theorem le_roundHalfEven {q : ℚ} {n : ℤ} (h : (n : ℚ) ≤ q) : n ≤ roundHalfEven q := by
  have herror := (abs_le.mp (abs_sub_roundHalfEven q)).2
  have hlt : (n : ℚ) < (roundHalfEven q + 1 : ℤ) := by
    push_cast
    linarith
  exact Int.lt_add_one_iff.mp (by exact_mod_cast hlt)

/-! ### Digits -/

variable {p d : ℕ} {q v : ℚ}

/-- What the last of `p` digits of a number counts. -/
def lastPlace (p : ℕ) (q : ℚ) : ℚ := 10 ^ (Int.log 10 |q| + 1 - p)

/-- The number of `p` digits nearest to an exact one. -/
def toPrecision (p : ℕ) (q : ℚ) : ℚ := roundHalfEven (q / lastPlace p q) * lastPlace p q

theorem lastPlace_pos (p : ℕ) (q : ℚ) : 0 < lastPlace p q := zpow_pos (by norm_num) _

@[simp] theorem toPrecision_zero (p : ℕ) : toPrecision p 0 = 0 := by simp [toPrecision]

theorem toPrecision_nonneg (hq : 0 ≤ q) : 0 ≤ toPrecision p q := by
  have hround : ((0 : ℤ) : ℚ) ≤ q / lastPlace p q := by
    rw [Int.cast_zero]
    exact div_nonneg hq (lastPlace_pos p q).le
  exact mul_nonneg (by exact_mod_cast le_roundHalfEven hround) (lastPlace_pos p q).le

/-- The error is at most half of what the last digit counts. -/
theorem abs_toPrecision_sub_le (p : ℕ) (q : ℚ) : |toPrecision p q - q| ≤ lastPlace p q / 2 := by
  have hpos := lastPlace_pos p q
  have herror := mul_le_mul_of_nonneg_right (abs_sub_roundHalfEven (q / lastPlace p q)) hpos.le
  rw [← abs_of_pos hpos, ← abs_mul, abs_of_pos hpos, sub_mul, div_mul_cancel₀ _ hpos.ne',
    abs_sub_comm] at herror
  calc |toPrecision p q - q| ≤ 1 / 2 * lastPlace p q := herror
    _ = lastPlace p q / 2 := by ring

/-- The last digit counts little beside the number itself. -/
theorem lastPlace_le (hq : q ≠ 0) : lastPlace p q ≤ |q| * 10 ^ (1 - p : ℤ) := by
  have hlog : (10 : ℚ) ^ Int.log 10 |q| ≤ |q| := by
    exact_mod_cast Int.zpow_log_le_self (by norm_num) (abs_pos.mpr hq)
  rw [lastPlace, add_sub_assoc, zpow_add₀ (by norm_num)]
  exact mul_le_mul_of_nonneg_right hlog (zpow_nonneg (by norm_num) _)

/-- The error, as a part of the number. -/
theorem abs_toPrecision_sub_le_mul (p : ℕ) (q : ℚ) :
    |toPrecision p q - q| ≤ |q| * 10 ^ (1 - p : ℤ) / 2 := by
  by_cases hq : q = 0
  · simp [hq]
  · have hplace := lastPlace_le (p := p) hq
    have herror := abs_toPrecision_sub_le p q
    linarith

/-- A number of `d` places is a multiple of what the last digit counts, where there are `d` places
    left for the number itself. -/
theorem exists_mul_lastPlace (hq : 0 < q) (hfew : q < 10 ^ (p - d : ℤ)) {n : ℤ}
    (hv : v * 10 ^ d = n) : ∃ m : ℤ, v = m * lastPlace p q := by
  have hlog : Int.log 10 q < p - d := by
    have := (Int.lt_zpow_iff_log_lt (b := 10) (by norm_num) (x := p - d) hq).mp
    exact this (by exact_mod_cast hfew)
  obtain ⟨k, hk⟩ : ∃ k : ℕ, Int.log 10 q + 1 - p = -(d + k : ℕ) :=
    ⟨(p - d - Int.log 10 q - 1).toNat, by omega⟩
  refine ⟨n * 10 ^ k, ?_⟩
  rw [lastPlace, abs_of_pos hq, hk, zpow_neg, zpow_natCast, pow_add]
  push_cast
  rw [← hv]
  field_simp

/-- **Rounding does not pass a number of `d` places.** -/
theorem le_toPrecision (hq : 0 < q) (hfew : q < 10 ^ (p - d : ℤ)) {n : ℤ} (hv : v * 10 ^ d = n)
    (h : v ≤ q) : v ≤ toPrecision p q := by
  obtain ⟨m, rfl⟩ := exists_mul_lastPlace hq hfew hv
  have hpos := lastPlace_pos p q
  have hround := le_roundHalfEven ((le_div_iff₀ hpos).mpr h)
  exact mul_le_mul_of_nonneg_right (by exact_mod_cast hround) hpos.le

example : toPrecision 3 (2 / 3) = 667 / 1000 := by decide +kernel
example : toPrecision 3 1000.5 = 1000 := by decide +kernel

end WPanel.Lib
