import WPanel.Lib.Apportion
import WPanel.Lib.Checked
import Mathlib.Tactic.FieldSimp

namespace WPanel.Billing

open WPanel.Lib

/-!
# Billing arithmetic

The functions of `billing/calculations.py`: rounding to cents, tax, discounts, and the
allocation of a document's discount and tax over its lines.

A `Decimal` is read as an exact rational.  A value that has been through `money` is kept
as its whole number of cents, an integer; `dec` reads it back as a `Decimal`.
-/

/-- A Python `Decimal`, read exactly. -/
abbrev Decimal := ℚ

/-- The decimal value of an amount in cents. -/
def dec (c : ℤ) : Decimal := c / 100

/-- What the arithmetic raises. -/
inductive CalcError where
  | valueError (message : String)
  | runtimeError (message : String)
  deriving DecidableEq, Repr

/-- `ROUND_HALF_UP` to two places. -/
def money (value : Decimal) : ℤ := roundHalfUp (value * 100)

/-- Tax on `taxableBase` at `rate` percent. -/
def taxAmount (taxableBase : ℤ) (rate : Decimal) : ℤ := money (dec taxableBase * rate / 100)

/-- How a discount is worth something: a percentage or a fixed amount. -/
inductive DiscountType where
  | percent
  | fixed
  deriving DecidableEq, Repr

/-- The discount of type `kind` worth `value` on `subtotal`, never more than the subtotal. -/
def discountAmount (kind : DiscountType) (value : Decimal) (subtotal : ℤ) : ℤ :=
  let amount := match kind with
    | .percent => money (dec subtotal * value / 100)
    | .fixed => money value
  min (max amount 0) subtotal

/-- Split `total` across `weights` proportionally, in whole cents.  The rounding difference
    is handed out one cent at a time, largest weight first. -/
def allocate (total : Decimal) (weights : List Decimal) : Except CalcError (List ℤ) :=
  let total := money total
  if weights.any (· < 0) then .error (.valueError "Weights cannot be negative.")
  else if weights = [] then
    if total ≠ 0 then .error (.valueError "Nothing to allocate to.") else .ok []
  else if total = 0 then .ok (weights.map fun _ => 0)
  else
    let weightSum := weights.sum
    if weightSum = 0 then
      .error (.valueError "Cannot allocate a non-zero amount across zero weights.")
    else
      let shares := weights.map fun w => money (dec total * w / weightSum)
      let remainder := total - shares.sum
      let step := if 0 < remainder then 1 else -1
      let order := largestFirst weights
      let may := fun idx share => decide (0 < weights.getD idx 0 ∧ (0 < step ∨ 0 ≤ share + step))
      match handOut order may step (order.length * 1000) 0 shares remainder with
      | some shares => .ok shares
      | none => .error (.runtimeError "Could not allocate the rounding difference.")

/-- One line of a document, after allocation. -/
structure LineResult where
  amount : ℤ
  discount : ℤ
  tax : ℤ
  deriving DecidableEq, Repr

def LineResult.total (line : LineResult) : ℤ := line.amount - line.discount + line.tax

/-- The figures of a document. -/
structure DocumentTotals where
  lines : List LineResult
  subtotal : ℤ
  discountTotal : ℤ
  taxTotal : ℤ
  deriving DecidableEq, Repr

def DocumentTotals.total (t : DocumentTotals) : ℤ := t.subtotal - t.discountTotal + t.taxTotal

/-- What is left of each taxable line after its discount (`0` on the others). -/
def taxBases (amounts discounts : List ℤ) (taxable : List Bool) : List ℤ :=
  (amounts.zip (discounts.zip taxable)).map fun (a, d, t) => if t then a - d else 0

/-- Spread already-decided `discountTotal` and `taxTotal` over the lines. -/
def distribute (amounts : List Decimal) (taxable : List Bool) (discountTotal taxTotal : Decimal) :
    Except CalcError DocumentTotals := do
  let amounts := amounts.map money
  let subtotal := amounts.sum
  let discountTotal := money discountTotal
  if discountTotal > subtotal then
    throw (.valueError "The discount cannot exceed the subtotal.")
  let discounts ← allocate (dec discountTotal) (amounts.map dec)
  let bases := taxBases amounts discounts taxable
  let taxes ← allocate taxTotal (bases.map dec)
  return {
    lines := (amounts.zip (discounts.zip taxes)).map fun (a, d, t) => ⟨a, d, t⟩
    subtotal, discountTotal, taxTotal := money taxTotal }

/-- Work out the tax for a document from a rate, then distribute discount and tax over its
    lines. -/
def compute (amounts : List Decimal) (taxable : List Bool) (discountTotal taxRate : Decimal) :
    Except CalcError DocumentTotals := do
  let amounts := amounts.map money
  let discountTotal := money discountTotal
  if discountTotal > amounts.sum then
    throw (.valueError "The discount cannot exceed the subtotal.")
  let discounts ← allocate (dec discountTotal) (amounts.map dec)
  let base := (taxBases amounts discounts taxable).sum
  distribute (amounts.map dec) taxable (dec discountTotal) (dec (taxAmount base taxRate))

example : allocate (dec 1000) [1, 1, 1] = .ok [334, 333, 333] := by decide +kernel
example : allocate (dec 1) [5, 10] = .ok [0, 1] := by decide +kernel

/-! ### Rounding to cents -/

/-- Whole cents are kept. -/
@[simp] theorem money_dec (c : ℤ) : money (dec c) = c := by
  rw [money, dec, div_mul_cancel₀ _ (by norm_num), roundHalfUp_intCast]

@[simp] theorem money_zero : money 0 = 0 := by simp [money]

@[simp] theorem dec_zero : dec 0 = 0 := by simp [dec]

/-- What is not negative is not rounded below zero. -/
theorem money_nonneg {v : Decimal} (hv : 0 ≤ v) : 0 ≤ money v :=
  roundHalfUp_nonneg (by positivity)

/-- The signs of cents and of their value agree. -/
theorem dec_nonneg {c : ℤ} (hc : 0 ≤ c) : 0 ≤ dec c := by
  have : (0 : ℚ) ≤ c := by exact_mod_cast hc
  exact div_nonneg this (by norm_num)

theorem dec_pos {c : ℤ} : 0 < dec c ↔ 0 < c := by
  rw [dec, div_pos_iff_of_pos_right (by norm_num)]
  exact Int.cast_pos

/-- Rounding a value that does not pass a whole amount of cents does not pass it either. -/
theorem money_le {v : Decimal} {c : ℤ} (hv : 0 ≤ v) (h : v ≤ dec c) : money v ≤ c := by
  apply roundHalfUp_le_of_le (by positivity)
  rw [dec, le_div_iff₀ (by norm_num)] at h
  exact h

/-- A sum of values is that of the cents. -/
theorem sum_map_dec (l : List ℤ) : (l.map dec).sum = dec l.sum := by
  induction l with
  | nil => simp
  | cons c l ih =>
    simp only [List.map_cons, List.sum_cons, ih, dec]
    push_cast
    ring

/-- Cents come back from their values. -/
theorem map_money_dec (l : List ℤ) : (l.map dec).map money = l := by
  simp [List.map_map, Function.comp_def]

/-- So does each by itself; past the end there is none. -/
theorem getD_map_dec (l : List ℤ) (i : ℕ) : (l.map dec).getD i 0 = dec (l.getD i 0) := by
  rw [List.getD_eq_getElem?_getD, List.getD_eq_getElem?_getD, List.getElem?_map]
  cases l[i]? <;> simp

theorem dec_nonneg_iff {c : ℤ} : 0 ≤ dec c ↔ 0 ≤ c := by
  refine ⟨fun h => ?_, dec_nonneg⟩
  by_contra hneg
  have : (c : ℚ) < 0 := by exact_mod_cast not_le.mp hneg
  rw [dec] at h
  linarith

/-- Tax is never taken off. -/
theorem taxAmount_nonneg {base : ℤ} {rate : Decimal} (hb : 0 ≤ base) (hr : 0 ≤ rate) :
    0 ≤ taxAmount base rate := by
  have := dec_nonneg hb
  exact money_nonneg (by positivity)

@[simp] theorem taxAmount_zero (rate : Decimal) : taxAmount 0 rate = 0 := by simp [taxAmount]

/-- A discount is between nothing and the subtotal. -/
theorem discountAmount_bounds (kind : DiscountType) (value : Decimal) {subtotal : ℤ}
    (h : 0 ≤ subtotal) :
    0 ≤ discountAmount kind value subtotal ∧ discountAmount kind value subtotal ≤ subtotal := by
  unfold discountAmount
  exact ⟨le_min (le_max_right _ _) h, min_le_right _ _⟩

end WPanel.Billing
