import Mathlib.Data.Nat.Notation
import Mathlib.Tactic.Ring

namespace WPanel.Lib

/-!
# Bytes

* `toBytes`, `ofBytes` — a number as that many bytes, the highest first, and back;
* `pieces` — a string of bytes cut into pieces of one size, the last of which may be shorter.
-/

abbrev Bytes := List UInt8

/-- `n.to_bytes(width, "big")`, for a number that fits. -/
def toBytes : ℕ → ℕ → Bytes
  | 0, _ => []
  | width + 1, n => toBytes width (n / 256) ++ [UInt8.ofNat n]

/-- `int.from_bytes(bytes, "big")`. -/
def ofBytes (bytes : Bytes) : ℕ := bytes.foldl (fun n b => 256 * n + b.toNat) 0

@[simp] theorem length_toBytes (width n : ℕ) : (toBytes width n).length = width := by
  induction width generalizing n with
  | zero => rfl
  | succ width ih => rw [toBytes, List.length_append, ih, List.length_singleton]

/-- A number that fits is read back. -/
theorem ofBytes_toBytes (width n : ℕ) (h : n < 256 ^ width) : ofBytes (toBytes width n) = n := by
  induction width generalizing n with
  | zero =>
    have hzero : n = 0 := by simpa using h
    rw [hzero]
    rfl
  | succ width ih =>
    have hdiv : n / 256 < 256 ^ width := by
      rw [Nat.div_lt_iff_lt_mul (by decide), ← pow_succ]
      exact h
    have hhigh : ofBytes (toBytes width (n / 256)) = n / 256 := ih _ hdiv
    unfold ofBytes at hhigh ⊢
    rw [toBytes, List.foldl_append, hhigh, List.foldl_cons, List.foldl_nil, UInt8.toNat_ofNat']
    omega

/-- Pieces of `size` bytes, of which there is at least one in each. -/
def pieces (size : ℕ) (content : Bytes) : List Bytes :=
  if content = [] ∨ size = 0 then []
  else content.take size :: pieces size (content.drop size)
termination_by content.length
decreasing_by
  rename_i h
  have hpos : 0 < content.length := List.length_pos_iff.mpr fun hnil => h (.inl hnil)
  rw [List.length_drop]
  omega

@[simp] theorem pieces_nil (size : ℕ) : pieces size [] = [] := by
  rw [pieces, if_pos (.inl rfl)]

theorem pieces_of_ne_nil {size : ℕ} {content : Bytes} (hsize : 0 < size) (h : content ≠ []) :
    pieces size content = content.take size :: pieces size (content.drop size) := by
  rw [pieces, if_neg]
  rintro (hnil | hzero)
  · exact h hnil
  · omega

/-- The pieces in their order are the whole. -/
theorem flatten_pieces {size : ℕ} (hsize : 0 < size) (content : Bytes) :
    (pieces size content).flatten = content := by
  induction content using pieces.induct size with
  | case1 content h =>
    have hnil : content = [] := h.resolve_right (by omega)
    rw [hnil, pieces_nil, List.flatten_nil]
  | case2 content h ih =>
    rw [pieces_of_ne_nil hsize fun hnil => h (.inl hnil), List.flatten_cons, ih,
      List.take_append_drop]

/-- No piece is longer than that. -/
theorem length_le_of_mem_pieces {size : ℕ} {content piece : Bytes}
    (h : piece ∈ pieces size content) : piece.length ≤ size := by
  induction content using pieces.induct size with
  | case1 content hend =>
    rw [pieces, if_pos hend] at h
    cases h
  | case2 content hend ih =>
    rw [pieces, if_neg hend] at h
    rcases List.mem_cons.mp h with rfl | hmem
    · rw [List.length_take]
      exact Nat.min_le_left _ _
    · exact ih hmem

end WPanel.Lib
