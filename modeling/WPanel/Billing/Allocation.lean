import WPanel.Billing.Calculations
import Mathlib.Algebra.BigOperators.Ring.List

namespace WPanel.Billing

open WPanel.Lib

/-!
# Allocation never invents or loses a cent

`allocate_spec`: for a total that is not negative and weights that are not negative (and
not all zero, unless there is nothing to share), `allocate` returns an `IsSplit` of the
total: as many shares as weights, adding up to exactly the total, none negative, nothing
for a zero weight, and no share above its own weight when the weights are whole amounts
that together cover the total.  `allocate_onePass`: the correction behind it ends within one
pass over the lines.

`compute_spec` carries this through `distribute` and `compute` to a whole document.
-/

/-- `shares` is a fair split of `total` across `weights`. -/
structure IsSplit (total : ℤ) (weights : List Decimal) (shares : List ℤ) : Prop where
  length : shares.length = weights.length
  sum : shares.sum = total
  nonneg : ∀ s ∈ shares, 0 ≤ s
  zero : ∀ i, weights.getD i 0 = 0 → shares.getD i 0 = 0
  cap : ∀ caps : List ℤ, weights = caps.map dec → total ≤ caps.sum →
    ∀ i, shares.getD i 0 ≤ caps.getD i 0

/-- Nothing is split into nothing. -/
theorem IsSplit.eq_zeros {total : ℤ} {weights : List Decimal} {shares : List ℤ}
    (h : IsSplit total weights shares) (h0 : total = 0) :
    shares = List.replicate weights.length 0 := by
  refine List.eq_replicate_iff.mpr ⟨h.length, fun s hs => ?_⟩
  have hle := List.single_le_sum h.nonneg s hs
  rw [h.sum, h0] at hle
  exact le_antisymm hle (h.nonneg s hs)

/-! ### The rounded shares before the correction -/

section Shares

variable (total : ℤ) (weights : List Decimal)

/-- The exact share of the weight at position `i`, in cents. -/
def exactShare (i : ℕ) : ℚ := total * weights.getD i 0 / weights.sum

/-- The shares `allocate` starts from: every exact share rounded on its own. -/
def roundedShares : List ℤ := weights.map fun w => money (dec total * w / weights.sum)

@[simp] theorem length_roundedShares : (roundedShares total weights).length = weights.length := by
  simp [roundedShares]

theorem money_share (w : Decimal) :
    money (dec total * w / weights.sum) = roundHalfUp (total * w / weights.sum) := by
  rw [money, dec]
  congr 1
  ring

theorem getD_roundedShares (i : ℕ) :
    (roundedShares total weights).getD i 0 = roundHalfUp (exactShare total weights i) := by
  unfold roundedShares exactShare
  rw [List.getD_eq_getElem?_getD, List.getD_eq_getElem?_getD, List.getElem?_map]
  cases h : weights[i]? with
  | none => simp
  | some w => simp [money_share]

theorem sum_roundedShares :
    (roundedShares total weights).sum
      = ((largestFirst weights).map fun i => roundHalfUp (exactShare total weights i)).sum := by
  unfold roundedShares exactShare
  rw [sum_map_largestFirst weights (fun w => roundHalfUp (total * w / weights.sum))]
  congr 1
  exact List.map_congr_left fun w _ => money_share total weights w

variable {total weights}

theorem getD_nonneg (hw : ∀ w ∈ weights, 0 ≤ w) (i : ℕ) : 0 ≤ weights.getD i 0 := by
  rw [List.getD_eq_getElem?_getD]
  cases h : weights[i]? with
  | none => simp
  | some w => simpa using hw w (List.mem_of_getElem? h)

theorem exactShare_nonneg (ht : 0 ≤ total) (hw : ∀ w ∈ weights, 0 ≤ w) (i : ℕ) :
    0 ≤ exactShare total weights i := by
  have hi := getD_nonneg hw i
  have hsum : 0 ≤ weights.sum := List.sum_nonneg hw
  have htq : (0 : ℚ) ≤ total := by exact_mod_cast ht
  exact div_nonneg (mul_nonneg htq hi) hsum

/-- The exact shares add up to the total. -/
theorem sum_exactShare (hsum : weights.sum ≠ 0) :
    ((largestFirst weights).map (exactShare total weights)).sum = total := by
  have h := sum_map_largestFirst weights (fun w => (total : ℚ) * w / weights.sum)
  have hpull : (weights.map (fun w => (total : ℚ) * w / weights.sum)).sum
      = total / weights.sum * weights.sum := by
    simp only [mul_div_right_comm]
    rw [List.sum_map_mul_left, List.map_id']
  calc ((largestFirst weights).map (exactShare total weights)).sum
      = total / weights.sum * weights.sum := h.trans hpull
    _ = total := div_mul_cancel₀ _ hsum

/-- Only a positive weight has a share. -/
theorem weight_pos_of_exactShare_ne (hw : ∀ w ∈ weights, 0 ≤ w) {i : ℕ}
    (h : exactShare total weights i ≠ 0) : 0 < weights.getD i 0 := by
  refine lt_of_le_of_ne (getD_nonneg hw i) fun h0 => h ?_
  rw [exactShare, ← h0, mul_zero, zero_div]

end Shares

/-! ### The correction -/

section Correction

variable {total : ℤ} {weights : List Decimal}

/-- Raising or lowering the chosen positions of the rounded shares is a split, given that
    every chosen position has a positive weight, can be lowered, and is strictly below its
    whole weight when it is raised. -/
theorem isSplit_bump (ht : 0 ≤ total) (hw : ∀ w ∈ weights, 0 ≤ w) (hsum : 0 < weights.sum)
    {step : ℤ} (hstep : step = 1 ∨ step = -1) {chosen : List ℕ} (hnd : chosen.Nodup)
    (hlt : ∀ i ∈ chosen, i < weights.length) (hpos : ∀ i ∈ chosen, 0 < weights.getD i 0)
    (hlow : step = -1 → ∀ i ∈ chosen, 1 ≤ roundHalfUp (exactShare total weights i))
    (htotal : (roundedShares total weights).sum + step * chosen.length = total)
    (hcap : step = 1 → ∀ caps : List ℤ, weights = caps.map dec → total ≤ caps.sum →
      ∀ i ∈ chosen, roundHalfUp (exactShare total weights i) < caps.getD i 0) :
    IsSplit total weights (bump step (roundedShares total weights) chosen) := by
  have hget : ∀ i, (bump step (roundedShares total weights) chosen).getD i 0
      = roundHalfUp (exactShare total weights i) + if i ∈ chosen then step else 0 := fun i => by
    rw [getD_bump _ _ _ hnd (by simpa using hlt), getD_roundedShares]
  have hround : ∀ i, 0 ≤ roundHalfUp (exactShare total weights i) :=
    fun i => roundHalfUp_nonneg (exactShare_nonneg ht hw i)
  refine ⟨by simp, ?_, ?_, ?_, ?_⟩
  · rw [sum_bump _ _ _ (by simpa using hlt), htotal]
  · intro s hs
    obtain ⟨i, hi, rfl⟩ := List.getElem_of_mem hs
    have hgi := hget i
    rw [List.getD_eq_getElem?_getD, List.getElem?_eq_getElem hi] at hgi
    simp only [Option.getD_some] at hgi
    rw [hgi]
    have h0 := hround i
    split
    · rename_i hmem
      rcases hstep with rfl | rfl
      · omega
      · have := hlow rfl i hmem
        omega
    · omega
  · intro i hi
    have hnot : i ∉ chosen := fun hmem => absurd (hpos i hmem) (by rw [hi]; exact lt_irrefl _)
    rw [hget, if_neg hnot, exactShare, hi]
    simp
  · intro caps hcaps hle i
    have hcapi : weights.getD i 0 = dec (caps.getD i 0) := by rw [hcaps, getD_map_dec]
    have hcapsum : weights.sum = dec caps.sum := by rw [hcaps, sum_map_dec]
    -- the exact share is within its cap, and so is its rounding
    have hexact : exactShare total weights i ≤ caps.getD i 0 := by
      have hcap0 : (0 : ℚ) ≤ caps.getD i 0 := by
        exact_mod_cast dec_nonneg_iff.mp (hcapi ▸ getD_nonneg hw i)
      have hS : (0 : ℚ) < caps.sum := by
        have := hsum
        rw [hcapsum, dec_pos] at this
        exact_mod_cast this
      have htq : (total : ℚ) ≤ caps.sum := by exact_mod_cast hle
      rw [exactShare, hcapi, hcapsum, dec, dec, mul_div_assoc,
        div_div_div_cancel_right₀ (by norm_num),
        ← mul_div_assoc, div_le_iff₀ hS, mul_comm]
      exact mul_le_mul_of_nonneg_left htq hcap0
    have hbase : roundHalfUp (exactShare total weights i) ≤ caps.getD i 0 :=
      roundHalfUp_le_of_le (exactShare_nonneg ht hw i) hexact
    rw [hget]
    split
    · rename_i hmem
      rcases hstep with rfl | rfl
      · have := hcap rfl caps hcaps hle i hmem
        omega
      · omega
    · omega

/-- Raised positions were strictly below their whole weight. -/
theorem raised_lt_cap (ht : 0 ≤ total) (hw : ∀ w ∈ weights, 0 ≤ w) (hsum : 0 < weights.sum)
    {caps : List ℤ} (hcaps : weights = caps.map dec) (hle : total ≤ caps.sum)
    {may : ℕ → Bool} (hmay : ∀ i, 0 < weights.getD i 0 → may i = true) {k : ℕ}
    (hk : total - (roundedShares total weights).sum = k) :
    ∀ i ∈ ((largestFirst weights).filter may).take k,
      roundHalfUp (exactShare total weights i) < caps.getD i 0 := by
  have hcapi : ∀ i, weights.getD i 0 = dec (caps.getD i 0) := fun i => by
    rw [hcaps, getD_map_dec]
  have hcap0 : ∀ i, 0 ≤ caps.getD i 0 := fun i => dec_nonneg_iff.mp (hcapi i ▸ getD_nonneg hw i)
  have hcapsum : weights.sum = dec caps.sum := by rw [hcaps, sum_map_dec]
  have hS : (0 : ℚ) < caps.sum := by
    have h := hsum
    rw [hcapsum, dec_pos] at h
    exact_mod_cast h
  have htq : (total : ℚ) ≤ caps.sum := by exact_mod_cast hle
  have ht0 : (0 : ℚ) ≤ total := by exact_mod_cast ht
  intro i hi
  refine lt_of_mem_take_largest (largestFirst weights) (exactShare total weights)
    (u := fun j => caps.getD j 0) (c := total / caps.sum) (div_nonneg ht0 hS.le)
    ((div_le_one hS).mpr htq) (fun j _ => hcap0 j) ?_ ?_ (fun j _ hj => ?_) ?_ hi
  · intro j _
    rw [exactShare, hcapi, hcapsum, dec, dec]
    field_simp
  · refine (largestFirst_pairwise weights).imp fun {a b} hab => ?_
    rw [hcapi, hcapi, dec, dec] at hab
    have : (caps.getD b 0 : ℚ) ≤ caps.getD a 0 := by linarith
    exact_mod_cast this
  · exact hmay j (by rw [hcapi, dec_pos]; exact hj)
  · rw [sum_exactShare hsum.ne', ← sum_roundedShares]
    exact_mod_cast hk

/-- The correction of `allocate`, given up once `visits` lines have been visited. -/
def correction (visits : ℕ) (total : ℤ) (weights : List Decimal) : Option (List ℤ) :=
  let remainder := total - (roundedShares total weights).sum
  let step := if 0 < remainder then 1 else -1
  handOut (largestFirst weights)
    (fun idx share => decide (0 < weights.getD idx 0 ∧ (0 < step ∨ 0 ≤ share + step))) step visits 0
    (roundedShares total weights) remainder

/-- **The walk ends.**  From the rounded shares, within its first pass, it reaches a split. -/
theorem correction_pass (ht : 0 ≤ total) (hw : ∀ w ∈ weights, 0 ≤ w)
    (hsum : 0 < weights.sum) : ∃ shares, correction weights.length total weights = some shares
      ∧ IsSplit total weights shares := by
  let remainder := total - (roundedShares total weights).sum
  let step : ℤ := if 0 < remainder then 1 else -1
  show ∃ shares, handOut (largestFirst weights)
      (fun idx share => decide (0 < weights.getD idx 0 ∧ (0 < step ∨ 0 ≤ share + step))) step
      weights.length 0 (roundedShares total weights) remainder = some shares
    ∧ IsSplit total weights shares
  set order := largestFirst weights with horder
  set may : ℕ → ℤ → Bool :=
    fun idx share => decide (0 < weights.getD idx 0 ∧ (0 < step ∨ 0 ≤ share + step)) with hmay
  have hexact : ∀ i, 0 ≤ exactShare total weights i := exactShare_nonneg ht hw
  have hexactsum : (order.map (exactShare total weights)).sum = total := sum_exactShare hsum.ne'
  have hroundsum := sum_roundedShares total weights
  -- the places the walk can use, and the units it has to move
  set eligible := order.filter (fun j => may j ((roundedShares total weights).getD j 0)) with helig
  have hstep : step = 1 ∨ step = -1 := by
    simp only [step]
    split <;> simp
  have hkey : remainder = step * (remainder.natAbs : ℤ) := by
    simp only [step]
    split <;> omega
  have hcount : remainder.natAbs ≤ eligible.length := by
    rw [helig, ← List.countP_eq_length_filter]
    by_cases hr : 0 < remainder
    · have hone : step = 1 := if_pos hr
      have hq := remainder_le_countP order (exactShare total weights) (fun i _ => hexact i)
      rw [hexactsum, ← hroundsum] at hq
      have hz : remainder ≤ order.countP (fun i => decide (0 < exactShare total weights i)) := by
        exact_mod_cast hq
      have hcnt : remainder.natAbs
          ≤ order.countP (fun i => decide (0 < exactShare total weights i)) := by omega
      refine hcnt.trans (List.countP_mono_left fun i _ hi => ?_)
      have hwi := weight_pos_of_exactShare_ne hw (of_decide_eq_true hi).ne'
      simp only [hmay, hone]
      exact decide_eq_true ⟨hwi, .inl Int.one_pos⟩
    · have hneg : step = -1 := if_neg hr
      have hq := neg_remainder_le_countP order (exactShare total weights) (fun i _ => hexact i)
      rw [hexactsum, ← hroundsum] at hq
      have hz : -remainder
          ≤ order.countP (fun i => decide (1 ≤ roundHalfUp (exactShare total weights i))) := by
        have : (roundedShares total weights).sum - total
          ≤ order.countP (fun i => decide (1 ≤ roundHalfUp (exactShare total weights i))) := by
          exact_mod_cast hq
        omega
      have hcnt : remainder.natAbs
          ≤ order.countP (fun i => decide (1 ≤ roundHalfUp (exactShare total weights i))) := by
        omega
      refine hcnt.trans (List.countP_mono_left fun i _ hi => ?_)
      have hone : 1 ≤ roundHalfUp (exactShare total weights i) := of_decide_eq_true hi
      have hne : exactShare total weights i ≠ 0 := fun h => by
        rw [h, roundHalfUp_zero] at hone
        omega
      have hwi := weight_pos_of_exactShare_ne hw hne
      simp only [hmay, hneg, getD_roundedShares]
      exact decide_eq_true ⟨hwi, .inr (by omega)⟩
  have hrun := handOut_pass order may step (by rcases hstep with h | h <;> rw [h] <;> decide)
    (largestFirst_nodup weights) order weights.length 0 (roundedShares total weights)
    remainder.natAbs rfl (length_largestFirst weights).le hcount
  rw [← hkey] at hrun
  refine ⟨_, hrun, ?_⟩
  have hchosen : ∀ i ∈ eligible.take remainder.natAbs,
      i < weights.length ∧ may i ((roundedShares total weights).getD i 0) = true := by
    intro i hi
    obtain ⟨hmem, hok⟩ := List.mem_filter.mp (List.mem_of_mem_take hi)
    exact ⟨mem_largestFirst.mp hmem, hok⟩
  refine isSplit_bump ht hw hsum hstep ?_ (fun i hi => (hchosen i hi).1) ?_ ?_ ?_ ?_
  · exact ((largestFirst_nodup weights).filter _).sublist (List.take_sublist _ _)
  · intro i hi
    exact (of_decide_eq_true (hchosen i hi).2).1
  · intro hneg i hi
    obtain ⟨_, h | h⟩ := of_decide_eq_true (hchosen i hi).2
    · omega
    · rw [getD_roundedShares] at h
      omega
  · rw [List.length_take, Nat.min_eq_left hcount, ← hkey]
    omega
  · intro hone caps hcaps hle
    have hr : 0 < remainder := by
      by_contra h
      have : step = -1 := if_neg h
      omega
    refine raised_lt_cap ht hw hsum hcaps hle (fun i hi => ?_) (by omega)
    simp only [hmay, hone]
    exact decide_eq_true ⟨hi, .inl Int.one_pos⟩

/-- What is reached within a pass is reached within the guard. -/
theorem correction_guard {shares : List ℤ}
    (h : correction weights.length total weights = some shares) :
    correction ((largestFirst weights).length * 1000) total weights = some shares :=
  handOut_mono (by rw [length_largestFirst]; omega) h

end Correction

/-! ### `allocate` -/

/-- What `allocate` returns is what the correction reaches. -/
theorem allocate_of_correction {total : Decimal} {weights : List Decimal} {shares : List ℤ}
    (hw : ∀ w ∈ weights, 0 ≤ w) (hsum : 0 < weights.sum) (h0 : money total ≠ 0)
    (h : correction ((largestFirst weights).length * 1000) (money total) weights = some shares) :
    allocate total weights = .ok shares := by
  have hany : ¬weights.any (· < 0) = true := by
    rw [List.any_eq_true]
    rintro ⟨w, hmem, hneg⟩
    exact absurd (hw w hmem) (not_le.mpr (of_decide_eq_true hneg))
  have hnil : weights ≠ [] := by
    rintro rfl
    exact lt_irrefl _ hsum
  have hfold : (weights.map fun w => money (dec (money total) * w / weights.sum))
      = roundedShares (money total) weights := rfl
  unfold correction at h
  rw [allocate, if_neg hany, if_neg hnil, if_neg h0]
  simp only [hsum.ne', if_false, hfold, h]

/-- **Allocation is exact.**  Every total that is not negative is split, without the guard
    of the correction ever being reached. -/
theorem allocate_spec (total : Decimal) (weights : List Decimal) (ht : 0 ≤ money total)
    (hw : ∀ w ∈ weights, 0 ≤ w) (hsum : money total = 0 ∨ 0 < weights.sum) :
    ∃ shares, allocate total weights = .ok shares ∧ IsSplit (money total) weights shares := by
  have hany : weights.any (· < 0) = false := by
    rw [List.any_eq_false]
    intro w hmem
    simpa using hw w hmem
  by_cases hnil : weights = []
  · have h0 : money total = 0 := by
      rcases hsum with h | h
      · exact h
      · rw [hnil] at h; exact absurd h (by simp)
    refine ⟨[], by simp [allocate, hnil, h0], ?_⟩
    rw [hnil, h0]
    refine ⟨rfl, rfl, by simp, by simp, fun caps hcaps _ i => ?_⟩
    simp [List.map_eq_nil_iff.mp hcaps.symm]
  by_cases h0 : money total = 0
  · have hrun : allocate total weights = .ok (weights.map fun _ => 0) := by
      simp only [allocate, hany, hnil, h0, if_false, if_true, Bool.false_eq_true]
    refine ⟨_, hrun, ?_⟩
    rw [h0]
    refine ⟨by simp, by simp, by simp, fun i _ => ?_, fun caps hcaps _ i => ?_⟩
    · rw [List.getD_eq_getElem?_getD, List.getElem?_map]
      cases weights[i]? <;> rfl
    · have hcap : 0 ≤ caps.getD i 0 :=
        dec_nonneg_iff.mp (by rw [← getD_map_dec, ← hcaps]; exact getD_nonneg hw i)
      rw [List.getD_eq_getElem?_getD, List.getElem?_map]
      cases weights[i]? <;> simpa using hcap
  have hpos : 0 < weights.sum := hsum.resolve_left h0
  obtain ⟨shares, hrun, hsplit⟩ := correction_pass ht hw hpos
  exact ⟨shares, allocate_of_correction hw hpos h0 (correction_guard hrun), hsplit⟩

/-- **The correction of `allocate` ends within one pass over the lines**: given up after as many
    visits as there are lines, it has already reached the shares that are returned. -/
theorem allocate_onePass {total : ℤ} {weights : List Decimal} (ht : 0 ≤ total)
    (hw : ∀ w ∈ weights, 0 ≤ w) (hsum : 0 < weights.sum) :
    ∃ shares, allocate (dec total) weights = .ok shares
      ∧ correction weights.length total weights = some shares ∧ IsSplit total weights shares := by
  obtain ⟨shares, hrun, hsplit⟩ := correction_pass ht hw hsum
  refine ⟨shares, ?_, hrun, hsplit⟩
  by_cases h0 : total = 0
  · -- shares of nothing are nothing
    obtain ⟨zeros, hzeros, hall⟩ := allocate_spec (dec total) weights (by rwa [money_dec]) hw
      (.inl (by rwa [money_dec]))
    rw [money_dec] at hall
    rw [hzeros, hall.eq_zeros h0, hsplit.eq_zeros h0]
  · rw [← money_dec total] at h0 hrun
    exact allocate_of_correction hw hsum h0 (correction_guard hrun)

theorem allocate_onePass_thirds : ∃ shares, allocate (dec 1000) [1, 1, 1] = .ok shares
    ∧ correction 3 1000 [1, 1, 1] = some shares ∧ IsSplit 1000 [1, 1, 1] shares :=
  @allocate_onePass 1000 [1, 1, 1] (by decide) (by decide +kernel) (by decide +kernel)

/-- Whatever `allocate` returns adds up to the total, whatever it was given. -/
theorem allocate_sum {total : Decimal} {weights : List Decimal} {shares : List ℤ}
    (h : allocate total weights = .ok shares) :
    shares.length = weights.length ∧ shares.sum = money total := by
  unfold allocate at h
  simp only at h
  split at h
  · cases h
  split at h
  · rename_i hnil
    split at h
    · cases h
    · rename_i h0
      cases h
      simp [hnil, not_not.mp h0]
  · split at h
    · rename_i h0
      cases h
      simp [h0]
    split at h
    · cases h
    · rename_i hnil _ _
      split at h
      · rename_i hrun
        cases h
        have hlt : ∀ idx ∈ largestFirst weights,
            idx < (roundedShares (money total) weights).length := by
          intro idx hidx
          simpa using mem_largestFirst.mp hidx
        have hne : largestFirst weights ≠ [] := by
          intro h0
          have := congrArg List.length h0
          simp only [length_largestFirst, List.length_nil, List.length_eq_zero_iff] at this
          exact hnil this
        obtain ⟨hlen, hsum⟩ := handOut_sum hlt hne hrun
        refine ⟨by simpa using hlen, ?_⟩
        rw [hsum]
        exact add_sub_cancel _ _
      · cases h

/-! ### `distribute` and `compute` -/

/-- A document whose figures are the sums of its lines. -/
structure DocumentTotals.Sums (t : DocumentTotals) : Prop where
  subtotal : (t.lines.map LineResult.amount).sum = t.subtotal
  discountTotal : (t.lines.map LineResult.discount).sum = t.discountTotal
  taxTotal : (t.lines.map LineResult.tax).sum = t.taxTotal
  total : (t.lines.map LineResult.total).sum = t.total

/-- A document whose figures are the sums of its lines, none of which is negative. -/
structure DocumentTotals.Balanced (t : DocumentTotals) (taxable : List Bool) : Prop
    extends t.Sums where
  line : ∀ l ∈ t.lines, 0 ≤ l.discount ∧ l.discount ≤ l.amount ∧ 0 ≤ l.tax ∧ 0 ≤ l.total
  untaxed : ∀ p ∈ t.lines.zip taxable, p.2 = false → p.1.tax = 0

theorem sum_total (lines : List LineResult) :
    (lines.map LineResult.total).sum = (lines.map LineResult.amount).sum
      - (lines.map LineResult.discount).sum + (lines.map LineResult.tax).sum := by
  induction lines with
  | nil => rfl
  | cons l lines ih =>
    simp only [List.map_cons, List.sum_cons, ih, LineResult.total]
    ring

/-- The lines a document is built from: amounts, their discounts and their taxes. -/
def mkLines (amounts discounts taxes : List ℤ) : List LineResult :=
  (amounts.zip (discounts.zip taxes)).map fun (a, d, t) => ⟨a, d, t⟩

section Lines

variable {amounts discounts taxes : List ℤ}

theorem map_amount_mkLines (hd : discounts.length = amounts.length)
    (ht : taxes.length = amounts.length) :
    (mkLines amounts discounts taxes).map LineResult.amount = amounts := by
  rw [mkLines, List.map_map]
  exact List.map_fst_zip (by simp [hd, ht])

theorem map_discount_mkLines (hd : discounts.length = amounts.length)
    (ht : taxes.length = amounts.length) :
    (mkLines amounts discounts taxes).map LineResult.discount = discounts := by
  have h : (mkLines amounts discounts taxes).map LineResult.discount
      = ((amounts.zip (discounts.zip taxes)).map Prod.snd).map Prod.fst := by
    simp [mkLines, List.map_map, Function.comp_def]
  rw [h, List.map_snd_zip (by simp [hd, ht]), List.map_fst_zip (by omega)]

theorem map_tax_mkLines (hd : discounts.length = amounts.length)
    (ht : taxes.length = amounts.length) :
    (mkLines amounts discounts taxes).map LineResult.tax = taxes := by
  have h : (mkLines amounts discounts taxes).map LineResult.tax
      = ((amounts.zip (discounts.zip taxes)).map Prod.snd).map Prod.snd := by
    simp [mkLines, List.map_map, Function.comp_def]
  rw [h, List.map_snd_zip (by simp [hd, ht]), List.map_snd_zip (by omega)]

variable {taxable : List Bool}

theorem length_taxBases (hd : discounts.length = amounts.length)
    (ht : taxable.length = amounts.length) :
    (taxBases amounts discounts taxable).length = amounts.length := by
  simp [taxBases, hd, ht]

/-- No line has a negative base, since no discount passes its line's amount. -/
theorem taxBases_nonneg (hd : discounts.length = amounts.length)
    (hle : ∀ i, discounts.getD i 0 ≤ amounts.getD i 0) :
    ∀ b ∈ taxBases amounts discounts taxable, 0 ≤ b := by
  intro b hb
  obtain ⟨i, hi, rfl⟩ := List.getElem_of_mem hb
  simp only [taxBases, List.length_map, List.length_zip] at hi
  have h := hle i
  rw [List.getD_eq_getElem _ _ (by omega), List.getD_eq_getElem _ _ (by omega)] at h
  simp only [taxBases, List.getElem_map, List.getElem_zip]
  split <;> omega

/-- Where every line is taxable, what is taxed is all that the discounts leave. -/
theorem sum_taxBases (hd : discounts.length = amounts.length)
    (ht : taxable.length = amounts.length) (hall : ∀ t ∈ taxable, t = true) :
    (taxBases amounts discounts taxable).sum = amounts.sum - discounts.sum := by
  induction amounts generalizing discounts taxable with
  | nil =>
    obtain rfl := List.length_eq_zero_iff.mp hd
    rfl
  | cons a amounts ih =>
    cases discounts with
    | nil => cases hd
    | cons d discounts =>
      cases taxable with
      | nil => cases ht
      | cons t taxable =>
        obtain rfl := hall t List.mem_cons_self
        have hrest := ih (Nat.succ.inj hd) (Nat.succ.inj ht)
          fun t ht => hall t (List.mem_cons_of_mem _ ht)
        show a - d + (taxBases amounts discounts taxable).sum = _
        rw [hrest, List.sum_cons, List.sum_cons]
        ring

/-- Lines whose discounts and taxes add up to the totals add up to the document. -/
theorem sums_mkLines {discountTotal taxTotal : ℤ} (hd : discounts.length = amounts.length)
    (ht : taxes.length = amounts.length) (hdisc : discounts.sum = discountTotal)
    (htax : taxes.sum = taxTotal) :
    DocumentTotals.Sums
      ⟨mkLines amounts discounts taxes, amounts.sum, discountTotal, taxTotal⟩ := by
  refine ⟨?_, ?_, ?_, ?_⟩
  · rw [map_amount_mkLines hd ht]
  · rw [map_discount_mkLines hd ht, hdisc]
  · rw [map_tax_mkLines hd ht, htax]
  · rw [sum_total, map_amount_mkLines hd ht, map_discount_mkLines hd ht, map_tax_mkLines hd ht,
      hdisc, htax]
    rfl

/-- **Lines from splits make a balanced document**: the discounts split a discount over the
    amounts, the taxes split a tax over what is left of the taxable ones. -/
theorem balanced_mkLines {discountTotal taxTotal : ℤ} (hlen : taxable.length = amounts.length)
    (hdisc : IsSplit discountTotal (amounts.map dec) discounts)
    (hle : ∀ i, discounts.getD i 0 ≤ amounts.getD i 0)
    (htax : IsSplit taxTotal ((taxBases amounts discounts taxable).map dec) taxes) :
    DocumentTotals.Balanced ⟨mkLines amounts discounts taxes, amounts.sum, discountTotal, taxTotal⟩
      taxable := by
  have hd : discounts.length = amounts.length := by simpa using hdisc.length
  have hb : (taxBases amounts discounts taxable).length = amounts.length := length_taxBases hd hlen
  have ht : taxes.length = amounts.length := by simpa [hb] using htax.length
  refine ⟨sums_mkLines hd ht hdisc.sum htax.sum, ?_, ?_⟩
  · intro l hl
    obtain ⟨i, hi, rfl⟩ := List.getElem_of_mem hl
    simp only [mkLines, List.length_map, List.length_zip] at hi
    have h := hle i
    rw [List.getD_eq_getElem _ _ (by omega), List.getD_eq_getElem _ _ (by omega)] at h
    have hd0 : 0 ≤ discounts[i] := hdisc.nonneg _ (List.getElem_mem _)
    have ht0 : 0 ≤ taxes[i] := htax.nonneg _ (List.getElem_mem _)
    simp only [mkLines, List.getElem_map, List.getElem_zip, LineResult.total]
    omega
  · -- a line that is not taxable has base `0`, and a zero weight gets no share
    intro p hp hfalse
    obtain ⟨i, hi, rfl⟩ := List.getElem_of_mem hp
    simp only [mkLines, List.length_map, List.length_zip] at hi
    simp only [List.getElem_zip] at hfalse
    have hbase : ((taxBases amounts discounts taxable).map dec).getD i 0 = 0 := by
      rw [getD_map_dec, List.getD_eq_getElem _ _ (by omega)]
      simp [taxBases, hfalse]
    have hzero := htax.zero i hbase
    rw [List.getD_eq_getElem _ _ (by omega)] at hzero
    simpa [mkLines] using hzero

end Lines

/-- Whatever `distribute` returns adds up, and its lines are the given amounts in cents. -/
theorem distribute_sums {amounts : List Decimal} {taxable : List Bool}
    {discountTotal taxTotal : Decimal}
    {t : DocumentTotals} (hlen : taxable.length = amounts.length)
    (h : distribute amounts taxable discountTotal taxTotal = .ok t) :
    t.Sums ∧ t.lines.map LineResult.amount = amounts.map money
      ∧ t.subtotal = (amounts.map money).sum ∧ t.discountTotal = money discountTotal
      ∧ t.taxTotal = money taxTotal := by
  unfold distribute at h
  simp only at h
  split at h
  · cases h
  · simp only [bind_eq_ok, pure_eq_ok] at h
    obtain ⟨discounts, hdisc, taxes, htax, rfl⟩ := h
    obtain ⟨hdl, hds⟩ := allocate_sum hdisc
    obtain ⟨htl, hts⟩ := allocate_sum htax
    have hdl' : discounts.length = (amounts.map money).length := by simpa using hdl
    have htl' : taxes.length = (amounts.map money).length := by
      rw [htl, List.length_map, length_taxBases hdl' (by simpa using hlen)]
    exact ⟨sums_mkLines hdl' htl' (by rw [hds, money_dec]) hts, map_amount_mkLines hdl' htl',
      rfl, rfl, rfl⟩

/-- Whatever `compute` returns adds up, and its lines are the given amounts in cents. -/
theorem compute_sums {amounts : List Decimal} {taxable : List Bool} {discountTotal rate : Decimal}
    {t : DocumentTotals} (hlen : taxable.length = amounts.length)
    (h : compute amounts taxable discountTotal rate = .ok t) :
    t.Sums ∧ t.lines.map LineResult.amount = amounts.map money
      ∧ t.subtotal = (amounts.map money).sum ∧ t.discountTotal = money discountTotal := by
  unfold compute at h
  simp only at h
  split at h
  · cases h
  · simp only [bind_eq_ok] at h
    obtain ⟨discounts, _, h⟩ := h
    obtain ⟨hsums, hamounts, hsub, hdisc, _⟩ := distribute_sums (by simpa using hlen) h
    rw [map_money_dec] at hamounts hsub
    rw [money_dec] at hdisc
    exact ⟨hsums, hamounts, hsub, hdisc⟩

section Documents

variable (amounts : List Decimal) (taxable : List Bool) (discountTotal : Decimal)

/-- The discount of a document always splits over its lines, none above its line's amount. -/
theorem discounts_spec {amounts : List Decimal} {discountTotal : Decimal}
    (ha : ∀ a ∈ amounts, 0 ≤ a) (hd : 0 ≤ money discountTotal)
    (hle : money discountTotal ≤ (amounts.map money).sum) :
    ∃ discounts, allocate (dec (money discountTotal)) ((amounts.map money).map dec) = .ok discounts
      ∧ IsSplit (money discountTotal) ((amounts.map money).map dec) discounts
      ∧ ∀ i, discounts.getD i 0 ≤ (amounts.map money).getD i 0 := by
  have hcents : ∀ w ∈ (amounts.map money).map dec, 0 ≤ w := by
    intro w hw
    obtain ⟨c, hc, rfl⟩ := List.mem_map.mp hw
    obtain ⟨a, hmem, rfl⟩ := List.mem_map.mp hc
    exact dec_nonneg (money_nonneg (ha a hmem))
  have hsum : money discountTotal = 0 ∨ 0 < ((amounts.map money).map dec).sum := by
    rw [sum_map_dec, dec_pos]
    omega
  obtain ⟨discounts, hrun, hsplit⟩ := allocate_spec (dec (money discountTotal)) _
    (by rw [money_dec]; exact hd) hcents (by rw [money_dec]; exact hsum)
  rw [money_dec] at hsplit
  exact ⟨discounts, hrun, hsplit, hsplit.cap _ rfl hle⟩

/-- **Decided totals always spread.**  With a discount no larger than the subtotal and a tax
    that has something to fall on, `distribute` builds a balanced document with those figures. -/
theorem distribute_spec (taxTotal : Decimal)
    (ha : ∀ a ∈ amounts, 0 ≤ a) (hlen : taxable.length = amounts.length)
    (hd : 0 ≤ money discountTotal) (hle : money discountTotal ≤ (amounts.map money).sum)
    {discounts : List ℤ}
    (hdisc : allocate (dec (money discountTotal)) ((amounts.map money).map dec) = .ok discounts)
    (ht : 0 ≤ money taxTotal)
    (hbase : money taxTotal = 0 ∨ 0 < (taxBases (amounts.map money) discounts taxable).sum) :
    ∃ t, distribute amounts taxable discountTotal taxTotal = .ok t ∧ t.Balanced taxable
      ∧ t.lines.map LineResult.amount = amounts.map money
      ∧ t.lines.map LineResult.discount = discounts
      ∧ t.discountTotal = money discountTotal ∧ t.taxTotal = money taxTotal := by
  obtain ⟨discounts', hrun, hsplit, hcap⟩ := discounts_spec ha hd hle
  obtain rfl : discounts' = discounts := by
    rw [hdisc] at hrun
    exact (Except.ok.inj hrun).symm
  have hlen' : taxable.length = (amounts.map money).length := by simpa using hlen
  have hdl : discounts'.length = (amounts.map money).length := by simpa using hsplit.length
  obtain ⟨taxes, htaxrun, htax⟩ := allocate_spec taxTotal
    ((taxBases (amounts.map money) discounts' taxable).map dec) ht
    (by
      intro w hw
      obtain ⟨b, hb, rfl⟩ := List.mem_map.mp hw
      exact dec_nonneg (taxBases_nonneg hdl hcap b hb))
    (by rw [sum_map_dec, dec_pos]; exact hbase)
  have htl : taxes.length = (amounts.map money).length := by
    simpa [length_taxBases hdl hlen'] using htax.length
  refine ⟨_, ?_, balanced_mkLines hlen' hsplit hcap htax, map_amount_mkLines hdl htl,
    map_discount_mkLines hdl htl, rfl, rfl⟩
  unfold distribute
  simp only [gt_iff_lt, not_lt.mpr hle, if_false, hdisc, htaxrun, ok_bind]
  rfl

/-- `compute` is `distribute` at the tax of the base its own discounts leave. -/
theorem compute_eq_distribute (taxRate : Decimal)
    (hle : money discountTotal ≤ (amounts.map money).sum) {discounts : List ℤ}
    (hdisc : allocate (dec (money discountTotal)) ((amounts.map money).map dec) = .ok discounts) :
    compute amounts taxable discountTotal taxRate
      = distribute ((amounts.map money).map dec) taxable (dec (money discountTotal))
          (dec (taxAmount (taxBases (amounts.map money) discounts taxable).sum taxRate)) := by
  unfold compute
  simp only [gt_iff_lt, not_lt.mpr hle, if_false, hdisc, ok_bind]

/-- **One tax for the whole, or line by line.**  Where every line is taxable, taxing what the
    discount leaves of the subtotal and spreading that tax over the lines is what `compute`
    does, and neither raises. -/
theorem compute_eq_distribute_whole {amounts : List ℤ} {discountTotal : ℤ} {taxRate : Decimal}
    (ha : ∀ a ∈ amounts, 0 ≤ a) (hlen : taxable.length = amounts.length)
    (hall : ∀ t ∈ taxable, t = true) (hd : 0 ≤ discountTotal) (hle : discountTotal ≤ amounts.sum)
    (hrate : 0 ≤ taxRate) :
    ∃ t, distribute (amounts.map dec) taxable (dec discountTotal)
        (dec (taxAmount (amounts.sum - discountTotal) taxRate)) = .ok t
      ∧ compute (amounts.map dec) taxable (dec discountTotal) taxRate = .ok t
      ∧ t.Balanced taxable ∧ t.lines.map LineResult.amount = amounts
      ∧ t.discountTotal = discountTotal
      ∧ t.taxTotal = taxAmount (amounts.sum - discountTotal) taxRate := by
  have ha' : ∀ a ∈ amounts.map dec, 0 ≤ a := by
    intro a hmem
    obtain ⟨c, hc, rfl⟩ := List.mem_map.mp hmem
    exact dec_nonneg (ha c hc)
  have hd' : 0 ≤ money (dec discountTotal) := by rwa [money_dec]
  have hle' : money (dec discountTotal) ≤ ((amounts.map dec).map money).sum := by
    rwa [money_dec, map_money_dec]
  obtain ⟨discounts, hrun, hsplit, _⟩ := discounts_spec ha' hd' hle'
  -- the discounts add up, so the lines leave what the whole leaves
  have hbase : (taxBases amounts discounts taxable).sum = amounts.sum - discountTotal := by
    rw [money_dec, map_money_dec] at hsplit
    rw [sum_taxBases (by simpa using hsplit.length) hlen hall, hsplit.sum]
  have hleft : 0 ≤ amounts.sum - discountTotal := by omega
  obtain ⟨t, ht, hbalanced, hamounts, _, hdiscount, htax⟩ :=
    distribute_spec (amounts.map dec) taxable (dec discountTotal)
      (dec (taxAmount (amounts.sum - discountTotal) taxRate)) ha' (by simpa using hlen) hd' hle'
      hrun (by rw [money_dec]; exact taxAmount_nonneg hleft hrate)
      (by
        rw [money_dec, map_money_dec, hbase]
        rcases hleft.eq_or_lt with h | h
        · left; rw [← h, taxAmount_zero]
        · right; exact h)
  rw [map_money_dec] at hamounts
  rw [money_dec] at hdiscount htax
  refine ⟨t, ht, ?_, hbalanced, hamounts, hdiscount, htax⟩
  rw [compute_eq_distribute _ _ _ _ hle' hrun, map_money_dec, money_dec, hbase, ht]

/-- **A document always computes, to the cent.**  For line amounts that are not negative, a
    flag for each, a discount between nothing and the subtotal and a tax rate that is not
    negative, `compute` raises nothing: the lines it returns add up to the document's figures,
    no discount passes its line's amount, only taxable lines are taxed, and the tax is the one
    of the base the allocated discounts leave. -/
theorem compute_spec (taxRate : Decimal)
    (ha : ∀ a ∈ amounts, 0 ≤ a) (hlen : taxable.length = amounts.length)
    (hd : 0 ≤ discountTotal) (hle : discountTotal ≤ dec (amounts.map money).sum)
    (hrate : 0 ≤ taxRate) :
    ∃ t, compute amounts taxable discountTotal taxRate = .ok t ∧ t.Balanced taxable
      ∧ t.lines.map LineResult.amount = amounts.map money
      ∧ t.discountTotal = money discountTotal
      ∧ t.taxTotal = taxAmount
          (taxBases (t.lines.map LineResult.amount) (t.lines.map LineResult.discount) taxable).sum
          taxRate := by
  have hd' : 0 ≤ money discountTotal := money_nonneg hd
  have hle' : money discountTotal ≤ (amounts.map money).sum := money_le hd hle
  obtain ⟨discounts, hrun, hsplit, hcap⟩ := discounts_spec ha hd' hle'
  have hdl : discounts.length = (amounts.map money).length := by simpa using hsplit.length
  have hbase0 : 0 ≤ (taxBases (amounts.map money) discounts taxable).sum :=
    List.sum_nonneg (taxBases_nonneg hdl hcap)
  set base := (taxBases (amounts.map money) discounts taxable).sum with hbase
  obtain ⟨t, ht, hbal, hamounts, hdiscounts, hdt, htt⟩ :=
    distribute_spec ((amounts.map money).map dec) taxable (dec (money discountTotal))
      (dec (taxAmount base taxRate))
      (by
        intro w hw
        obtain ⟨c, hc, rfl⟩ := List.mem_map.mp hw
        obtain ⟨a, hmem, rfl⟩ := List.mem_map.mp hc
        exact dec_nonneg (money_nonneg (ha a hmem)))
      (by simpa using hlen) (by rwa [money_dec]) (by rwa [money_dec, map_money_dec])
      (by rw [money_dec, map_money_dec]; exact hrun)
      (by rw [money_dec]; exact taxAmount_nonneg hbase0 hrate)
      (by
        rw [money_dec, map_money_dec]
        rcases hbase0.eq_or_lt with h | h
        · left; rw [← h, taxAmount_zero]
        · right; exact h)
  rw [map_money_dec] at hamounts
  rw [money_dec] at hdt htt
  refine ⟨t, ?_, hbal, hamounts, hdt, ?_⟩
  · rw [compute_eq_distribute _ _ _ _ hle' hrun, ht]
  · rw [hamounts, hdiscounts, htt]

/-- Three lines, one of them untaxed: every share is rounded and a cent is handed out. -/
theorem compute_spec_three_lines :
    ∃ t, compute [100 / 3, 200 / 3, 5] [true, false, true] 10 20 = .ok t
      ∧ t.Balanced [true, false, true]
      ∧ t.lines.map LineResult.amount = [100 / 3, 200 / 3, 5].map money
      ∧ t.discountTotal = money 10
      ∧ t.taxTotal = taxAmount (taxBases (t.lines.map LineResult.amount)
          (t.lines.map LineResult.discount) [true, false, true]).sum 20 :=
  compute_spec [100 / 3, 200 / 3, 5] [true, false, true] 10 20 (by decide +kernel) rfl
    (by decide +kernel) (by decide +kernel) (by decide +kernel)

end Documents

end WPanel.Billing
