import WPanel.Lib.Rounding
import Mathlib.Data.List.Sort
import Mathlib.Data.List.GetD
import Mathlib.Algebra.BigOperators.Group.List.Basic
import Mathlib.Algebra.Order.BigOperators.Group.List

namespace WPanel.Lib

/-!
# Handing out a rounding difference, largest weight first

Rounding every share of a proportional split on its own leaves a difference of a few
units.  The correction studied here walks round the positions in a fixed `order` and
moves one `step` (`+1` or `-1`) at every position that may take it, until nothing is left.

* `handOut` — the walk, with a guard on the number of positions visited;
* `handOut_pass` — as long as enough positions may take a unit, the walk ends within
  one pass and has moved exactly the first ones of them (`bump`);
* `remainder_le_countP` / `neg_remainder_le_countP` — the pigeonhole facts: half-up
  rounding never leaves more units than there are positions to take them;
* `lt_of_mem_take_largest` — a position that receives a unit was strictly below its own
  whole weight, so the walk never lifts a share above the weight it came from.
-/

/-! ### The order: largest weight first, ties by position -/

/-- Position `i` comes before `j` when its weight is larger, or equal and `i` is earlier. -/
def comesBefore (weights : List ℚ) (i j : ℕ) : Prop :=
  weights.getD j 0 < weights.getD i 0 ∨ (weights.getD i 0 = weights.getD j 0 ∧ i ≤ j)

instance (weights : List ℚ) : DecidableRel (comesBefore weights) :=
  fun _ _ => inferInstanceAs (Decidable (_ ∨ _))

/-- The positions of `weights`, largest weight first. -/
def largestFirst (weights : List ℚ) : List ℕ :=
  (List.range weights.length).insertionSort (comesBefore weights)

theorem largestFirst_perm (weights : List ℚ) :
    (largestFirst weights).Perm (List.range weights.length) := List.perm_insertionSort _ _

@[simp] theorem length_largestFirst (weights : List ℚ) :
    (largestFirst weights).length = weights.length := by
  rw [(largestFirst_perm weights).length_eq, List.length_range]

theorem largestFirst_nodup (weights : List ℚ) : (largestFirst weights).Nodup :=
  (largestFirst_perm weights).nodup_iff.mpr List.nodup_range

theorem mem_largestFirst {weights : List ℚ} {i : ℕ} :
    i ∈ largestFirst weights ↔ i < weights.length := by
  rw [(largestFirst_perm weights).mem_iff, List.mem_range]

/-- Along `largestFirst` the weights never increase. -/
theorem largestFirst_pairwise (weights : List ℚ) :
    (largestFirst weights).Pairwise (fun i j => weights.getD j 0 ≤ weights.getD i 0) := by
  have : Std.Total (comesBefore weights) := ⟨by
    intro i j
    rcases lt_trichotomy (weights.getD i 0) (weights.getD j 0) with h | h | h
    · exact .inr (.inl h)
    · rcases le_total i j with hij | hij
      · exact .inl (.inr ⟨h, hij⟩)
      · exact .inr (.inr ⟨h.symm, hij⟩)
    · exact .inl (.inl h)⟩
  have : IsTrans ℕ (comesBefore weights) := ⟨by
    rintro i j k (hij | ⟨hij, hij'⟩) (hjk | ⟨hjk, hjk'⟩)
    · exact .inl (hjk.trans hij)
    · exact .inl (hjk ▸ hij)
    · exact .inl (hij ▸ hjk)
    · exact .inr ⟨hij.trans hjk, hij'.trans hjk'⟩⟩
  refine (List.pairwise_insertionSort (comesBefore weights) _).imp ?_
  rintro i j (h | ⟨h, _⟩)
  · exact h.le
  · exact h.ge

/-- A sum over the positions is a sum over the weights. -/
theorem sum_map_largestFirst {M : Type*} [AddCommMonoid M] (weights : List ℚ) (f : ℚ → M) :
    ((largestFirst weights).map (fun i => f (weights.getD i 0))).sum = (weights.map f).sum := by
  rw [((largestFirst_perm weights).map _).sum_eq]
  congr 1
  apply List.ext_getElem
  · simp
  · intro i hi _
    have hlt : i < weights.length := by simpa using hi
    simp [List.getD_eq_getElem?_getD, List.getElem?_eq_getElem hlt]

/-! ### The walk -/

/-- Walk round `order` from its `i`-th place: move one `step` at every position that `may`
    take it, until `remainder` is `0`; give up once `guard` places have been visited. -/
def handOut (order : List ℕ) (may : ℕ → ℤ → Bool) (step : ℤ) :
    (guard i : ℕ) → (shares : List ℤ) → (remainder : ℤ) → Option (List ℤ)
  | 0, _, shares, remainder => if remainder = 0 then some shares else none
  | guard + 1, i, shares, remainder =>
    if remainder = 0 then some shares
    else
      let idx := order.getD (i % order.length) 0
      if may idx (shares.getD idx 0) then
        handOut order may step guard (i + 1) (shares.modify idx (· + step)) (remainder - step)
      else handOut order may step guard (i + 1) shares remainder

/-- Move one `step` at each of the `chosen` positions. -/
def bump (step : ℤ) (shares : List ℤ) (chosen : List ℕ) : List ℤ :=
  chosen.foldl (fun acc i => acc.modify i (· + step)) shares

@[simp] theorem bump_nil (step : ℤ) (shares : List ℤ) : bump step shares [] = shares := rfl

@[simp] theorem bump_cons (step : ℤ) (shares : List ℤ) (i : ℕ) (chosen : List ℕ) :
    bump step shares (i :: chosen) = bump step (shares.modify i (· + step)) chosen := rfl

@[simp] theorem length_bump (step : ℤ) (shares : List ℤ) (chosen : List ℕ) :
    (bump step shares chosen).length = shares.length := by
  induction chosen generalizing shares with
  | nil => rfl
  | cons i chosen ih => simp [ih]

/-- Reading position `j` after a change at position `i`. -/
theorem getD_modify (shares : List ℤ) (i j : ℕ) (step : ℤ) (hi : i < shares.length) :
    (shares.modify i (· + step)).getD j 0 = shares.getD j 0 + if j = i then step else 0 := by
  rw [List.getD_eq_getElem?_getD, List.getD_eq_getElem?_getD, List.getElem?_modify]
  by_cases h : i = j
  · subst h
    simp [List.getElem?_eq_getElem hi]
  · simp [h, Ne.symm h]

/-- A change at a position in range changes the sum by `step`. -/
theorem sum_modify (shares : List ℤ) (i : ℕ) (step : ℤ) (hi : i < shares.length) :
    (shares.modify i (· + step)).sum = shares.sum + step := by
  induction shares generalizing i with
  | nil => simp at hi
  | cons s shares ih =>
    cases i with
    | zero => simp only [List.modify_zero_cons, List.sum_cons]; ring
    | succ i =>
      have hi' : i < shares.length := by simpa using hi
      simp only [List.modify_succ_cons, List.sum_cons, ih i hi']
      ring

theorem sum_bump (step : ℤ) (shares : List ℤ) (chosen : List ℕ)
    (hlt : ∀ i ∈ chosen, i < shares.length) :
    (bump step shares chosen).sum = shares.sum + step * chosen.length := by
  induction chosen generalizing shares with
  | nil => simp
  | cons i chosen ih =>
    have hi : i < shares.length := hlt i (by simp)
    rw [bump_cons, ih _ (fun j hj => by simpa using hlt j (by simp [hj])), sum_modify _ _ _ hi]
    push_cast [List.length_cons]
    ring

/-- After `bump` exactly the chosen positions have moved. -/
theorem getD_bump (step : ℤ) (shares : List ℤ) (chosen : List ℕ) (hnd : chosen.Nodup)
    (hlt : ∀ i ∈ chosen, i < shares.length) (j : ℕ) :
    (bump step shares chosen).getD j 0 = shares.getD j 0 + if j ∈ chosen then step else 0 := by
  induction chosen generalizing shares with
  | nil => simp
  | cons i chosen ih =>
    obtain ⟨hi, hnd⟩ := List.nodup_cons.mp hnd
    have hlt' : ∀ k ∈ chosen, k < (shares.modify i (· + step)).length :=
      fun k hk => by simpa using hlt k (by simp [hk])
    rw [bump_cons, ih _ hnd hlt', getD_modify _ _ _ _ (hlt i (by simp))]
    by_cases hji : j = i
    · subst hji; simp [hi]
    · simp [hji]

/-- **One pass is enough.**  From place `i` on, if at least `k` of the places left in the
    pass may take a unit, the walk hands its `k` units to the first `k` of them and stops. -/
theorem handOut_pass (order : List ℕ) (may : ℕ → ℤ → Bool) (step : ℤ) (hstep : step ≠ 0)
    (hnd : order.Nodup) (rest : List ℕ) :
    ∀ (guard i : ℕ) (shares : List ℤ) (k : ℕ), order.drop i = rest → rest.length ≤ guard →
      k ≤ (rest.filter (fun j => may j (shares.getD j 0))).length →
      handOut order may step guard i shares (step * k)
        = some (bump step shares ((rest.filter (fun j => may j (shares.getD j 0))).take k)) := by
  induction rest with
  | nil =>
    intro guard i shares k _ _ hk
    have hk0 : k = 0 := by simpa using hk
    subst hk0
    cases guard <;> simp [handOut]
  | cons idx rest ih =>
    intro guard i shares k hdrop hguard hk
    obtain ⟨guard, rfl⟩ : ∃ g, guard = g + 1 := ⟨guard - 1, by simp at hguard; omega⟩
    rcases Nat.eq_zero_or_pos k with rfl | hkpos
    · simp [handOut]
    obtain ⟨k, rfl⟩ : ∃ k', k = k' + 1 := ⟨k - 1, by omega⟩
    have hi : i < order.length := by
      by_contra hge
      rw [List.drop_eq_nil_of_le (by omega)] at hdrop
      exact absurd hdrop (by simp)
    have hsplit := List.drop_eq_getElem_cons hi
    rw [hdrop] at hsplit
    obtain ⟨hidx, hrest⟩ := List.cons.inj hsplit
    have hget : order.getD (i % order.length) 0 = idx := by
      rw [Nat.mod_eq_of_lt hi, List.getD_eq_getElem?_getD, List.getElem?_eq_getElem hi, hidx]
      rfl
    have hnotin : idx ∉ rest := by
      have hsub := (hdrop ▸ List.drop_sublist i order).nodup hnd
      exact (List.nodup_cons.mp hsub).1
    have hne : step * ((k + 1 : ℕ) : ℤ) ≠ 0 :=
      mul_ne_zero hstep (by exact_mod_cast Nat.succ_ne_zero k)
    rw [handOut, if_neg hne]
    simp only [hget]
    by_cases hmay : may idx (shares.getD idx 0) = true
    · -- the place takes a unit; the places after it still see the shares they had
      have hcons : (idx :: rest).filter (fun j => may j (shares.getD j 0))
          = idx :: rest.filter (fun j => may j (shares.getD j 0)) := List.filter_cons_of_pos hmay
      have hkeep : rest.filter (fun j => may j ((shares.modify idx (· + step)).getD j 0))
          = rest.filter (fun j => may j (shares.getD j 0)) := by
        apply List.filter_congr
        intro j hj
        have hji : idx ≠ j := fun h => hnotin (h ▸ hj)
        have hsame : (shares.modify idx (· + step)).getD j 0 = shares.getD j 0 := by
          simp [List.getD_eq_getElem?_getD, hji]
        rw [hsame]
      have hrem : step * ((k + 1 : ℕ) : ℤ) - step = step * k := by push_cast; ring
      rw [hcons, List.length_cons] at hk
      rw [if_pos hmay, hrem, ih guard (i + 1) _ k hrest.symm (by simpa using hguard)
        (by rw [hkeep]; omega), hkeep, hcons, List.take_succ_cons, bump_cons]
    · have hcons : (idx :: rest).filter (fun j => may j (shares.getD j 0))
          = rest.filter (fun j => may j (shares.getD j 0)) := List.filter_cons_of_neg hmay
      rw [hcons] at hk ⊢
      rw [if_neg hmay, ih guard (i + 1) shares (k + 1) hrest.symm (by simpa using hguard) hk]

/-- A later guard changes nothing for a walk that ends before an earlier one. -/
theorem handOut_mono {order : List ℕ} {may : ℕ → ℤ → Bool} {step : ℤ} {guard guard' i : ℕ}
    {shares shares' : List ℤ} {remainder : ℤ} (hle : guard ≤ guard')
    (h : handOut order may step guard i shares remainder = some shares') :
    handOut order may step guard' i shares remainder = some shares' := by
  induction guard generalizing guard' i shares remainder with
  | zero =>
    rw [handOut] at h
    split at h
    · next hzero => cases guard' <;> rwa [handOut, if_pos hzero]
    · cases h
  | succ guard ih =>
    obtain ⟨guard', rfl⟩ : ∃ n, guard' = n + 1 := ⟨guard' - 1, by omega⟩
    have hle : guard ≤ guard' := Nat.le_of_succ_le_succ hle
    unfold handOut at h ⊢
    split at h
    · next hzero => rwa [if_pos hzero]
    · next hzero =>
      rw [if_neg hzero]
      dsimp only at h ⊢
      split at h
      · next hmay =>
        rw [if_pos hmay]
        exact ih hle h
      · next hmay =>
        rw [if_neg hmay]
        exact ih hle h

/-- However the walk ends, it has moved exactly the remainder. -/
theorem handOut_sum {order : List ℕ} {may : ℕ → ℤ → Bool} {step : ℤ} {guard i : ℕ}
    {shares shares' : List ℤ} {remainder : ℤ} (hlt : ∀ idx ∈ order, idx < shares.length)
    (hne : order ≠ []) (h : handOut order may step guard i shares remainder = some shares') :
    shares'.length = shares.length ∧ shares'.sum = shares.sum + remainder := by
  induction guard generalizing i shares remainder with
  | zero =>
    unfold handOut at h
    split at h
    · rename_i h0
      cases h
      exact ⟨rfl, by omega⟩
    · cases h
  | succ guard ih =>
    unfold handOut at h
    split at h
    · rename_i h0
      cases h
      exact ⟨rfl, by omega⟩
    · simp only at h
      split at h
      · have hpos : i % order.length < order.length :=
          Nat.mod_lt _ (List.length_pos_of_ne_nil hne)
        have hidx : order.getD (i % order.length) 0 < shares.length := by
          rw [List.getD_eq_getElem _ _ hpos]
          exact hlt _ (List.getElem_mem _)
        obtain ⟨hlen, hsum⟩ := ih (by simpa using hlt) h
        refine ⟨by simpa using hlen, ?_⟩
        rw [hsum, sum_modify _ _ _ hidx]
        omega
      · exact ih hlt h

/-! ### Counting the units rounding leaves over -/

/-- A sum whose terms are at most `c` where `p` holds and not positive elsewhere. -/
theorem sum_map_le_countP {ι : Type*} (l : List ι) (f : ι → ℚ) (p : ι → Bool) (c : ℚ)
    (hp : ∀ x ∈ l, p x = true → f x ≤ c) (hn : ∀ x ∈ l, p x = false → f x ≤ 0) :
    (l.map f).sum ≤ c * l.countP p := by
  induction l with
  | nil => simp
  | cons x l ih =>
    have ih' := ih (fun y hy => hp y (by simp [hy])) (fun y hy => hn y (by simp [hy]))
    rw [List.map_cons, List.sum_cons]
    cases hx : p x with
    | true =>
      rw [List.countP_cons_of_pos hx]
      push_cast
      linarith [hp x (by simp) hx]
    | false =>
      rw [List.countP_cons_of_neg (by simp [hx])]
      linarith [hn x (by simp) hx]

variable {ι : Type*} (l : List ι) (e : ι → ℚ)

/-- The difference between the exact shares and the rounded ones, as one sum. -/
theorem sum_sub_sum_roundHalfUp :
    (l.map e).sum - ((l.map (fun x => roundHalfUp (e x))).sum : ℤ)
      = (l.map (fun x => e x - roundHalfUp (e x))).sum := by
  induction l with
  | nil => simp
  | cons x l ih =>
    simp only [List.map_cons, List.sum_cons, Int.cast_add]
    linarith

/-- Units left to add: at most one for every positive share. -/
theorem remainder_le_countP (he : ∀ x ∈ l, 0 ≤ e x) :
    (l.map e).sum - ((l.map (fun x => roundHalfUp (e x))).sum : ℤ)
      ≤ l.countP (fun x => decide (0 < e x)) := by
  rw [sum_sub_sum_roundHalfUp]
  refine (sum_map_le_countP l _ (fun x => decide (0 < e x)) 1 ?_ ?_).trans_eq (one_mul _)
  · intro x hx _
    linarith [lt_roundHalfUp (he x hx)]
  · intro x hx hpos
    have hzero : e x = 0 := le_antisymm (by simpa using hpos) (he x hx)
    simp [hzero]

/-- Units left to take back: at most one for every share rounded to `1` or more. -/
theorem neg_remainder_le_countP (he : ∀ x ∈ l, 0 ≤ e x) :
    ((l.map (fun x => roundHalfUp (e x))).sum : ℤ) - (l.map e).sum
      ≤ l.countP (fun x => decide (1 ≤ roundHalfUp (e x))) := by
  have hneg : ((l.map (fun x => roundHalfUp (e x))).sum : ℤ) - (l.map e).sum
      = (l.map (fun x => (roundHalfUp (e x) : ℚ) - e x)).sum := by
    induction l with
    | nil => simp
    | cons x l ih =>
      simp only [List.map_cons, List.sum_cons, Int.cast_add]
      linarith [ih (fun y hy => he y (by simp [hy]))]
  rw [hneg]
  refine (sum_map_le_countP l _ (fun x => decide (1 ≤ roundHalfUp (e x))) 1 ?_ ?_).trans_eq
    (one_mul _)
  · intro x hx _
    linarith [roundHalfUp_le (he x hx)]
  · intro x hx hlt
    have hle : roundHalfUp (e x) ≤ 0 := by
      have := of_decide_eq_false hlt
      omega
    have hcast : (roundHalfUp (e x) : ℚ) ≤ 0 := by exact_mod_cast hle
    linarith [he x hx]

/-- Among the first `k` places of a list ordered by decreasing weight, a place has fewer
    than `k` places of larger weight anywhere in the list. -/
theorem countP_lt_of_mem_take {u : ι → ℤ} {k : ℕ} {x : ι}
    (hsorted : l.Pairwise (fun a b => u b ≤ u a)) (hx : x ∈ l.take k) :
    l.countP (fun y => decide (u x < u y)) < k := by
  obtain ⟨a, b, hab⟩ := List.append_of_mem hx
  have hl : l = a ++ x :: (b ++ l.drop k) := by
    conv_lhs => rw [← List.take_append_drop k l, hab]
    simp
  have hlen : a.length < k := by
    have := congrArg List.length hab
    simp only [List.length_take, List.length_append, List.length_cons] at this
    omega
  rw [hl] at hsorted ⊢
  obtain ⟨_, htail, _⟩ := List.pairwise_append.mp hsorted
  have hafter : (b ++ l.drop k).countP (fun y => decide (u x < u y)) = 0 := by
    rw [List.countP_eq_zero]
    intro y hy
    have := (List.pairwise_cons.mp htail).1 y hy
    simp only [decide_eq_true_eq]
    omega
  rw [List.countP_append, List.countP_cons_of_neg (by simp), hafter]
  exact lt_of_le_of_lt List.countP_le_length hlen

/-- **No share is lifted past its weight.**  Let the exact shares be `c·u` with whole
    weights `u` and `c ≤ 1`.  A place among the first `r` by weight, where `r` is what
    rounding left over, was rounded strictly below its weight: otherwise so close to its
    weight that every place of no larger weight lost nothing, and then fewer than `r` places
    could have lost anything. -/
theorem lt_of_mem_take_largest {u : ι → ℤ} {c : ℚ} (hc0 : 0 ≤ c) (hc1 : c ≤ 1)
    (hu : ∀ x ∈ l, 0 ≤ u x) (heq : ∀ x ∈ l, e x = c * u x)
    (hsorted : l.Pairwise (fun a b => u b ≤ u a)) {p : ι → Bool}
    (hp : ∀ x ∈ l, 0 < u x → p x = true) {r : ℕ}
    (hr : (l.map e).sum - ((l.map (fun x => roundHalfUp (e x))).sum : ℤ) = r)
    {x : ι} (hx : x ∈ (l.filter p).take r) : roundHalfUp (e x) < u x := by
  have hxl : x ∈ l := List.mem_of_mem_filter (List.mem_of_mem_take hx)
  have hux := hu x hxl
  have he : ∀ y ∈ l, 0 ≤ e y := fun y hy => by
    rw [heq y hy]
    exact mul_nonneg hc0 (by exact_mod_cast hu y hy)
  by_contra hge
  have hnear : (u x : ℚ) - 1 / 2 ≤ c * u x := by
    rw [← heq x hxl]
    exact sub_le_of_le_roundHalfUp (he x hxl) (by omega)
  -- no place of weight at most `u x` lost anything by rounding
  have hsmall : ∀ y ∈ l, u y ≤ u x → e y - roundHalfUp (e y) ≤ 0 := by
    intro y hy hle
    have hcast : (u y : ℚ) ≤ u x := by exact_mod_cast hle
    have hmono : (1 - c) * u y ≤ (1 - c) * u x := mul_le_mul_of_nonneg_left hcast (by linarith)
    have hround : u y ≤ roundHalfUp (e y) := by
      apply le_roundHalfUp_of_sub_le (he y hy)
      rw [heq y hy]
      linarith
    have huy : (0 : ℚ) ≤ u y := by exact_mod_cast hu y hy
    have hcu : c * u y ≤ u y := by nlinarith
    have hroundq : (u y : ℚ) ≤ roundHalfUp (e y) := by exact_mod_cast hround
    rw [heq y hy] at hroundq ⊢
    linarith
  have hbound := sum_map_le_countP l (fun y => e y - roundHalfUp (e y))
    (fun y => decide (u x < u y)) 1
    (fun y hy _ => by linarith [lt_roundHalfUp (he y hy)])
    (fun y hy hn => hsmall y hy (by simpa using hn))
  rw [← sum_sub_sum_roundHalfUp, hr, one_mul] at hbound
  -- the places that may have lost something all come before `x` in the order
  have hfew := countP_lt_of_mem_take (l.filter p) (hsorted.sublist List.filter_sublist) hx
  have hsame : l.countP (fun y => decide (u x < u y))
      = (l.filter p).countP (fun y => decide (u x < u y)) := by
    rw [List.countP_filter]
    apply List.countP_congr
    intro y hy
    simp only [decide_eq_true_eq, Bool.and_eq_true]
    exact ⟨fun h => ⟨h, hp y hy (by omega)⟩, fun h => h.1⟩
  have hle : r ≤ l.countP (fun y => decide (u x < u y)) := by exact_mod_cast hbound
  omega

end WPanel.Lib
