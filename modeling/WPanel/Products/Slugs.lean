import WPanel.Lib.Text
import Mathlib.Data.Finset.Card
import Mathlib.Data.Finset.Range

namespace WPanel.Products.Slugs

open WPanel.Lib

/-!
# Slugs that are not taken

`unique_slug` (`core/utils.py`), which the catalogue names its products, add-ons and categories
with (`products/services.py`).

* `uniqueSlug` — the search, given up after some number of checks;
* `candidate` — what it tries, one after the other: the base, then the base with a tail, shortened
  so that the tail fits;
* `eq_of_candidate_eq` — tails keep the candidates apart; only the base itself can come up again;
* `uniqueSlug_ends` — the search ends, one check or two after the values that are taken.
-/

/-! ### The search -/

/-- `text[:stop]`: a negative end is counted from the end of the text. -/
def sliceTo (stop : ℤ) (text : String) : String :=
  if 0 ≤ stop then clip stop.toNat text else clip (text.toList.length + stop).toNat text

/-- The queryset: the rows with their primary keys and the value of the field. -/
abbrev Rows := List (ℕ × String)

/-- `queryset.filter(field=candidate).exclude(pk=exclude_pk).exists()`. -/
def isTaken (queryset : Rows) (excludePk : Option ℕ) (candidate : String) : Bool :=
  queryset.any fun row => row.2 = candidate && some row.1 ≠ excludePk

def tail (suffix : ℕ) : String := "-" ++ toString suffix

/-- The base with a tail. -/
def withTail (base : String) (maxLength suffix : ℕ) : String :=
  sliceTo (maxLength - (tail suffix).toList.length) base ++ tail suffix

/-- The loop, given up after so many checks. -/
def search (taken : String → Bool) (base : String) (maxLength : ℕ) :
    (checks : ℕ) → (candidate : String) → (suffix : ℕ) → Option String
  | 0, _, _ => none
  | checks + 1, candidate, suffix =>
    if taken candidate then
      search taken base maxLength checks (withTail base maxLength suffix) (suffix + 1)
    else some candidate

/-- `slugify(text)[:max_length] or "item"`. -/
def baseSlug (slugify : String → String) (text : String) (maxLength : ℕ) : String :=
  if clip maxLength (slugify text) = "" then "item" else clip maxLength (slugify text)

/-- `unique_slug`, given up after so many checks; `slugify` is Django's. -/
def uniqueSlug (slugify : String → String) (queryset : Rows) (text : String)
    (excludePk : Option ℕ) (maxLength checks : ℕ) : Option String :=
  search (isTaken queryset excludePk) (baseSlug slugify text maxLength) maxLength checks
    (baseSlug slugify text maxLength) 2

example : uniqueSlug id [(1, "vps"), (2, "vps-2")] "vps" none 50 3 = some "vps-3" := by
  decide +kernel

example : uniqueSlug id [(1, "vps"), (2, "vps-2")] "vps" (some 1) 50 3 = some "vps" := by
  decide +kernel

/-! ### What it should do -/

/-- The values that are taken. -/
def takenValues (queryset : Rows) (excludePk : Option ℕ) : Finset String :=
  ((queryset.filter fun row => some row.1 ≠ excludePk).map Prod.snd).toFinset

/-- The candidates, in the order they are tried. -/
def candidate (base : String) (maxLength : ℕ) : ℕ → String
  | 0 => base
  | n + 1 => withTail base maxLength (n + 2)

/-- `len(str(n))`. -/
def digits (n : ℕ) : ℕ := (toString n).toList.length

/-- **The base is as long as it can be, and ends in one of the tails itself.** -/
def EndsInTail (base : String) (maxLength taken : ℕ) : Prop :=
  base.toList.length = maxLength
    ∧ ∃ suffix, 2 ≤ suffix ∧ suffix ≤ taken + 1 ∧ (tail suffix).toList <:+ base.toList

/-- After so many checks the search has found a value that is not taken, and no longer than it may
    be, where something is left of the text or there is room for the word that is taken instead. -/
def Finds (slugify : String → String) (queryset : Rows) (text : String) (excludePk : Option ℕ)
    (maxLength checks : ℕ) : Prop :=
  ∃ value, uniqueSlug slugify queryset text excludePk maxLength checks = some value
    ∧ value ∉ takenValues queryset excludePk
    ∧ (slugify text ≠ "" ∨ 4 ≤ maxLength → value.toList.length ≤ maxLength)

section

variable {taken : String → Bool} {base : String} {maxLength checks : ℕ}

/-! ### The candidates -/

theorem digits_mono {n m : ℕ} (h : n ≤ m) : digits n ≤ digits m := by
  have hpos : 0 < digits m := Nat.length_repr_pos
  have hlt : m < 10 ^ digits m := (Nat.length_repr_le_iff hpos).mp le_rfl
  exact (Nat.length_repr_le_iff hpos).mpr (h.trans_lt hlt)

theorem length_tail (suffix : ℕ) : (tail suffix).toList.length = digits suffix + 1 := by
  rw [tail, String.toList_append, List.length_append, Nat.add_comm]
  rfl

/-- What is behind the last dash. -/
private theorem afterDash_eq {front front' back back' : List Char} (hback : '-' ∉ back)
    (hback' : '-' ∉ back') (h : front ++ '-' :: back = front' ++ '-' :: back') : back = back' := by
  have hread : ∀ {front back : List Char}, '-' ∉ back →
      (front ++ '-' :: back).reverse.takeWhile (· ≠ '-') = back.reverse := by
    intro front back hback
    have hall : ∀ c ∈ back.reverse, decide (c ≠ '-') = true := by
      rintro c hc
      refine decide_eq_true ?_
      rintro rfl
      exact hback (List.mem_reverse.mp hc)
    rw [List.reverse_append, List.reverse_cons, List.append_assoc,
      List.takeWhile_append_of_pos hall]
    exact List.append_nil _
  refine List.reverse_injective ?_
  rw [← hread hback, h, hread hback']

private theorem dash_not_mem (n : ℕ) : '-' ∉ (toString n).toList := by
  intro h
  exact absurd (isDigit_of_mem_toString h) (by decide)

theorem toList_withTail (suffix : ℕ) : (withTail base maxLength suffix).toList
    = (sliceTo (maxLength - (tail suffix).toList.length) base).toList
      ++ '-' :: (toString suffix).toList := by
  rw [withTail, String.toList_append, tail, String.toList_append]
  rfl

/-- **A tail keeps its candidate apart from all others with a tail.** -/
theorem eq_of_withTail_eq {suffix suffix' : ℕ}
    (h : withTail base maxLength suffix = withTail base maxLength suffix') : suffix = suffix' := by
  have hlist := congrArg String.toList h
  rw [toList_withTail, toList_withTail] at hlist
  exact toString_inj (String.toList_injective
    (afterDash_eq (dash_not_mem suffix) (dash_not_mem suffix') hlist))

/-- What is left of the base fits before the tail. -/
theorem length_withTail {suffix : ℕ} (hroom : (tail suffix).toList.length ≤ maxLength) :
    (withTail base maxLength suffix).toList.length
      = min (maxLength - (tail suffix).toList.length) base.toList.length
        + (tail suffix).toList.length := by
  have hstop : (0 : ℤ) ≤ maxLength - (tail suffix).toList.length := by omega
  rw [withTail, String.toList_append, List.length_append, sliceTo, if_pos hstop, clip,
    String.toList_ofList, List.length_take]
  congr 2
  omega

/-- **The base comes up again only under a tail that it has itself**, when it is as long as it can
    be. -/
theorem endsInTail_of_eq {taken suffix : ℕ} (htwo : 2 ≤ suffix) (hle : suffix ≤ taken + 1)
    (hroom : (tail suffix).toList.length ≤ maxLength) (h : base = withTail base maxLength suffix) :
    EndsInTail base maxLength taken := by
  have hlength := @length_withTail base _ _ hroom
  rw [← h, length_tail] at hlength
  rw [length_tail] at hroom
  refine ⟨by omega, suffix, htwo, hle, ?_⟩
  rw [h, withTail, String.toList_append]
  exact List.suffix_append _ _

/-- The tail of an early candidate fits. -/
theorem tail_fits {taken suffix : ℕ} (hroom : 1 + digits (taken + 1) ≤ maxLength)
    (hle : suffix ≤ taken + 1) : (tail suffix).toList.length ≤ maxLength := by
  have := digits_mono hle
  rw [length_tail]
  omega

/-- The candidates with a tail are pairwise distinct. -/
theorem eq_of_candidate_succ_eq {i j : ℕ}
    (h : candidate base maxLength (i + 1) = candidate base maxLength (j + 1)) : i = j := by
  have := eq_of_withTail_eq h
  omega

/-- **The candidates are pairwise distinct**, unless the base ends in a tail. -/
theorem eq_of_candidate_eq {n i j : ℕ} (hroom : 1 + digits (n + 1) ≤ maxLength)
    (hends : ¬EndsInTail base maxLength n) (hi : i ≤ n) (hj : j ≤ n)
    (h : candidate base maxLength i = candidate base maxLength j) : i = j := by
  have hbase : ∀ k, k + 1 ≤ n → base ≠ candidate base maxLength (k + 1) := fun k hk heq =>
    hends (endsInTail_of_eq (by omega) (by omega) (tail_fits hroom (by omega)) heq)
  match i, j with
  | 0, 0 => rfl
  | 0, j + 1 => exact absurd h (hbase j hj)
  | i + 1, 0 => exact absurd h.symm (hbase i hi)
  | i + 1, j + 1 => rw [eq_of_candidate_succ_eq h]

/-- A candidate is no longer than it may be. -/
theorem length_candidate_le {n i : ℕ} (hroom : 1 + digits (n + 1) ≤ maxLength)
    (hbase : base.toList.length ≤ maxLength) (hi : i ≤ n) :
    (candidate base maxLength i).toList.length ≤ maxLength := by
  match i with
  | 0 => exact hbase
  | i + 1 =>
    have hfits := @tail_fits _ _ (i + 2) hroom (by omega)
    rw [candidate, length_withTail hfits]
    omega

/-! ### The loop -/

/-- **The loop finds a candidate that is not taken**, as soon as there is one. -/
theorem search_spec {i : ℕ}
    (h : ∃ k, i ≤ k ∧ k < i + checks ∧ taken (candidate base maxLength k) = false) :
    ∃ k, i ≤ k ∧ k < i + checks ∧ taken (candidate base maxLength k) = false
      ∧ search taken base maxLength checks (candidate base maxLength i) (i + 2)
        = some (candidate base maxLength k) := by
  induction checks generalizing i with
  | zero =>
    obtain ⟨k, hle, hlt, -⟩ := h
    omega
  | succ checks ih =>
    obtain ⟨k, hle, hlt, hfree⟩ := h
    rw [search]
    by_cases hi : taken (candidate base maxLength i) = true
    · have hne : i ≠ k := by
        rintro rfl
        rw [hi] at hfree
        cases hfree
      obtain ⟨found, hfrom, hto, hfound⟩ := ih (i := i + 1) ⟨k, by omega, by omega, hfree⟩
      rw [if_pos hi]
      exact ⟨found, by omega, by omega, hfound⟩
    · rw [if_neg hi]
      exact ⟨i, le_rfl, by omega, Bool.eq_false_iff.mpr hi, rfl⟩

variable {slugify : String → String} {queryset : Rows} {text : String} {excludePk : Option ℕ}

theorem isTaken_iff {value : String} :
    isTaken queryset excludePk value = true ↔ value ∈ takenValues queryset excludePk := by
  rw [isTaken, List.any_eq_true, takenValues, List.mem_toFinset, List.mem_map]
  constructor
  · rintro ⟨row, hrow, htaken⟩
    rw [Bool.and_eq_true, decide_eq_true_eq] at htaken
    exact ⟨row, List.mem_filter.mpr ⟨hrow, htaken.2⟩, htaken.1⟩
  · rintro ⟨row, hrow, rfl⟩
    obtain ⟨hrow, hother⟩ := List.mem_filter.mp hrow
    exact ⟨row, hrow, by rw [Bool.and_eq_true]; exact ⟨decide_eq_true rfl, hother⟩⟩

/-- Of more distinct candidates than there are values taken, one is free. -/
theorem exists_free {values : Finset String} {first : ℕ}
    (h : ∀ i ≤ values.card, ∀ j ≤ values.card, candidate base maxLength (first + i)
      = candidate base maxLength (first + j) → i = j) :
    ∃ i ≤ values.card, candidate base maxLength (first + i) ∉ values := by
  by_contra hnone
  have hmaps : Set.MapsTo (fun i => candidate base maxLength (first + i))
      (Finset.range (values.card + 1)) values := by
    intro i hi
    by_contra hfree
    exact hnone ⟨i, Nat.le_of_lt_succ (Finset.mem_range.mp hi), hfree⟩
  have hcard := Finset.card_le_card_of_injOn _ hmaps fun i hi j hj heq =>
    h i (Nat.le_of_lt_succ (Finset.mem_range.mp hi)) j
      (Nat.le_of_lt_succ (Finset.mem_range.mp hj)) heq
  rw [Finset.card_range] at hcard
  omega

/-- The base is no longer than it may be, where something is left of the text or there is room for
    the word that is taken instead. -/
theorem length_baseSlug_le (h : slugify text ≠ "" ∨ 4 ≤ maxLength) (hpos : 0 < maxLength) :
    (baseSlug slugify text maxLength).toList.length ≤ maxLength := by
  rw [baseSlug]
  split
  · next hempty =>
    refine h.resolve_left fun hne => hne (String.toList_eq_nil_iff.mp ?_)
    have hnil := congrArg String.toList hempty
    rw [clip, String.toList_ofList] at hnil
    exact (List.take_eq_nil_iff.mp hnil).resolve_left hpos.ne'
  · rw [clip, String.toList_ofList]
    exact List.length_take_le _ _

/-- What the search finds is one of its candidates, not taken and not too long. -/
theorem uniqueSlug_of_free {n : ℕ} (hroom : 1 + digits (n + 1) ≤ maxLength)
    (h : ∃ i ≤ n, candidate (baseSlug slugify text maxLength) maxLength i
      ∉ takenValues queryset excludePk) :
    Finds slugify queryset text excludePk maxLength (n + 1) := by
  obtain ⟨i, hi, hfree⟩ := h
  obtain ⟨k, -, hk, hfound, hsearch⟩ := @search_spec (isTaken queryset excludePk)
    (baseSlug slugify text maxLength) maxLength (n + 1) 0
    ⟨i, Nat.zero_le i, by omega, Bool.eq_false_iff.mpr fun htaken => hfree (isTaken_iff.mp htaken)⟩
  refine ⟨_, hsearch, fun hmem => ?_, fun hlong => ?_⟩
  · rw [isTaken_iff.mpr hmem] at hfound
    cases hfound
  · exact length_candidate_le hroom (length_baseSlug_le hlong (by omega)) (by omega)

/-- **The search ends with a value that is not taken**, where the tails it tries have room: after
    one check more than there are values taken, all of different candidates, unless the base is as
    long as it can be and ends in a tail; after two more in any case, since only the base itself can
    come up a second time. -/
theorem uniqueSlug_ends (slugify : String → String) (queryset : Rows) (text : String)
    (excludePk : Option ℕ) (maxLength : ℕ) :
    let n := (takenValues queryset excludePk).card
    let base := baseSlug slugify text maxLength
    1 + digits (n + 1) ≤ maxLength →
      (¬EndsInTail base maxLength n →
        (∀ i ≤ n, ∀ j ≤ n, candidate base maxLength i = candidate base maxLength j → i = j)
          ∧ Finds slugify queryset text excludePk maxLength (n + 1))
      ∧ (1 + digits (n + 2) ≤ maxLength →
        (∀ i j, candidate base maxLength (i + 1) = candidate base maxLength (j + 1) → i = j)
          ∧ Finds slugify queryset text excludePk maxLength (n + 2)) := by
  intro n base hroom
  constructor
  · intro hends
    have hdistinct : ∀ i ≤ n, ∀ j ≤ n,
        candidate base maxLength i = candidate base maxLength j → i = j :=
      fun i hi j hj heq => eq_of_candidate_eq hroom hends hi hj heq
    refine ⟨hdistinct, uniqueSlug_of_free hroom ?_⟩
    obtain ⟨i, hi, hfree⟩ := @exists_free base maxLength (takenValues queryset excludePk) 0
      (by simpa only [Nat.zero_add] using hdistinct)
    rw [Nat.zero_add] at hfree
    exact ⟨i, hi, hfree⟩
  · intro hmore
    refine ⟨fun i j heq => eq_of_candidate_succ_eq heq, uniqueSlug_of_free hmore ?_⟩
    obtain ⟨i, hi, hfree⟩ := @exists_free base maxLength (takenValues queryset excludePk) 1
      fun i _ j _ heq => by
        rw [Nat.add_comm 1 i, Nat.add_comm 1 j] at heq
        exact eq_of_candidate_succ_eq heq
    rw [Nat.add_comm 1 i] at hfree
    exact ⟨i + 1, Nat.succ_le_succ hi, hfree⟩

theorem uniqueSlug_ends_vps :
    (¬EndsInTail "vps" 50 1 →
      (∀ i ≤ 1, ∀ j ≤ 1, candidate "vps" 50 i = candidate "vps" 50 j → i = j)
        ∧ Finds id [(1, "vps")] "vps" none 50 2)
    ∧ (1 + digits 3 ≤ 50 →
      (∀ i j, candidate "vps" 50 (i + 1) = candidate "vps" 50 (j + 1) → i = j)
        ∧ Finds id [(1, "vps")] "vps" none 50 3) :=
  uniqueSlug_ends id [(1, "vps")] "vps" none 50 (by decide +kernel)

/-- `slugify`, of letters, digits and single blanks. -/
def plainSlug (text : String) : String :=
  String.ofList (text.toList.map fun c => if c = ' ' then '-' else c.toLower)

/-- **A base that is as long as it can be and ends in a tail is tried twice**: one value is taken,
    and two checks do not find another. -/
theorem uniqueSlug_repeats :
    (takenValues [(1, "managed-wordpress-hosting-with-fast-backups-tier-2")] none).card = 1
      ∧ uniqueSlug plainSlug [(1, "managed-wordpress-hosting-with-fast-backups-tier-2")]
          "Managed WordPress hosting with fast backups tier 2" none 50 (1 + 1) = none
      ∧ candidate (baseSlug plainSlug "Managed WordPress hosting with fast backups tier 2" 50) 50 0
        = candidate (baseSlug plainSlug "Managed WordPress hosting with fast backups tier 2" 50) 50
          1 := by
  decide +kernel

end

end WPanel.Products.Slugs
