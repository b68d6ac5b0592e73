import Mathlib.Data.List.Basic
import Mathlib.Data.Nat.Basic
import Mathlib.Order.Bounds.Defs
import Mathlib.Order.Lattice
import Mathlib.Order.Monotone.Basic

namespace WPanel.Lib

/-!
# Periods

A line of points that is cut into periods: every point belongs to the period that starts at or
before it, and from one start a step leads to the following one, as far as there is one.

* `enumerate` — the starts from a first one up to a last point, step by step;
* `pairwise_enumerate`, `mem_enumerate` — they come in order, and none is left out;
* `start_mem_enumerate` — the period of every point between the two ends is among them.
-/

variable {α : Type*} [LinearOrder α]

/-- The period every point is in, by its start, and the start of the one after it. -/
structure Periods (α : Type*) [LinearOrder α] where
  start : α → α
  next : α → Option α
  start_le : ∀ x, start x ≤ x
  start_mono : Monotone start
  start_start : ∀ x, start (start x) = start x
  next_start : ∀ {first following}, start first = first → next first = some following →
    IsLeast {x | start x = x ∧ first < x} following

/-- The points a step leads to from `first`, up to `last`; the step is also taken from the last of
    them, and `none` says that it failed. -/
def enumerate (next : α → Option α) (last : α) : ℕ → α → Option (List α)
  | 0, _ => some []
  | fuel + 1, first =>
    if first ≤ last then
      (next first).bind fun following =>
        (enumerate next last fuel following).map (first :: ·)
    else some []

section

variable {next : α → Option α} {last first : α} {fuel : ℕ} {points : List α}

/-- One step of the enumeration. -/
theorem enumerate_succ (h : first ≤ last) : enumerate next last (fuel + 1) first
    = (next first).bind fun following =>
      (enumerate next last fuel following).map (first :: ·) := if_pos h

theorem enumerate_past (h : ¬first ≤ last) : enumerate next last fuel first = some [] := by
  cases fuel with
  | zero => rfl
  | succ fuel => exact if_neg h

/-- The points with one that does not lie past the last. -/
theorem enumerate_eq_cons (h : first ≤ last)
    (hpoints : enumerate next last (fuel + 1) first = some points) : ∃ following rest,
    next first = some following ∧ enumerate next last fuel following = some rest
      ∧ points = first :: rest := by
  rw [enumerate_succ h] at hpoints
  obtain ⟨following, hnext, hafter⟩ := Option.bind_eq_some_iff.mp hpoints
  obtain ⟨rest, hrest, rfl⟩ := Option.map_eq_some_iff.mp hafter
  exact ⟨following, rest, hnext, hrest, rfl⟩

/-- From every point there is a step. -/
theorem next_of_mem (hpoints : enumerate next last fuel first = some points) {x : α}
    (hx : x ∈ points) : (next x).isSome := by
  induction fuel generalizing first points with
  | zero =>
    obtain rfl := Option.some.inj hpoints
    cases hx
  | succ fuel ih =>
    by_cases h : first ≤ last
    · obtain ⟨following, rest, hnext, hrest, rfl⟩ := enumerate_eq_cons h hpoints
      rcases List.mem_cons.mp hx with rfl | hx
      · rw [hnext]
        rfl
      · exact ih hrest hx
    · rw [enumerate_past h] at hpoints
      obtain rfl := Option.some.inj hpoints
      cases hx

end

/-- Where every step makes something larger, there are at most as many points as it has values. -/
theorem length_enumerate_le {next : α → Option α} {last first : α} {fuel : ℕ} {points : List α}
    {measure : α → ℕ} (hmono : Monotone measure)
    (hstep : ∀ x y, next x = some y → measure x < measure y)
    (hpoints : enumerate next last fuel first = some points) :
    points.length ≤ measure last + 1 - measure first := by
  induction fuel generalizing first points with
  | zero =>
    obtain rfl := Option.some.inj hpoints
    exact Nat.zero_le _
  | succ fuel ih =>
    by_cases h : first ≤ last
    · obtain ⟨following, rest, hnext, hrest, rfl⟩ := enumerate_eq_cons h hpoints
      have hlarger := hstep first following hnext
      have hlast := hmono h
      have hlength := ih hrest
      rw [List.length_cons]
      omega
    · rw [enumerate_past h] at hpoints
      obtain rfl := Option.some.inj hpoints
      exact Nat.zero_le _

section

variable {p : Periods α} {last first : α} {fuel : ℕ} {points : List α}

/-- **A period reaches from its start to the start of the following one.** -/
theorem Periods.start_eq_iff {following x : α} (hfirst : p.start first = first)
    (hnext : p.next first = some following) :
    p.start x = first ↔ first ≤ x ∧ x < following := by
  obtain ⟨⟨hstart, hlt⟩, hleast⟩ := p.next_start hfirst hnext
  constructor
  · rintro rfl
    refine ⟨p.start_le x, not_le.mp fun hle => ?_⟩
    have hback := p.start_mono hle
    rw [hstart] at hback
    exact absurd hback (not_le.mpr hlt)
  · rintro ⟨hfrom, hto⟩
    have hle := p.start_mono hfrom
    rw [hfirst] at hle
    rcases hle.eq_or_lt with heq | hless
    · exact heq.symm
    · have hpast := (hleast ⟨p.start_start x, hless⟩).trans (p.start_le x)
      exact absurd hpast (not_le.mpr hto)

/-- The enumeration fails only at a start from which no step leads on. -/
theorem isSome_enumerate (hfirst : p.start first = first)
    (h : ∀ x, p.start x = x → first ≤ x → x ≤ last → (p.next x).isSome) :
    (enumerate p.next last fuel first).isSome := by
  induction fuel generalizing first with
  | zero => rfl
  | succ fuel ih =>
    by_cases hle : first ≤ last
    · obtain ⟨following, hnext⟩ := Option.isSome_iff_exists.mp (h first hfirst (le_refl _) hle)
      obtain ⟨⟨hstart, hlt⟩, -⟩ := p.next_start hfirst hnext
      obtain ⟨rest, hrest⟩ := Option.isSome_iff_exists.mp
        (ih hstart fun x hx hle => h x hx (hlt.le.trans hle))
      rw [enumerate_succ hle, hnext, Option.bind_some, hrest]
      rfl
    · rw [enumerate_past hle]
      rfl

variable {rank : α → ℕ} (hrank : StrictMono rank) (hfuel : rank last < rank first + fuel)

include hrank hfuel

/-- **The starts of the periods between the two ends, and no other point.** -/
theorem mem_enumerate (hfirst : p.start first = first)
    (hpoints : enumerate p.next last fuel first = some points) {x : α} :
    x ∈ points ↔ p.start x = x ∧ first ≤ x ∧ x ≤ last := by
  induction fuel generalizing first points with
  | zero =>
    have hpast : last < first := hrank.lt_iff_lt.mp (by simpa using hfuel)
    obtain rfl := Option.some.inj hpoints
    exact iff_of_false List.not_mem_nil fun h => absurd (h.2.1.trans h.2.2) (not_le.mpr hpast)
  | succ fuel ih =>
    by_cases hle : first ≤ last
    · obtain ⟨following, rest, hnext, hrest, rfl⟩ := enumerate_eq_cons hle hpoints
      obtain ⟨⟨hstart, hlt⟩, hleast⟩ := p.next_start hfirst hnext
      have hless := hrank hlt
      rw [List.mem_cons, ih (by omega) hstart hrest]
      constructor
      · rintro (rfl | ⟨hx, hfrom, hto⟩)
        · exact ⟨hfirst, le_refl _, hle⟩
        · exact ⟨hx, hlt.le.trans hfrom, hto⟩
      · rintro ⟨hx, hfrom, hto⟩
        rcases hfrom.eq_or_lt with rfl | hfrom
        · exact .inl rfl
        · exact .inr ⟨hx, hleast ⟨hx, hfrom⟩, hto⟩
    · rw [enumerate_past hle] at hpoints
      obtain rfl := Option.some.inj hpoints
      exact iff_of_false List.not_mem_nil fun h => hle (h.2.1.trans h.2.2)

/-- **They come in order.** -/
theorem pairwise_enumerate (hfirst : p.start first = first)
    (hpoints : enumerate p.next last fuel first = some points) : points.Pairwise (· < ·) := by
  induction fuel generalizing first points with
  | zero =>
    obtain rfl := Option.some.inj hpoints
    exact List.Pairwise.nil
  | succ fuel ih =>
    by_cases hle : first ≤ last
    · obtain ⟨following, rest, hnext, hrest, rfl⟩ := enumerate_eq_cons hle hpoints
      obtain ⟨⟨hstart, hlt⟩, -⟩ := p.next_start hfirst hnext
      have hless := hrank hlt
      refine List.pairwise_cons.mpr ⟨fun x hx => ?_, ih (by omega) hstart hrest⟩
      exact hlt.trans_le ((mem_enumerate hrank (by omega) hstart hrest).mp hx).2.1
    · rw [enumerate_past hle] at hpoints
      obtain rfl := Option.some.inj hpoints
      exact List.Pairwise.nil

end

/-- **The period of every point between the two ends is among them.** -/
theorem start_mem_enumerate {p : Periods α} {rank : α → ℕ} (hrank : StrictMono rank)
    {earliest last : α} {fuel : ℕ} {points : List α}
    (hfuel : rank last < rank (p.start earliest) + fuel)
    (hpoints : enumerate p.next last fuel (p.start earliest) = some points) {x : α}
    (hfrom : earliest ≤ x) (hto : x ≤ last) : p.start x ∈ points :=
  (mem_enumerate hrank hfuel (p.start_start _) hpoints).mpr
    ⟨p.start_start x, p.start_mono hfrom, (p.start_le x).trans hto⟩

end WPanel.Lib
