import Mathlib.Data.Nat.Notation

namespace WPanel.Lib

/-!
# Caches with a version number in every key

A cache whose entries are stored under a version number, so that raising the number makes all of
them stale at once.  The number is itself a row of the cache: it counts as `1` until it is there,
and raising it before that sets it to `2`.

* `Versioned` — the number and the entries;
* `lookup` — one step of `get_or_set`, which reads the number and writes `1` when there is none;
* `incr`, `setTwo` — the two ways of raising it;
* `Keeps` — every entry was stored under a number that has begun, and is good for that number;
* `Keeps.remember`, `Keeps.lookup`, `Keeps.incr`, `Keeps.setTwo`, `Keeps.drop` — the operations
  keep it, where what is good may be chosen anew for a number that begins.
-/

/-- A cache of answers `ν` to questions `κ`. -/
structure Versioned (κ ν : Type) where
  version : Option ℕ := none
  entries : List ((ℕ × κ) × ν) := []
  deriving DecidableEq, Repr

/-- How far `get_or_set` has come: it reads, adds the default when there was nothing, and reads
    again. -/
inductive Lookup where
  | get
  | add
  | again
  deriving DecidableEq, Repr

namespace Versioned

variable {κ ν : Type} (c : Versioned κ ν)

/-- The number that counts. -/
def current : ℕ := c.version.getD 1

/-- A step of `get_or_set(version, 1)`: how it goes on, or the number it has read. -/
def lookup : Lookup → Versioned κ ν × (Lookup ⊕ ℕ)
  | .get =>
    match c.version with
    | some v => (c, .inr v)
    | none => (c, .inl .add)
  | .add => ({ c with version := some c.current }, .inl .again)
  | .again => (c, .inr c.current)

/-- `incr(version)`, which fails when there is no number. -/
def incr : Option (Versioned κ ν) := c.version.map fun v => { c with version := some (v + 1) }

/-- `set(version, 2)`. -/
def setTwo : Versioned κ ν := { c with version := some 2 }

/-- The answer stored under a number. -/
def recalled [DecidableEq κ] (v : ℕ) (question : κ) : Option ν :=
  (c.entries.find? fun entry => entry.1 = (v, question)).map Prod.snd

/-- An answer is stored under a number. -/
def remember (v : ℕ) (question : κ) (answer : ν) : Versioned κ ν :=
  { c with entries := ((v, question), answer) :: c.entries }

/-- An entry is dropped: its time is over, or the room is needed. -/
def drop [DecidableEq κ] (v : ℕ) (question : κ) : Versioned κ ν :=
  { c with entries := c.entries.filter fun entry => entry.1 ≠ (v, question) }

/-- Nothing is stored under the number that counts. -/
def Unused : Prop := ∀ entry ∈ c.entries, entry.1.1 ≠ c.current

/-- **Every entry is good** for the number it was stored under, which has begun. -/
def Keeps (good : ℕ → ν → Prop) : Prop :=
  ∀ entry ∈ c.entries, entry.1.1 ≤ c.current ∧ good entry.1.1 entry.2

variable {c} {good : ℕ → ν → Prop}

theorem Keeps.empty : Keeps ({} : Versioned κ ν) good := by
  intro entry hmem
  cases hmem

/-- What is recalled is good. -/
theorem Keeps.recalled [DecidableEq κ] (h : c.Keeps good) {v : ℕ} {question : κ} {answer : ν}
    (hrecall : c.recalled v question = some answer) : good v answer := by
  obtain ⟨entry, hfind, rfl⟩ := Option.map_eq_some_iff.mp hrecall
  have hgood := (h entry (List.mem_of_find?_eq_some hfind)).2
  have hkey : entry.1 = (v, question) := by simpa using List.find?_some hfind
  rwa [hkey] at hgood

theorem Keeps.remember (h : c.Keeps good) {v : ℕ} (question : κ) {answer : ν}
    (hv : v ≤ c.current) (hgood : good v answer) : (c.remember v question answer).Keeps good := by
  intro entry hmem
  rcases List.mem_cons.mp hmem with rfl | hmem
  · exact ⟨hv, hgood⟩
  · exact h entry hmem

/-- Nothing is stored under the number that counts, where something was stored under an earlier
    one. -/
theorem Unused.remember (h : c.Unused) {v : ℕ} (question : κ) (answer : ν) (hv : v ≠ c.current) :
    (c.remember v question answer).Unused := by
  intro entry hmem
  rcases List.mem_cons.mp hmem with rfl | hmem
  · exact hv
  · exact h entry hmem

theorem Keeps.drop [DecidableEq κ] (h : c.Keeps good) (v : ℕ) (question : κ) :
    (c.drop v question).Keeps good :=
  fun entry hmem => h entry ((List.mem_filter.mp hmem).1)

theorem Unused.drop [DecidableEq κ] (h : c.Unused) (v : ℕ) (question : κ) :
    (c.drop v question).Unused :=
  fun entry hmem => h entry ((List.mem_filter.mp hmem).1)

/-! ### Reading the number -/

theorem entries_lookup (step : Lookup) : (c.lookup step).1.entries = c.entries := by
  cases step with
  | get =>
    unfold lookup
    dsimp only
    split <;> rfl
  | add => rfl
  | again => rfl

/-- Reading the number does not raise it. -/
theorem current_lookup (step : Lookup) : (c.lookup step).1.current = c.current := by
  cases step with
  | get =>
    unfold lookup
    dsimp only
    split <;> rfl
  | add => rfl
  | again => rfl

/-- What is read is the number that counts. -/
theorem eq_current_of_lookup {step : Lookup} {v : ℕ} (h : (c.lookup step).2 = .inr v) :
    v = c.current := by
  cases step with
  | get =>
    unfold Versioned.lookup at h
    dsimp only at h
    split at h
    · next v' hversion =>
      cases h
      rw [current, hversion]
      rfl
    · cases h
  | add => cases h
  | again => exact (Sum.inr.inj h).symm

theorem Keeps.lookup (h : c.Keeps good) (step : Lookup) : (c.lookup step).1.Keeps good := by
  unfold Keeps
  rw [entries_lookup, current_lookup]
  exact h

theorem Unused.lookup (h : c.Unused) (step : Lookup) : (c.lookup step).1.Unused := by
  unfold Unused
  rw [entries_lookup, current_lookup]
  exact h

/-! ### Raising the number -/

/-- A cache with the next number begun. -/
structure Raised (c c' : Versioned κ ν) : Prop where
  current : c'.current = c.current + 1
  entries : c'.entries = c.entries

theorem raised_of_incr {c' : Versioned κ ν} (h : c.incr = some c') : Raised c c' := by
  obtain ⟨v, hversion, rfl⟩ := Option.map_eq_some_iff.mp h
  refine ⟨?_, rfl⟩
  rw [current, current, hversion]
  rfl

/-- Setting the number to `2` raises it, unless it has been raised before. -/
theorem raised_setTwo (h : c.current = 1) : Raised c c.setTwo where
  current := by rw [h]; rfl
  entries := rfl

/-- Nothing is stored under a number that has just begun. -/
theorem Raised.unused {c' : Versioned κ ν} (hraised : Raised c c') (h : c.Keeps good) :
    c'.Unused := by
  intro entry hmem
  rw [hraised.entries] at hmem
  have hle := (h entry hmem).1
  rw [hraised.current]
  omega

/-- **Raising the number keeps every entry good**, whatever is good for the new one. -/
theorem Raised.keeps {c' : Versioned κ ν} {good' : ℕ → ν → Prop} (hraised : Raised c c')
    (h : c.Keeps good) (hgood : ∀ v answer, v ≤ c.current → good v answer → good' v answer) :
    c'.Keeps good' := by
  intro entry hmem
  rw [hraised.entries] at hmem
  obtain ⟨hle, hentry⟩ := h entry hmem
  rw [hraised.current]
  exact ⟨by omega, hgood _ _ hle hentry⟩

/-- What is good for a number nothing is stored under may be chosen anew. -/
theorem Unused.keeps {good' : ℕ → ν → Prop} (hunused : c.Unused) (h : c.Keeps good)
    (hgood : ∀ v answer, v ≠ c.current → good v answer → good' v answer) : c.Keeps good' := by
  intro entry hmem
  obtain ⟨hle, hentry⟩ := h entry hmem
  exact ⟨hle, hgood _ _ (hunused entry hmem) hentry⟩

end Versioned

end WPanel.Lib
