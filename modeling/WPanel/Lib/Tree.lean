import Mathlib.Data.List.Induction

namespace WPanel.Lib

/-!
# Trees of paths

What is at every path of a file system, so that two trees are the same when they hold the same
everywhere.  A path is a list of names, and `[]` is the root.

* `Node`, `Disk` — a folder or a file at a path;
* `Disk.sub`, `Disk.erase`, `Disk.put` — what is at a path and below it;
* `Disk.move`, `Disk.copy` — from one path to another;
* `Disk.Closed` — there is a folder around everything;
* `Closed.put`, `Closed.erase`, `Closed.move`, … — which every operation keeps;
* `Closed.none_of_prefixed` — below a path that holds nothing, there is nothing;
* `move_move`, `copy_move` — two steps through a free place are one.
-/

universe u

inductive Node (α : Type u) where
  | folder
  | file (content : α)
  deriving DecidableEq, Repr

/-- What is at a path, if there is anything. -/
abbrev Disk (α : Type u) := List String → Option (Node α)

namespace Disk

variable {α : Type u} (t : Disk α)

/-- What is below a path, seen from there. -/
def sub (p : List String) : Disk α := fun r => t (p ++ r)

/-- A tree without what is at a path and below it. -/
def erase (p : List String) : Disk α := fun q => if p <+: q then none else t q

/-- A tree with another in the place of what was at a path and below it. -/
def put (p : List String) (s : Disk α) : Disk α :=
  fun q => if p <+: q then s (q.drop p.length) else t q

/-- What is at `p` is at `q` instead, in the place of what was there. -/
def move (p q : List String) : Disk α := (t.erase p).put q (t.sub p)

/-- What is at `p` is at `q` as well, in the place of what was there. -/
def copy (p q : List String) : Disk α := t.put q (t.sub p)

/-- A folder with nothing in it. -/
def emptyFolder : Disk α := fun r => if r = [] then some .folder else none

/-- The root is a folder, and what is anywhere is in a folder. -/
structure Closed : Prop where
  root : t [] = some .folder
  around : ∀ p k, t (p ++ [k]) ≠ none → t p = some .folder

variable {t} {s : Disk α} {p q : List String}

theorem put_append (r : List String) : (t.put p s) (p ++ r) = s r := by
  rw [put, if_pos (List.prefix_append p r), List.drop_left]

theorem put_of_not_prefixed (h : ¬p <+: q) : (t.put p s) q = t q := if_neg h

theorem erase_of_not_prefixed (h : ¬p <+: q) : (t.erase p) q = t q := if_neg h

theorem erase_of_prefixed (h : p <+: q) : (t.erase p) q = none := if_pos h

@[simp] theorem sub_put : (t.put p s).sub p = s := by
  funext r
  exact put_append r

@[simp] theorem erase_put : (t.put p s).erase p = t.erase p := by
  funext q
  by_cases h : p <+: q
  · rw [erase_of_prefixed h, erase_of_prefixed h]
  · rw [erase_of_not_prefixed h, erase_of_not_prefixed h, put_of_not_prefixed h]

/-- What is put at a path is there. -/
theorem put_self : (t.put p s) p = s [] := by
  have := put_append (t := t) (s := s) (p := p) []
  rwa [List.append_nil] at this

/-- Below where something was moved to, there is what was below where it came from. -/
theorem move_append (r : List String) : (t.move p q) (q ++ r) = t (p ++ r) := put_append r

theorem move_self : (t.move p q) q = t p := by
  rw [move, put_self, sub, List.append_nil]

theorem move_of_not_prefixed {x : List String} (hq : ¬q <+: x) (hp : ¬p <+: x) :
    (t.move p q) x = t x := by
  rw [move, put_of_not_prefixed hq, erase_of_not_prefixed hp]

/-- Where something was moved from, nothing is left. -/
theorem move_source (h : ¬q <+: p) : (t.move p q) p = none := by
  rw [move, put_of_not_prefixed h, erase_of_prefixed (List.prefix_refl p)]

theorem copy_append (r : List String) : (t.copy p q) (q ++ r) = t (p ++ r) := put_append r

theorem copy_self : (t.copy p q) q = t p := by
  rw [copy, put_self, sub, List.append_nil]

theorem copy_of_not_prefixed {x : List String} (hq : ¬q <+: x) : (t.copy p q) x = t x :=
  put_of_not_prefixed hq

namespace Closed

/-- Whatever is strictly above something is a folder. -/
theorem folder_of_prefixed (h : t.Closed) (hq : t q ≠ none) (hpq : p <+: q) (hne : p ≠ q) :
    t p = some .folder := by
  obtain ⟨r, rfl⟩ := hpq
  induction r using List.reverseRecOn with
  | nil => exact absurd (List.append_nil p).symm hne
  | append_singleton r k ih =>
    rw [← List.append_assoc] at hq
    have hparent := h.around (p ++ r) k hq
    by_cases hr : r = []
    · rwa [hr, List.append_nil] at hparent
    · refine ih (by rw [hparent]; exact Option.some_ne_none _) fun heq => hr ?_
      simpa using heq

/-- Below a path that holds nothing, there is nothing. -/
theorem none_of_prefixed (h : t.Closed) (hp : t p = none) (hpq : p <+: q) : t q = none := by
  refine Classical.byContradiction fun hq => ?_
  by_cases heq : p = q
  · exact hq (heq ▸ hp)
  · rw [h.folder_of_prefixed hq hpq heq] at hp
    cases hp

/-- What is closed in itself, put into a folder, keeps a tree closed. -/
theorem put {k : String} (h : t.Closed) (hp : t p = some .folder)
    (hs : ∀ r k', s (r ++ [k']) ≠ none → s r = some .folder) :
    (t.put (p ++ [k]) s).Closed where
  root := by
    rw [put_of_not_prefixed, h.root]
    intro hnil
    simpa using List.prefix_nil.mp hnil
  around q k' hq := by
    have hsame : ∀ x, ¬p ++ [k] <+: x → (t.put (p ++ [k]) s) x = t x :=
      fun x hx => put_of_not_prefixed hx
    by_cases hnew : p ++ [k] <+: q ++ [k']
    · -- either what was put itself, or something in it
      rcases List.prefix_concat_iff.mp hnew with heq | hbelow
      · obtain ⟨rfl, -⟩ := List.append_inj' heq rfl
        rw [hsame _ fun hx => absurd hx.length_le (by simp), hp]
      · obtain ⟨r, rfl⟩ := hbelow
        rw [List.append_assoc, put_append] at hq
        rw [put_append]
        exact hs r k' hq
    · rw [hsame _ hnew] at hq
      rw [hsame _ fun hx => hnew (hx.trans (List.prefix_append q [k'])), h.around q k' hq]

/-- A new folder in a folder keeps a tree closed. -/
theorem put_emptyFolder {k : String} (h : t.Closed) (hp : t p = some .folder) :
    (t.put (p ++ [k]) emptyFolder).Closed :=
  h.put hp fun _ _ hr => absurd (if_neg (by simp)) hr

/-- Anything but the root may be erased. -/
theorem erase (h : t.Closed) (hp : p ≠ []) : (t.erase p).Closed where
  root := (erase_of_not_prefixed fun hnil => hp (List.prefix_nil.mp hnil)).trans h.root
  around q k hq := by
    have hout : ¬p <+: q ++ [k] := fun hin => hq (erase_of_prefixed hin)
    rw [erase_of_not_prefixed hout] at hq
    rw [erase_of_not_prefixed fun hin => hout (hin.trans (List.prefix_append q [k])),
      h.around q k hq]

/-- What is below a path of a closed tree is closed in itself. -/
theorem sub (h : t.Closed) (p r : List String) (k : String) (hr : t.sub p (r ++ [k]) ≠ none) :
    t.sub p r = some .folder := h.around (p ++ r) k (by rwa [List.append_assoc])

/-- A move into a folder elsewhere keeps a tree closed. -/
theorem move {k : String} (h : t.Closed) (hp : p ≠ []) (hq : t q = some .folder)
    (hout : ¬p <+: q) : (t.move p (q ++ [k])).Closed :=
  (h.erase hp).put ((erase_of_not_prefixed hout).trans hq) (h.sub p)

theorem copy {k : String} (h : t.Closed) (hq : t q = some .folder) :
    (t.copy p (q ++ [k])).Closed := h.put hq (h.sub p)

/-- There is nothing to erase at a free path. -/
theorem erase_of_none (h : t.Closed) (hp : t p = none) : t.erase p = t := by
  funext q
  by_cases hpq : p <+: q
  · rw [erase_of_prefixed hpq, h.none_of_prefixed hp hpq]
  · exact erase_of_not_prefixed hpq

end Closed

/-- **Two moves through a free place are one.** -/
theorem move_move {m : List String} (h : t.Closed) (hm : t m = none) :
    (t.move p m).move m q = t.move p q := by
  have hfree : (t.erase p).erase m = t.erase p := by
    funext x
    by_cases hx : m <+: x
    · rw [erase_of_prefixed hx, erase]
      split
      · rfl
      · exact (h.none_of_prefixed hm hx).symm
    · exact erase_of_not_prefixed hx
  rw [move, move, erase_put, sub_put, hfree]
  rfl

/-- **A copy into a free place that is then moved is a copy.** -/
theorem copy_move {m : List String} (h : t.Closed) (hm : t m = none) :
    (t.copy p m).move m q = t.copy p q := by
  rw [copy, move, erase_put, sub_put, h.erase_of_none hm]
  rfl

end Disk

end WPanel.Lib
