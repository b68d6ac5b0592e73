import Mathlib.Data.List.Nodup

namespace WPanel.Lib

/-!
# Dictionaries

Finite maps from texts, as a program keeps them: a list of entries in the order in which they were
added.

* `Dict.get?`, `Dict.set`, `Dict.delete`, `Dict.update` — the operations;
* `Dict.Unique` — no key has two entries, which every operation keeps;
* `get?_set`, `get?_keep`, `get?_update_of_mem`, … — what is found under a key afterwards.
-/

universe u

/-- The entries of a dictionary. -/
abbrev Dict (α : Type u) := List (String × α)

namespace Dict

variable {α : Type u} (d : Dict α)

def get? (key : String) : Option α := d.lookup key

def keys : List String := d.map Prod.fst

/-- `d[key] = value`: in the place of the old entry, or at the end. -/
def set (key : String) (value : α) : Dict α :=
  if key ∈ keys d then d.map fun e => if e.1 = key then (key, value) else e
  else d ++ [(key, value)]

/-- The entries whose keys pass a test. -/
def keep (p : String → Bool) : Dict α := d.filter fun e => p e.1

/-- `del d[key]`. -/
def delete (key : String) : Dict α := keep d (· ≠ key)

/-- `d.update(entries)`. -/
def update (entries : Dict α) : Dict α := entries.foldl (fun d e => set d e.1 e.2) d

/-- No key has two entries. -/
def Unique : Prop := (keys d).Nodup

variable {d} {key k : String} {value : α}

theorem get?_cons (e : String × α) (d : Dict α) (k : String) :
    get? (e :: d) k = if k = e.1 then some e.2 else get? d k := by
  unfold get?
  rw [List.lookup_cons]
  by_cases h : k = e.1
  · simp [h]
  · rw [if_neg h, (beq_eq_false_iff_ne).mpr h]

theorem get?_append (d d' : Dict α) (k : String) :
    get? (d ++ d') k = (get? d k).or (get? d' k) := by
  induction d with
  | nil => rfl
  | cons e d ih =>
    rw [List.cons_append, get?_cons, get?_cons]
    split
    · rfl
    · exact ih

theorem get?_ne_none : get? d k ≠ none ↔ k ∈ keys d := by
  induction d with
  | nil => simp [get?, keys]
  | cons e d ih =>
    rw [get?_cons]
    split
    · next h => simp [keys, h]
    · next h => simpa [keys, h] using ih

theorem get?_eq_none : get? d k = none ↔ k ∉ keys d := by
  rw [← get?_ne_none, not_not]

theorem mem_of_get? (h : get? d k = some value) : (k, value) ∈ d := by
  induction d with
  | nil => cases h
  | cons e d ih =>
    rw [get?_cons] at h
    split at h
    · next heq =>
      cases h
      rw [heq]
      exact List.mem_cons_self
    · exact List.mem_cons_of_mem _ (ih h)

/-! ### One key -/

theorem keys_map_set (d : Dict α) (key : String) (value : α) :
    keys (d.map fun e => if e.1 = key then (key, value) else e) = keys d := by
  unfold keys
  rw [List.map_map]
  refine List.map_congr_left fun e _ => ?_
  by_cases h : e.1 = key <;> simp [h]

theorem mem_keys_set : k ∈ keys (set d key value) ↔ k = key ∨ k ∈ keys d := by
  unfold set
  split
  · next h =>
    rw [keys_map_set]
    constructor
    · exact .inr
    · rintro (rfl | hk)
      · exact h
      · exact hk
  · rw [keys, List.map_append, List.mem_append]
    simp [keys, or_comm]

theorem Unique.set (hd : Unique d) (key : String) (value : α) : Unique (set d key value) := by
  unfold Unique Dict.set
  split
  · rwa [keys_map_set]
  · next h =>
    rw [keys, List.map_append]
    refine List.nodup_append.mpr ⟨hd, List.nodup_singleton key, fun a ha b hb heq => h ?_⟩
    have hb' : b = key := List.mem_singleton.mp hb
    rwa [← hb', ← heq]

private theorem get?_map_set (h : key ∈ keys d) :
    get? (d.map fun e => if e.1 = key then (key, value) else e) k
      = if k = key then some value else get? d k := by
  induction d with
  | nil => cases h
  | cons e d ih =>
    rw [List.map_cons, get?_cons, get?_cons]
    by_cases hkey : key ∈ keys d
    · rw [ih hkey]
      by_cases he : e.1 = key
      · by_cases hk : k = key <;> simp [he, hk]
      · by_cases hk : k = key
        · subst hk
          rw [if_neg he, if_neg fun heq => he heq.symm, if_pos rfl, if_pos rfl]
        · rw [if_neg he, if_neg hk, if_neg hk]
    · -- the first entry is the one
      have he : e.1 = key := ((List.mem_cons.mp h).resolve_right hkey).symm
      have hsame : (d.map fun e => if e.1 = key then (key, value) else e) = d := by
        refine (List.map_congr_left fun e' he' => ?_).trans (List.map_id d)
        refine if_neg fun heq => hkey ?_
        rw [← heq]
        exact List.mem_map_of_mem he'
      rw [hsame, if_pos he, he]
      by_cases hk : k = key <;> simp [hk]

/-- What is set is found under its key, and the rest is as before. -/
theorem get?_set : get? (set d key value) k = if k = key then some value else get? d k := by
  unfold set
  split
  · next h => exact get?_map_set h
  · next h =>
    rw [get?_append]
    by_cases hk : k = key
    · rw [if_pos hk, hk, get?_eq_none.mpr h, get?_cons, if_pos rfl]
      rfl
    · rw [if_neg hk, get?_cons, if_neg hk]
      exact Option.or_none

/-- The only entry of the key is the one that was set. -/
theorem eq_of_mem_set {value' : α} (h : (key, value') ∈ set d key value) : value' = value := by
  unfold set at h
  split at h
  · obtain ⟨e, -, heq⟩ := List.mem_map.mp h
    split at heq
    · exact (Prod.mk.inj heq).2.symm
    · next hne => exact absurd (congrArg Prod.fst heq) hne
  · next hnew =>
    rcases List.mem_append.mp h with hold | hlast
    · exact absurd (List.mem_map.mpr ⟨_, hold, rfl⟩) hnew
    · exact (Prod.mk.inj (List.mem_singleton.mp hlast)).2

/-- An entry is the one that was set, or was there before. -/
theorem mem_of_mem_set {e : String × α} (h : e ∈ set d key value) : e = (key, value) ∨ e ∈ d := by
  unfold set at h
  split at h
  · obtain ⟨e', he', rfl⟩ := List.mem_map.mp h
    split
    · exact .inl rfl
    · exact .inr he'
  · exact (List.mem_append.mp h).symm.imp_left List.mem_singleton.mp

/-! ### Several keys -/

theorem mem_keys_keep {p : String → Bool} : k ∈ keys (keep d p) ↔ k ∈ keys d ∧ p k = true := by
  simp only [keys, keep, List.mem_map, List.mem_filter]
  constructor
  · rintro ⟨e, ⟨he, hp⟩, rfl⟩
    exact ⟨⟨e, he, rfl⟩, hp⟩
  · rintro ⟨⟨e, he, rfl⟩, hp⟩
    exact ⟨e, ⟨he, hp⟩, rfl⟩

theorem Unique.keep (hd : Unique d) (p : String → Bool) : Unique (keep d p) :=
  (List.filter_sublist.map Prod.fst).nodup hd

theorem get?_keep {p : String → Bool} : get? (keep d p) k = if p k then get? d k else none := by
  induction d with
  | nil => simp [keep, get?]
  | cons e d ih =>
    unfold keep at ih ⊢
    by_cases he : p e.1 = true
    · rw [List.filter_cons_of_pos (by exact he), get?_cons, get?_cons, ih]
      by_cases hk : k = e.1
      · rw [if_pos hk, hk, if_pos he, if_pos rfl]
      · rw [if_neg hk, if_neg hk]
    · rw [List.filter_cons_of_neg (by exact he), ih, get?_cons]
      by_cases hk : k = e.1
      · rw [hk, if_neg he, if_neg he]
      · rw [if_neg hk]

theorem get?_delete : get? (delete d key) k = if k = key then none else get? d k := by
  rw [delete, get?_keep]
  by_cases hk : k = key <;> simp [hk]

theorem mem_keys_update {entries : Dict α} :
    k ∈ keys (update d entries) ↔ k ∈ keys d ∨ k ∈ keys entries := by
  induction entries generalizing d with
  | nil => simp [update, keys]
  | cons e entries ih =>
    rw [update, List.foldl_cons]
    refine (ih (d := d.set e.1 e.2)).trans ?_
    have hcons : k ∈ keys (e :: entries) ↔ k = e.1 ∨ k ∈ keys entries := List.mem_cons
    rw [mem_keys_set, hcons, or_assoc, or_left_comm]

theorem Unique.update (hd : Unique d) (entries : Dict α) : Unique (update d entries) := by
  induction entries generalizing d with
  | nil => exact hd
  | cons e entries ih => exact ih (hd.set e.1 e.2)

/-- What is not among the entries is as before. -/
theorem get?_update_of_not_mem {entries : Dict α} (h : k ∉ keys entries) :
    get? (update d entries) k = get? d k := by
  induction entries generalizing d with
  | nil => rfl
  | cons e entries ih =>
    rw [keys, List.map_cons, List.mem_cons, not_or] at h
    rw [update, List.foldl_cons]
    refine (ih (d := d.set e.1 e.2) h.2).trans ?_
    rw [get?_set, if_neg h.1]

/-- An entry whose key is that of no other is found. -/
theorem get?_update_of_mem {entries : Dict α} (h : Unique entries) (hmem : (k, value) ∈ entries) :
    get? (update d entries) k = some value := by
  induction entries generalizing d with
  | nil => cases hmem
  | cons e entries ih =>
    rw [Unique, keys, List.map_cons, List.nodup_cons] at h
    rw [update, List.foldl_cons]
    rcases List.mem_cons.mp hmem with rfl | hmem
    · refine (get?_update_of_not_mem h.1).trans ?_
      rw [get?_set, if_pos rfl]
    · exact ih (d := d.set e.1 e.2) h.2 hmem

end Dict

end WPanel.Lib
