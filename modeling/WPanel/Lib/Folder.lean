namespace WPanel.Lib

/-!
# Folders

A file tree: what is in a folder, by name.  A path is a list of names.

* `Folder.find?`, `Folder.put`, `Folder.erase` — one name of a folder;
* `Folder.get` — the content of the file at a path;
* `Folder.at?`, `Folder.update`, `Folder.remove`, `Folder.write`, `Folder.makeFolder` — a place
  further down;
* `get_remove`, `get_update`, `get_write` — what these leave at every other path;
* `Folder.Tidy` — no folder holds two things of one name;
* `Folder.twoFiles`, `Folder.freshName` — a folder to try something on, with a name that is free.
-/

universe u

/-- What is in a folder: files and folders, each with its name. -/
inductive Folder (α : Type u) where
  | empty
  | file (name : String) (content : α) (rest : Folder α)
  | sub (name : String) (inner rest : Folder α)
  deriving DecidableEq, Repr

namespace Folder

variable {α : Type u}

instance : Inhabited (Folder α) := ⟨.empty⟩

/-! ### One name -/

/-- What is in a folder under a name: a file or a folder. -/
def find? : Folder α → String → Option (α ⊕ Folder α)
  | .empty, _ => none
  | .file n c rest, k => if k = n then some (.inl c) else rest.find? k
  | .sub n inner rest, k => if k = n then some (.inr inner) else rest.find? k

/-- The names in a folder. -/
def names : Folder α → List String
  | .empty => []
  | .file n _ rest => n :: rest.names
  | .sub n _ rest => n :: rest.names

/-- A folder without what it holds under a name. -/
def erase (k : String) : Folder α → Folder α
  | .empty => .empty
  | .file n c rest => if k = n then rest.erase k else .file n c (rest.erase k)
  | .sub n inner rest => if k = n then rest.erase k else .sub n inner (rest.erase k)

/-- A folder with a file or a folder under a name, instead of what it held there. -/
def put (k : String) (node : α ⊕ Folder α) (f : Folder α) : Folder α :=
  match node with
  | .inl c => .file k c (f.erase k)
  | .inr g => .sub k g (f.erase k)

theorem find?_erase (f : Folder α) (k m : String) :
    (f.erase k).find? m = if m = k then none else f.find? m := by
  induction f with
  | empty => simp [erase, find?]
  | file n c rest ih =>
    unfold erase
    by_cases hk : k = n <;> by_cases hm : m = n <;> grind [find?]
  | sub n inner rest _ ih =>
    unfold erase
    by_cases hk : k = n <;> by_cases hm : m = n <;> grind [find?]

theorem find?_put (f : Folder α) (k m : String) (node : α ⊕ Folder α) :
    (f.put k node).find? m = if m = k then some node else f.find? m := by
  cases node <;> simp only [put, find?, find?_erase] <;> split <;> rfl

/-- The names of a folder are those under which something is found. -/
theorem mem_names {f : Folder α} {k : String} : k ∈ f.names ↔ f.find? k ≠ none := by
  induction f with
  | empty => simp [names, find?]
  | file n c rest ih => grind [names, find?]
  | sub n inner rest _ ih => grind [names, find?]

/-! ### Paths -/

/-- The content of the file at a path. -/
def get : Folder α → List String → Option α
  | _, [] => none
  | f, k :: q =>
    match f.find? k with
    | none => none
    | some (.inl c) => if q = [] then some c else none
    | some (.inr g) => g.get q

/-- The folder at a path. -/
def at? : Folder α → List String → Option (Folder α)
  | f, [] => some f
  | f, k :: q =>
    match f.find? k with
    | some (.inr g) => g.at? q
    | _ => none

/-- Change the folder at a path, if there is one. -/
def update : List String → (Folder α → Folder α) → Folder α → Folder α
  | [], u, f => u f
  | k :: q, u, f =>
    match f.find? k with
    | some (.inr g) => f.put k (.inr (g.update q u))
    | _ => f

/-- Delete the file or the folder at a path; a folder cannot be deleted from inside. -/
def remove : List String → Folder α → Folder α
  | [], f => f
  | [k], f => f.erase k
  | k :: q, f =>
    match f.find? k with
    | some (.inr g) => f.put k (.inr (g.remove q))
    | _ => f

/-- Write a file at a path.  The folders on the way are made, and whatever is in the way is
    replaced. -/
def write : List String → α → Folder α → Folder α
  | [], _, f => f
  | [k], c, f => f.put k (.inl c)
  | k :: q, c, f =>
    match f.find? k with
    | some (.inr g) => f.put k (.inr (g.write q c))
    | _ => f.put k (.inr (Folder.empty.write q c))

section

attribute [local simp] find? get at? update remove write

@[simp] theorem get_nil (f : Folder α) : f.get [] = none := by
  simp

@[simp] theorem get_empty (p : List String) : (Folder.empty : Folder α).get p = none := by
  cases p <;> simp

end

/-- Two folders that hold the same under a name agree on every path that starts with it. -/
theorem get_congr {f g : Folder α} {k : String} (h : f.find? k = g.find? k) (q : List String) :
    f.get (k :: q) = g.get (k :: q) := by
  simp only [get, h]

theorem get_put_of_ne (f : Folder α) {k m : String} (node : α ⊕ Folder α) (q : List String)
    (h : m ≠ k) : (f.put k node).get (m :: q) = f.get (m :: q) :=
  get_congr (by rw [find?_put, if_neg h]) q

theorem get_put_sub (f g : Folder α) (k : String) (q : List String) :
    (f.put k (.inr g)).get (k :: q) = g.get q := by
  simp only [get, find?_put, if_true]

theorem get_put_file (f : Folder α) (k : String) (c : α) (q : List String) :
    (f.put k (.inl c)).get (k :: q) = if q = [] then some c else none := by
  simp only [get, find?_put, if_true]

theorem get_of_sub {f g : Folder α} {k : String} (h : f.find? k = some (.inr g))
    (q : List String) : f.get (k :: q) = g.get q := by
  simp only [get, h]

/-- There is no file inside what is no folder. -/
theorem get_of_not_sub {f : Folder α} {k : String} (h : ∀ g, f.find? k ≠ some (.inr g))
    {q : List String} (hq : q ≠ []) : f.get (k :: q) = none := by
  simp only [get]
  split
  · rfl
  · rw [if_neg hq]
  · next g hg => exact absurd hg (h g)

/-- **Deleting a path deletes the files there and below it, and no other.** -/
theorem get_remove (f : Folder α) {p : List String} (hp : p ≠ []) (q : List String) :
    (f.remove p).get q = if p <+: q then none else f.get q := by
  induction p generalizing f q with
  | nil => exact absurd rfl hp
  | cons k p ih =>
    cases q with
    | nil => simp
    | cons m q =>
      by_cases hm : m = k
      · subst hm
        cases p with
        | nil =>
          have : [m] <+: m :: q := ⟨q, rfl⟩
          rw [if_pos this, remove]
          simp [get, find?_erase]
        | cons k' p =>
          have hiff : m :: k' :: p <+: m :: q ↔ k' :: p <+: q := List.prefix_cons_inj m
          simp only [hiff, remove]
          cases hfind : f.find? m with
          | none => simp [get, hfind]
          | some node =>
            cases node with
            | inl c =>
              simp only [get, hfind]
              by_cases hq : q = []
              · subst hq
                simp
              · simp [hq]
            | inr g => rw [get_put_sub, get_of_sub hfind, ih g (by simp)]
      · have hnot : ¬k :: p <+: m :: q := fun h => hm (List.cons_prefix_cons.mp h).1.symm
        rw [if_neg hnot]
        cases p with
        | nil => exact get_congr (by rw [remove, find?_erase, if_neg hm]) q
        | cons k' p =>
          simp only [remove]
          split
          · exact get_put_of_ne _ _ _ hm
          · rfl

/-- Changing a folder changes nothing outside it. -/
theorem get_update_of_outside (f : Folder α) {p q : List String} (u : Folder α → Folder α)
    (h : ¬p <+: q) : (f.update p u).get q = f.get q := by
  induction p generalizing f q with
  | nil => exact absurd (List.nil_prefix) h
  | cons k p ih =>
    simp only [update]
    split
    · next g hfind =>
      cases q with
      | nil => simp
      | cons m q =>
        by_cases hm : m = k
        · subst hm
          rw [get_put_sub, get_of_sub hfind]
          exact ih g fun hpq => h ((List.prefix_cons_inj m).mpr hpq)
        · exact get_put_of_ne _ _ _ hm
    · rfl

/-- A path into a folder is followed from that folder. -/
theorem get_append {f g : Folder α} {p : List String} (hp : f.at? p = some g)
    (q : List String) : f.get (p ++ q) = g.get q := by
  induction p generalizing f with
  | nil =>
    cases hp
    rfl
  | cons k p ih =>
    simp only [at?] at hp
    split at hp
    · next inner hfind =>
      rw [List.cons_append, get_of_sub hfind]
      exact ih hp
    · cases hp

/-- A file further down is in a folder that is listed. -/
theorem at?_of_get {f : Folder α} {p q : List String} {k : String}
    (h : f.get (p ++ k :: q) ≠ none) : ∃ g, f.at? p = some g ∧ k ∈ g.names := by
  induction p generalizing f with
  | nil =>
    refine ⟨f, rfl, mem_names.mpr fun hnone => h ?_⟩
    simp [get, hnone]
  | cons m p ih =>
    rw [List.cons_append] at h
    cases hfind : f.find? m with
    | none => simp [get, hfind] at h
    | some node =>
      cases node with
      | inl c => simp [get, hfind] at h
      | inr g =>
        rw [get_of_sub hfind] at h
        obtain ⟨g', hg', hk⟩ := ih h
        exact ⟨g', by simpa only [at?, hfind] using hg', hk⟩

/-- **Writing a file changes nothing but that path**, where neither a file nor a folder stood
    in the way. -/
theorem get_write (f : Folder α) {p : List String} (hp : p ≠ []) (c : α) (q : List String) :
    (f.write p c).get q
      = if q = p then some c else if p <+: q ∨ q <+: p then none else f.get q := by
  induction p generalizing f q with
  | nil => exact absurd rfl hp
  | cons k p ih =>
    cases q with
    | nil => simp
    | cons m q =>
      by_cases hm : m = k
      · subst hm
        simp only [List.cons.injEq, true_and, List.prefix_cons_inj]
        cases p with
        | nil =>
          simp only [write, get_put_file]
          by_cases hq : q = [] <;> simp [hq]
        | cons k' p =>
          simp only [write]
          cases hfind : f.find? m with
          | none =>
            dsimp only
            rw [get_put_sub, ih _ (List.cons_ne_nil k' p)]
            simp [get, hfind]
          | some node =>
            cases node with
            | inl c' =>
              dsimp only
              rw [get_put_sub, ih _ (List.cons_ne_nil k' p)]
              by_cases hq : q = [] <;> simp [get, hfind, hq]
            | inr g => simp only [get_put_sub, ih _ (List.cons_ne_nil k' p), get_of_sub hfind]
      · have h1 : m :: q ≠ k :: p := fun h => hm (List.cons.inj h).1
        have h2 : ¬(k :: p <+: m :: q ∨ m :: q <+: k :: p) := by
          rintro (h | h)
          · exact hm (List.cons_prefix_cons.mp h).1.symm
          · exact hm (List.cons_prefix_cons.mp h).1
        rw [if_neg h1, if_neg h2]
        cases p with
        | nil => exact get_put_of_ne _ _ _ hm
        | cons k' p =>
          simp only [write]
          split <;> exact get_put_of_ne _ _ _ hm

/-! ### Folders further down -/

theorem at?_congr {f g : Folder α} {k : String} (h : f.find? k = g.find? k) (q : List String) :
    f.at? (k :: q) = g.at? (k :: q) := by
  simp only [at?, h]

theorem at?_of_sub {f g : Folder α} {k : String} (h : f.find? k = some (.inr g))
    (q : List String) : f.at? (k :: q) = g.at? q := by
  simp only [at?, h]

/-- A folder within a folder is found from there. -/
theorem at?_append {f g : Folder α} {p : List String} (hp : f.at? p = some g)
    (q : List String) : f.at? (p ++ q) = g.at? q := by
  induction p generalizing f with
  | nil =>
    cases hp
    rfl
  | cons k p ih =>
    simp only [at?] at hp
    split at hp
    · next inner hfind =>
      rw [List.cons_append, at?_of_sub hfind]
      exact ih hp
    · cases hp

/-- A path leads to a file or to a folder, not to both. -/
theorem at?_eq_none_of_get {f : Folder α} {p : List String} (h : f.get p ≠ none) :
    f.at? p = none := by
  induction p generalizing f with
  | nil => exact absurd (get_nil f) h
  | cons k p ih =>
    simp only [get] at h
    simp only [at?]
    cases hfind : f.find? k with
    | none => rfl
    | some node =>
      cases node with
      | inl c => rfl
      | inr g =>
        rw [hfind] at h
        exact ih h

theorem at?_put_of_ne (f : Folder α) {k m : String} (node : α ⊕ Folder α) (q : List String)
    (h : m ≠ k) : (f.put k node).at? (m :: q) = f.at? (m :: q) :=
  at?_congr (by rw [find?_put, if_neg h]) q

theorem at?_put_sub (f g : Folder α) (k : String) (q : List String) :
    (f.put k (.inr g)).at? (k :: q) = g.at? q := by
  simp only [at?, find?_put, if_true]

theorem at?_put_file (f : Folder α) (k : String) (c : α) (q : List String) :
    (f.put k (.inl c)).at? (k :: q) = none := by
  simp only [at?, find?_put, if_true]

/-- Erasing a name brings no folder in. -/
theorem at?_of_erase {f : Folder α} {k : String} {q : List String}
    (h : (f.erase k).at? q ≠ none) : f.at? q ≠ none := by
  cases q with
  | nil => simp [at?]
  | cons m q =>
    by_cases hm : m = k
    · exact absurd (by simp only [at?, find?_erase, if_pos hm]) h
    · have hfind : (f.erase k).find? m = f.find? m := by rw [find?_erase, if_neg hm]
      rwa [at?_congr hfind] at h

/-- Writing a file brings no folder in. -/
theorem at?_of_put_file {f : Folder α} {k : String} {c : α} {q : List String}
    (h : (f.put k (.inl c)).at? q ≠ none) : f.at? q ≠ none := by
  cases q with
  | nil => simp [at?]
  | cons m q =>
    by_cases hm : m = k
    · subst hm
      exact absurd (at?_put_file f m c q) h
    · rwa [at?_put_of_ne _ _ _ hm] at h

/-- The folders after a file is written are those before, and those on the way to it. -/
theorem at?_write {f : Folder α} {p q : List String} {c : α} (h : (f.write p c).at? q ≠ none) :
    f.at? q ≠ none ∨ q <+: p ∧ q ≠ p := by
  induction p generalizing f q with
  | nil => exact .inl h
  | cons k p ih =>
    cases q with
    | nil => exact .inl (by simp [at?])
    | cons m q =>
      by_cases hm : m = k
      · subst hm
        cases p with
        | nil => exact absurd (at?_put_file f m c q) h
        | cons k' p =>
          have hlift : ∀ g : Folder α, (f.put m (.inr (g.write (k' :: p) c))).at? (m :: q) ≠ none →
              g.at? q ≠ none ∨ m :: q <+: m :: k' :: p ∧ m :: q ≠ m :: k' :: p := by
            intro g hg
            rw [at?_put_sub] at hg
            rcases ih hg with h | ⟨hpre, hne⟩
            · exact .inl h
            · exact .inr ⟨(List.prefix_cons_inj m).mpr hpre, fun he => hne (List.cons.inj he).2⟩
          simp only [write] at h
          split at h
          · next g hfind =>
            rw [at?_of_sub hfind]
            exact hlift g h
          · rcases hlift .empty h with h | h
            · cases q with
              | nil => exact .inr ⟨⟨k' :: p, rfl⟩, by simp⟩
              | cons k'' q => exact absurd rfl h
            · exact .inr h
      · refine .inl ?_
        cases p with
        | nil => rwa [write, at?_put_of_ne _ _ _ hm] at h
        | cons k' p =>
          simp only [write] at h
          split at h <;> rwa [at?_put_of_ne _ _ _ hm] at h

/-- The folder at the path is what it was updated to. -/
theorem at?_update {f g : Folder α} {p : List String} (h : f.at? p = some g)
    (u : Folder α → Folder α) : (f.update p u).at? p = some (u g) := by
  induction p generalizing f with
  | nil =>
    cases h
    rfl
  | cons k p ih =>
    simp only [at?] at h
    split at h
    · next inner hfind =>
      simp only [update, hfind, at?_put_sub]
      exact ih h
    · cases h

/-- Inside the folder, the files are those of the changed folder. -/
theorem get_update_append {f g : Folder α} {p : List String} (hp : f.at? p = some g)
    (u : Folder α → Folder α) (q : List String) : (f.update p u).get (p ++ q) = (u g).get q :=
  get_append (at?_update hp u) q

/-- Where there is no folder, nothing is changed. -/
theorem get_update_of_none {f : Folder α} {p : List String} (h : f.at? p = none)
    (u : Folder α → Folder α) (q : List String) : (f.update p u).get q = f.get q := by
  induction p generalizing f q with
  | nil => cases h
  | cons k p ih =>
    simp only [at?] at h
    simp only [update]
    split
    · next g hfind =>
      rw [hfind] at h
      cases q with
      | nil => simp
      | cons m q =>
        by_cases hm : m = k
        · subst hm
          rw [get_put_sub, get_of_sub hfind, ih h]
        · exact get_put_of_ne _ _ _ hm
    · rfl

/-- **Changing a folder** leaves a file as it was, or it is one of the folder. -/
theorem get_update_cases (f : Folder α) (p : List String) (u : Folder α → Folder α)
    (q : List String) : (f.update p u).get q = f.get q ∨ ∃ g r, f.at? p = some g ∧ q = p ++ r
      ∧ (f.update p u).get q = (u g).get r ∧ f.get q = g.get r := by
  by_cases hpre : p <+: q
  · obtain ⟨r, rfl⟩ := hpre
    cases hat : f.at? p with
    | none => exact .inl (get_update_of_none hat u _)
    | some g => exact .inr ⟨g, r, rfl, rfl, get_update_append hat u r, get_append hat r⟩
  · exact .inl (get_update_of_outside f u hpre)

/-- A folder after the change was there, or it is one of the changed folder. -/
theorem at?_update_cases {f : Folder α} {p : List String} {u : Folder α → Folder α}
    {q : List String} (h : (f.update p u).at? q ≠ none) :
    f.at? q ≠ none ∨ ∃ g r, f.at? p = some g ∧ q = p ++ r ∧ (u g).at? r ≠ none := by
  induction p generalizing f q with
  | nil => exact .inr ⟨f, q, rfl, rfl, h⟩
  | cons k p ih =>
    cases q with
    | nil => exact .inl (by simp [at?])
    | cons m q =>
      simp only [update] at h
      split at h
      · next g hfind =>
        by_cases hm : m = k
        · subst hm
          rw [at?_put_sub] at h
          rcases ih h with h | ⟨g', r, hat, rfl, hr⟩
          · exact .inl (by rwa [at?_of_sub hfind])
          · exact .inr ⟨g', r, by rwa [at?_of_sub hfind], rfl, hr⟩
        · exact .inl (by rwa [at?_put_of_ne _ _ _ hm] at h)
      · exact .inl h

/-- A folder that is not inside the changed one is still there. -/
theorem at?_update_ne_none {f : Folder α} {p q : List String} (u : Folder α → Folder α)
    (hpq : ¬p <+: q) (h : f.at? q ≠ none) : (f.update p u).at? q ≠ none := by
  induction p generalizing f q with
  | nil => exact absurd List.nil_prefix hpq
  | cons k p ih =>
    simp only [update]
    split
    · next g hfind =>
      cases q with
      | nil => simp [at?]
      | cons m q =>
        by_cases hm : m = k
        · subst hm
          rw [at?_of_sub hfind] at h
          rw [at?_put_sub]
          exact ih (fun hp => hpq ((List.prefix_cons_inj m).mpr hp)) h
        · rwa [at?_put_of_ne _ _ _ hm]
    · exact h

/-- A folder apart from the changed one is as it was. -/
theorem at?_update_of_apart {f : Folder α} {p q : List String} (u : Folder α → Folder α)
    (hpq : ¬p <+: q) (hqp : ¬q <+: p) : (f.update p u).at? q = f.at? q := by
  induction p generalizing f q with
  | nil => exact absurd List.nil_prefix hpq
  | cons k p ih =>
    cases q with
    | nil => exact absurd List.nil_prefix hqp
    | cons m q =>
      simp only [update]
      split
      · next g hfind =>
        by_cases hm : m = k
        · subst hm
          rw [at?_put_sub, at?_of_sub hfind]
          exact ih (fun hp => hpq ((List.prefix_cons_inj m).mpr hp))
            fun hq => hqp ((List.prefix_cons_inj m).mpr hq)
        · exact at?_put_of_ne _ _ _ hm
      · rfl

/-- Make a folder at a path, and the folders on the way; a file is not replaced. -/
def makeFolder : List String → Folder α → Folder α
  | [], f => f
  | k :: q, f =>
    match f.find? k with
    | some (.inl _) => f
    | some (.inr g) => f.put k (.inr (g.makeFolder q))
    | none => f.put k (.inr (Folder.empty.makeFolder q))

/-- No file is made or lost. -/
theorem get_makeFolder (f : Folder α) (p q : List String) : (f.makeFolder p).get q = f.get q := by
  induction p generalizing f q with
  | nil => rfl
  | cons k p ih =>
    unfold makeFolder
    cases q with
    | nil => rw [get_nil, get_nil]
    | cons m q =>
      split
      · rfl
      · next g hg =>
        by_cases hm : m = k
        · rw [hm, get_put_sub, ih, get_of_sub hg]
        · exact get_put_of_ne _ _ _ hm
      · next hnone =>
        by_cases hm : m = k
        · rw [hm, get_put_sub, ih, get_empty]
          simp only [get, hnone]
        · exact get_put_of_ne _ _ _ hm

/-- The folder of a name; empty when the name holds no folder. -/
def inner (f : Folder α) (k : String) : Folder α :=
  match f.find? k with
  | some (.inr g) => g
  | _ => .empty

/-- Where there is no file, the inner folder holds what is under the name. -/
theorem get_inner {f : Folder α} {k : String} (h : ∀ c, f.find? k ≠ some (.inl c))
    (q : List String) : (f.inner k).get q = f.get (k :: q) := by
  simp only [inner, get]
  cases hfind : f.find? k with
  | none => exact get_empty q
  | some node =>
    cases node with
    | inl c => exact absurd hfind (h c)
    | inr g => rfl

theorem at?_inner (f : Folder α) {k : String} {q : List String} (hq : q ≠ []) :
    (f.inner k).at? q = f.at? (k :: q) := by
  obtain ⟨m, q, rfl⟩ := List.exists_cons_of_ne_nil hq
  simp only [inner, at?]
  cases hfind : f.find? k with
  | none => rfl
  | some node =>
    cases node with
    | inl c => rfl
    | inr g => rfl

/-! ### Names that are not repeated -/

/-- No folder holds two things of one name. -/
def Tidy : Folder α → Prop
  | .empty => True
  | .file n _ rest => n ∉ rest.names ∧ rest.Tidy
  | .sub n inner rest => n ∉ rest.names ∧ inner.Tidy ∧ rest.Tidy

instance decidableTidy : (f : Folder α) → Decidable f.Tidy
  | .empty => isTrue trivial
  | .file n _ rest =>
    have := decidableTidy rest
    inferInstanceAs (Decidable (n ∉ rest.names ∧ rest.Tidy))
  | .sub n inner rest =>
    have := decidableTidy inner
    have := decidableTidy rest
    inferInstanceAs (Decidable (n ∉ rest.names ∧ inner.Tidy ∧ rest.Tidy))

theorem names_erase_subset (f : Folder α) (k : String) : (f.erase k).names ⊆ f.names := by
  intro m hm
  rw [mem_names, find?_erase] at hm
  refine mem_names.mpr fun h => hm ?_
  rw [h, ite_self]

theorem find?_of_not_mem {f : Folder α} {k : String} (h : k ∉ f.names) : f.find? k = none := by
  refine Classical.byContradiction fun hne => ?_
  exact h (mem_names.mpr hne)

theorem get_of_not_mem {f : Folder α} {k : String} (h : k ∉ f.names) (q : List String) :
    f.get (k :: q) = none := by
  simp only [get, find?_of_not_mem h]

theorem at?_of_not_mem {f : Folder α} {k : String} (h : k ∉ f.names) (q : List String) :
    f.at? (k :: q) = none := by
  simp only [Folder.at?, find?_of_not_mem h]

theorem get_file_cons (n m : String) (c : α) (rest : Folder α) (q : List String) :
    (file n c rest).get (m :: q)
      = if m = n then (if q = [] then some c else none) else rest.get (m :: q) := by
  by_cases hm : m = n <;> simp [get, find?, hm]

theorem get_sub_cons (n m : String) (inner rest : Folder α) (q : List String) :
    (sub n inner rest).get (m :: q) = if m = n then inner.get q else rest.get (m :: q) := by
  by_cases hm : m = n <;> simp [get, find?, hm]

theorem at?_file_cons (n m : String) (c : α) (rest : Folder α) (q : List String) :
    (file n c rest).at? (m :: q) = if m = n then none else rest.at? (m :: q) := by
  by_cases hm : m = n <;> simp [Folder.at?, find?, hm]

theorem at?_sub_cons (n m : String) (inner rest : Folder α) (q : List String) :
    (sub n inner rest).at? (m :: q) = if m = n then inner.at? q else rest.at? (m :: q) := by
  by_cases hm : m = n <;> simp [Folder.at?, find?, hm]

/-- A tidy folder stays tidy when a name is erased. -/
theorem Tidy.erase {f : Folder α} (h : f.Tidy) (k : String) : (f.erase k).Tidy := by
  induction f with
  | empty => exact trivial
  | file n c rest ih =>
    unfold Folder.erase
    split
    · exact ih h.2
    · exact ⟨fun hn => h.1 (names_erase_subset rest k hn), ih h.2⟩
  | sub n inner rest _ ih =>
    unfold Folder.erase
    split
    · exact ih h.2.2
    · exact ⟨fun hn => h.1 (names_erase_subset rest k hn), h.2.1, ih h.2.2⟩

/-- So it does when something tidy is put under a name. -/
theorem Tidy.put {f : Folder α} (h : f.Tidy) (k : String) {node : α ⊕ Folder α}
    (hnode : ∀ g, node = .inr g → g.Tidy) : (f.put k node).Tidy := by
  have hfree : k ∉ (f.erase k).names := by
    rw [mem_names, find?_erase, if_pos rfl]
    exact fun hne => hne rfl
  cases node with
  | inl c => exact ⟨hfree, h.erase k⟩
  | inr g => exact ⟨hfree, hnode g rfl, h.erase k⟩

/-- What is inside a tidy folder is tidy. -/
theorem Tidy.of_sub {f g : Folder α} {k : String} (h : f.Tidy) (hfind : f.find? k = some (.inr g)) :
    g.Tidy := by
  induction f with
  | empty => cases hfind
  | file n c rest ih =>
    simp only [find?] at hfind
    split at hfind
    · cases hfind
    · exact ih h.2 hfind
  | sub n inner rest _ ih =>
    simp only [find?] at hfind
    split at hfind
    · cases hfind
      exact h.2.1
    · exact ih h.2.2 hfind

theorem Tidy.at? {f g : Folder α} {p : List String} (h : f.Tidy) (hp : f.at? p = some g) :
    g.Tidy := by
  induction p generalizing f with
  | nil =>
    cases hp
    exact h
  | cons k p ih =>
    simp only [Folder.at?] at hp
    split at hp
    · next inner hfind => exact ih (h.of_sub hfind) hp
    · cases hp

/-- An update that keeps folders tidy keeps the whole tree tidy. -/
theorem Tidy.update {f : Folder α} (h : f.Tidy) (p : List String) {u : Folder α → Folder α}
    (hu : ∀ g, g.Tidy → (u g).Tidy) : (f.update p u).Tidy := by
  induction p generalizing f with
  | nil => exact hu f h
  | cons k p ih =>
    simp only [Folder.update]
    split
    · next g hfind =>
      exact h.put k fun g' hg' => by
        cases hg'
        exact ih (h.of_sub hfind)
    · exact h

/-- Writing a file keeps a tree tidy. -/
theorem Tidy.write {f : Folder α} (h : f.Tidy) (p : List String) (c : α) : (f.write p c).Tidy := by
  induction p generalizing f with
  | nil => exact h
  | cons k p ih =>
    cases p with
    | nil => exact h.put k fun g hg => by cases hg
    | cons k' p =>
      simp only [Folder.write]
      split
      · next g hfind =>
        exact h.put k fun g' hg' => by
          cases hg'
          exact ih (h.of_sub hfind)
      · exact h.put k fun g' hg' => by
          cases hg'
          exact ih (f := .empty) trivial

/-! ### Two files -/

/-- A folder with two files, and the folders on the way to them. -/
def twoFiles (p : List String) (c : α) (q : List String) (d : α) : Folder α :=
  (Folder.empty.write q d).write p c

theorem get_twoFiles_left {p : List String} (hp : p ≠ []) (c : α) (q : List String) (d : α) :
    (twoFiles p c q d).get p = some c := by
  rw [twoFiles, get_write _ hp, if_pos rfl]

theorem get_twoFiles_right {p q : List String} (hp : p ≠ []) (hq : q ≠ []) (h : ¬p <+: q)
    (h' : ¬q <+: p) (c d : α) : (twoFiles p c q d).get q = some d := by
  have hne : q ≠ p := fun he => h (he ▸ List.prefix_refl _)
  rw [twoFiles, get_write _ hp, if_neg hne, if_neg (not_or.mpr ⟨h, h'⟩), get_write _ hq, if_pos rfl]

/-- There are no files but the two. -/
theorem eq_of_get_twoFiles {p q r : List String} (hp : p ≠ []) (hq : q ≠ []) {c d : α}
    (h : (twoFiles p c q d).get r ≠ none) : r = p ∨ r = q := by
  rw [twoFiles, get_write _ hp] at h
  by_cases hrp : r = p
  · exact .inl hrp
  · rw [if_neg hrp] at h
    by_cases hrq : r = q
    · exact .inr hrq
    · refine absurd ?_ h
      split
      · rfl
      · rw [get_write _ hq, if_neg hrq]
        simp

/-- There are no folders but those above the two. -/
theorem prefix_of_at?_twoFiles {p q r : List String} {c d : α}
    (h : (twoFiles p c q d).at? r ≠ none) : r = [] ∨ (r <+: p ∧ r ≠ p) ∨ r <+: q ∧ r ≠ q := by
  rcases at?_write h with h | h
  · rcases at?_write h with h | h
    · cases r with
      | nil => exact .inl rfl
      | cons k r => exact absurd rfl h
    · exact .inr (.inr h)
  · exact .inr (.inl h)

theorem tidy_twoFiles (p : List String) (c : α) (q : List String) (d : α) :
    (twoFiles p c q d).Tidy := by
  have h : (Folder.empty : Folder α).Tidy := trivial
  exact (h.write q d).write p c

/-! ### Names that are free -/

/-- The length of the longest of these names. -/
def longest : List String → Nat
  | [] => 0
  | name :: rest => max name.toList.length (longest rest)

/-- A name that is none of these. -/
def freshName (names : List String) : String :=
  String.ofList (List.replicate (longest names + 1) 'x')

theorem length_le_longest {names : List String} {name : String} (h : name ∈ names) :
    name.toList.length ≤ longest names := by
  induction names with
  | nil => cases h
  | cons m rest ih =>
    rcases List.mem_cons.mp h with rfl | h
    · exact Nat.le_max_left _ _
    · exact Nat.le_trans (ih h) (Nat.le_max_right _ _)

/-- The fresh name is none of the names. -/
theorem freshName_not_mem (names : List String) : freshName names ∉ names := by
  intro h
  have := length_le_longest h
  simp only [freshName, String.toList_ofList, List.length_replicate] at this
  omega

/-- What leads to a new name leads to the place it is in. -/
theorem prefix_of_fresh {p q : List String} {k : String} (hk : k ∉ q) (h : q <+: p ++ [k]) :
    q <+: p := by
  rcases List.prefix_concat_iff.mp h with h | h
  · exact absurd (h ▸ List.mem_append_right _ List.mem_cons_self) hk
  · exact h

end Folder

end WPanel.Lib
