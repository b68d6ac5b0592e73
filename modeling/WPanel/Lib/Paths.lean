import WPanel.Lib.Text

namespace WPanel.Lib

/-!
# Paths as texts

A path is a list of names; as a text, the names stand between slashes.

* `posix` — the text of a path;
* `splitOn_posix`, `posix_injOn` — the names are read back from it;
* `under`, `rebase` — a text that begins with a path, and another in its place;
* `under_posix_iff`, `rebase_posix` — of the texts of paths, these are the paths below, moved.
-/

/-- A name that can stand in a path. -/
def Plain (name : String) : Prop := name ≠ "" ∧ '/' ∉ name.toList

instance (name : String) : Decidable (Plain name) := inferInstanceAs (Decidable (_ ∧ _))

/-- `"/".join(names)`. -/
def posix (p : List String) : String := String.ofList (['/'].intercalate (p.map String.toList))

/-- `key == old or key.startswith(old + "/")`. -/
def under (old key : String) : Bool := key = old || startsWith key (old ++ "/")

/-- `new + key[len(old):]`. -/
def rebase (old new key : String) : String :=
  new ++ String.ofList (key.toList.drop old.toList.length)

variable {p q r n : List String}

@[simp] theorem toList_posix (p : List String) :
    (posix p).toList = ['/'].intercalate (p.map String.toList) := String.toList_ofList

theorem posix_nil : posix [] = "" := rfl

private theorem intercalate_append {α : Type} {sep : List α} {ls ls' : List (List α)}
    (h : ls ≠ []) (h' : ls' ≠ []) :
    sep.intercalate (ls ++ ls') = sep.intercalate ls ++ (sep ++ sep.intercalate ls') := by
  induction ls with
  | nil => exact absurd rfl h
  | cons l ls ih =>
    by_cases hls : ls = []
    · subst hls
      rw [List.singleton_append, List.intercalate_cons_of_ne_nil h', List.intercalate_singleton,
        List.append_assoc]
    · rw [List.cons_append, List.intercalate_cons_of_ne_nil (by simp [hls]), ih hls,
        List.intercalate_cons_of_ne_nil hls]
      simp only [List.append_assoc]

/-- Two paths one after the other. -/
theorem posix_append (hp : p ≠ []) (hr : r ≠ []) :
    posix (p ++ r) = posix p ++ "/" ++ posix r := by
  rw [← String.toList_inj]
  simp only [toList_posix, String.toList_append, List.map_append]
  rw [intercalate_append (by simpa using hp) (by simpa using hr), List.append_assoc]
  rfl

/-- The names are read back from the text. -/
theorem splitOn_posix (hp : p ≠ []) (h : ∀ name ∈ p, Plain name) : splitOn '/' (posix p) = p := by
  rw [splitOn, toList_posix, List.splitOn_intercalate]
  · rw [List.map_map]
    exact (List.map_congr_left fun name _ => String.ofList_toList).trans (List.map_id p)
  · intro l hl
    obtain ⟨name, hname, rfl⟩ := List.mem_map.mp hl
    exact (h name hname).2
  · simpa using hp

/-- The parts of a text are made of its characters, without the one it is split at. -/
theorem mem_splitOn {a c : Char} {l : List Char} {text : List Char} (hl : l ∈ text.splitOn a)
    (hc : c ∈ l) : c ≠ a ∧ c ∈ text := by
  induction text generalizing l with
  | nil =>
    rw [List.splitOn_nil, List.mem_singleton] at hl
    rw [hl] at hc
    cases hc
  | cons x text ih =>
    rw [List.splitOn_cons_eq_if_modifyHead] at hl
    split at hl
    · rcases List.mem_cons.mp hl with rfl | hl
      · cases hc
      · exact (ih hl hc).imp_right (List.mem_cons_of_mem x)
    · next hx =>
      obtain ⟨head, tail, hsplit⟩ := List.exists_cons_of_ne_nil (List.splitOn_ne_nil a text)
      rw [hsplit, List.modifyHead_cons] at hl
      rcases List.mem_cons.mp hl with rfl | hl
      · rcases List.mem_cons.mp hc with rfl | hc
        · exact ⟨by simpa using hx, List.mem_cons_self⟩
        · exact (ih (hsplit ▸ List.mem_cons_self) hc).imp_right (List.mem_cons_of_mem x)
      · exact (ih (hsplit ▸ List.mem_cons_of_mem _ hl) hc).imp_right (List.mem_cons_of_mem x)

/-- The characters of a path are those of its names, and slashes. -/
theorem mem_posix {c : Char} (h : c ∈ (posix p).toList) :
    c = '/' ∨ ∃ name ∈ p, c ∈ name.toList := by
  induction p with
  | nil => cases h
  | cons name p ih =>
    by_cases hp : p = []
    · subst hp
      have hone : (posix [name]).toList = name.toList := by simp
      exact .inr ⟨name, List.mem_cons_self, hone ▸ h⟩
    · have happend := posix_append (p := [name]) (List.cons_ne_nil name []) hp
      have hone : (posix [name]).toList = name.toList := by simp
      rw [List.singleton_append] at happend
      rw [happend, String.toList_append, String.toList_append, hone, List.mem_append,
        List.mem_append] at h
      rcases h with (hname | hslash) | hrest
      · exact .inr ⟨name, List.mem_cons_self, hname⟩
      · exact .inl (List.mem_singleton.mp hslash)
      · rcases ih hrest with hslash | ⟨name', hmem, hc⟩
        · exact .inl hslash
        · exact .inr ⟨name', List.mem_cons_of_mem name hmem, hc⟩

theorem length_posix (p : List String) :
    (posix p).toList.length = (p.map fun name => name.toList.length + 1).sum - 1 := by
  have hcons : ∀ (name : String) (p : List String), (posix (name :: p)).toList.length + 1
      = ((name :: p).map fun name => name.toList.length + 1).sum := by
    intro name p
    induction p generalizing name with
    | nil => simp
    | cons name' p ih =>
      have happend := posix_append (p := [name]) (r := name' :: p) (by simp) (by simp)
      have hslash : "/".toList.length = 1 := by decide
      rw [List.singleton_append] at happend
      have hone : (posix [name]).toList = name.toList := by simp
      rw [happend, String.toList_append, String.toList_append, hone, List.length_append,
        List.length_append, hslash, List.map_cons, List.sum_cons, ← ih name']
      omega
  cases p with
  | nil => rfl
  | cons name p => rw [← hcons name p, Nat.add_sub_cancel]

/-- The text of a path does not begin with a slash. -/
theorem startsWith_posix (hp : p ≠ []) (h : ∀ name ∈ p, Plain name) :
    startsWith (posix p) "/" = false := by
  refine Bool.eq_false_iff.mpr fun hstart => ?_
  rw [startsWith, List.isPrefixOf_iff_prefix] at hstart
  obtain ⟨rest, hrest⟩ := hstart
  -- there would be an empty name before it
  have hsplit : splitOn '/' (posix p) = "" :: (rest.splitOn '/').map String.ofList := by
    have htext : (posix p).toList = [] ++ '/' :: rest := hrest.symm
    rw [splitOn, htext, List.splitOn_append_cons_self]
    rfl
  rw [splitOn_posix hp h] at hsplit
  exact (h "" (hsplit ▸ List.mem_cons_self)).1 rfl

/-- Nor does it end with one. -/
theorem getLast?_posix (hp : p ≠ []) (h : ∀ name ∈ p, Plain name) :
    (posix p).toList.getLast? ≠ some '/' := by
  intro hlast
  obtain ⟨front, hfront⟩ := List.getLast?_eq_some_iff.mp hlast
  have hsplit : splitOn '/' (posix p) = (front.splitOn '/').map String.ofList ++ [""] := by
    rw [splitOn, hfront, List.splitOn_append_cons_self, List.map_append]
    rfl
  rw [splitOn_posix hp h] at hsplit
  exact (h "" (hsplit ▸ List.mem_append_right _ List.mem_cons_self)).1 rfl

theorem posix_ne_empty (hp : p ≠ []) (h : ∀ name ∈ p, Plain name) : posix p ≠ "" := by
  intro hempty
  have hsplit := splitOn_posix hp h
  rw [hempty] at hsplit
  rw [← hsplit] at h
  exact (h "" (by decide)).1 rfl

/-- Two paths of plain names with one text are the same. -/
theorem posix_inj (hp : ∀ name ∈ p, Plain name) (hq : ∀ name ∈ q, Plain name)
    (h : posix p = posix q) : p = q := by
  by_cases hpn : p = []
  · by_cases hqn : q = []
    · rw [hpn, hqn]
    · exact absurd (h.symm.trans (by rw [hpn, posix_nil])) (posix_ne_empty hqn hq)
  · by_cases hqn : q = []
    · exact absurd (h.trans (by rw [hqn, posix_nil])) (posix_ne_empty hpn hp)
    · rw [← splitOn_posix hpn hp, h, splitOn_posix hqn hq]

/-- **The texts that begin with a path are those of the paths below it.** -/
theorem under_posix_iff (hpn : p ≠ []) (hqn : q ≠ []) (hp : ∀ name ∈ p, Plain name)
    (hq : ∀ name ∈ q, Plain name) : under (posix p) (posix q) = true ↔ p <+: q := by
  rw [under, Bool.or_eq_true, decide_eq_true_iff, startsWith, List.isPrefixOf_iff_prefix]
  constructor
  · rintro (heq | hstart)
    · exact posix_inj hq hp heq ▸ List.prefix_refl p
    · -- what comes after the slash is the text of the names that follow
      obtain ⟨rest, hrest⟩ := hstart
      have hsplit : splitOn '/' (posix q) = splitOn '/' (posix p)
          ++ (rest.splitOn '/').map String.ofList := by
        have htext : (posix q).toList = (posix p).toList ++ '/' :: rest := by
          rw [← hrest, String.toList_append, List.append_assoc]
          rfl
        rw [splitOn, htext, List.splitOn_append_cons_self, List.map_append]
        rfl
      rw [splitOn_posix hqn hq, splitOn_posix hpn hp] at hsplit
      exact ⟨_, hsplit.symm⟩
  · rintro ⟨r, rfl⟩
    by_cases hr : r = []
    · left
      rw [hr, List.append_nil]
    · right
      rw [posix_append hpn hr, String.toList_append (s := posix p ++ "/")]
      exact List.prefix_append _ _

/-- **What is below a path is below another instead.** -/
theorem rebase_posix (hpn : p ≠ []) (hn : n ≠ []) :
    rebase (posix p) (posix n) (posix (p ++ r)) = posix (n ++ r) := by
  unfold rebase
  by_cases hr : r = []
  · subst hr
    rw [List.append_nil, List.append_nil, List.drop_length]
    exact String.append_empty
  · rw [posix_append hpn hr, posix_append hn hr, String.append_assoc, String.toList_append,
      List.drop_left, String.ofList_toList, ← String.append_assoc]

end WPanel.Lib
