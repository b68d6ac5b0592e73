import Mathlib.Data.List.Basic

namespace WPanel.Lib

/-!
# Prefix codes

Letters that are written as words, none of which is the beginning of another: what is written can
be read in one way, and a beginning of it that can be read is what some first letters are written
as.

* `PrefixCode p code` — the letters that satisfy `p` are written so;
* `PrefixCode.prefix_of_prefix` — the reading of a beginning;
* `PrefixCode.injective` — the reading of a whole;
* `eq_of_terminated` — words that end at a terminator are a prefix code.
-/

universe u v

variable {α : Type u} {β : Type v} {p : α → Prop} {code : α → List β}

/-- No word of a letter that satisfies `p` is empty, or the beginning of another's. -/
structure PrefixCode (p : α → Prop) (code : α → List β) : Prop where
  ne_nil : ∀ a, p a → code a ≠ []
  eq_of_prefix : ∀ a b, p a → p b → code a <+: code b → a = b

/-- **What is a beginning of a text, and can be read, is what its first letters are written as.** -/
theorem PrefixCode.prefix_of_prefix (h : PrefixCode p code) {as bs : List α}
    (has : ∀ a ∈ as, p a) (hbs : ∀ b ∈ bs, p b)
    (hbegins : as.flatMap code <+: bs.flatMap code) : as <+: bs := by
  induction as generalizing bs with
  | nil => exact List.nil_prefix
  | cons a as ih =>
    obtain ⟨ha, has⟩ := List.forall_mem_cons.mp has
    rw [List.flatMap_cons] at hbegins
    cases bs with
    | nil =>
      have hnil := List.append_eq_nil_iff.mp (List.prefix_nil.mp hbegins)
      exact absurd hnil.1 (h.ne_nil a ha)
    | cons b bs =>
      obtain ⟨hb, hrest⟩ := List.forall_mem_cons.mp hbs
      rw [List.flatMap_cons] at hbegins
      have hfirst := (List.prefix_append (code a) _).trans hbegins
      obtain rfl : a = b := by
        -- both words begin the same text, so one of them is the beginning of the other
        rcases List.prefix_or_prefix_of_prefix hfirst (List.prefix_append (code b) _) with hab | hba
        · exact h.eq_of_prefix a b ha hb hab
        · exact (h.eq_of_prefix b a hb ha hba).symm
      rw [List.cons_prefix_cons]
      exact ⟨rfl, ih has hrest ((List.prefix_append_right_inj _).mp hbegins)⟩

theorem PrefixCode.injective (h : PrefixCode p code) {as bs : List α}
    (has : ∀ a ∈ as, p a) (hbs : ∀ b ∈ bs, p b) (heq : as.flatMap code = bs.flatMap code) :
    as = bs := by
  have hab := h.prefix_of_prefix has hbs (heq ▸ List.prefix_rfl)
  have hba := h.prefix_of_prefix hbs has (heq ▸ List.prefix_rfl)
  exact hab.eq_of_length (Nat.le_antisymm hab.length_le hba.length_le)

/-- **Words that are read up to a terminator.** -/
theorem eq_of_terminated {t : β → Prop} {n m x y : List β} {c d : β} (hn : ∀ e ∈ n, ¬t e)
    (hm : ∀ e ∈ m, ¬t e) (hc : t c) (hd : t d) (h : n ++ c :: x <+: m ++ d :: y) :
    n = m ∧ c = d ∧ x <+: y := by
  induction n generalizing m with
  | nil =>
    cases m with
    | nil =>
      obtain ⟨hcd, hxy⟩ := List.cons_prefix_cons.mp h
      exact ⟨rfl, hcd, hxy⟩
    | cons e m =>
      obtain ⟨rfl, -⟩ := List.cons_prefix_cons.mp h
      exact absurd hc (hm c List.mem_cons_self)
  | cons a n ih =>
    obtain ⟨ha, hn⟩ := List.forall_mem_cons.mp hn
    cases m with
    | nil =>
      obtain ⟨rfl, -⟩ := List.cons_prefix_cons.mp h
      exact absurd hd ha
    | cons e m =>
      obtain ⟨rfl, htail⟩ := List.cons_prefix_cons.mp h
      obtain ⟨rfl, hrest⟩ := ih hn (List.forall_mem_cons.mp hm).2 htail
      exact ⟨rfl, hrest⟩

end WPanel.Lib
