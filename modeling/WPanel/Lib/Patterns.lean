import WPanel.Lib.Text

namespace WPanel.Lib

/-!
# Anchored patterns

What `re.match(r"^…$", text)` says for the few shapes of pattern that a Python program checks names
with.

* `matchesLine` — the anchors: `$` is also before a line break at the end;
* `flanked` — `first(middle{0,limit}last)?`;
* `isLowerOrDigit` — `[a-z0-9]`.
-/

/-- `re.match(r"^…$", text)`, for what the whole of a line has to be. -/
def matchesLine (line : List Char → Bool) (text : String) : Bool :=
  line text.toList
    || (text.toList.getLast? = some '\n' && line text.toList.dropLast)

/-- `[a-z0-9]`. -/
def isLowerOrDigit (c : Char) : Bool := c.isLower || c.isDigit

/-- `first(middle{0,limit}last)?`. -/
def flanked (first middle last : Char → Bool) (limit : ℕ) : List Char → Bool
  | [] => false
  | c :: rest => first c && (rest.isEmpty
      || (rest.length ≤ limit + 1 && rest.dropLast.all middle && rest.getLast?.any last))

/-- What matches a line matches it with a line break behind it. -/
theorem matchesLine_iff {line : List Char → Bool} {text : String} :
    matchesLine line text = true
      ↔ line text.toList = true ∨ ∃ front, text.toList = front ++ ['\n'] ∧ line front = true := by
  rw [matchesLine, Bool.or_eq_true, Bool.and_eq_true, decide_eq_true_eq]
  refine or_congr_right ⟨?_, ?_⟩
  · rintro ⟨hlast, hfront⟩
    obtain ⟨front, htext⟩ := List.getLast?_eq_some_iff.mp hlast
    rw [htext, List.dropLast_concat] at hfront
    exact ⟨front, htext, hfront⟩
  · rintro ⟨front, htext, hfront⟩
    rw [htext, List.getLast?_concat, List.dropLast_concat]
    exact ⟨rfl, hfront⟩

/-- Without a line break it is the whole text that matches. -/
theorem line_of_matchesLine {line : List Char → Bool} {text : String}
    (h : matchesLine line text = true) (hno : '\n' ∉ text.toList) : line text.toList = true := by
  rcases matchesLine_iff.mp h with hline | ⟨front, htext, -⟩
  · exact hline
  · refine absurd ?_ hno
    rw [htext]
    exact List.mem_append_right _ List.mem_cons_self

/-- What is flanked holds characters of three kinds only, and at least one. -/
theorem forall_mem_of_flanked {first middle last : Char → Bool} {limit : ℕ} {text : List Char}
    (h : flanked first middle last limit text = true) {P : Char → Prop}
    (hfirst : ∀ c, first c = true → P c) (hmiddle : ∀ c, middle c = true → P c)
    (hlast : ∀ c, last c = true → P c) : text ≠ [] ∧ ∀ c ∈ text, P c := by
  cases text with
  | nil => cases h
  | cons c rest =>
    rw [flanked, Bool.and_eq_true, Bool.or_eq_true] at h
    refine ⟨List.cons_ne_nil _ _, List.forall_mem_cons.mpr ⟨hfirst c h.1, ?_⟩⟩
    rcases List.eq_nil_or_concat rest with rfl | ⟨front, d, rfl⟩
    · exact fun d hd => absurd hd List.not_mem_nil
    · have hrest := h.2.resolve_left (by simp)
      simp only [List.concat_eq_append, List.dropLast_concat, List.getLast?_concat,
        Option.any_some, Bool.and_eq_true, List.all_eq_true] at hrest ⊢
      exact List.forall_mem_append.mpr
        ⟨fun d hd => hmiddle d (hrest.1.2 d hd), List.forall_mem_singleton.mpr (hlast d hrest.2)⟩

end WPanel.Lib
