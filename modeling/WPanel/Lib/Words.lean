import WPanel.Lib.Text

namespace WPanel.Lib

/-!
# Words

What is left of a text when every run of other characters is replaced by one separator.

* `replaceRuns` — `re.sub` of the runs of characters that are not kept;
* `words` — the runs of characters that are kept; `splitSpace` — those of a text between blanks;
* `replaceRuns_stripped` — without separators at its ends, the first is the second, joined by
  separators;
* `words_intercalate`, `splitSpace_intercalate` — words that are joined are cut into themselves.
-/

variable {α : Type} (keep : α → Bool) (sep : α)

/-- Every run of characters that are not kept becomes one separator; whether a run has begun. -/
def replaceRuns : List α → Bool → List α
  | [], _ => []
  | c :: cs, begun =>
    if keep c then c :: replaceRuns cs false
    else if begun then replaceRuns cs true
    else sep :: replaceRuns cs true

/-- The runs of characters that are kept. -/
def words (cs : List α) : List (List α) := (cs.splitOnP fun c => !keep c).filter (· ≠ [])

/-- `text.split()`. -/
def splitSpace (text : String) : List String :=
  (words (fun c => !isSpace c) text.toList).map String.ofList

@[simp] theorem words_nil : words keep [] = [] := rfl

variable {keep} {sep}

theorem words_cons_of_not {c : α} (h : keep c = false) (cs : List α) :
    words keep (c :: cs) = words keep cs := by
  unfold words
  rw [List.splitOnP_cons_eq_if_modifyHead, if_pos (by rw [h]; rfl)]
  rfl

/-- A character that is kept begins a word, or is put before the first one. -/
theorem words_cons {c : α} (h : keep c = true) (cs : List α) :
    (words keep (c :: cs) = [c] :: words keep cs ∧ ∀ d, cs.head? = some d → keep d = false)
      ∨ ∃ w ws, words keep cs = w :: ws ∧ words keep (c :: cs) = (c :: w) :: ws
        ∧ ∃ d, cs.head? = some d ∧ keep d = true := by
  unfold words
  rw [List.splitOnP_cons_eq_if_modifyHead, if_neg (by rw [h]; decide)]
  cases cs with
  | nil => exact .inl ⟨rfl, fun d hd => by cases hd⟩
  | cons d ds =>
    rw [List.splitOnP_cons_eq_if_modifyHead]
    cases hd : keep d with
    | false =>
      rw [if_pos (by rfl)]
      refine .inl ⟨by simp, fun d' hd' => ?_⟩
      cases hd'
      exact hd
    | true =>
      rw [if_neg (by decide)]
      obtain ⟨w, ws, hsplit⟩ := List.exists_cons_of_ne_nil
        (List.splitOnP_ne_nil (fun c => !keep c) ds)
      refine .inr ⟨d :: w, ws.filter (· ≠ []), ?_, ?_, d, rfl, hd⟩
      · rw [hsplit]
        simp
      · rw [hsplit]
        simp

/-- No word is empty, and a word holds only what is kept. -/
theorem of_mem_words {cs w : List α} (h : w ∈ words keep cs) : w ≠ [] ∧ ∀ c ∈ w, keep c = true := by
  induction cs generalizing w with
  | nil => cases h
  | cons c cs ih =>
    cases hc : keep c with
    | false =>
      rw [words_cons_of_not hc] at h
      exact ih h
    | true =>
      rcases words_cons hc cs with ⟨hwords, _⟩ | ⟨w', ws, hws, hwords, _⟩
      · rw [hwords] at h
        rcases List.mem_cons.mp h with rfl | hmem
        · exact ⟨List.cons_ne_nil _ _, fun d hd => by rw [List.mem_singleton.mp hd]; exact hc⟩
        · exact ih hmem
      · rw [hwords] at h
        rcases List.mem_cons.mp h with rfl | hmem
        · refine ⟨List.cons_ne_nil _ _, fun d hd => ?_⟩
          rcases List.mem_cons.mp hd with rfl | hd
          · exact hc
          · exact (ih (hws ▸ List.mem_cons_self)).2 d hd
        · exact ih (hws ▸ List.mem_cons_of_mem _ hmem)

/-- There is something, where there is a word. -/
theorem intercalate_words_eq_nil {cs : List α} :
    [sep].intercalate (words keep cs) = [] ↔ words keep cs = [] := by
  constructor
  · intro h
    cases hwords : words keep cs with
    | nil => rfl
    | cons w ws =>
      have hw := (of_mem_words (hwords ▸ List.mem_cons_self : w ∈ words keep cs)).1
      obtain ⟨d, ds, rfl⟩ := List.exists_cons_of_ne_nil hw
      rw [hwords] at h
      cases ws with
      | nil => rw [List.intercalate_singleton] at h; cases h
      | cons w' ws => rw [List.intercalate_cons_cons_left] at h; cases h
  · intro h
    rw [h]
    rfl

private theorem rdropWhile_cons (p : α → Bool) (c : α) (l : List α) :
    (c :: l).rdropWhile p
      = if l.rdropWhile p = [] ∧ p c = true then [] else c :: l.rdropWhile p := by
  unfold List.rdropWhile
  rw [List.reverse_cons, List.dropWhile_append]
  by_cases hl : (l.reverse.dropWhile p) = []
  · rw [hl]
    cases hc : p c with
    | true => simp [hc]
    | false => simp [hc]
  · have hne : ¬ (l.reverse.dropWhile p).reverse = [] := by simpa using hl
    rw [if_neg (by simpa using hl), if_neg fun h => hne h.1]
    simp

/-- Without separators at the end: the words joined, and before them a separator where the text does
    not begin with a word. -/
private theorem rdropWhile_replaceRuns [DecidableEq α] (hsep : keep sep = false) (cs : List α)
    (begun : Bool) :
    (replaceRuns keep sep cs begun).rdropWhile (· = sep)
      = if words keep cs = [] then []
        else if begun = false ∧ ∃ d, cs.head? = some d ∧ keep d = false then
          sep :: [sep].intercalate (words keep cs)
        else [sep].intercalate (words keep cs) := by
  induction cs generalizing begun with
  | nil => rfl
  | cons c cs ih =>
    cases hc : keep c with
    | false =>
      rw [words_cons_of_not hc]
      have hhead : ∃ d, (c :: cs).head? = some d ∧ keep d = false := ⟨c, rfl, hc⟩
      have hbegun := ih true
      rw [if_neg (fun h : true = false ∧ _ => by cases h.1)] at hbegun
      cases begun with
      | true =>
        rw [replaceRuns, if_neg (by rw [hc]; decide), if_pos rfl, hbegun,
          if_neg (fun h : true = false ∧ _ => by cases h.1)]
      | false =>
        rw [replaceRuns, if_neg (by rw [hc]; decide), if_neg (by decide), rdropWhile_cons, hbegun]
        by_cases hnil : words keep cs = []
        · rw [if_pos hnil, if_pos hnil, if_pos ⟨rfl, by simp⟩]
        · have hjoined : [sep].intercalate (words keep cs) ≠ [] :=
            fun h => hnil (intercalate_words_eq_nil.mp h)
          rw [if_neg hnil, if_neg (fun h => hjoined h.1), if_neg hnil, if_pos ⟨rfl, hhead⟩]
    | true =>
      have hne : c ≠ sep := by
        rintro rfl
        rw [hsep] at hc
        cases hc
      have hhead : ¬ (begun = false ∧ ∃ d, (c :: cs).head? = some d ∧ keep d = false) := by
        rintro ⟨_, d, hd, hkeep⟩
        cases hd
        rw [hc] at hkeep
        cases hkeep
      rw [replaceRuns, if_pos hc, rdropWhile_cons, if_neg (fun h => by simp [hne] at h), ih false,
        if_neg hhead]
      -- the character begins a word, or goes before one
      rcases words_cons hc cs with ⟨hwords, hstart⟩ | ⟨w, ws, hws, hwords, d, hd, hkeep⟩
      · rw [hwords, if_neg (List.cons_ne_nil _ _)]
        by_cases hnil : words keep cs = []
        · rw [if_pos hnil, hnil, List.intercalate_singleton]
        · obtain ⟨w, ws, hws⟩ := List.exists_cons_of_ne_nil hnil
          have hbegins : ∃ d, cs.head? = some d ∧ keep d = false := by
            cases cs with
            | nil => exact absurd rfl hnil
            | cons d ds => exact ⟨d, rfl, hstart d rfl⟩
          rw [if_neg hnil, if_pos ⟨rfl, hbegins⟩, hws, List.intercalate_cons_cons]
          rfl
      · have hnot : ¬ (false = false ∧ ∃ d, cs.head? = some d ∧ keep d = false) := by
          rintro ⟨_, d', hd', hkeep'⟩
          rw [hd] at hd'
          cases hd'
          rw [hkeep] at hkeep'
          cases hkeep'
        rw [hwords, hws, if_neg (List.cons_ne_nil _ _), if_neg (List.cons_ne_nil _ _), if_neg hnot]
        cases ws with
        | nil => rw [List.intercalate_singleton, List.intercalate_singleton]
        | cons w' ws => rw [List.intercalate_cons_cons_left]

/-- **Without separators at its ends** it is the words, joined by separators. -/
theorem replaceRuns_stripped [DecidableEq α] (hsep : keep sep = false) (cs : List α) :
    ((replaceRuns keep sep cs false).rdropWhile (· = sep)).dropWhile (· = sep)
      = [sep].intercalate (words keep cs) := by
  rw [rdropWhile_replaceRuns hsep]
  cases hwords : words keep cs with
  | nil => rfl
  | cons w ws =>
    have hw := of_mem_words (hwords ▸ List.mem_cons_self : w ∈ words keep cs)
    obtain ⟨d, ds, rfl⟩ := List.exists_cons_of_ne_nil hw.1
    have hne : d ≠ sep := by
      rintro rfl
      have hkeep := hw.2 d List.mem_cons_self
      rw [hsep] at hkeep
      cases hkeep
    -- the joined words begin with a character that is kept
    have hjoined : ([sep].intercalate ((d :: ds) :: ws)).dropWhile (· = sep)
        = [sep].intercalate ((d :: ds) :: ws) := by
      cases ws with
      | nil => rw [List.intercalate_singleton, List.dropWhile_cons_of_neg (by simpa using hne)]
      | cons w' ws =>
        rw [List.intercalate_cons_cons_left, List.dropWhile_cons_of_neg (by simpa using hne)]
    rw [if_neg (List.cons_ne_nil _ _)]
    split
    · rw [List.dropWhile_cons_of_pos (by simp), hjoined]
    · exact hjoined

/-- It holds only what is kept, and separators. -/
theorem of_mem_intercalate_words {cs : List α} {c : α}
    (h : c ∈ [sep].intercalate (words keep cs)) : keep c = true ∨ c = sep := by
  have hall : ∀ ws : List (List α), (∀ w ∈ ws, ∀ d ∈ w, keep d = true) →
      ∀ d ∈ [sep].intercalate ws, keep d = true ∨ d = sep := by
    intro ws
    induction ws with
    | nil => intro _ d hd; cases hd
    | cons w ws ih =>
      intro hws d hd
      have hrest := ih fun w' hw' => hws w' (List.mem_cons_of_mem _ hw')
      cases ws with
      | nil =>
        rw [List.intercalate_singleton] at hd
        exact .inl (hws w List.mem_cons_self d hd)
      | cons w' ws =>
        rw [List.intercalate_cons_cons, List.mem_append, List.mem_append] at hd
        rcases hd with (hd | hd) | hd
        · exact .inl (hws w List.mem_cons_self d hd)
        · exact .inr (List.mem_singleton.mp hd)
        · exact hrest d hd
  exact hall _ (fun w hw => (of_mem_words hw).2) c h

/-- **Words joined by separators are those words again.** -/
theorem words_intercalate (hsep : keep sep = false) {ws : List (List α)}
    (hws : ∀ w ∈ ws, w ≠ [] ∧ ∀ c ∈ w, keep c = true) : words keep ([sep].intercalate ws) = ws := by
  have hskip : ∀ w ∈ ws, ∀ c ∈ w, (!keep c) = false := fun w hw c hc => by
    rw [(hws w hw).2 c hc]
    rfl
  have hmore : (!keep sep) = true := by rw [hsep]; rfl
  unfold words
  induction ws with
  | nil => rfl
  | cons w ws ih =>
    have hw : decide (w ≠ []) = true := decide_eq_true (hws w List.mem_cons_self).1
    have hfirst := hskip w List.mem_cons_self
    cases ws with
    | nil =>
      rw [List.intercalate_singleton, List.splitOnP_eq_singleton hfirst,
        List.filter_cons_of_pos (p := fun v => decide (v ≠ [])) hw]
      rfl
    | cons w' ws =>
      have hrest := ih (fun v hv => hws v (List.mem_cons_of_mem _ hv))
        fun v hv => hskip v (List.mem_cons_of_mem _ hv)
      rw [List.intercalate_cons_cons, List.append_assoc, List.singleton_append,
        List.splitOnP_append_cons_of_forall_mem hfirst sep hmore,
        List.filter_cons_of_pos (p := fun v => decide (v ≠ [])) hw, hrest]

/-- What `split` cuts a text into: not empty, and without blanks. -/
def IsWord (word : String) : Prop := word ≠ "" ∧ ∀ c ∈ word.toList, isSpace c = false

private theorem all_iff_isWord (word : String) :
    (word ≠ "" ∧ word.toList.all (fun c => !isSpace c) = true) ↔ IsWord word := by
  simp [IsWord]

instance (word : String) : Decidable (IsWord word) := decidable_of_iff _ (all_iff_isWord word)

theorem isWord_of_mem_splitSpace {text word : String} (h : word ∈ splitSpace text) :
    IsWord word := by
  obtain ⟨w, hw, rfl⟩ := List.mem_map.mp h
  obtain ⟨hne, hkeep⟩ := of_mem_words hw
  refine ⟨fun hnil => hne ?_, fun c hc => ?_⟩
  · rw [← String.toList_ofList (l := w), hnil]
    rfl
  · rw [String.toList_ofList] at hc
    have := hkeep c hc
    simpa using this

/-- **Words joined by blanks are cut into themselves.** -/
theorem splitSpace_intercalate {ws : List String} (hws : ∀ w ∈ ws, IsWord w) :
    splitSpace (String.intercalate " " ws) = ws := by
  have hlists : words (fun c => !isSpace c) ([' '].intercalate (ws.map String.toList))
      = ws.map String.toList := by
    refine words_intercalate (by decide) fun w hw => ?_
    obtain ⟨word, hword, rfl⟩ := List.mem_map.mp hw
    refine ⟨fun hnil => (hws word hword).1 (String.toList_injective hnil), fun c hc => ?_⟩
    simp only [(hws word hword).2 c hc, Bool.not_false]
  rw [splitSpace, String.toList_intercalate]
  have hsep : " ".toList = [' '] := rfl
  rw [hsep, hlists, List.map_map]
  conv_rhs => rw [← List.map_id ws]
  exact List.map_congr_left fun word _ => String.ofList_toList

end WPanel.Lib
