import WPanel.Lib.Text
import Mathlib.Data.List.Infix

namespace WPanel.Lib

/-!
# Small letters, in Unicode and in ASCII

A library that knows Unicode makes more letters small than one that knows ASCII alone. On words of
ASCII the two agree but for two letters: the Kelvin sign becomes `k`, and the capital `İ` becomes
`i` and a mark.

* `LoweredTo` — a text and what it becomes;
* `Lowering` — a function that makes letters small so;
* `eq_iff`, `isSuffix_iff`, `isInfix_iff` — a word of ASCII that has no `k` (and, inside a text,
  neither a `k` nor an `i`) is found in the one where it is found in the other;
* `eq_iff_kelvin` — with a `k`, where it is found when the Kelvin sign is taken for one.
-/

def kelvin : Char := '\u212A'

def dottedI : Char := '\u0130'

/-- What one character becomes: beyond ASCII only two become letters of ASCII. -/
def IsLowered (c : Char) (small : List Char) : Prop :=
  if c.toNat < 128 then small = [c.toLower]
  else if c = kelvin then small = ['k']
  else if c = dottedI then small = ['i', '\u0307']
  else small ≠ [] ∧ ∀ d ∈ small, 128 ≤ d.toNat

/-- A text becomes what its characters become, one after the other. -/
inductive LoweredTo : List Char → List Char → Prop
  | nil : LoweredTo [] []
  | cons {c : Char} {small text lowered : List Char} : IsLowered c small →
      LoweredTo text lowered → LoweredTo (c :: text) (small ++ lowered)

/-- A function that makes letters small. -/
structure Lowering where
  lower : String → String
  lowered : ∀ s, LoweredTo s.toList (lower s).toList

/-! ### One character -/

section

variable {c d : Char} {small text lowered word : List Char}

theorem toLower_of_not_ascii (h : 128 ≤ c.toNat) : c.toLower = c := by
  have hval : c.val.toNat = c.toNat := rfl
  have hlast : 'Z'.val.toNat = 90 := rfl
  refine dif_neg ?_
  rintro ⟨-, hle⟩
  have hle := UInt32.le_iff_toNat_le.mp hle
  omega

/-- Beyond ASCII a letter does not become one that a word holds, except a `k` or an `i`. -/
theorem IsLowered.mem (h : IsLowered c small) (hc : 128 ≤ c.toNat) (hd : d ∈ small) :
    d = 'k' ∨ d = 'i' ∨ 128 ≤ d.toNat := by
  unfold IsLowered at h
  rw [if_neg (Nat.not_lt.mpr hc)] at h
  split at h
  · rw [h] at hd
    exact .inl (List.mem_singleton.mp hd)
  · split at h
    · rw [h, List.mem_cons, List.mem_singleton] at hd
      rcases hd with rfl | rfl
      · exact .inr (.inl rfl)
      · exact .inr (.inr (by decide))
    · exact .inr (.inr (h.2 d hd))

/-- What a letter beyond ASCII becomes ends in a `k`, or beyond ASCII. -/
theorem IsLowered.last (h : IsLowered c small) (hc : 128 ≤ c.toNat) :
    ∃ front d, small = front ++ [d] ∧ (c = kelvin ∧ front = [] ∧ d = 'k' ∨
      c ≠ kelvin ∧ 128 ≤ d.toNat) := by
  unfold IsLowered at h
  rw [if_neg (Nat.not_lt.mpr hc)] at h
  split at h
  · next hkelvin => exact ⟨[], 'k', h, .inl ⟨hkelvin, rfl, rfl⟩⟩
  · next hkelvin =>
    split at h
    · exact ⟨['i'], '\u0307', h, .inr ⟨hkelvin, by decide⟩⟩
    · rcases List.eq_nil_or_concat small with rfl | ⟨front, d, rfl⟩
      · exact absurd rfl h.1
      · rw [List.concat_eq_append] at h ⊢
        exact ⟨front, d, rfl, .inr ⟨hkelvin, h.2 d (List.mem_append_right _ List.mem_cons_self)⟩⟩

/-- What a letter beyond ASCII becomes begins with a `k`, or beyond ASCII, but for one. -/
theorem IsLowered.first (h : IsLowered c small) (hc : 128 ≤ c.toNat) (hne : c ≠ dottedI) :
    ∃ d rest, small = d :: rest ∧ (d = 'k' ∨ 128 ≤ d.toNat) := by
  unfold IsLowered at h
  rw [if_neg (Nat.not_lt.mpr hc), if_neg hne] at h
  split at h
  · exact ⟨'k', [], h, .inl rfl⟩
  · obtain ⟨d, rest, rfl⟩ := List.exists_cons_of_ne_nil h.1
    exact ⟨d, rest, rfl, .inr (h.2 d List.mem_cons_self)⟩

theorem IsLowered.of_ascii (h : IsLowered c small) (hc : ¬128 ≤ c.toNat) : small = [c.toLower] := by
  unfold IsLowered at h
  rwa [if_pos (Nat.not_le.mp hc)] at h

end

/-! ### A text -/

section

variable {text lowered word : List Char}

/-- A word of ASCII without `k`. -/
def IsPlain (word : List Char) : Prop := ∀ c ∈ word, c.toNat < 128 ∧ c ≠ 'k'

/-- A word of ASCII without `k`. -/
def isPlainWord (word : String) : Bool :=
  word.toList.all fun c => decide (c.toNat < 128) && c != 'k'

theorem isPlain_of_isPlainWord {word : String} (h : isPlainWord word = true) :
    IsPlain word.toList := by
  intro c hc
  have hc := List.all_eq_true.mp h c hc
  rw [Bool.and_eq_true, decide_eq_true_eq, bne_iff_ne] at hc
  exact hc

private theorem not_mem_of_last {front : List Char} (hword : IsPlain word) {c d : Char}
    (hd : c = kelvin ∧ front = [] ∧ d = 'k' ∨ c ≠ kelvin ∧ 128 ≤ d.toNat) : d ∉ word := by
  intro hmem
  obtain ⟨hascii, hk⟩ := hword d hmem
  rcases hd with ⟨-, -, rfl⟩ | ⟨-, hd⟩
  · exact hk rfl
  · omega

private theorem not_mem_of_not_ascii (hword : IsPlain word) {c : Char} (hc : 128 ≤ c.toNat) :
    c.toLower ∉ word := by
  rw [toLower_of_not_ascii hc]
  intro hmem
  have := (hword c hmem).1
  omega

/-- **A word of ASCII without `k` is the text in small letters in both ways or in neither.** -/
theorem LoweredTo.eq_iff (h : LoweredTo text lowered) (hword : IsPlain word) :
    lowered = word ↔ text.map Char.toLower = word := by
  induction h generalizing word with
  | nil => rfl
  | @cons c small text lowered hsmall _ ih =>
    rw [List.map_cons]
    by_cases hc : 128 ≤ c.toNat
    · -- neither way is the letter one of the word's
      obtain ⟨front, d, rfl, hd⟩ := hsmall.last hc
      refine iff_of_false ?_ ?_
      · rintro rfl
        exact not_mem_of_last hword hd (by simp)
      · rintro rfl
        exact not_mem_of_not_ascii hword hc List.mem_cons_self
    · rw [hsmall.of_ascii hc]
      cases word with
      | nil => exact iff_of_false (List.cons_ne_nil _ _) (List.cons_ne_nil _ _)
      | cons a word =>
        obtain ⟨-, hword⟩ := List.forall_mem_cons.mp hword
        rw [List.singleton_append, List.cons.injEq, List.cons.injEq, ih hword]

private theorem isSuffix_append_cons {d : Char} (hd : d ∉ word) (front back : List Char) :
    word <:+ front ++ d :: back ↔ word <:+ back := by
  induction front with
  | nil =>
    rw [List.nil_append, List.suffix_cons_iff, or_iff_right]
    rintro rfl
    exact hd List.mem_cons_self
  | cons a front ih =>
    rw [List.cons_append, List.suffix_cons_iff, ih, or_iff_right]
    rintro rfl
    exact hd (List.mem_cons_of_mem _ (List.mem_append_right _ List.mem_cons_self))

/-- **A word of ASCII without `k` ends the text in small letters in both ways or in neither.** -/
theorem LoweredTo.isSuffix_iff (h : LoweredTo text lowered) (hword : IsPlain word) :
    word <:+ lowered ↔ word <:+ text.map Char.toLower := by
  induction h with
  | nil => rfl
  | @cons c small text lowered hsmall htext ih =>
    rw [List.map_cons]
    by_cases hc : 128 ≤ c.toNat
    · obtain ⟨front, d, rfl, hd⟩ := hsmall.last hc
      rw [List.append_assoc, List.singleton_append,
        isSuffix_append_cons (not_mem_of_last hword hd), ih,
        ← List.nil_append (c.toLower :: _),
        isSuffix_append_cons (not_mem_of_not_ascii hword hc)]
    · have heq := (htext.cons hsmall).eq_iff hword
      rw [hsmall.of_ascii hc, List.singleton_append, List.map_cons] at heq
      rw [hsmall.of_ascii hc, List.singleton_append, List.suffix_cons_iff, List.suffix_cons_iff,
        ih, eq_comm, heq, eq_comm]

/-! ### Inside a text -/

/-- Beyond ASCII no letter becomes one of the word's. -/
private theorem not_mem_word (hword : IsPlain word) (hi : 'i' ∉ word) {c d : Char}
    {small : List Char} (hsmall : IsLowered c small) (hc : 128 ≤ c.toNat) (hd : d ∈ small) :
    d ∉ word := by
  intro hmem
  rcases hsmall.mem hc hd with rfl | rfl | hbeyond
  · exact (hword _ hmem).2 rfl
  · exact hi hmem
  · have := (hword d hmem).1
    omega

private theorem isPrefix_of_head {a d : Char} (hd : d ∉ a :: word) (back : List Char) :
    ¬a :: word <+: d :: back := by
  intro h
  obtain ⟨rfl, -⟩ := List.cons_prefix_cons.mp h
  exact hd List.mem_cons_self

/-- The capital with a mark does not begin a word of ASCII, except `i`. -/
private theorem not_isPrefix_dotted (hword : IsPlain word) (hi : word.getLast? ≠ some 'i')
    (hne : word ≠ []) (back : List Char) : ¬word <+: 'i' :: '\u0307' :: back := by
  intro h
  match word, hne with
  | [a], _ =>
    obtain ⟨rfl, -⟩ := List.cons_prefix_cons.mp h
    exact hi rfl
  | a :: d :: word, _ =>
    obtain ⟨rfl, -⟩ := List.cons_prefix_cons.mp (List.cons_prefix_cons.mp h).2
    exact absurd (hword '\u0307' (by simp)).1 (by decide)

/-- A word of ASCII without `k`, that does not end in `i`, begins the text in small letters in both
    ways or in neither. -/
theorem LoweredTo.isPrefix_iff (h : LoweredTo text lowered) (hword : IsPlain word)
    (hi : word.getLast? ≠ some 'i') : word <+: lowered ↔ word <+: text.map Char.toLower := by
  induction h generalizing word with
  | nil => rfl
  | @cons c small text lowered hsmall _ ih =>
    cases word with
    | nil => exact iff_of_true List.nil_prefix List.nil_prefix
    | cons a word =>
      rw [List.map_cons]
      by_cases hc : 128 ≤ c.toNat
      · refine iff_of_false ?_ (isPrefix_of_head (not_mem_of_not_ascii hword hc) _)
        by_cases hdotted : c = dottedI
        · have hsmall : small = ['i', '\u0307'] := by
            rw [hdotted] at hsmall
            exact hsmall
          rw [hsmall]
          exact not_isPrefix_dotted hword hi (List.cons_ne_nil _ _) _
        · obtain ⟨d, rest, rfl, hd⟩ := hsmall.first hc hdotted
          refine isPrefix_of_head (fun hmem => ?_) _
          rcases hd with rfl | hd
          · exact (hword 'k' hmem).2 rfl
          · have := (hword d hmem).1
            omega
      · obtain ⟨-, hrest⟩ := List.forall_mem_cons.mp hword
        have hlast : word.getLast? ≠ some 'i' := fun hlast => hi (by
          rw [List.getLast?_cons, hlast]
          rfl)
        rw [hsmall.of_ascii hc, List.singleton_append, List.cons_prefix_cons,
          List.cons_prefix_cons, ih hrest hlast]

private theorem isInfix_append {small : List Char} {a : Char} (h : ∀ d ∈ small, d ∉ a :: word)
    (back : List Char) : a :: word <:+: small ++ back ↔ a :: word <:+: back := by
  induction small with
  | nil => rfl
  | cons d small ih =>
    obtain ⟨hd, hsmall⟩ := List.forall_mem_cons.mp h
    rw [List.cons_append, List.infix_cons_iff, ih hsmall,
      or_iff_right (isPrefix_of_head hd _)]

/-- **A word of ASCII without `k` and `i` is in the text in small letters in both ways or in
    neither.** -/
theorem LoweredTo.isInfix_iff (h : LoweredTo text lowered) (hword : IsPlain word)
    (hi : 'i' ∉ word) : word <:+: lowered ↔ word <:+: text.map Char.toLower := by
  cases word with
  | nil => exact iff_of_true List.nil_infix List.nil_infix
  | cons a word =>
    induction h with
    | nil => rfl
    | @cons c small text lowered hsmall htext ih =>
      rw [List.map_cons]
      by_cases hc : 128 ≤ c.toNat
      · rw [isInfix_append (fun d hd => not_mem_word hword hi hsmall hc hd), ih,
          ← List.singleton_append (l := text.map _), isInfix_append]
        intro d hd
        rw [List.mem_singleton.mp hd]
        exact not_mem_of_not_ascii hword hc
      · have hprefix := (htext.cons hsmall).isPrefix_iff hword fun hlast =>
          hi (List.mem_of_getLast? hlast)
        rw [hsmall.of_ascii hc, List.map_cons] at hprefix
        rw [hsmall.of_ascii hc, List.singleton_append, List.infix_cons_iff, List.infix_cons_iff,
          ih]
        exact or_congr_left hprefix

/-! ### The Kelvin sign -/

/-- ASCII in small letters, and a Kelvin sign as a `k`. -/
def lowerKelvin (c : Char) : Char := if c = kelvin then 'k' else c.toLower

/-- **A word of ASCII is the text in small letters where it is with the Kelvin sign as a `k`.** -/
theorem LoweredTo.eq_iff_kelvin (h : LoweredTo text lowered) (hword : ∀ c ∈ word, c.toNat < 128) :
    lowered = word ↔ text.map lowerKelvin = word := by
  induction h generalizing word with
  | nil => rfl
  | @cons c small text lowered hsmall _ ih =>
    rw [List.map_cons]
    have hrest : ∀ (a : Char) (word : List Char), (∀ c ∈ a :: word, c.toNat < 128) →
        (lowered = word ↔ text.map lowerKelvin = word) := fun a word hword =>
      ih (List.forall_mem_cons.mp hword).2
    by_cases hc : 128 ≤ c.toNat
    · obtain ⟨front, d, rfl, ⟨rfl, rfl, rfl⟩ | ⟨hne, hd⟩⟩ := hsmall.last hc
      · rw [lowerKelvin, if_pos rfl, List.nil_append, List.singleton_append]
        cases word with
        | nil => exact iff_of_false (List.cons_ne_nil _ _) (List.cons_ne_nil _ _)
        | cons a word => rw [List.cons.injEq, List.cons.injEq, hrest a word hword]
      · refine iff_of_false ?_ ?_
        · rintro rfl
          have := hword d (by simp)
          omega
        · rintro rfl
          have := hword (lowerKelvin c) List.mem_cons_self
          rw [lowerKelvin, if_neg hne, toLower_of_not_ascii hc] at this
          omega
    · have hne : c ≠ kelvin := by
        rintro rfl
        exact hc (by decide)
      rw [hsmall.of_ascii hc, lowerKelvin, if_neg hne, List.singleton_append]
      cases word with
      | nil => exact iff_of_false (List.cons_ne_nil _ _) (List.cons_ne_nil _ _)
      | cons a word => rw [List.cons.injEq, List.cons.injEq, hrest a word hword]

end

/-! ### A lowering -/

/-- One character after the other, those beyond ASCII left alone but for the two. -/
def simpleLower (c : Char) : List Char :=
  if c.toNat < 128 then [c.toLower]
  else if c = kelvin then ['k']
  else if c = dottedI then ['i', '\u0307']
  else [c]

theorem isLowered_simpleLower (c : Char) : IsLowered c (simpleLower c) := by
  unfold IsLowered simpleLower
  split
  · rfl
  · next hc =>
    split
    · rfl
    · split
      · rfl
      · refine ⟨List.cons_ne_nil _ _, fun d hd => ?_⟩
        rw [List.mem_singleton.mp hd]
        exact Nat.not_lt.mp hc

theorem loweredTo_flatMap (text : List Char) : LoweredTo text (text.flatMap simpleLower) := by
  induction text with
  | nil => exact .nil
  | cons c text ih => exact .cons (isLowered_simpleLower c) ih

private theorem loweredTo_simple (s : String) :
    LoweredTo s.toList (String.ofList (s.toList.flatMap simpleLower)).toList := by
  rw [String.toList_ofList]
  exact loweredTo_flatMap s.toList

def simpleLowering : Lowering where
  lower s := String.ofList (s.toList.flatMap simpleLower)
  lowered := loweredTo_simple

end WPanel.Lib
