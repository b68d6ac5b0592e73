import Mathlib.Algebra.Order.Ring.Nat
import Mathlib.Data.List.DropRight
import Mathlib.Data.List.TakeWhile

namespace WPanel.Lib

/-!
# Text

The few string operations of a Python program that its logic depends on: `str.strip`,
slicing from the left, cutting at a character, and numbers as text.
-/

/-- The characters `str.strip()` removes. -/
def isSpace (c : Char) : Bool :=
  let n := c.toNat
  (9 ≤ n && n ≤ 13) || (28 ≤ n && n ≤ 32) || n = 0x85 || n = 0xA0 || n = 0x1680
    || (0x2000 ≤ n && n ≤ 0x200A) || n = 0x2028 || n = 0x2029 || n = 0x202F || n = 0x205F
    || n = 0x3000

/-- `s.strip()`. -/
def strip (s : String) : String :=
  String.ofList ((s.toList.dropWhile isSpace).reverse.dropWhile isSpace).reverse

/-- `s[:n]`. -/
def clip (n : Nat) (s : String) : String := String.ofList (s.toList.take n)

/-- `s.lower()`. -/
def lower (s : String) : String := String.ofList (s.toList.map Char.toLower)

/-- `s.upper()`. -/
def upper (s : String) : String := String.ofList (s.toList.map Char.toUpper)

/-- `s.rstrip(c)`, for one character. -/
def rstrip (c : Char) (s : String) : String :=
  String.ofList (s.toList.reverse.dropWhile (· = c)).reverse

/-- `s.strip(c)`, for one character. -/
def stripChar (c : Char) (s : String) : String :=
  String.ofList ((s.toList.dropWhile (· = c)).reverse.dropWhile (· = c)).reverse

/-- `s.split(c)`, for one character. -/
def splitOn (c : Char) (s : String) : List String := (s.toList.splitOn c).map String.ofList

/-- `s.replace(c, new)`, for one character. -/
def replaceChar (c : Char) (new s : String) : String :=
  String.ofList (s.toList.flatMap fun d => if d = c then new.toList else [d])

/-- `s.partition(c)`, for one character: what comes before its first occurrence, and after. -/
def partition (c : Char) (s : String) : String × String :=
  (String.ofList (s.toList.takeWhile (· ≠ c)),
    String.ofList ((s.toList.dropWhile (· ≠ c)).drop 1))

/-- `s.startswith(start)`. -/
def startsWith (s start : String) : Bool := start.toList.isPrefixOf s.toList

/-- `s.endswith(tail)`. -/
def endsWith (s tail : String) : Bool := tail.toList.isSuffixOf s.toList

/-- `f"{n:0<width>d}"`. -/
def zeroPad (width n : Nat) : String :=
  let digits := (toString n).toList
  String.ofList (List.replicate (width - digits.length) '0' ++ digits)

/-- A padded number fills its width. -/
theorem le_length_zeroPad (width n : Nat) : width ≤ (zeroPad width n).toList.length := by
  simp only [zeroPad, String.toList_ofList, List.length_append, List.length_replicate]
  omega

theorem splitOn_ne_nil (c : Char) (s : String) : splitOn c s ≠ [] := by
  simp only [splitOn, ne_eq, List.map_eq_nil_iff]
  exact List.splitOnP_ne_nil _ _

/-- Nothing is stripped from a text without blanks. -/
theorem strip_eq_self {s : String} (h : ∀ c ∈ s.toList, isSpace c = false) : strip s = s := by
  have hsame : ∀ l : List Char, (∀ c ∈ l, isSpace c = false) → l.dropWhile isSpace = l := by
    intro l hl
    cases l with
    | nil => rfl
    | cons c l => rw [List.dropWhile_cons_of_neg (by simp [hl c List.mem_cons_self])]
  have hreverse := hsame s.toList.reverse fun c hc => h c (List.mem_reverse.mp hc)
  rw [strip, hsame _ h, hreverse, List.reverse_reverse, String.ofList_toList]

/-- Stripping makes no text longer. -/
theorem length_strip_le (s : String) : (strip s).toList.length ≤ s.toList.length := by
  rw [strip, String.toList_ofList, List.length_reverse]
  refine (List.dropWhile_suffix _).length_le.trans ?_
  rw [List.length_reverse]
  exact (List.dropWhile_suffix _).length_le

/-- A text that stripping empties is made of blanks. -/
theorem isSpace_of_strip {text : String} (h : strip text = "") :
    ∀ c ∈ text.toList, isSpace c = true := by
  have hnil := List.reverse_eq_nil_iff.mp ((String.toList_ofList).symm.trans
    (congrArg String.toList h))
  have hall := List.dropWhile_eq_nil_iff.mp hnil
  cases hrest : text.toList.dropWhile isSpace with
  | nil => exact List.dropWhile_eq_nil_iff.mp hrest
  | cons c rest =>
    -- the first character that is no blank would be left
    have hnot := List.head?_dropWhile_not isSpace text.toList
    rw [hrest] at hnot hall
    have hspace := hall c (List.mem_reverse.mpr List.mem_cons_self)
    exact absurd (hspace.symm.trans hnot) (by decide)

/-- What is left of a list without the blanks at both ends has none there. -/
private theorem ends_dropWhile {p : Char → Bool} (l : List Char) :
    (∀ c ∈ ((l.dropWhile p).reverse.dropWhile p).reverse.head?, p c = false)
      ∧ ∀ c ∈ ((l.dropWhile p).reverse.dropWhile p).reverse.getLast?, p c = false := by
  have hhead : ∀ l : List Char, ∀ c ∈ (l.dropWhile p).head?, p c = false := fun l c hc => by
    have := List.head?_dropWhile_not p l
    rw [Option.mem_def.mp hc] at this
    simpa using this
  constructor
  · intro c hc
    rw [List.head?_reverse] at hc
    -- the last character that is left was there before
    obtain ⟨front, hfront⟩ := List.dropWhile_suffix p (l := (l.dropWhile p).reverse)
    refine hhead l c ?_
    rw [← List.reverse_reverse (l.dropWhile p), ← hfront, List.head?_reverse, List.getLast?_append,
      Option.mem_def.mp hc]
    rfl
  · intro c hc
    rw [List.getLast?_reverse] at hc
    exact hhead _ c hc

/-- A stripped text neither begins nor ends with a blank. -/
theorem ends_strip (s : String) : (∀ c ∈ (strip s).toList.head?, isSpace c = false)
    ∧ ∀ c ∈ (strip s).toList.getLast?, isSpace c = false := by
  rw [strip, String.toList_ofList]
  exact ends_dropWhile s.toList

/-- A text that neither begins nor ends with a blank is left as it is. -/
theorem strip_eq_self_of_ends {s : String} (hhead : ∀ c ∈ s.toList.head?, isSpace c = false)
    (hlast : ∀ c ∈ s.toList.getLast?, isSpace c = false) : strip s = s := by
  have hkeep : ∀ l : List Char, (∀ c ∈ l.head?, isSpace c = false) → l.dropWhile isSpace = l := by
    intro l hl
    cases l with
    | nil => rfl
    | cons c l => rw [List.dropWhile_cons_of_neg (by simp [hl c rfl])]
  have hreverse := hkeep s.toList.reverse fun c hc => hlast c (by rwa [← List.head?_reverse])
  rw [strip, hkeep _ hhead, hreverse, List.reverse_reverse, String.ofList_toList]

theorem strip_strip (s : String) : strip (strip s) = strip s :=
  strip_eq_self_of_ends (ends_strip s).1 (ends_strip s).2

/-- What stands between blanks, and has none at its own ends, is what stripping leaves. -/
theorem strip_between {lead mid trail : List Char} (hlead : ∀ c ∈ lead, isSpace c = true)
    (htrail : ∀ c ∈ trail, isSpace c = true) (hhead : ∀ c ∈ mid.head?, isSpace c = false)
    (hlast : ∀ c ∈ mid.getLast?, isSpace c = false) :
    strip (String.ofList (lead ++ mid ++ trail)) = String.ofList mid := by
  have hkeep : ∀ {blanks ink : List Char}, (∀ c ∈ blanks, isSpace c = true) →
      (∀ c ∈ ink.head?, isSpace c = false) → ink ≠ [] →
      (blanks ++ ink).dropWhile isSpace = ink := by
    intro blanks ink hblanks hink hne
    obtain ⟨c, ink, rfl⟩ := List.exists_cons_of_ne_nil hne
    rw [List.dropWhile_append_of_pos hblanks,
      List.dropWhile_cons_of_neg (by simp [hink c rfl])]
  rw [strip, String.toList_ofList]
  congr 1
  cases mid with
  | nil =>
    have hblank : ∀ c ∈ lead ++ [] ++ trail, isSpace c = true := by
      rw [List.append_nil]
      exact List.forall_mem_append.mpr ⟨hlead, htrail⟩
    rw [List.dropWhile_eq_nil_iff.mpr hblank]
    rfl
  | cons c mid =>
    rw [List.append_assoc, hkeep hlead (show ∀ d ∈ (c :: mid ++ trail).head?, _ from hhead)
        (List.cons_ne_nil _ _), List.reverse_append,
      hkeep (fun d hd => htrail d (List.mem_reverse.mp hd)), List.reverse_reverse]
    · intro d hd
      rw [List.head?_reverse] at hd
      exact hlast d hd
    · exact List.reverse_ne_nil_iff.mpr (List.cons_ne_nil _ _)

/-- A text written piece by piece, of which some are blank and the others end in ink: stripping
    takes blank pieces away, at both ends. -/
theorem strip_flatMap {α : Type*} {write : α → List Char} {blank : α → Bool}
    (hblank : ∀ a, blank a = true → ∀ c ∈ write a, isSpace c = true)
    (hink : ∀ a, blank a = false → write a ≠ [] ∧ (∀ c ∈ (write a).head?, isSpace c = false)
      ∧ ∀ c ∈ (write a).getLast?, isSpace c = false) (pieces : List α) :
    ∃ lead mid trail, pieces = lead ++ mid ++ trail
      ∧ (∀ a ∈ lead, blank a = true) ∧ (∀ a ∈ trail, blank a = true)
      ∧ strip (String.ofList (pieces.flatMap write)) = String.ofList (mid.flatMap write) := by
  obtain ⟨rest, hrest⟩ : ∃ rest, pieces.dropWhile blank = rest := ⟨_, rfl⟩
  have hpieces : pieces = pieces.takeWhile blank ++ (rest.rdropWhile blank)
      ++ rest.rtakeWhile blank := by
    rw [List.append_assoc, List.rdropWhile_append_rtakeWhile, ← hrest,
      List.takeWhile_append_dropWhile]
  have hwritten : ∀ {l : List α}, (∀ a ∈ l, blank a = true) →
      ∀ c ∈ l.flatMap write, isSpace c = true := by
    intro l hl c hc
    obtain ⟨a, ha, hc⟩ := List.mem_flatMap.mp hc
    exact hblank a (hl a ha) c hc
  have hlead : ∀ a ∈ pieces.takeWhile blank, blank a = true := fun a ha =>
    List.mem_takeWhile_imp ha
  have htrail : ∀ a ∈ rest.rtakeWhile blank, blank a = true := fun a ha =>
    List.mem_rtakeWhile_imp ha
  refine ⟨_, _, _, hpieces, hlead, htrail, ?_⟩
  conv_lhs => rw [hpieces, List.flatMap_append, List.flatMap_append]
  refine strip_between (hwritten hlead) (hwritten htrail) ?_ ?_
  · intro c hc
    cases hmid : rest.rdropWhile blank with
    | nil =>
      rw [hmid] at hc
      cases hc
    | cons a mid =>
      -- the first piece that is left is the first that is not blank
      obtain ⟨more, hmore⟩ := List.rdropWhile_prefix blank (l := rest)
      have ha : blank a = false := by
        have hnot := List.head?_dropWhile_not blank pieces
        rw [hrest, ← hmore, hmid] at hnot
        simpa using hnot
      obtain ⟨hne, hhead, -⟩ := hink a ha
      rw [hmid, List.flatMap_cons, List.head?_append_of_ne_nil _ hne] at hc
      exact hhead c hc
  · intro c hc
    rcases List.eq_nil_or_concat (rest.rdropWhile blank) with hmid | ⟨mid, a, hmid⟩
    · rw [hmid] at hc
      cases hc
    · have ha : blank a = false := by
        have hnot := List.rdropWhile_last_not blank rest (by simp [hmid])
        simpa [hmid] using hnot
      obtain ⟨hne, -, hlast⟩ := hink a ha
      rw [hmid, List.concat_eq_append, List.flatMap_append, List.flatMap_singleton,
        List.getLast?_append_of_ne_nil _ hne] at hc
      exact hlast c hc

/-- Nothing but `c` at the end is gone. -/
theorem mem_rstrip_iff {c d : Char} (hne : d ≠ c) {s : String} :
    d ∈ (rstrip c s).toList ↔ d ∈ s.toList := by
  rw [rstrip, String.toList_ofList, List.mem_reverse]
  constructor
  · exact fun h => List.mem_reverse.mp ((List.dropWhile_suffix _).subset h)
  · intro h
    have h := List.mem_reverse.mpr h
    rw [← List.takeWhile_append_dropWhile (p := (· = c)) (l := s.toList.reverse)] at h
    refine (List.mem_append.mp h).resolve_left fun htake => ?_
    exact hne (of_decide_eq_true (List.all_eq_true.mp List.all_takeWhile d htake))

/-- The last character of `rstrip(c)` is not `c`. -/
theorem getLast?_rstrip (c : Char) (s : String) : (rstrip c s).toList.getLast? ≠ some c := by
  rw [rstrip, String.toList_ofList, List.getLast?_reverse]
  intro h
  have := List.head?_dropWhile_not (· = c) s.toList.reverse
  rw [h] at this
  simp at this

/-- A character that does not occur is not replaced. -/
theorem replaceChar_of_not_mem {c : Char} {s : String} (h : c ∉ s.toList) (new : String) :
    replaceChar c new s = s := by
  have hsame : ∀ l : List Char, c ∉ l →
      (l.flatMap fun d => if d = c then new.toList else [d]) = l := by
    intro l
    induction l with
    | nil => exact fun _ => rfl
    | cons d l ih =>
      intro hmem
      rw [List.mem_cons, not_or] at hmem
      rw [List.flatMap_cons, ih hmem.2, if_neg (Ne.symm hmem.1)]
      rfl
  rw [replaceChar, hsame s.toList h, String.ofList_toList]

theorem rstrip_eq_self {c : Char} {s : String} (h : s.toList.getLast? ≠ some c) :
    rstrip c s = s := by
  have hsame : s.toList.reverse.dropWhile (· = c) = s.toList.reverse := by
    cases hrev : s.toList.reverse with
    | nil => rfl
    | cons d rest =>
      refine List.dropWhile_cons_of_neg fun hd => h ?_
      rw [← List.head?_reverse, hrev, of_decide_eq_true hd]
      rfl
  rw [rstrip, hsame, List.reverse_reverse, String.ofList_toList]

theorem rstrip_concat {c : Char} {s : String} (tail : String) (htail : tail.toList = [c]) :
    rstrip c (s ++ tail) = rstrip c s := by
  rw [rstrip, String.toList_append, htail, List.reverse_append, List.reverse_singleton,
    List.singleton_append, List.dropWhile_cons, if_pos (decide_eq_true rfl)]
  rfl

theorem endsWith_iff {s tail : String} : endsWith s tail = true ↔ tail.toList <:+ s.toList :=
  List.isSuffixOf_iff_suffix

/-- Cutting loses one character at each cut. -/
theorem length_splitOn (c : Char) (s : String) :
    ((splitOn c s).map fun part => part.toList.length + 1).sum = s.toList.length + 1 := by
  have hlist : ∀ l : List Char, ((l.splitOn c).map fun part => part.length + 1).sum
      = l.length + 1 := by
    intro l
    induction l with
    | nil => rfl
    | cons d l ih =>
      obtain ⟨part, parts, hparts⟩ := List.exists_cons_of_ne_nil (List.splitOnP_ne_nil (· == c) l)
      simp only [List.splitOn, hparts] at ih
      simp only [List.splitOn, List.splitOnP_cons_eq_if_modifyHead, hparts]
      split
      · simp only [List.map_cons, List.sum_cons, List.length_nil, Nat.zero_add,
          List.length_cons] at ih ⊢
        omega
      · simp only [List.map_cons, List.sum_cons, List.modifyHead_cons, List.length_cons] at ih ⊢
        omega
  rw [splitOn, List.map_map, ← hlist s.toList]
  congr 1
  exact List.map_congr_left fun part _ => by simp

/-! ### Lower case -/

private theorem toLower_toLower (c : Char) : c.toLower.toLower = c.toLower := by
  unfold Char.toLower
  split
  · next h =>
    rw [dif_neg]
    rintro ⟨-, h'⟩
    have hle := UInt32.le_iff_toNat_le.mp h.1
    have hle' := UInt32.le_iff_toNat_le.mp h'
    simp only [UInt32.toNat_add] at hle'
    have hA : ('A'.val).toNat = 65 := rfl
    have hZ : ('Z'.val).toNat = 90 := rfl
    have hshift : ('a'.val - 'A'.val).toNat = 32 := rfl
    have hbound := UInt32.le_iff_toNat_le.mp h.2
    omega
  · rfl

theorem lower_lower (s : String) : lower (lower s) = lower s := by
  simp only [lower, String.toList_ofList, List.map_map]
  congr 1
  exact List.map_congr_left fun c _ => toLower_toLower c

theorem lower_append (s t : String) : lower (s ++ t) = lower s ++ lower t := by
  simp only [lower, String.toList_append, List.map_append, String.ofList_append]

/-! ### Numbers as text -/

/-- A number is written in digits. -/
theorem isDigit_of_mem_toString {n : Nat} {c : Char} (h : c ∈ (toString n).toList) :
    c.isDigit = true := by
  rw [Nat.toString_eq_repr, Nat.toList_repr] at h
  exact Nat.isDigit_of_mem_toDigits (by decide) (by decide) h

private theorem digitChar_inj {a b : Nat} (ha : a < 10) (hb : b < 10)
    (h : a.digitChar = b.digitChar) : a = b := by
  have := congrArg Char.toNat h
  rw [Nat.toNat_digitChar_of_lt_ten ha, Nat.toNat_digitChar_of_lt_ten hb] at this
  omega

private theorem toDigits_inj {n m : Nat} (h : Nat.toDigits 10 n = Nat.toDigits 10 m) : n = m := by
  induction n using Nat.strongRecOn generalizing m with
  | ind n ih =>
    rw [Nat.toDigits_eq_if (by decide), Nat.toDigits_eq_if (n := m) (by decide)] at h
    -- one digit each, or the last digits agree and so do the rest
    split at h <;> split at h
    · next hn hm => exact digitChar_inj hn hm (List.singleton_inj.mp h)
    · next hm =>
      have := congrArg List.length h
      have := Nat.length_toDigits_pos (b := 10) (n := m / 10)
      simp at *
    · next hn _ =>
      have := congrArg List.length h
      have := Nat.length_toDigits_pos (b := 10) (n := n / 10)
      simp at *
    · next hn hm =>
      obtain ⟨hrest, hlast⟩ := List.append_inj' h rfl
      have hlast := digitChar_inj (Nat.mod_lt n (by decide)) (Nat.mod_lt m (by decide))
        (List.singleton_inj.mp hlast)
      have := ih (n / 10) (by omega) hrest
      omega

/-- Two numbers that are written alike are the same. -/
theorem toString_inj {n m : Nat} (h : toString n = toString m) : n = m := by
  rw [Nat.toString_eq_repr, Nat.toString_eq_repr] at h
  have := congrArg String.toList h
  rw [Nat.toList_repr, Nat.toList_repr] at this
  exact toDigits_inj this

end WPanel.Lib
