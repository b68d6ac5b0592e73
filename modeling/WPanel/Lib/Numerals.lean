import WPanel.Lib.Text

namespace WPanel.Lib

/-!
# Numbers in text

How a Python program reads numbers: every decimal digit of Unicode counts, for `\d` in a
pattern and for `int` alike.

* `decimalDigit` — the value of a character that is a decimal digit;
* `isDigitText` — `text.isdigit()`, which counts other digits as well;
* `digitsValue` — what a row of digits is worth;
* `trailingDigits`, `searchTrailing` — the digits a text ends with, as `(\d+)$` finds them;
* `parseInt` — `int(text)`;
* `intText` — `str(n)`.
-/

/-! ### Digits -/

/-- Where the decimal digits of each script begin: the code points of their zeros. -/
def digitZeros : List Nat := [
  0x30, 0x660, 0x6F0, 0x7C0, 0x966, 0x9E6, 0xA66, 0xAE6, 0xB66, 0xBE6, 0xC66, 0xCE6, 0xD66, 0xDE6,
  0xE50, 0xED0, 0xF20, 0x1040, 0x1090, 0x17E0, 0x1810, 0x1946, 0x19D0, 0x1A80, 0x1A90, 0x1B50,
  0x1BB0, 0x1C40, 0x1C50, 0xA620, 0xA8D0, 0xA900, 0xA9D0, 0xA9F0, 0xAA50, 0xABF0, 0xFF10, 0x104A0,
  0x10D30, 0x11066, 0x110F0, 0x11136, 0x111D0, 0x112F0, 0x11450, 0x114D0, 0x11650, 0x116C0,
  0x11730, 0x118E0, 0x11950, 0x11C50, 0x11D50, 0x11DA0, 0x11F50, 0x16A60, 0x16AC0, 0x16B50,
  0x1D7CE, 0x1D7D8, 0x1D7E2, 0x1D7EC, 0x1D7F6, 0x1E140, 0x1E2F0, 0x1E4F0, 0x1E950, 0x1FBF0]

/-- `unicodedata.decimal(c)`. -/
def decimalDigit (c : Char) : Option Nat :=
  (digitZeros.find? fun first => first ≤ c.toNat && c.toNat < first + 10).map (c.toNat - ·)

def isDecimal (c : Char) : Bool := (decimalDigit c).isSome

/-- The digits from 0 to 9. -/
theorem decimalDigit_of_isDigit {c : Char} (h : c.isDigit = true) :
    decimalDigit c = some (c.toNat - 48) := by
  rw [Char.isDigit, Bool.and_eq_true, decide_eq_true_eq, decide_eq_true_eq] at h
  have hlow : 48 ≤ c.toNat := h.1
  have hhigh : c.toNat ≤ 57 := h.2
  unfold decimalDigit digitZeros
  rw [List.find?_cons_of_pos (by simp only [Bool.and_eq_true, decide_eq_true_eq]; omega)]
  rfl

theorem isDecimal_of_isDigit {c : Char} (h : c.isDigit = true) : isDecimal c = true := by
  unfold isDecimal
  rw [decimalDigit_of_isDigit h]
  rfl

/-- The digits that are not decimal: raised, lowered, circled and the like. -/
def otherDigits : List (Nat × Nat) := [
  (0xB2, 0xB3), (0xB9, 0xB9), (0x1369, 0x1371), (0x19DA, 0x19DA), (0x2070, 0x2070),
  (0x2074, 0x2079), (0x2080, 0x2089), (0x2460, 0x2468), (0x2474, 0x247C), (0x2488, 0x2490),
  (0x24EA, 0x24EA), (0x24F5, 0x24FD), (0x24FF, 0x24FF), (0x2776, 0x277E), (0x2780, 0x2788),
  (0x278A, 0x2792), (0x10A40, 0x10A43), (0x10E60, 0x10E68), (0x11052, 0x1105A),
  (0x1F100, 0x1F10A)]

/-- The characters `str.isdigit()` counts. -/
def isDigitChar (c : Char) : Bool :=
  isDecimal c || otherDigits.any fun range => range.1 ≤ c.toNat && c.toNat ≤ range.2

/-- `text.isdigit()`: there are characters, and all of them are digits. -/
def isDigitText (text : String) : Bool := !text.toList.isEmpty && text.toList.all isDigitChar

/-- What a row of digits is worth. -/
def digitsValue (digits : List Char) : Nat :=
  digits.foldl (fun value c => 10 * value + (decimalDigit c).getD 0) 0

private theorem foldl_digits (digits : List Char) (start : Nat) :
    digits.foldl (fun value c => 10 * value + (decimalDigit c).getD 0) start
      = start * 10 ^ digits.length + digitsValue digits := by
  unfold digitsValue
  induction digits generalizing start with
  | nil => simp
  | cons c rest ih =>
    rw [List.foldl_cons, List.foldl_cons, ih, ih (10 * 0 + _), List.length_cons, Nat.pow_succ']
    have : 10 * start * 10 ^ rest.length = start * (10 * 10 ^ rest.length) := by
      rw [Nat.mul_comm 10 start, Nat.mul_assoc]
    rw [Nat.add_mul, Nat.add_mul, this]
    omega

/-- Digits in front count for as much more as there are digits behind them. -/
theorem digitsValue_append (front back : List Char) :
    digitsValue (front ++ back) = digitsValue front * 10 ^ back.length + digitsValue back := by
  rw [digitsValue, List.foldl_append, foldl_digits]
  rfl

/-- Digits are worth nothing where each of them is a zero. -/
theorem digitsValue_eq_zero {digits : List Char} (h : ∀ c ∈ digits, isDecimal c = true) :
    digitsValue digits = 0 ↔ ∀ c ∈ digits, decimalDigit c = some 0 := by
  induction digits with
  | nil => simp [digitsValue]
  | cons c rest ih =>
    obtain ⟨d, hd⟩ := Option.isSome_iff_exists.mp (h c List.mem_cons_self)
    have hrest := ih fun e he => h e (List.mem_cons_of_mem c he)
    have hvalue : digitsValue (c :: rest) = d * 10 ^ rest.length + digitsValue rest := by
      rw [digitsValue, List.foldl_cons, foldl_digits, hd]
      show (10 * 0 + d) * _ + _ = _
      rw [Nat.mul_zero, Nat.zero_add]
    have hpow : 0 < 10 ^ rest.length := Nat.pow_pos (by decide)
    rw [hvalue, Nat.add_eq_zero_iff, Nat.mul_eq_zero, hrest, List.forall_mem_cons, hd,
      Option.some.injEq]
    exact and_congr_left fun _ => or_iff_left (Nat.ne_of_gt hpow)

/-- On the digits from 0 to 9 this is the value Lean reads. -/
theorem digitsValue_eq_ofDigitChars {digits : List Char} (h : ∀ c ∈ digits, c.isDigit = true) :
    digitsValue digits = Nat.ofDigitChars 10 digits 0 := by
  have hfold : ∀ start : Nat,
      digits.foldl (fun value c => 10 * value + (decimalDigit c).getD 0) start
        = digits.foldl (fun value c => 10 * value + (c.toNat - '0'.toNat)) start := by
    induction digits with
    | nil => intro start; rfl
    | cons c rest ih =>
      intro start
      rw [List.foldl_cons, List.foldl_cons, decimalDigit_of_isDigit (h c List.mem_cons_self),
        ih fun d hd => h d (List.mem_cons_of_mem c hd)]
      rfl
  rw [digitsValue, hfold, Nat.ofDigitChars_eq_foldl]

theorem digitsValue_toString (n : Nat) : digitsValue (toString n).toList = n := by
  rw [digitsValue_eq_ofDigitChars fun _ => isDigit_of_mem_toString, Nat.toString_eq_repr,
    Nat.toList_repr, Nat.ofDigitChars_ten_toDigits]

/-- A padded number is made of digits. -/
theorem isDigit_of_mem_zeroPad {width n : Nat} {c : Char} (h : c ∈ (zeroPad width n).toList) :
    c.isDigit = true := by
  rw [zeroPad, String.toList_ofList, List.mem_append] at h
  rcases h with hzero | hdigit
  · rw [List.eq_of_mem_replicate hzero]
    rfl
  · exact isDigit_of_mem_toString hdigit

/-- Padding adds nothing. -/
theorem digitsValue_zeroPad (width n : Nat) : digitsValue (zeroPad width n).toList = n := by
  have hzeros : ∀ k, digitsValue (List.replicate k '0') = 0 := by
    intro k
    rw [digitsValue_eq_ofDigitChars fun c hc => by rw [List.eq_of_mem_replicate hc]; rfl,
      Nat.ofDigitChars_replicate_zero, Nat.mul_zero]
  rw [zeroPad, String.toList_ofList, digitsValue_append, hzeros, Nat.zero_mul, Nat.zero_add,
    digitsValue_toString]

/-! ### The digits at the end -/

/-- The longest run of digits at the end. -/
def trailingDigits (text : List Char) : List Char := (text.reverse.takeWhile isDecimal).reverse

/-- `re.search(r"(\d+)$", text).group(1)`: `$` is also before a line break at the end. -/
def searchTrailing (text : String) : Option (List Char) :=
  let chars := text.toList
  let digits := trailingDigits (if chars.getLast? = some '\n' then chars.dropLast else chars)
  if digits = [] then none else some digits

private theorem takeWhile_append_of_all {p : Char → Bool} {front back : List Char}
    (h : ∀ c ∈ front, p c = true) : (front ++ back).takeWhile p = front ++ back.takeWhile p := by
  induction front with
  | nil => rfl
  | cons c rest ih =>
    rw [List.cons_append, List.takeWhile_cons_of_pos (h c List.mem_cons_self),
      ih fun d hd => h d (List.mem_cons_of_mem c hd), List.cons_append]

theorem isDecimal_of_mem_trailingDigits {text : List Char} {c : Char}
    (h : c ∈ trailingDigits text) : isDecimal c = true := by
  have hall := List.all_takeWhile (p := isDecimal) (l := text.reverse)
  exact List.all_eq_true.mp hall c (List.mem_reverse.mp h)

/-- Digits at the end join those before them. -/
theorem trailingDigits_append {front back : List Char} (h : ∀ c ∈ back, isDecimal c = true) :
    trailingDigits (front ++ back) = trailingDigits front ++ back := by
  unfold trailingDigits
  rw [List.reverse_append, takeWhile_append_of_all fun c hc => h c (List.mem_reverse.mp hc),
    List.reverse_append, List.reverse_reverse]

/-- A text that ends with digits is found to. -/
theorem searchTrailing_append {front : List Char} {back : List Char} (hback : back ≠ [])
    (h : ∀ c ∈ back, isDecimal c = true) :
    searchTrailing (String.ofList (front ++ back)) = some (trailingDigits front ++ back) := by
  unfold searchTrailing
  have hlast : (front ++ back).getLast? ≠ some '\n' := by
    intro hnewline
    rw [List.getLast?_append, List.getLast?_eq_some_getLast hback, Option.some_or] at hnewline
    have hdecimal := h _ (List.getLast_mem hback)
    rw [Option.some.inj hnewline] at hdecimal
    exact absurd hdecimal (by decide)
  rw [String.toList_ofList]
  dsimp only
  rw [if_neg hlast, trailingDigits_append h, if_neg (by simp [hback])]

/-! ### `int` and `str` -/

/-- The characters `int(text)` ignores at both ends. -/
def isIntSpace (c : Char) : Bool := isSpace c && !(28 ≤ c.toNat && c.toNat ≤ 31)

/-- The digits of `text`, where single underscores may stand between them. -/
def digitsOf (text : List Char) : Option (List Char) :=
  let groups := text.splitOn '_'
  if groups.all fun group => !group.isEmpty && group.all isDecimal then some groups.flatten
  else none

/-- The number of digits `int(text)` and `str(n)` stop at. -/
def maxIntDigits : Nat := 4300

/-- An unsigned number, or the `ValueError`. -/
def parseNat (text : List Char) : Option Nat :=
  (digitsOf text).bind fun digits =>
    if digits.length ≤ maxIntDigits then some (digitsValue digits) else none

/-- `int(text)`, or the `ValueError`. -/
def parseInt (text : String) : Option Int :=
  let chars := ((text.toList.dropWhile isIntSpace).reverse.dropWhile isIntSpace).reverse
  match chars with
  | '-' :: rest => (parseNat rest).map fun n => -(n : Int)
  | '+' :: rest => (parseNat rest).map fun n => (n : Int)
  | _ => (parseNat chars).map fun n => (n : Int)

example : parseInt " -1_0\n" = some (-10) := by decide

/-- `str(n)`. -/
def intText (n : Int) : String := if n < 0 then "-" ++ toString n.natAbs else toString n.natAbs

end WPanel.Lib
