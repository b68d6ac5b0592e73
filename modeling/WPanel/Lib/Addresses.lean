import Mathlib.Data.Nat.Notation
import Mathlib.Data.List.Basic
import Mathlib.Data.List.DropRight

namespace WPanel.Lib

/-!
# Internet addresses as text

What Python's `ipaddress` reads and writes: dotted numbers, and hexadecimal groups between colons
with one run of zeros left out.

* `IPv4`, `parseIPv4`, `IPv4.text` — four octets;
* `IPv6`, `parseIPv6`, `IPv6.text` — eight groups, the longest run of zeros left out, and a mapped
  IPv4 address written with dots;
* `ScopedIPv6`, `parseScopedIPv6`, `ScopedIPv6.text` — with the scope behind a `%`;
* `parseIPv4_text`, `parseIPv6_text`, `parseScopedIPv6_text` — what is written is read back;
* `isAddressChar_of_mem` — it is written in hexadecimal digits, dots and colons.
-/

/-! ### Numbers -/

/-- The value of a hexadecimal digit. -/
def hexDigit (c : Char) : Option ℕ :=
  if c.isDigit then some (c.toNat - 48)
  else if 97 ≤ c.toNat ∧ c.toNat ≤ 102 then some (c.toNat - 87)
  else if 65 ≤ c.toNat ∧ c.toNat ≤ 70 then some (c.toNat - 55)
  else none

/-- `int(text, 16)`, of hexadecimal digits. -/
def hexValue (text : List Char) : ℕ :=
  text.foldl (fun value c => 16 * value + (hexDigit c).getD 0) 0

/-- `_parse_hextet`. -/
def parseHextet (text : List Char) : Option (Fin 65536) :=
  if text ≠ [] ∧ text.all (fun c => (hexDigit c).isSome) = true ∧ text.length ≤ 4 then
    if h : hexValue text < 65536 then some ⟨hexValue text, h⟩ else none
  else none

/-- `"%x" % n`. -/
def hexText (n : Fin 65536) : List Char := Nat.toDigits 16 n

/-- `_parse_octet`. -/
def parseOctet (text : List Char) : Option (Fin 256) :=
  if text ≠ [] ∧ text.all Char.isDigit = true ∧ text.length ≤ 3
      ∧ (text = ['0'] ∨ text.head? ≠ some '0') then
    if h : Nat.ofDigitChars 10 text 0 < 256 then some ⟨_, h⟩ else none
  else none

def octetText (n : Fin 256) : List Char := Nat.toDigits 10 n

/-! ### Four octets -/

structure IPv4 where
  a : Fin 256
  b : Fin 256
  c : Fin 256
  d : Fin 256
  deriving DecidableEq, Repr

/-- `IPv4Address(text)`. -/
def parseIPv4 (text : List Char) : Option IPv4 :=
  match text.splitOn '.' with
  | [a, b, c, d] => do
    let a ← parseOctet a
    let b ← parseOctet b
    let c ← parseOctet c
    let d ← parseOctet d
    return ⟨a, b, c, d⟩
  | _ => none

/-- `str(address)`. -/
def IPv4.text (x : IPv4) : List Char :=
  ['.'].intercalate [octetText x.a, octetText x.b, octetText x.c, octetText x.d]

/-! ### Eight groups -/

structure IPv6 where
  hextets : List (Fin 65536)
  length_eq : hextets.length = 8
  deriving DecidableEq, Repr

private theorem joined_lt (high low : Fin 256) : high.val * 256 + low.val < 65536 := by omega

private theorem high_lt (n : Fin 65536) : n.val / 256 < 256 := by omega

/-- Two octets make a group. -/
def joinOctets (high low : Fin 256) : Fin 65536 := ⟨high * 256 + low, joined_lt high low⟩

def highOctet (n : Fin 65536) : Fin 256 := ⟨n / 256, high_lt n⟩

def lowOctet (n : Fin 65536) : Fin 256 := ⟨n % 256, Nat.mod_lt _ (by decide)⟩

/-- An address with dots at the end stands for two groups. -/
def withIPv4 (parts : List (List Char)) : Option (List (List Char)) :=
  if '.' ∈ parts.getLastD [] then
    (parseIPv4 (parts.getLastD [])).map fun x =>
      parts.dropLast ++ [hexText (joinOctets x.a x.b), hexText (joinOctets x.c x.d)]
  else some parts

/-- Where `::` stands at an end, it leaves one empty part there. -/
def unpad (parts : List (List Char)) : List (List Char) := if parts = [[]] then [] else parts

def pad (parts : List (List Char)) : List (List Char) := if parts = [] then [[]] else parts

private theorem length_filled {high low : List (Fin 65536)} (h : high.length + low.length < 8) :
    (high ++ List.replicate (8 - (high.length + low.length)) 0 ++ low).length = 8 := by
  rw [List.length_append, List.length_append, List.length_replicate]
  omega

/-- The groups before and after `::`, and zeros between them. -/
def fillZeros (high low : List (Fin 65536)) : Option IPv6 :=
  if h : high.length + low.length < 8 then
    some ⟨high ++ List.replicate (8 - (high.length + low.length)) 0 ++ low, length_filled h⟩
  else none

/-- The groups of all the parts; an empty part is none. -/
def parseGroups (parts : List (List Char)) : Option IPv6 := do
  let inner := parts.tail.dropLast
  match inner.count [] with
  | 0 =>
    let hextets ← parts.mapM parseHextet
    if h : hextets.length = 8 then some ⟨hextets, h⟩ else none
  | 1 =>
    let skip := inner.idxOf [] + 1
    let high ← (unpad (parts.take skip)).mapM parseHextet
    let low ← (unpad (parts.drop (skip + 1))).mapM parseHextet
    fillZeros high low
  | _ => none

/-- `_ip_int_from_string`. -/
def parseIPv6 (text : List Char) : Option IPv6 := do
  let colons := text.splitOn ':'
  guard (3 ≤ colons.length)
  let parts ← withIPv4 colons
  guard (parts.length ≤ 9)
  parseGroups parts

/-- How far the search for the longest run of zeros has come. -/
structure Runs where
  index : ℕ
  start : ℕ
  length : ℕ
  bestStart : ℕ
  bestLength : ℕ

/-- One more group. -/
def Runs.step (runs : Runs) (hextet : Fin 65536) : Runs :=
  if hextet = 0 then
    let start := if runs.length = 0 then runs.index else runs.start
    let better := runs.bestLength < runs.length + 1
    { index := runs.index + 1
      start := start
      length := runs.length + 1
      bestStart := if better then start else runs.bestStart
      bestLength := if better then runs.length + 1 else runs.bestLength }
  else { runs with index := runs.index + 1, length := 0 }

def longestRun (hextets : List (Fin 65536)) : Runs := hextets.foldl Runs.step ⟨0, 0, 0, 0, 0⟩

/-- `_compress_hextets`. -/
def compressHextets (hextets : List (Fin 65536)) : List (List Char) :=
  let runs := longestRun hextets
  if 1 < runs.bestLength then
    pad ((hextets.take runs.bestStart).map hexText)
      ++ [] :: pad ((hextets.drop (runs.bestStart + runs.bestLength)).map hexText)
  else hextets.map hexText

/-- `str(address)`: an address that is mapped from IPv4 keeps its dots. -/
def IPv6.text (x : IPv6) : List Char :=
  if x.hextets.take 6 = [0, 0, 0, 0, 0, 65535] then
    let high := x.hextets.getD 6 0
    let low := x.hextets.getD 7 0
    [':', ':', 'f', 'f', 'f', 'f', ':']
      ++ IPv4.text ⟨highOctet high, lowOctet high, highOctet low, lowOctet low⟩
  else [':'].intercalate (compressHextets x.hextets)

/-! ### With a scope -/

structure ScopedIPv6 where
  address : IPv6
  scope : Option (List Char)
  deriving DecidableEq, Repr

/-- `IPv6Address(text)`. -/
def parseScopedIPv6 (text : List Char) : Option ScopedIPv6 :=
  if '/' ∈ text then none
  else
    match text.dropWhile (· ≠ '%') with
    | [] => (parseIPv6 text).map fun address => ⟨address, none⟩
    | _ :: scope =>
      if scope = [] ∨ '%' ∈ scope then none
      else (parseIPv6 (text.takeWhile (· ≠ '%'))).map fun address => ⟨address, some scope⟩

/-- `str(address)`. -/
def ScopedIPv6.text (x : ScopedIPv6) : List Char :=
  match x.scope with
  | none => x.address.text
  | some scope => x.address.text ++ '%' :: scope

example : (parseScopedIPv6 "1:0:0:2::FFFF%eth0".toList).map (String.ofList ·.text)
    = some "1:0:0:2::ffff%eth0" := by decide +kernel

/-! ### Numbers are read back -/

/-- The characters an address is written in. -/
def isAddressChar (c : Char) : Bool :=
  c.isDigit || (97 ≤ c.toNat && c.toNat ≤ 102) || c = ':' || c = '.'

private theorem hexDigit_digitChar :
    ∀ n : Fin 16, hexDigit n.val.digitChar = some n.val ∧ n.val.digitChar ≠ ':'
      ∧ n.val.digitChar ≠ '.' ∧ isAddressChar n.val.digitChar = true := by
  decide

/-- The digits of a number, one after the other. -/
theorem forall_mem_toDigits {P : Char → Prop} (h : ∀ n : Fin 16, P n.val.digitChar) (n : ℕ) :
    ∀ c ∈ Nat.toDigits 16 n, P c := by
  induction n using Nat.strongRecOn with
  | ind n ih =>
    rw [Nat.toDigits_eq_if (by decide)]
    split
    · next hn => exact List.forall_mem_singleton.mpr (h ⟨n, hn⟩)
    · next hn =>
      rw [List.forall_mem_append]
      exact ⟨ih (n / 16) (by omega),
        List.forall_mem_singleton.mpr (h ⟨n % 16, Nat.mod_lt _ (by decide)⟩)⟩

theorem hexValue_toDigits (n : ℕ) : hexValue (Nat.toDigits 16 n) = n := by
  induction n using Nat.strongRecOn with
  | ind n ih =>
    rw [Nat.toDigits_eq_if (by decide)]
    split
    · next hn => simp [hexValue, (hexDigit_digitChar ⟨n, hn⟩).1]
    · next hn =>
      have hlast : hexDigit (n % 16).digitChar = some (n % 16) :=
        (hexDigit_digitChar ⟨n % 16, Nat.mod_lt _ (by decide)⟩).1
      have hrest : hexValue (Nat.toDigits 16 (n / 16)) = n / 16 := ih (n / 16) (by omega)
      unfold hexValue at hrest ⊢
      rw [List.foldl_append, hrest, List.foldl_cons, List.foldl_nil, hlast, Option.getD_some]
      omega

theorem hexText_ne_nil (n : Fin 65536) : hexText n ≠ [] := Nat.toDigits_ne_nil

/-- **A group is read back.** -/
theorem parseHextet_hexText (n : Fin 65536) : parseHextet (hexText n) = some n := by
  have hshort : (hexText n).length ≤ 4 :=
    (Nat.length_toDigits_le_iff (by decide) (by decide)).mpr n.isLt
  have hdigits : ∀ c ∈ hexText n, (hexDigit c).isSome = true :=
    forall_mem_toDigits (fun m => by rw [(hexDigit_digitChar m).1]; rfl) n
  have hvalue : hexValue (hexText n) = n := hexValue_toDigits n
  rw [parseHextet, if_pos ⟨hexText_ne_nil n, List.all_eq_true.mpr hdigits, hshort⟩,
    dif_pos (by rw [hvalue]; exact n.isLt)]
  exact congrArg some (Fin.ext hvalue)

theorem mapM_parseHextet (hextets : List (Fin 65536)) :
    (hextets.map hexText).mapM parseHextet = some hextets := by
  induction hextets with
  | nil => rfl
  | cons n rest ih => simp [parseHextet_hexText, ih]

/-- **An octet is read back.** -/
theorem parseOctet_octetText : ∀ n : Fin 256, parseOctet (octetText n) = some n := by
  decide +kernel

theorem dot_not_mem_octetText (n : Fin 256) : '.' ∉ octetText n := fun h => by
  have := Nat.isDigit_of_mem_toDigits (by decide) (by decide) h
  exact absurd this (by decide)

theorem colon_not_mem_octetText (n : Fin 256) : ':' ∉ octetText n := fun h => by
  have := Nat.isDigit_of_mem_toDigits (by decide) (by decide) h
  exact absurd this (by decide)

/-- **Four octets are read back.** -/
theorem parseIPv4_text (x : IPv4) : parseIPv4 x.text = some x := by
  have hsplit : x.text.splitOn '.'
      = [octetText x.a, octetText x.b, octetText x.c, octetText x.d] := by
    refine List.splitOn_intercalate '.' ?_ (List.cons_ne_nil _ _)
    simp only [List.forall_mem_cons, dot_not_mem_octetText, not_false_eq_true, true_and]
    exact fun l hl => absurd hl List.not_mem_nil
  rw [parseIPv4, hsplit]
  simp only [parseOctet_octetText]
  rfl

/-! ### Runs of zeros -/

/-- What the search knows of the groups it has read: the run they end with, and a longest one. -/
structure Runs.Knows (runs : Runs) (read : List (Fin 65536)) : Prop where
  index : runs.index = read.length
  current : ∃ front, read = front ++ List.replicate runs.length 0
    ∧ (runs.length ≠ 0 → runs.start = front.length)
  best : ∃ front back, read = front ++ List.replicate runs.bestLength 0 ++ back
    ∧ runs.bestStart = front.length

theorem Runs.Knows.step {runs : Runs} {read : List (Fin 65536)} (h : runs.Knows read)
    (hextet : Fin 65536) : (runs.step hextet).Knows (read ++ [hextet]) := by
  obtain ⟨hindex, ⟨front, hread, hstart⟩, bestFront, bestBack, hbest, hbestStart⟩ := h
  unfold Runs.step
  by_cases hzero : hextet = 0
  · -- the run goes on
    subst hzero
    have hrun : read ++ [0] = front ++ List.replicate (runs.length + 1) 0 := by
      rw [hread, List.append_assoc, ← List.replicate_succ']
    have hbegins : (if runs.length = 0 then runs.index else runs.start) = front.length := by
      split
      · next hnone =>
        rw [hnone] at hread
        rw [hindex, hread, List.replicate_zero, List.append_nil]
      · next hsome => exact hstart hsome
    rw [if_pos rfl]
    refine ⟨by rw [List.length_append, hindex]; rfl, ⟨front, hrun, fun _ => hbegins⟩, ?_⟩
    by_cases hbetter : runs.bestLength < runs.length + 1
    · simp only [if_pos hbetter]
      exact ⟨front, [], by rw [List.append_nil, hrun], hbegins⟩
    · simp only [if_neg hbetter]
      exact ⟨bestFront, bestBack ++ [0], by rw [hbest, List.append_assoc], hbestStart⟩
  · rw [if_neg hzero]
    refine ⟨by rw [List.length_append, hindex]; rfl, ⟨read ++ [hextet], ?_, fun h => absurd rfl h⟩,
      bestFront, bestBack ++ [hextet], by rw [hbest, List.append_assoc], hbestStart⟩
    rw [List.replicate_zero, List.append_nil]

theorem Runs.Knows.foldl {runs : Runs} {read : List (Fin 65536)} (h : runs.Knows read)
    (hextets : List (Fin 65536)) : (hextets.foldl Runs.step runs).Knows (read ++ hextets) := by
  induction hextets generalizing runs read with
  | nil => rwa [List.append_nil]
  | cons hextet rest ih =>
    rw [List.append_cons]
    exact ih (h.step hextet)

/-- **The groups the search leaves out are zeros.** -/
theorem longestRun_spec (hextets : List (Fin 65536)) :
    hextets = hextets.take (longestRun hextets).bestStart
      ++ List.replicate (longestRun hextets).bestLength 0
      ++ hextets.drop ((longestRun hextets).bestStart + (longestRun hextets).bestLength) := by
  have hinit : Runs.Knows ⟨0, 0, 0, 0, 0⟩ [] :=
    ⟨rfl, ⟨[], rfl, fun h => absurd rfl h⟩, [], [], rfl, rfl⟩
  have hknows : (longestRun hextets).Knows hextets := hinit.foldl hextets
  generalize longestRun hextets = runs at hknows
  obtain ⟨front, back, rfl, hstart⟩ := hknows.best
  have hdrop : (front ++ List.replicate runs.bestLength (0 : Fin 65536) ++ back).drop
      (front.length + runs.bestLength) = back := List.drop_left' (by simp)
  have htake : (front ++ List.replicate runs.bestLength (0 : Fin 65536) ++ back).take front.length
      = front := by
    rw [List.append_assoc, List.take_left]
  rw [hstart, hdrop, htake]

/-! ### Parts are read back -/

section

variable {parts : List (List Char)} (hparts : ∀ part ∈ parts, part ≠ [])

include hparts

theorem unpad_pad : unpad (pad parts) = parts := by
  unfold unpad pad
  by_cases hnil : parts = []
  · rw [if_pos hnil, if_pos rfl, hnil]
  · rw [if_neg hnil, if_neg]
    intro h
    rw [h] at hparts
    exact hparts [] List.mem_cons_self rfl

theorem forall_tail_pad : ∀ part ∈ (pad parts).tail, part ≠ [] := by
  unfold pad
  split
  · exact fun part hpart => absurd hpart List.not_mem_nil
  · exact fun part hpart => hparts part (List.mem_of_mem_tail hpart)

theorem forall_dropLast_pad : ∀ part ∈ (pad parts).dropLast, part ≠ [] := by
  unfold pad
  split
  · exact fun part hpart => absurd hpart List.not_mem_nil
  · exact fun part hpart => hparts part (List.dropLast_subset _ hpart)

end

theorem pad_ne_nil (parts : List (List Char)) : pad parts ≠ [] := by
  unfold pad
  split
  · exact List.cons_ne_nil _ _
  · next h => exact h

private theorem hexTexts_ne_nil (hextets : List (Fin 65536)) :
    ∀ part ∈ hextets.map hexText, part ≠ [] := by
  intro part hpart
  obtain ⟨n, -, rfl⟩ := List.mem_map.mp hpart
  exact hexText_ne_nil n

private theorem count_nil_eq_zero {parts : List (List Char)} (h : ∀ part ∈ parts, part ≠ []) :
    parts.count [] = 0 := List.count_eq_zero.mpr fun hmem => h [] hmem rfl

/-- **Around a `::` the groups are read back**, with zeros between them. -/
theorem parseGroups_pad (high low : List (Fin 65536)) :
    parseGroups (pad (high.map hexText) ++ [] :: pad (low.map hexText)) = fillZeros high low := by
  have hhigh := hexTexts_ne_nil high
  have hlow := hexTexts_ne_nil low
  obtain ⟨first, rest, hpad⟩ := List.exists_cons_of_ne_nil (pad_ne_nil (high.map hexText))
  have hrest : ∀ part ∈ rest, part ≠ [] := by
    have := forall_tail_pad hhigh
    rwa [hpad] at this
  -- the part between the two colons is the only empty one
  have hinner : (pad (high.map hexText) ++ [] :: pad (low.map hexText)).tail.dropLast
      = rest ++ [] :: (pad (low.map hexText)).dropLast := by
    rw [hpad, List.cons_append, List.tail_cons,
      List.dropLast_append_of_ne_nil (List.cons_ne_nil _ _),
      List.dropLast_cons_of_ne_nil (pad_ne_nil _)]
  have hcount : (rest ++ [] :: (pad (low.map hexText)).dropLast).count [] = 1 := by
    rw [List.count_append, List.count_cons_self, count_nil_eq_zero hrest,
      count_nil_eq_zero (forall_dropLast_pad hlow)]
  have hskip : (rest ++ [] :: (pad (low.map hexText)).dropLast).idxOf [] + 1
      = (pad (high.map hexText)).length := by
    rw [List.idxOf_append_of_notMem fun hmem => hrest [] hmem rfl, List.idxOf_cons_self, hpad]
    rfl
  unfold parseGroups
  simp only [hinner, hcount, hskip]
  have hdrop : (pad (high.map hexText) ++ [] :: pad (low.map hexText)).drop
      ((pad (high.map hexText)).length + 1) = pad (low.map hexText) := by
    rw [List.append_cons]
    exact List.drop_left' (by rw [List.length_append]; rfl)
  rw [List.take_left, hdrop, unpad_pad hhigh, unpad_pad hlow, mapM_parseHextet, mapM_parseHextet]
  rfl

/-- Without a `::` all eight groups are there. -/
theorem parseGroups_map (x : IPv6) : parseGroups (x.hextets.map hexText) = some x := by
  have hinner : ∀ part ∈ (x.hextets.map hexText).tail.dropLast, part ≠ [] := fun part hpart =>
    hexTexts_ne_nil x.hextets part (List.mem_of_mem_tail (List.dropLast_subset _ hpart))
  unfold parseGroups
  simp only [count_nil_eq_zero hinner, mapM_parseHextet, Option.bind_eq_bind, Option.bind_some,
    x.length_eq, dif_pos]

/-! ### Addresses are read back -/

theorem fillZeros_eq_some {x : IPv6} {high low : List (Fin 65536)} {n : ℕ} (hn : 0 < n)
    (hx : x.hextets = high ++ List.replicate n 0 ++ low) : fillZeros high low = some x := by
  have hlength := x.length_eq
  rw [hx, List.length_append, List.length_append, List.length_replicate] at hlength
  have hless : high.length + low.length < 8 := by omega
  obtain rfl : n = 8 - (high.length + low.length) := by omega
  obtain ⟨hextets, height⟩ := x
  obtain rfl : hextets = _ := hx
  exact dif_pos hless

/-- The parts that are written are read back. -/
theorem parseGroups_compressHextets (x : IPv6) :
    parseGroups (compressHextets x.hextets) = some x := by
  unfold compressHextets
  simp only
  split
  · next hmore =>
    rw [parseGroups_pad]
    exact fillZeros_eq_some (by omega) (longestRun_spec x.hextets)
  · exact parseGroups_map x

private theorem length_pad (parts : List (List Char)) :
    (pad parts).length = max 1 parts.length := by
  unfold pad
  split
  · next h => rw [h]; rfl
  · next h =>
    have := List.length_pos_iff.mpr h
    omega

/-- There are two colons at least, and eight at most. -/
theorem length_compressHextets (x : IPv6) :
    3 ≤ (compressHextets x.hextets).length ∧ (compressHextets x.hextets).length ≤ 9 := by
  have hx := congrArg List.length (longestRun_spec x.hextets)
  simp only [List.length_append, List.length_replicate] at hx
  have height := x.length_eq
  unfold compressHextets
  simp only
  split
  · simp only [List.length_append, List.length_cons, length_pad, List.length_map]
    omega
  · rw [List.length_map]
    omega

/-- What is written between the colons. -/
theorem forall_mem_compressHextets {P : Char → Prop} (h : ∀ n : Fin 16, P n.val.digitChar)
    (hextets : List (Fin 65536)) : ∀ part ∈ compressHextets hextets, ∀ c ∈ part, P c := by
  have hmap : ∀ l : List (Fin 65536), ∀ part ∈ l.map hexText, ∀ c ∈ part, P c := by
    intro l part hpart
    obtain ⟨n, -, rfl⟩ := List.mem_map.mp hpart
    exact forall_mem_toDigits h n
  have hpad : ∀ l : List (Fin 65536), ∀ part ∈ pad (l.map hexText), ∀ c ∈ part, P c := by
    intro l part hpart
    unfold pad at hpart
    split at hpart
    · rw [List.mem_singleton.mp hpart]
      exact fun c hc => absurd hc List.not_mem_nil
    · exact hmap l part hpart
  unfold compressHextets
  simp only
  split
  · intro part hpart
    rcases List.mem_append.mp hpart with hpart | hpart
    · exact hpad _ part hpart
    · rcases List.mem_cons.mp hpart with rfl | hpart
      · exact fun c hc => absurd hc List.not_mem_nil
      · exact hpad _ part hpart
  · exact hmap hextets

theorem withIPv4_of_not_mem {parts : List (List Char)} (h : ∀ part ∈ parts, '.' ∉ part) :
    withIPv4 parts = some parts := by
  refine if_neg fun hdot => ?_
  rcases List.eq_nil_or_concat parts with rfl | ⟨front, last, rfl⟩
  · exact absurd hdot List.not_mem_nil
  · rw [List.concat_eq_append, List.getLastD_concat] at hdot
    refine h last ?_ hdot
    rw [List.concat_eq_append]
    exact List.mem_append_right _ List.mem_cons_self

private theorem guard_of {p : Prop} [Decidable p] (h : p) : (guard p : Option Unit) = some () :=
  if_pos h

/-- Text between colons, with three parts or more and none of them dotted. -/
theorem parseIPv6_intercalate {parts : List (List Char)} (hthree : 3 ≤ parts.length)
    (hnine : parts.length ≤ 9) (hcolon : ∀ part ∈ parts, ':' ∉ part)
    (hdot : ∀ part ∈ parts, '.' ∉ part) :
    parseIPv6 ([':'].intercalate parts) = parseGroups parts := by
  have hne : parts ≠ [] := List.ne_nil_of_length_pos (by omega)
  rw [parseIPv6, List.splitOn_intercalate ':' hcolon hne, guard_of hthree,
    withIPv4_of_not_mem hdot]
  show (guard _ >>= fun _ => parseGroups parts) = _
  rw [guard_of hnine]
  rfl

/-- Text that is joined holds what its parts and the separator hold. -/
theorem forall_mem_intercalate {P : Char → Prop} {sep : Char} (hsep : P sep)
    {parts : List (List Char)} (hparts : ∀ part ∈ parts, ∀ c ∈ part, P c) :
    ∀ c ∈ [sep].intercalate parts, P c := by
  induction parts with
  | nil => exact fun c hc => absurd hc List.not_mem_nil
  | cons part parts ih =>
    have hpart := hparts part List.mem_cons_self
    have hrest := ih fun p hp => hparts p (List.mem_cons_of_mem _ hp)
    cases parts with
    | nil => rwa [List.intercalate_singleton]
    | cons next parts =>
      rw [List.intercalate_cons_cons]
      exact List.forall_mem_append.mpr
        ⟨List.forall_mem_append.mpr ⟨hpart, List.forall_mem_singleton.mpr hsep⟩, hrest⟩

/-- It holds what each of its parts holds. -/
theorem mem_intercalate {l : List (List Char)} {part : List Char} {sep c : Char} (hpart : part ∈ l)
    (hc : c ∈ part) : c ∈ [sep].intercalate l := by
  induction l with
  | nil => cases hpart
  | cons first rest ih =>
    cases rest with
    | nil =>
      rw [List.mem_singleton.mp hpart] at hc
      rwa [List.intercalate_singleton]
    | cons next rest =>
      rw [List.intercalate_cons_cons]
      rcases List.mem_cons.mp hpart with rfl | hpart
      · exact List.mem_append_left _ (List.mem_append_left _ hc)
      · exact List.mem_append_right _ (ih hpart)

private theorem colon_not_mem_text (x : IPv4) : ':' ∉ x.text := by
  have hall : ∀ c ∈ x.text, c ≠ ':' := by
    refine forall_mem_intercalate (by decide) ?_
    simp only [List.forall_mem_cons]
    have hoctet : ∀ n, ∀ c ∈ octetText n, c ≠ ':' := fun n c hc heq =>
      colon_not_mem_octetText n (heq ▸ hc)
    exact ⟨hoctet _, hoctet _, hoctet _, hoctet _, fun part hpart => absurd hpart List.not_mem_nil⟩
  exact fun hmem => hall _ hmem rfl

private theorem dot_mem_text (x : IPv4) : '.' ∈ x.text := by
  rw [IPv4.text, List.intercalate_cons_cons]
  exact List.mem_append_left _ (List.mem_append_right _ List.mem_cons_self)

private theorem joinOctets_split (n : Fin 65536) : joinOctets (highOctet n) (lowOctet n) = n := by
  refine Fin.ext ?_
  show n.val / 256 * 256 + n.val % 256 = n.val
  omega

/-- An address with dots behind `::ffff:`. -/
theorem parseIPv6_mapped (v : IPv4) :
    parseIPv6 ([':', ':', 'f', 'f', 'f', 'f', ':'] ++ v.text)
      = fillZeros [] [65535, joinOctets v.a v.b, joinOctets v.c v.d] := by
  have hjoined : [':', ':', 'f', 'f', 'f', 'f', ':'] ++ v.text
      = [':'].intercalate [[], [], ['f', 'f', 'f', 'f'], v.text] := by
    simp [List.intercalate_cons_cons]
  have hsplit : ([':'].intercalate [[], [], ['f', 'f', 'f', 'f'], v.text]).splitOn ':'
      = [[], [], ['f', 'f', 'f', 'f'], v.text] := by
    refine List.splitOn_intercalate ':' ?_ (List.cons_ne_nil _ _)
    simp [colon_not_mem_text]
  have hparts : withIPv4 [[], [], ['f', 'f', 'f', 'f'], v.text]
      = some [[], [], ['f', 'f', 'f', 'f'], hexText (joinOctets v.a v.b),
        hexText (joinOctets v.c v.d)] := by
    unfold withIPv4
    have hlast : [[], [], ['f', 'f', 'f', 'f'], v.text].getLastD [] = v.text := rfl
    rw [hlast, if_pos (dot_mem_text v), parseIPv4_text]
    rfl
  have hgroups : [[], [], ['f', 'f', 'f', 'f'], hexText (joinOctets v.a v.b),
        hexText (joinOctets v.c v.d)]
      = pad (([] : List (Fin 65536)).map hexText)
        ++ [] :: pad ([65535, joinOctets v.a v.b, joinOctets v.c v.d].map hexText) := by
    have hffff : hexText 65535 = ['f', 'f', 'f', 'f'] := by decide
    simp [pad, hffff]
  rw [hjoined, parseIPv6, hsplit, hparts]
  show parseGroups _ = _
  rw [hgroups, parseGroups_pad]

/-- **An address is read back.** -/
theorem parseIPv6_text (x : IPv6) : parseIPv6 x.text = some x := by
  unfold IPv6.text
  split
  · next hmapped =>
    -- the last two groups are written as octets
    obtain ⟨high, low, hx⟩ : ∃ high low, x.hextets = [0, 0, 0, 0, 0, 65535] ++ [high, low] := by
      have hlast : (x.hextets.drop 6).length = 2 := by
        rw [List.length_drop, x.length_eq]
      obtain ⟨high, low, hdrop⟩ := List.length_eq_two.mp hlast
      exact ⟨high, low, by rw [← hmapped, ← hdrop, List.take_append_drop]⟩
    have hhigh : x.hextets.getD 6 0 = high := by rw [hx]; rfl
    have hlow : x.hextets.getD 7 0 = low := by rw [hx]; rfl
    simp only [hhigh, hlow]
    rw [parseIPv6_mapped, joinOctets_split, joinOctets_split]
    exact fillZeros_eq_some (n := 5) (by decide) hx
  · have hdigit := hexDigit_digitChar
    obtain ⟨hthree, hnine⟩ := length_compressHextets x
    have hcolon := forall_mem_compressHextets (P := (· ≠ ':')) (fun n => (hdigit n).2.1) x.hextets
    have hdot := forall_mem_compressHextets (P := (· ≠ '.')) (fun n => (hdigit n).2.2.1) x.hextets
    rw [parseIPv6_intercalate hthree hnine
      (fun part hpart hmem => hcolon part hpart _ hmem rfl)
      fun part hpart hmem => hdot part hpart _ hmem rfl]
    exact parseGroups_compressHextets x

/-! ### What is written -/

theorem IPv4.isAddressChar_of_mem (x : IPv4) : ∀ c ∈ x.text, isAddressChar c = true := by
  have hoctet : ∀ n : Fin 256, ∀ c ∈ octetText n, isAddressChar c = true := by
    intro n c hc
    have hdigit := Nat.isDigit_of_mem_toDigits (by decide) (by decide) hc
    rw [isAddressChar, hdigit]
    rfl
  refine forall_mem_intercalate (by decide) ?_
  simp only [List.forall_mem_cons]
  exact ⟨hoctet _, hoctet _, hoctet _, hoctet _, fun part hpart => absurd hpart List.not_mem_nil⟩

/-- **It is written in hexadecimal digits, dots and colons.** -/
theorem IPv6.isAddressChar_of_mem (x : IPv6) : ∀ c ∈ x.text, isAddressChar c = true := by
  unfold IPv6.text
  split
  · exact List.forall_mem_append.mpr
      ⟨List.all_eq_true.mp (by decide), IPv4.isAddressChar_of_mem _⟩
  · exact forall_mem_intercalate (by decide)
      (forall_mem_compressHextets (fun n => (hexDigit_digitChar n).2.2.2) x.hextets)

/-! ### With a scope -/

private theorem percent_not_mem (x : IPv6) : '%' ∉ x.text := fun h =>
  absurd (x.isAddressChar_of_mem '%' h) (by decide)

private theorem slash_not_mem (x : IPv6) : '/' ∉ x.text := fun h =>
  absurd (x.isAddressChar_of_mem '/' h) (by decide)

/-- What was read as a scope stands behind the `%`. -/
theorem scope_of_parse {text : List Char} {x : ScopedIPv6} (h : parseScopedIPv6 text = some x) :
    (x.scope = none ∧ '%' ∉ text)
      ∨ ∃ scope, x.scope = some scope ∧ text.dropWhile (· ≠ '%') = '%' :: scope ∧ scope ≠ []
        ∧ '%' ∉ scope ∧ '/' ∉ scope := by
  unfold parseScopedIPv6 at h
  split at h
  · cases h
  · next hslash =>
    split at h
    · next hdrop =>
      obtain ⟨address, -, rfl⟩ := Option.map_eq_some_iff.mp h
      refine .inl ⟨rfl, fun hmem => ?_⟩
      exact absurd (List.dropWhile_eq_nil_iff.mp hdrop '%' hmem) (by decide)
    · next c scope hdrop =>
      split at h
      · cases h
      · next hscope =>
        obtain ⟨address, -, rfl⟩ := Option.map_eq_some_iff.mp h
        obtain rfl : c = '%' := by
          have hhead := List.head?_dropWhile_not (· ≠ '%') text
          rw [hdrop] at hhead
          simpa using hhead
        rw [not_or] at hscope
        refine .inr ⟨scope, rfl, hdrop, hscope.1, hscope.2, fun hmem => hslash ?_⟩
        have hsuffix : '%' :: scope <:+ text := hdrop ▸ List.dropWhile_suffix _
        exact hsuffix.subset (List.mem_cons_of_mem _ hmem)

/-- **What is written of an address that was read is read back as that address.** -/
theorem parseScopedIPv6_text {text : List Char} {x : ScopedIPv6}
    (h : parseScopedIPv6 text = some x) : parseScopedIPv6 x.text = some x := by
  have hscope := scope_of_parse h
  obtain ⟨address, scope⟩ := x
  have hkeep : ∀ c ∈ address.text, (decide (c ≠ '%')) = true := fun c hc =>
    decide_eq_true fun heq => percent_not_mem address (heq ▸ hc)
  rcases hscope with ⟨hnone, -⟩ | ⟨scope', hsome, -, hne, hpercent, hslash⟩
  · obtain rfl : scope = none := hnone
    have hdrop : address.text.dropWhile (· ≠ '%') = [] := List.dropWhile_eq_nil_iff.mpr hkeep
    rw [parseScopedIPv6, ScopedIPv6.text, if_neg (slash_not_mem address)]
    simp only [hdrop, parseIPv6_text, Option.map_some]
  · obtain rfl : scope = some scope' := hsome
    have htake : (address.text ++ '%' :: scope').takeWhile (· ≠ '%') = address.text := by
      rw [List.takeWhile_append_of_pos hkeep]
      simp
    have hdrop : (address.text ++ '%' :: scope').dropWhile (· ≠ '%') = '%' :: scope' := by
      rw [List.dropWhile_append_of_pos hkeep]
      simp
    have hno : '/' ∉ address.text ++ '%' :: scope' := by
      intro hmem
      rcases List.mem_append.mp hmem with hmem | hmem
      · exact slash_not_mem address hmem
      · exact hslash ((List.mem_cons.mp hmem).resolve_left (by decide))
    rw [parseScopedIPv6, ScopedIPv6.text, if_neg hno]
    simp only [hdrop, htake, parseIPv6_text, Option.map_some, if_neg (not_or.mpr ⟨hne, hpercent⟩)]

end WPanel.Lib
