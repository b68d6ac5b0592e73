import WPanel.Lib.Lowering
import WPanel.Lib.Numerals

namespace WPanel.Hosting.Scanners

open WPanel.Lib

/-!
# The two malware scanners

What one file of a website is reported for, by the demo provider's scanner
(`hosting/adapters/demo_security.py`) and by the one-file scanner that is put on a customer's
server (`hosting/care_scanner.py`), with the rules of `hosting/scan_rules.py`.

* `scanFile`, `phpFindings` — the two scanners;
* `JudgedAlike` — both report the same rules, with the same severities;
* `Alike` — the file's whole name is no ending of a script or a page that counts with only one of
  them, and it is no shell's name written with a Kelvin sign and no picture's behind `.php` and a
  digit beyond ASCII;
* `judgedAlike_iff` — the scanners agree on exactly such files.
-/

/-! ### The rules -/

def MAX_SCAN_BYTES : ℕ := 1000000

def WEB_EXTENSIONS : List String :=
  [".php", ".phtml", ".php5", ".js", ".html", ".htm", ".htaccess"]

def SHELL_NAMES : List String :=
  ["c99.php", "r57.php", "wso.php", "b374k.php", "shell.php", "webshell.php", "alfa.php",
    "indoxploit.php"]

def UPLOAD_DIRS : List String := ["uploads", "upload", "images", "img", "files", "cache", "tmp"]

/-- One of `RULES`; what a pattern is stays open. -/
structure Rule (π : Type) where
  rule : String
  severity : String
  pattern : π
  detail : String

/-- `ScanFinding`. -/
structure ScanFinding where
  path : List String
  rule : String
  severity : String
  detail : String
  deriving DecidableEq, Repr

/-- `NAME_RULES`, of the rules that look at one file. -/
def nameRuleDetail (rule : String) : String :=
  if rule = "known-shell-name" then "This file has the name of a well-known hacker tool."
  else if rule = "double-extension" then "A script disguised as a picture or text file."
  else if rule = "script-in-uploads" then
    "A PHP file in a folder meant for uploads. Uploads should never be programs."
  else "A hidden PHP file."

/-- A file of a website: its folders, its name and what is in it. -/
structure SiteFile where
  folders : List String
  name : String
  bytes : List UInt8
  deriving DecidableEq, Repr

/-- Its path from the website's folder. -/
def SiteFile.path (file : SiteFile) : List String := file.folders ++ [file.name]

/-- `\.(php\d?|phtml)`, where `\d` matches one of `digits`. -/
def scriptEndings (digits : List Char) : List String :=
  ".php" :: ".phtml" :: digits.map fun digit => ".php" ++ digit.toString

/-- `\.(jpe?g|png|gif|txt|ico)`. -/
def pictureEndings : List String := [".jpg", ".jpeg", ".png", ".gif", ".txt", ".ico"]

/-- `\.(php\d?|phtml)\.(jpe?g|png|gif|txt|ico)$`: `$` is also before a line break at the end. -/
def isDisguised (digits : List Char) (name : String) : Bool :=
  (scriptEndings digits).any fun script => pictureEndings.any fun picture =>
    endsWith name (script ++ picture) || endsWith name (script ++ picture ++ "\n")

/-- What `\d` matches in PHP. -/
def asciiDigits : List Char := "0123456789".toList

/-- What `\d` matches in Python, of the characters of a name: the digits of every script. -/
def decimalsOf (name : String) : List Char := name.toList.filter isDecimal

/-- `".php" in name`. -/
def mentionsPhp (name : String) : Bool := name.toList.tails.any (".php".toList.isPrefixOf ·)

/-- The text up to its last dot, with the dot, and what comes after it. -/
def cutLastDot (name : String) : List Char × List Char :=
  ((name.toList.reverse.dropWhile (· ≠ '.')).reverse,
    (name.toList.reverse.takeWhile (· ≠ '.')).reverse)

/-! ### The scanners -/

section

variable {π : Type} (search : π → List UInt8 → Bool) (rules : List (Rule π)) (file : SiteFile)

/-- What the patterns find in the first `MAX_SCAN_BYTES` of the file. -/
def patternFindings : List ScanFinding :=
  (rules.filter fun r => search r.pattern (file.bytes.take MAX_SCAN_BYTES)).map fun r =>
    ⟨file.path, r.rule, r.severity, r.detail⟩

/-- `Path.suffix`: the last dot and what comes after it, unless it is the first character or the
    last. -/
def pathSuffix (name : String) : String :=
  let (front, back) := cutLastDot name
  if 1 < front.length ∧ back ≠ [] then String.ofList ('.' :: back) else ""

/-- A finding of the demo provider's scanner. -/
def demoFinding (rule severity detail : String) : ScanFinding :=
  ⟨file.path, rule, severity, detail⟩

/-- `DemoSecurity._scan_file`. -/
def scanFile (low : Lowering) : List ScanFinding :=
  let name := low.lower file.name
  let suffix := low.lower (pathSuffix file.name)
  let parts := file.folders.map low.lower
  (if name ∈ SHELL_NAMES then
    [demoFinding file "known-shell-name" "high"
      "This file has the name of a well-known hacker tool."] else [])
  ++ (if isDisguised (decimalsOf name) name then
    [demoFinding file "double-extension" "medium"
      "A script disguised as a picture or text file."] else [])
  ++ (if suffix ∈ [".php", ".phtml", ".php5"] ∧ parts.any (· ∈ UPLOAD_DIRS) = true then
    [demoFinding file "script-in-uploads" "medium"
      "A PHP file in a folder meant for uploads. Uploads should never be programs."] else [])
  ++ (if startsWith name "." = true ∧ suffix ∈ [".php", ".phtml"] then
    [demoFinding file "hidden-script-file" "medium" "A hidden PHP file."] else [])
  ++ (if suffix ∈ WEB_EXTENSIONS ∨ name = ".htaccess" ∨ mentionsPhp name = true then
    patternFindings search rules file else [])

/-- `strrchr($name, '.') ?: ''`. -/
def strrchrDot (name : String) : String :=
  let (front, back) := cutLastDot name
  if front ≠ [] then String.ofList ('.' :: back) else ""

/-- A finding of the one-file scanner. -/
def phpFinding (rule severity : String) : ScanFinding :=
  ⟨file.path, rule, severity, nameRuleDetail rule⟩

/-- `explode('/', $rel)`, of the folder the file is in: there is always a part. -/
def explodeFolder (folders : List String) : List String := if folders = [] then [""] else folders

/-- What the one-file scanner reports; `strtolower` knows the letters of ASCII. -/
def phpFindings : List ScanFinding :=
  let lower := lower file.name
  let suffix := Lib.lower (strrchrDot file.name)
  let parts := (explodeFolder file.folders).map Lib.lower
  (if lower ∈ SHELL_NAMES then [phpFinding file "known-shell-name" "high"] else [])
  ++ (if isDisguised asciiDigits lower then [phpFinding file "double-extension" "medium"] else [])
  ++ (if suffix ∈ [".php", ".phtml", ".php5"] ∧ parts.filter (· ∈ UPLOAD_DIRS) ≠ [] then
    [phpFinding file "script-in-uploads" "medium"] else [])
  ++ (if file.name.toList.head? = some '.' ∧ suffix ∈ [".php", ".phtml"] then
    [phpFinding file "hidden-script-file" "medium"] else [])
  ++ (if suffix ∈ WEB_EXTENSIONS ∨ lower = ".htaccess" ∨ mentionsPhp lower = true then
    patternFindings search rules file else [])

/-! ### What they are for -/

/-- The rules a scanner reports, with their severities. -/
def reported (findings : List ScanFinding) : List (String × String) :=
  findings.map fun finding => (finding.rule, finding.severity)

/-- **Both scanners judge the file the same way.** -/
def JudgedAlike (low : Lowering) : Prop :=
  ∀ finding, finding ∈ reported (scanFile search rules file low)
    ↔ finding ∈ reported (phpFindings search rules file)

/-- What the patterns alone report. -/
def matched : List (String × String) := reported (patternFindings search rules file)

/-- One of the folders is meant for uploads. -/
def InUploads : Prop := ∃ folder ∈ file.folders, lower folder ∈ UPLOAD_DIRS

/-- The whole name is not `.phtml`; where it is `.php` or `.php5` the patterns report what the name
    is reported for, and where it is `.js`, `.html` or `.htm` they report nothing; and where it is a
    shell's name with a Kelvin sign, or a picture's with a digit beyond ASCII behind `.php`, they
    report that. -/
structure Alike (low : Lowering) : Prop where
  phtml : lower file.name ≠ ".phtml"
  hidden : lower file.name = ".php" →
    ("hidden-script-file", "medium") ∈ matched search rules file
  uploads : lower file.name = ".php" ∨ lower file.name = ".php5" → InUploads file →
    ("script-in-uploads", "medium") ∈ matched search rules file
  page : lower file.name ∈ [".js", ".html", ".htm"] → matched search rules file = []
  shell : kelvin ∈ file.name.toList → low.lower file.name ∈ SHELL_NAMES →
    ("known-shell-name", "high") ∈ matched search rules file
  digit : isDisguised (decimalsOf (low.lower file.name)) (low.lower file.name) = true →
    isDisguised asciiDigits (lower file.name) = false →
    ("double-extension", "medium") ∈ matched search rules file

end

/-! ### Small letters -/

section

variable {low : Lowering} {name folder : String}

theorem mentionsPhp_iff : mentionsPhp name = true ↔ ".php".toList <:+: name.toList := by
  unfold mentionsPhp
  rw [List.any_eq_true]
  constructor
  · rintro ⟨rest, hrest, hbegins⟩
    exact (List.isPrefixOf_iff_prefix.mp hbegins).isInfix.trans
      ((List.mem_tails rest name.toList).mp hrest).isInfix
  · rintro ⟨front, back, heq⟩
    refine ⟨".php".toList ++ back, (List.mem_tails _ _).mpr ⟨front, ?_⟩, ?_⟩
    · rw [← heq, List.append_assoc]
    · exact List.isPrefixOf_iff_prefix.mpr (List.prefix_append _ _)

theorem toList_lower (name : String) : (lower name).toList = name.toList.map Char.toLower := by
  rw [lower, String.toList_ofList]

/-- Of plain words, the ones a text in small letters is. -/
theorem lower_mem_iff {words : List String} (h : words.all isPlainWord = true) (name : String) :
    low.lower name ∈ words ↔ lower name ∈ words := by
  have hword : ∀ word ∈ words, low.lower name = word ↔ lower name = word := by
    intro word hmem
    rw [← String.toList_inj, ← @String.toList_inj (lower name), toList_lower]
    exact (low.lowered name).eq_iff (isPlain_of_isPlainWord (List.all_eq_true.mp h word hmem))
  constructor
  · intro hmem
    rw [(hword _ hmem).mp rfl]
    exact hmem
  · intro hmem
    rw [(hword _ hmem).mpr rfl]
    exact hmem

theorem endsWith_lower {tail : String} (h : isPlainWord tail = true) (name : String) :
    endsWith (low.lower name) tail = endsWith (lower name) tail := by
  rw [Bool.eq_iff_iff, endsWith_iff, endsWith_iff, toList_lower]
  exact (low.lowered name).isSuffix_iff (isPlain_of_isPlainWord h)

theorem isPlainWord_append {word tail : String} (hword : isPlainWord word = true)
    (htail : isPlainWord tail = true) : isPlainWord (word ++ tail) = true := by
  rw [isPlainWord, String.toList_append, List.all_append, Bool.and_eq_true]
  exact ⟨hword, htail⟩

/-- The words of the rules are plain. -/
private theorem plain_words : (scriptEndings asciiDigits).all isPlainWord = true
    ∧ pictureEndings.all isPlainWord = true ∧ WEB_EXTENSIONS.all isPlainWord = true
    ∧ UPLOAD_DIRS.all isPlainWord = true := by decide +kernel

/-- The endings of a disguised script are plain. -/
theorem isDisguised_lower (name : String) :
    isDisguised asciiDigits (low.lower name) = isDisguised asciiDigits (lower name) := by
  obtain ⟨hscripts, hpictures, -, -⟩ := plain_words
  rw [Bool.eq_iff_iff, isDisguised, isDisguised, List.any_eq_true, List.any_eq_true]
  refine exists_congr fun script => and_congr_right fun hscript => ?_
  rw [List.any_eq_true, List.any_eq_true]
  refine exists_congr fun picture => and_congr_right fun hpicture => ?_
  have hplain := isPlainWord_append (List.all_eq_true.mp hscripts script hscript)
    (List.all_eq_true.mp hpictures picture hpicture)
  rw [endsWith_lower hplain, endsWith_lower (isPlainWord_append hplain (by decide))]

theorem mentionsPhp_lower (name : String) :
    mentionsPhp (low.lower name) = mentionsPhp (lower name) := by
  rw [Bool.eq_iff_iff, mentionsPhp_iff, mentionsPhp_iff, toList_lower]
  exact (low.lowered name).isInfix_iff (isPlain_of_isPlainWord (by decide)) (by decide)

theorem mem_scriptEndings {digits : List Char} {script : String} :
    script ∈ scriptEndings digits
      ↔ script = ".php" ∨ script = ".phtml"
        ∨ ∃ digit ∈ digits, script = ".php" ++ digit.toString := by
  simp only [scriptEndings, List.mem_cons, List.mem_map, eq_comm]

/-- The ending of a script stands in the name that it disguises. -/
private theorem script_isInfix {script picture : String}
    (h : (endsWith name (script ++ picture)
      || endsWith name (script ++ picture ++ "\n")) = true) :
    script.toList <:+: name.toList := by
  have hfront : ∀ tail, script.toList <:+: (script ++ picture ++ tail).toList := by
    intro tail
    rw [String.toList_append, String.toList_append, List.append_assoc]
    exact (List.prefix_append _ _).isInfix
  rcases (Bool.or_eq_true _ _).mp h with h | h
  · have hempty := hfront ""
    rw [String.append_empty] at hempty
    exact hempty.trans (endsWith_iff.mp h).isInfix
  · exact (hfront "\n").trans (endsWith_iff.mp h).isInfix

/-- What the digits of ASCII disguise, the digits in the name do. -/
theorem isDisguised_decimalsOf (h : isDisguised asciiDigits name = true) :
    isDisguised (decimalsOf name) name = true := by
  obtain ⟨script, hscript, h⟩ := List.any_eq_true.mp h
  refine List.any_eq_true.mpr ⟨script, mem_scriptEndings.mpr ?_, h⟩
  obtain ⟨picture, -, h⟩ := List.any_eq_true.mp h
  rcases mem_scriptEndings.mp hscript with hphp | hphtml | ⟨digit, hdigit, rfl⟩
  · exact .inl hphp
  · exact .inr (.inl hphtml)
  · have hascii : asciiDigits.all Char.isDigit = true := by decide
    have hin : digit ∈ name.toList := (script_isInfix h).subset (by simp)
    exact .inr (.inr ⟨digit, List.mem_filter.mpr
      ⟨hin, isDecimal_of_isDigit (List.all_eq_true.mp hascii digit hdigit)⟩, rfl⟩)

/-- What a digit disguises mentions `.php`. -/
theorem mentionsPhp_of_isDisguised {digits : List Char} (h : isDisguised digits name = true) :
    isDisguised asciiDigits name = true ∨ mentionsPhp name = true := by
  obtain ⟨script, hscript, h⟩ := List.any_eq_true.mp h
  rcases mem_scriptEndings.mp hscript with hphp | hphtml | ⟨digit, -, rfl⟩
  · exact .inl (List.any_eq_true.mpr ⟨script, mem_scriptEndings.mpr (.inl hphp), h⟩)
  · exact .inl (List.any_eq_true.mpr ⟨script, mem_scriptEndings.mpr (.inr (.inl hphtml)), h⟩)
  · obtain ⟨picture, -, h⟩ := List.any_eq_true.mp h
    have hin := script_isInfix h
    rw [String.toList_append] at hin
    exact .inr (mentionsPhp_iff.mpr ((List.prefix_append _ _).isInfix.trans hin))

/-- Where the whole name is an ending, both libraries make its letters small alike. -/
private theorem lower_eq_of_web (h : lower name ∈ WEB_EXTENSIONS) :
    low.lower name = lower name := by
  have hplain := List.all_eq_true.mp plain_words.2.2.1 _ h
  have hsingle : [lower name].all isPlainWord = true := by
    rw [List.all_cons, hplain]
    rfl
  exact List.mem_singleton.mp
    ((lower_mem_iff hsingle name).mpr (List.mem_singleton.mpr rfl))

theorem toLower_eq_dot {c : Char} : c.toLower = '.' ↔ c = '.' := by
  constructor
  · intro h
    by_cases hupper : 'A'.val ≤ c.val ∧ c.val ≤ 'Z'.val
    · exfalso
      have hval := congrArg (fun c : Char => c.val.toNat) h
      unfold Char.toLower at hval
      rw [dif_pos hupper] at hval
      have hlow := UInt32.le_iff_toNat_le.mp hupper.1
      have hhigh := UInt32.le_iff_toNat_le.mp hupper.2
      have hletters : 'A'.val.toNat = 65 ∧ 'Z'.val.toNat = 90 := ⟨rfl, rfl⟩
      have hshift : ('a'.val - 'A'.val).toNat = 32 := rfl
      have hdot : '.'.val.toNat = 46 := rfl
      simp only [UInt32.toNat_add] at hval
      omega
    · rwa [show c.toLower = c from dif_neg hupper] at h
  · rintro rfl
    rfl

theorem dot_mem_map {l : List Char} : '.' ∈ l.map Char.toLower ↔ '.' ∈ l := by
  rw [List.mem_map]
  constructor
  · rintro ⟨c, hc, hdot⟩
    rwa [← toLower_eq_dot.mp hdot]
  · exact fun h => ⟨'.', h, rfl⟩

theorem startsWith_dot_lower (name : String) :
    startsWith (low.lower name) "." = true ↔ name.toList.head? = some '.' := by
  have hiff := @(low.lowered name).isPrefix_iff _ _ ['.']
    (@isPlain_of_isPlainWord "." (by decide)) (by decide)
  rw [startsWith, List.isPrefixOf_iff_prefix]
  refine hiff.trans ?_
  cases name.toList with
  | nil => exact iff_of_false (fun h => absurd (List.prefix_nil.mp h) (by decide)) (by decide)
  | cons c rest =>
    rw [List.map_cons, List.cons_prefix_cons, and_iff_left List.nil_prefix, eq_comm,
      toLower_eq_dot, List.head?_cons, Option.some.injEq]

/-! ### Endings -/

/-- The text before the last dot, the dot, and the text after it. -/
theorem cutLastDot_cases (name : String) :
    ('.' ∉ name.toList ∧ cutLastDot name = ([], name.toList))
    ∨ ∃ front back, name.toList = front ++ '.' :: back ∧ '.' ∉ back
      ∧ cutLastDot name = (front ++ ['.'], back) := by
  have hsplit :=
    List.takeWhile_append_dropWhile (p := (decide <| · ≠ '.')) (l := name.toList.reverse)
  have hback : '.' ∉ name.toList.reverse.takeWhile (decide <| · ≠ '.') := by
    intro h
    have hne := List.mem_takeWhile_imp h
    exact of_decide_eq_true hne rfl
  have hname := congrArg List.reverse hsplit
  rw [List.reverse_append, List.reverse_reverse] at hname
  cases hdrop : name.toList.reverse.dropWhile (decide <| · ≠ '.') with
  | nil =>
    rw [hdrop, List.reverse_nil, List.nil_append] at hname
    have hno : '.' ∉ name.toList := by
      rw [← hname, List.mem_reverse]
      exact hback
    refine .inl ⟨hno, ?_⟩
    rw [cutLastDot, hdrop, hname]
    rfl
  | cons c rest =>
    have hdot : c = '.' := by
      have hhead := List.head?_dropWhile_not (decide <| · ≠ '.') name.toList.reverse
      rw [hdrop] at hhead
      simpa using hhead
    subst hdot
    rw [hdrop, List.reverse_cons, List.append_assoc, List.singleton_append] at hname
    refine .inr ⟨rest.reverse, _, hname.symm, fun h => hback (List.mem_reverse.mp h), ?_⟩
    rw [cutLastDot, hdrop, List.reverse_cons]

/-- **Where the last dot of a name is, and what the two libraries take for its ending.** -/
theorem lastDot_cases (name : String) :
    ('.' ∉ name.toList ∧ strrchrDot name = "" ∧ pathSuffix name = "")
    ∨ (∃ back, name.toList = '.' :: back ∧ '.' ∉ back ∧ strrchrDot name = name
      ∧ pathSuffix name = "")
    ∨ ∃ c front back, name.toList = c :: front ++ '.' :: back
      ∧ strrchrDot name = String.ofList ('.' :: back)
      ∧ pathSuffix name = if back = [] then "" else String.ofList ('.' :: back) := by
  rcases cutLastDot_cases name with ⟨hno, hcut⟩ | ⟨front, back, hname, hback, hcut⟩
  · refine .inl ⟨hno, ?_, ?_⟩
    · rw [strrchrDot, hcut]
      exact if_neg (not_not.mpr rfl)
    · rw [pathSuffix, hcut]
      exact if_neg fun h => absurd h.1 (by decide)
  · have hstr : strrchrDot name = String.ofList ('.' :: back) := by
      rw [strrchrDot, hcut]
      exact if_pos (List.append_ne_nil_of_right_ne_nil _ (List.cons_ne_nil _ _))
    cases front with
    | nil =>
      refine .inr (.inl ⟨back, hname, hback, ?_, ?_⟩)
      · rw [hstr, ← List.nil_append ('.' :: back), ← hname, String.ofList_toList]
      · rw [pathSuffix, hcut]
        exact if_neg fun h => absurd h.1 (by simp)
    | cons c front =>
      refine .inr (.inr ⟨c, front, back, hname, hstr, ?_⟩)
      have hlong : 1 < (c :: front ++ ['.']).length := by simp
      rw [pathSuffix, hcut]
      by_cases hnil : back = []
      · rw [if_pos hnil]
        exact if_neg fun h => h.2 hnil
      · rw [if_neg hnil]
        exact if_pos ⟨hlong, hnil⟩

/-- A word of ASCII without `k` that begins with its only dot, and does not end there. -/
def isEnding (word : String) : Bool :=
  isPlainWord word && word.toList.head? = some '.' && word.toList.tail ≠ []
    && '.' ∉ word.toList.tail

theorem isEnding_iff {word : String} : isEnding word = true ↔ isPlainWord word = true
    ∧ ∃ rest, word.toList = '.' :: rest ∧ rest ≠ [] ∧ '.' ∉ rest := by
  rw [isEnding, Bool.and_eq_true, Bool.and_eq_true, Bool.and_eq_true, decide_eq_true_eq,
    decide_eq_true_eq, decide_eq_true_eq, and_assoc, and_assoc]
  refine and_congr_right fun _ => ?_
  cases word.toList with
  | nil => simp
  | cons c rest => simp

section

variable {words : List String}

/-- A text that is such an ending in small letters begins with its only dot. -/
theorem text_of_ending (h : words.all isEnding = true) {text : String}
    (hmem : lower text ∈ words) : ∃ rest, text.toList = '.' :: rest ∧ rest ≠ [] ∧ '.' ∉ rest := by
  obtain ⟨-, rest, hword, hne, hdot⟩ := isEnding_iff.mp (List.all_eq_true.mp h _ hmem)
  rw [toList_lower] at hword
  obtain ⟨c, tail, htext, hc, htail⟩ := List.map_eq_cons_iff.mp hword
  rw [toLower_eq_dot] at hc
  refine ⟨tail, hc ▸ htext, ?_, fun hrest => hdot ?_⟩
  · rintro rfl
    exact hne htail.symm
  · rw [← htail]
    exact dot_mem_map.mpr hrest

/-- No text that is short, or has a dot further on, is such an ending in small letters. -/
theorem lower_not_mem (h : words.all isEnding = true) {text : String}
    (hno : ∀ rest, rest ≠ [] → '.' ∉ rest → text.toList ≠ '.' :: rest) : lower text ∉ words := by
  intro hmem
  obtain ⟨rest, htext, hne, hdot⟩ := text_of_ending h hmem
  exact hno rest hne hdot htext

/-- **PHP takes a whole name for an ending where Python does not.** -/
theorem strrchrDot_mem_iff (h : words.all isEnding = true) (name : String) :
    lower (strrchrDot name) ∈ words ↔ lower (pathSuffix name) ∈ words ∨ lower name ∈ words := by
  have hempty : lower "" ∉ words := lower_not_mem h (by simp)
  rcases lastDot_cases name with ⟨hno, hstr, hpath⟩ | ⟨back, hname, hback, hstr, hpath⟩
    | ⟨c, front, back, hname, hstr, hpath⟩
  · have hwhole : lower name ∉ words := by
      refine lower_not_mem h fun rest _ _ htext => hno ?_
      rw [htext]
      exact List.mem_cons_self
    rw [hstr, hpath, or_iff_left hwhole]
  · rw [hstr, hpath, or_iff_right hempty]
  · have hwhole : lower name ∉ words := by
      refine lower_not_mem h fun rest _ hrest htext => hrest ?_
      rw [hname, List.cons_append, List.cons.injEq] at htext
      rw [← htext.2]
      exact List.mem_append_right _ List.mem_cons_self
    rw [hstr, hpath, or_iff_left hwhole]
    split
    · next hnil =>
      rw [hnil]
      refine iff_of_false (lower_not_mem h fun rest hne _ htext => hne ?_) hempty
      rw [String.toList_ofList, List.cons.injEq] at htext
      exact htext.2.symm
    · rfl

/-- A whole name that is an ending has none of its own, as Python sees it. -/
theorem pathSuffix_of_ending (h : words.all isEnding = true) {name : String}
    (hname : lower name ∈ words) : pathSuffix name = "" := by
  rcases lastDot_cases name with ⟨-, -, hpath⟩ | ⟨-, -, -, -, hpath⟩
    | ⟨c, front, back, htext, -, -⟩
  · exact hpath
  · exact hpath
  · exfalso
    refine lower_not_mem h (fun rest _ hrest heq => hrest ?_) hname
    rw [htext, List.cons_append, List.cons.injEq] at heq
    rw [← heq.2]
    exact List.mem_append_right _ List.mem_cons_self

end

end

/-! ### What is reported -/

section

variable {π : Type} {search : π → List UInt8 → Bool} {rules : List (Rule π)} {file : SiteFile}
  {low : Lowering} {finding : String × String}

/-- The findings of a scanner: what its tests of the name say, and whether it looks inside. -/
def Reports (search : π → List UInt8 → Bool) (rules : List (Rule π)) (file : SiteFile)
    (known disguised uploads hidden inside : Prop) (finding : String × String) : Prop :=
  finding = ("known-shell-name", "high") ∧ known
  ∨ finding = ("double-extension", "medium") ∧ disguised
  ∨ finding = ("script-in-uploads", "medium") ∧ uploads
  ∨ finding = ("hidden-script-file", "medium") ∧ hidden
  ∨ finding ∈ matched search rules file ∧ inside

private theorem mem_reported_ite {p : Prop} [Decidable p] {found : ScanFinding} :
    finding ∈ reported (if p then [found] else [])
      ↔ finding = (found.rule, found.severity) ∧ p := by
  split
  · next h => simp [reported, h]
  · next h => simp [reported, h]

private theorem mem_reported_patterns {p : Prop} [Decidable p] :
    finding ∈ reported (if p then patternFindings search rules file else [])
      ↔ finding ∈ matched search rules file ∧ p := by
  split
  · next h => simp [matched, h]
  · next h => simp [reported, h]

private theorem reported_append (l m : List ScanFinding) :
    reported (l ++ m) = reported l ++ reported m := List.map_append

private theorem any_uploads {lower : String → String}
    (h : ∀ folder, lower folder ∈ UPLOAD_DIRS ↔ Lib.lower folder ∈ UPLOAD_DIRS) :
    (file.folders.map lower).any (· ∈ UPLOAD_DIRS) = true ↔ InUploads file := by
  rw [List.any_map, List.any_eq_true]
  refine exists_congr fun folder => and_congr_right fun _ => ?_
  rw [Function.comp_apply, decide_eq_true_eq, h]

private theorem filter_uploads :
    ((explodeFolder file.folders).map lower).filter (· ∈ UPLOAD_DIRS) ≠ [] ↔ InUploads file := by
  have hroot : InUploads { file with folders := explodeFolder file.folders }
      ↔ InUploads file := by
    unfold InUploads explodeFolder
    split
    · next hnil =>
      rw [hnil]
      refine iff_of_false ?_ ?_
      · rintro ⟨folder, hfolder, hmem⟩
        rw [List.mem_singleton.mp hfolder] at hmem
        exact absurd hmem (by decide)
      · rintro ⟨folder, hfolder, -⟩
        cases hfolder
    · rfl
  rw [← hroot, ← any_uploads fun _ => Iff.rfl, ne_eq, List.filter_eq_nil_iff, List.any_eq_true]
  push Not
  rfl

/-- **What the demo provider's scanner reports.** -/
theorem mem_reported_scanFile : finding ∈ reported (scanFile search rules file low)
    ↔ Reports search rules file (low.lower file.name ∈ SHELL_NAMES)
      (isDisguised (decimalsOf (low.lower file.name)) (low.lower file.name) = true)
      (lower (pathSuffix file.name) ∈ [".php", ".phtml", ".php5"] ∧ InUploads file)
      (file.name.toList.head? = some '.' ∧ lower (pathSuffix file.name) ∈ [".php", ".phtml"])
      (lower (pathSuffix file.name) ∈ WEB_EXTENSIONS ∨ lower file.name = ".htaccess"
        ∨ mentionsPhp (lower file.name) = true) finding := by
  have hhtaccess : low.lower file.name = ".htaccess" ↔ lower file.name = ".htaccess" := by
    rw [← List.mem_singleton, lower_mem_iff (by decide), List.mem_singleton]
  simp only [scanFile, reported_append, List.mem_append, mem_reported_ite, mem_reported_patterns,
    demoFinding, startsWith_dot_lower, mentionsPhp_lower, hhtaccess, Reports,
    @lower_mem_iff low [".php", ".phtml", ".php5"] (by decide),
    @lower_mem_iff low [".php", ".phtml"] (by decide),
    @lower_mem_iff low WEB_EXTENSIONS plain_words.2.2.1,
    any_uploads (@lower_mem_iff low UPLOAD_DIRS plain_words.2.2.2), or_assoc]

/-- **What the one-file scanner reports**: all of that, and more where the whole name is an
    ending. -/
theorem mem_reported_phpFindings : finding ∈ reported (phpFindings search rules file)
    ↔ Reports search rules file (lower file.name ∈ SHELL_NAMES)
      (isDisguised asciiDigits (lower file.name) = true)
      (lower (strrchrDot file.name) ∈ [".php", ".phtml", ".php5"] ∧ InUploads file)
      (file.name.toList.head? = some '.' ∧ lower (strrchrDot file.name) ∈ [".php", ".phtml"])
      (lower (strrchrDot file.name) ∈ WEB_EXTENSIONS ∨ lower file.name = ".htaccess"
        ∨ mentionsPhp (lower file.name) = true) finding := by
  simp only [phpFindings, reported_append, List.mem_append, mem_reported_ite,
    mem_reported_patterns, phpFinding, filter_uploads, Reports, or_assoc]

private theorem isEnding_scripts : [".php", ".phtml", ".php5"].all isEnding = true := by
  decide

private theorem isEnding_hidden : [".php", ".phtml"].all isEnding = true := by decide

/-- A word in ASCII. -/
private abbrev isAscii (word : String) : Bool := word.toList.all fun c => decide (c.toNat < 128)

/-- The endings of a website's files: no shell has such a name, and no page a script's. -/
private theorem web_words : WEB_EXTENSIONS.all isEnding = true
    ∧ WEB_EXTENSIONS.all isAscii = true ∧ (∀ word ∈ WEB_EXTENSIONS, word ∉ SHELL_NAMES)
    ∧ (∀ word ∈ WEB_EXTENSIONS, word.toList.count '.' = 1)
    ∧ mentionsPhp ".php" = true ∧ mentionsPhp ".php5" = true
    ∧ ∀ word ∈ [".js", ".html", ".htm"], ¬(word = ".htaccess" ∨ mentionsPhp word = true) := by
  decide +kernel

private theorem isEnding_web : WEB_EXTENSIONS.all isEnding = true := web_words.1

private theorem shell_words : SHELL_NAMES.all isAscii = true
    ∧ SHELL_NAMES.all mentionsPhp = true := by decide +kernel

/-- A name in small letters of ASCII holds a Kelvin sign where the name does. -/
theorem lower_not_mem_of_kelvin (hkelvin : kelvin ∈ file.name.toList) {words : List String}
    (hwords : words.all isAscii = true) : lower file.name ∉ words := by
  intro hmem
  have hascii := List.all_eq_true.mp hwords _ hmem
  have hstays : kelvin ∈ (lower file.name).toList := by
    rw [toList_lower]
    exact List.mem_map.mpr ⟨kelvin, hkelvin, by decide⟩
  exact absurd (List.all_eq_true.mp hascii kelvin hstays) (by decide)

/-- Without a Kelvin sign both know the same shells. -/
theorem shell_iff (hkelvin : kelvin ∉ file.name.toList) :
    low.lower file.name ∈ SHELL_NAMES ↔ lower file.name ∈ SHELL_NAMES := by
  have hmap : file.name.toList.map lowerKelvin = (lower file.name).toList := by
    rw [toList_lower]
    refine List.map_congr_left fun c hc => if_neg ?_
    rintro rfl
    exact hkelvin hc
  have hword : ∀ word ∈ SHELL_NAMES, low.lower file.name = word ↔ lower file.name = word := by
    intro word hmem
    have hword := List.all_eq_true.mp (List.all_eq_true.mp shell_words.1 word hmem)
    rw [← String.toList_inj, ← @String.toList_inj (lower file.name), ← hmap]
    exact (low.lowered file.name).eq_iff_kelvin fun c hc => of_decide_eq_true (hword c hc)
  constructor
  · intro hmem
    rw [(hword _ hmem).mp rfl]
    exact hmem
  · intro hmem
    rw [(hword _ hmem).mpr rfl]
    exact hmem

/-- Where the whole name is no ending, both take the same for its ending. -/
private theorem strrchrDot_mem_iff_of_not_web (hweb : lower file.name ∉ WEB_EXTENSIONS)
    {words : List String} (hends : words.all isEnding = true) (hsub : words ⊆ WEB_EXTENSIONS) :
    lower (strrchrDot file.name) ∈ words ↔ lower (pathSuffix file.name) ∈ words := by
  rw [strrchrDot_mem_iff hends, or_iff_left fun h => hweb (hsub h)]

/-- **Scanners that differ over a shell or a disguise** report the same where the patterns report
    what only one of them sees in the name. -/
theorem reports_iff {known known' disguised disguised' uploads hidden inside : Prop}
    (hknown : known' → known) (hdisguised : disguised' → disguised) :
    (∀ finding, Reports search rules file known disguised uploads hidden inside finding
        ↔ Reports search rules file known' disguised' uploads hidden inside finding)
      ↔ (known → known' ∨ ("known-shell-name", "high") ∈ matched search rules file ∧ inside)
        ∧ (disguised →
          disguised' ∨ ("double-extension", "medium") ∈ matched search rules file ∧ inside) := by
  constructor
  · intro h
    constructor
    · intro hshell
      have hfound := (h ("known-shell-name", "high")).mp (.inl ⟨rfl, hshell⟩)
      rcases hfound with ⟨-, hfound⟩ | ⟨heq, -⟩ | ⟨heq, -⟩ | ⟨heq, -⟩ | hfound
      · exact .inl hfound
      · exact absurd heq (by decide)
      · exact absurd heq (by decide)
      · exact absurd heq (by decide)
      · exact .inr hfound
    · intro hscript
      have hfound := (h ("double-extension", "medium")).mp (.inr (.inl ⟨rfl, hscript⟩))
      rcases hfound with ⟨heq, -⟩ | ⟨-, hfound⟩ | ⟨heq, -⟩ | ⟨heq, -⟩ | hfound
      · exact absurd heq (by decide)
      · exact .inl hfound
      · exact absurd heq (by decide)
      · exact absurd heq (by decide)
      · exact .inr hfound
  · rintro ⟨hshell, hscript⟩ finding
    constructor
    · rintro (⟨rfl, hfound⟩ | ⟨rfl, hfound⟩ | hrest)
      · rcases hshell hfound with hfound | hfound
        · exact .inl ⟨rfl, hfound⟩
        · exact .inr (.inr (.inr (.inr hfound)))
      · rcases hscript hfound with hfound | hfound
        · exact .inr (.inl ⟨rfl, hfound⟩)
        · exact .inr (.inr (.inr (.inr hfound)))
      · exact .inr (.inr hrest)
    · rintro (⟨rfl, hfound⟩ | ⟨rfl, hfound⟩ | hrest)
      · exact .inl ⟨rfl, hknown hfound⟩
      · exact .inr (.inl ⟨rfl, hdisguised hfound⟩)
      · exact .inr (.inr hrest)

/-- **Where the whole name is no ending, the scanners differ only over a shell and over a digit
    beyond ASCII.** -/
theorem judgedAlike_iff_of_not_web (hweb : lower file.name ∉ WEB_EXTENSIONS) :
    JudgedAlike search rules file low
      ↔ (kelvin ∈ file.name.toList → low.lower file.name ∈ SHELL_NAMES →
          ("known-shell-name", "high") ∈ matched search rules file)
        ∧ (isDisguised (decimalsOf (low.lower file.name)) (low.lower file.name) = true →
          isDisguised asciiDigits (lower file.name) = false →
          ("double-extension", "medium") ∈ matched search rules file) := by
  unfold JudgedAlike
  simp only [mem_reported_scanFile, mem_reported_phpFindings,
    strrchrDot_mem_iff_of_not_web hweb isEnding_scripts (by simp [WEB_EXTENSIONS]),
    strrchrDot_mem_iff_of_not_web hweb isEnding_hidden (by simp [WEB_EXTENSIONS]),
    strrchrDot_mem_iff_of_not_web hweb isEnding_web (List.Subset.refl _)]
  have hno : kelvin ∈ file.name.toList → lower file.name ∉ SHELL_NAMES := fun hkelvin =>
    lower_not_mem_of_kelvin hkelvin shell_words.1
  rw [reports_iff (fun hshell => (shell_iff fun hkelvin => hno hkelvin hshell).mpr hshell)
    (fun h => isDisguised_decimalsOf (isDisguised_lower file.name ▸ h))]
  refine and_congr ⟨fun h hkelvin hshell => ?_, fun h hshell => ?_⟩
    ⟨fun h hscript hascii => ?_, fun h hscript => ?_⟩
  · exact ((h hshell).resolve_left (hno hkelvin)).1
  · by_cases hkelvin : kelvin ∈ file.name.toList
    · refine .inr ⟨h hkelvin hshell, .inr (.inr ?_)⟩
      -- the name of every shell is a script's
      rw [← @mentionsPhp_lower low]
      exact List.all_eq_true.mp shell_words.2 _ hshell
    · exact .inl ((shell_iff hkelvin).mp hshell)
  · exact ((h hscript).resolve_left (Bool.eq_false_iff.mp hascii)).1
  · by_cases hascii : isDisguised asciiDigits (lower file.name) = true
    · exact .inl hascii
    · refine .inr ⟨h hscript (Bool.eq_false_iff.mpr hascii), .inr (.inr ?_)⟩
      rw [← @mentionsPhp_lower low]
      exact (mentionsPhp_of_isDisguised hscript).resolve_left
        (@isDisguised_lower low file.name ▸ hascii)

/-- The name of a disguised script has two dots. -/
private theorem count_dot_of_isDisguised {digits : List Char} {name : String}
    (h : isDisguised digits name = true) : 2 ≤ name.toList.count '.' := by
  unfold isDisguised at h
  obtain ⟨script, hscript, h⟩ := List.any_eq_true.mp h
  obtain ⟨picture, hpicture, h⟩ := List.any_eq_true.mp h
  have hfirst : 1 ≤ script.toList.count '.' := by
    rcases mem_scriptEndings.mp hscript with rfl | rfl | ⟨digit, -, rfl⟩
    · decide
    · decide
    · rw [String.toList_append, List.count_append]
      exact Nat.le_add_right_of_le (by decide)
  have hsecond : 1 ≤ picture.toList.count '.' :=
    (by decide +kernel : ∀ ending ∈ pictureEndings, 1 ≤ ending.toList.count '.') picture hpicture
  rcases (Bool.or_eq_true _ _).mp h with h | h
  · have hcount := (endsWith_iff.mp h).sublist.count_le '.'
    rw [String.toList_append, List.count_append] at hcount
    omega
  · have hcount := (endsWith_iff.mp h).sublist.count_le '.'
    rw [String.toList_append, String.toList_append, List.count_append, List.count_append] at hcount
    omega

/-- Where the whole name is an ending, only one of the scanners takes it for one. -/
theorem judgedAlike_iff_of_web (hweb : lower file.name ∈ WEB_EXTENSIONS) :
    JudgedAlike search rules file low ↔ ∀ finding,
      (finding ∈ matched search rules file
        ∧ (lower file.name = ".htaccess" ∨ mentionsPhp (lower file.name) = true)
      ↔ finding = ("script-in-uploads", "medium")
          ∧ lower file.name ∈ [".php", ".phtml", ".php5"] ∧ InUploads file
        ∨ finding = ("hidden-script-file", "medium") ∧ lower file.name ∈ [".php", ".phtml"]
        ∨ finding ∈ matched search rules file) := by
  have hnone := pathSuffix_of_ending isEnding_web hweb
  obtain ⟨-, hascii, hshells, hone, -⟩ := web_words
  have hkelvin : kelvin ∉ file.name.toList := fun h => lower_not_mem_of_kelvin h hascii hweb
  have hshell : lower file.name ∉ SHELL_NAMES := hshells _ hweb
  have hdisguised : ∀ digits, isDisguised digits (lower file.name) = false := by
    intro digits
    rw [← Bool.not_eq_true]
    intro h
    have htwo := count_dot_of_isDisguised h
    rw [hone _ hweb] at htwo
    exact absurd htwo (by decide)
  have hlower : low.lower file.name = lower file.name := lower_eq_of_web hweb
  have hhead : file.name.toList.head? = some '.' := by
    obtain ⟨rest, hname, -, -⟩ := text_of_ending isEnding_web hweb
    rw [hname]
    rfl
  have hscripts : lower "" ∉ [".php", ".phtml", ".php5"] := by decide
  have hhidden : lower "" ∉ [".php", ".phtml"] := by decide
  have hpages : lower "" ∉ WEB_EXTENSIONS := lower_not_mem isEnding_web (by simp)
  unfold JudgedAlike
  simp only [mem_reported_scanFile, mem_reported_phpFindings, Reports,
    strrchrDot_mem_iff isEnding_scripts, strrchrDot_mem_iff isEnding_hidden,
    strrchrDot_mem_iff isEnding_web, hnone, hscripts, hhidden, hpages, hlower, hshell,
    hdisguised, hhead, hweb, Bool.false_eq_true, and_false, false_and,
    false_or, true_and, true_or, and_true]

/-- Where the whole name is an ending. -/
theorem alike_iff_of_web (hweb : lower file.name ∈ WEB_EXTENSIONS) :
    JudgedAlike search rules file low ↔ Alike search rules file low := by
  obtain ⟨-, hascii, -, hone, hphp, hphp5, hpages⟩ := web_words
  have hkelvin : kelvin ∉ file.name.toList := fun h => lower_not_mem_of_kelvin h hascii hweb
  -- one case for each ending that is a whole name
  have hcases : lower file.name = ".php" ∨ lower file.name = ".phtml"
      ∨ lower file.name = ".php5" ∨ lower file.name ∈ [".js", ".html", ".htm"]
      ∨ lower file.name = ".htaccess" := by
    simpa [WEB_EXTENSIONS, or_assoc] using hweb
  rw [judgedAlike_iff_of_web hweb]
  constructor
  · intro h
    refine ⟨fun hname => ?_, fun hname => ?_, fun hname huploads => ?_, fun hname => ?_,
      fun hmem => absurd hmem hkelvin, fun hscript => ?_⟩
    -- only one of the two calls it hidden
    · have hhidden := (h ("hidden-script-file", "medium")).mpr
        (.inr (.inl ⟨rfl, by rw [hname]; decide⟩))
      rw [hname] at hhidden
      exact absurd hhidden.2 (by decide)
    · exact ((h _).mpr (.inr (.inl ⟨rfl, by rw [hname]; decide⟩))).1
    · have hscript : lower file.name ∈ [".php", ".phtml", ".php5"] := by
        rcases hname with hname | hname
        · rw [hname]
          decide
        · rw [hname]
          decide
      exact ((h _).mpr (.inl ⟨rfl, hscript, huploads⟩)).1
    · refine List.eq_nil_iff_forall_not_mem.mpr fun finding hmem => ?_
      exact hpages _ hname ((h finding).mpr (.inr (.inr hmem))).2
    · have htwo := count_dot_of_isDisguised hscript
      rw [lower_eq_of_web hweb, hone _ hweb] at htwo
      exact absurd htwo (by decide)
  · rintro ⟨hphtml, hhidden, huploads, hpage, -, -⟩ finding
    rcases hcases with hname | hname | hname | hname | hname
    · rw [hname, or_iff_right (by decide), and_iff_left hphp]
      constructor
      · exact fun hmem => .inr (.inr hmem)
      · rintro (⟨rfl, -, hin⟩ | ⟨rfl, -⟩ | hmem)
        · exact huploads (.inl hname) hin
        · exact hhidden hname
        · exact hmem
    · exact absurd hname hphtml
    · rw [hname, or_iff_right (by decide), and_iff_left hphp5]
      constructor
      · exact fun hmem => .inr (.inr hmem)
      · rintro (⟨rfl, -, hin⟩ | ⟨-, hmem⟩ | hmem)
        · exact huploads (.inr hname) hin
        · exact absurd hmem (by decide)
        · exact hmem
    · rw [hpage hname]
      have hscripts : [".js", ".html", ".htm"].all
          (fun word => decide (word ∉ [".php", ".phtml", ".php5"])) = true := by decide
      have hno : lower file.name ∉ [".php", ".phtml", ".php5"] :=
        of_decide_eq_true (List.all_eq_true.mp hscripts _ hname)
      have hsub : [".php", ".phtml"] ⊆ [".php", ".phtml", ".php5"] := by decide
      refine iff_of_false (fun h => absurd h.1 List.not_mem_nil) ?_
      rintro (⟨-, hmem, -⟩ | ⟨-, hmem⟩ | hmem)
      · exact hno hmem
      · exact hno (hsub hmem)
      · exact List.not_mem_nil hmem
    · rw [hname, and_iff_left (.inl rfl)]
      constructor
      · exact fun hmem => .inr (.inr hmem)
      · rintro (⟨-, hmem, -⟩ | ⟨-, hmem⟩ | hmem)
        · exact absurd hmem (by decide)
        · exact absurd hmem (by decide)
        · exact hmem

/-- Where it is none. -/
theorem alike_iff_of_not_web (hweb : lower file.name ∉ WEB_EXTENSIONS) :
    JudgedAlike search rules file low ↔ Alike search rules file low := by
  have hno : ∀ word ∈ WEB_EXTENSIONS, lower file.name ≠ word := fun word hword hname =>
    hweb (hname ▸ hword)
  rw [judgedAlike_iff_of_not_web hweb]
  constructor
  · intro h
    refine ⟨hno _ (by simp [WEB_EXTENSIONS]),
      fun hname => absurd hname (hno _ (by simp [WEB_EXTENSIONS])), fun hname => ?_,
      fun hname => ?_, h.1, h.2⟩
    · rcases hname with hname | hname
      · exact absurd hname (hno _ (by simp [WEB_EXTENSIONS]))
      · exact absurd hname (hno _ (by simp [WEB_EXTENSIONS]))
    · have hsub : [".js", ".html", ".htm"] ⊆ WEB_EXTENSIONS := by simp [WEB_EXTENSIONS]
      exact absurd (hsub hname) hweb
  · exact fun h => ⟨h.shell, h.digit⟩

/-- **The scanners judge a file the same way exactly where its whole name is not `.phtml`; where
    the patterns report what a file called `.php`, or `.php5` among uploads, is reported for by
    name, and nothing in one called `.js`, `.html` or `.htm`; and where they report a shell's name
    that is written with a Kelvin sign, and a script disguised by a digit beyond ASCII.** -/
theorem judgedAlike_iff :
    JudgedAlike search rules file low ↔ Alike search rules file low := by
  by_cases hweb : lower file.name ∈ WEB_EXTENSIONS
  · exact alike_iff_of_web hweb
  · exact alike_iff_of_not_web hweb

/-- A file that is called `.php` is a hidden script to one of the scanners alone. -/
theorem not_judgedAlike_dotPhp : ¬JudgedAlike (π := Unit) (fun _ _ => false) []
    ⟨["blog"], ".php", []⟩ simpleLowering := by
  intro h
  have hfound := ((judgedAlike_iff_of_web (by decide +kernel)).mp h
    ("hidden-script-file", "medium")).mpr (.inr (.inl ⟨rfl, by decide +kernel⟩))
  cases hfound.1

end

end WPanel.Hosting.Scanners
