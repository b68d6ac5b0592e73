import WPanel.Hosting.Accounts
import WPanel.Lib.Numerals
import WPanel.Lib.Patterns
import WPanel.Lib.Words
import Mathlib.Data.List.Dedup
import Mathlib.Data.List.Sort

namespace WPanel.Hosting.Schedules

open WPanel.Lib

/-!
# The schedules of scheduled jobs

`hosting/adapters/cron_rules.py`: what a schedule and a command may be, and what a schedule that is
accepted means.

* `values`, `checkSchedule`, `checkCommand` — the checks, as the code makes them;
* `Denotes`, `Fires` — what a field stands for, and when the job fires;
* `Checked` — a schedule is refused with a reason, or never fires twice within `MIN_INTERVAL`;
* `Unreadable` — the check comes upon a number that `int` does not read;
* `EveryMinute` — the minutes say `n/1`, which stands for every minute from `n` on;
* `checked_iff` — the promise is kept exactly where there is neither.
-/

/-- `HostingError(message)`, as the gateway passes it on. -/
abbrev hostingError (message : String) : Err := adapterError message

def MIN_INTERVAL : ℕ := 5

/-- One of the five parts of a schedule: what it is called, and its bounds. -/
structure Field where
  label : String
  low : ℕ
  high : ℕ
  deriving DecidableEq, Repr

def minuteField : Field := ⟨"minute", 0, 59⟩
def hourField : Field := ⟨"hour", 0, 23⟩
def dayField : Field := ⟨"day of the month", 1, 31⟩
def monthField : Field := ⟨"month", 1, 12⟩
def weekdayField : Field := ⟨"day of the week", 0, 7⟩

def FIELDS : List Field := [minuteField, hourField, dayField, monthField, weekdayField]

/-! ### The check of a schedule -/

/-- What `int` raises. -/
def valueError : Err := .unexpected "ValueError: invalid literal for int()"

/-- `int(text)`, of digits. -/
def int (digits : String) : Except Err ℕ :=
  match parseNat digits.toList with
  | some n => pure n
  | none => throw valueError

def Field.notValid (field : Field) : Err :=
  hostingError ("The " ++ field.label ++ " part of the schedule is not valid.")

def Field.outside (field : Field) : Err :=
  hostingError ("The " ++ field.label ++ " part of the schedule must be between "
    ++ toString field.low ++ " and " ++ toString field.high ++ ".")

/-- What is written behind the slash. -/
def Field.readStep (field : Field) (stepText : String) : Except Err ℕ := do
  ensure (isDigitText stepText = true) field.notValid
  let step ← int stepText
  ensure (1 ≤ step) field.notValid
  return step

/-- `re.fullmatch(r"\d+-\d+", part)`. -/
def isRange (part : String) : Bool :=
  let ends := partition '-' part
  (!ends.1.toList.isEmpty && ends.1.toList.all isDecimal)
    && (!ends.2.toList.isEmpty && ends.2.toList.all isDecimal)

/-- Where the numbers of a part start and end. -/
def Field.readBounds (field : Field) (part : String) (step : ℕ) : Except Err (ℕ × ℕ) :=
  if part = "*" then pure (field.low, field.high)
  else if isRange part then do
    let start ← int (partition '-' part).1
    let finish ← int (partition '-' part).2
    return (start, finish)
  else if isDigitText part then do
    let start ← int part
    return (start, if 1 < step then field.high else start)
  else throw field.notValid

/-- The numbers from one bound to the other, in steps. -/
def Field.spread (field : Field) (step : ℕ) (bounds : ℕ × ℕ) : Except Err (List ℕ) := do
  ensure (¬(bounds.1 < field.low ∨ field.high < bounds.2 ∨ bounds.2 < bounds.1)) field.outside
  return List.range' bounds.1 ((bounds.2 - bounds.1) / step + 1) step

/-- The numbers of one part. -/
def Field.partValues (field : Field) (part : String) : Except Err (List ℕ) :=
  if '/' ∈ part.toList then do
    let step ← field.readStep (partition '/' part).2
    let bounds ← field.readBounds (partition '/' part).1 step
    field.spread step bounds
  else do
    let bounds ← field.readBounds part 1
    field.spread 1 bounds

/-- `_values`. -/
def Field.values (field : Field) (text : String) : Except Err (List ℕ) := do
  let found ← (splitOn ',' text).mapM field.partValues
  return found.flatten

/-- `sorted(found)`, of a set. -/
def sorted (found : List ℕ) : List ℕ := found.dedup.insertionSort (· ≤ ·)

/-- The minutes between one run of the job and the next, the last of them over the hour. -/
def gaps (minutes : List ℕ) : List ℕ :=
  List.zipWith (fun a b => b - a) minutes minutes.tail
    ++ [60 - minutes.getLastD 0 + minutes.headD 0]

def wrongParts : Err :=
  hostingError ("A schedule has five parts: minute, hour, day of the month, month and day of the "
    ++ "week. Pick a common schedule or write them like 0 2 * * *.")

def tooOften : Err :=
  hostingError ("A job may not run more often than every " ++ toString MIN_INTERVAL ++ " minutes.")

/-- `check_schedule`. -/
def checkSchedule (schedule : String) : Except Err String := do
  let parts := splitSpace schedule
  ensure (parts.length = 5) wrongParts
  let sets ← (parts.zip FIELDS).mapM fun part => part.2.values part.1
  let minutes := sorted (sets.headD [])
  ensure (¬(1 < minutes.length ∧ ∃ gap ∈ gaps minutes, gap < MIN_INTERVAL)) tooOften
  return String.intercalate " " parts

/-! ### The check of a command -/

def MAX_COMMAND : ℕ := 300

/-- `[A-Za-z0-9_]`, and more characters. -/
def isWordChar (more : List Char) (c : Char) : Bool := c.isAlphanum || c = '_' || c ∈ more

/-- `SCRIPT`, without its anchors. -/
def scriptPattern : List Char → Bool
  | [] => false
  | c :: rest => isWordChar [] c && rest.all (isWordChar ['.', '/', '-'])
    && ['.', 'p', 'h', 'p'].isSuffixOf rest

/-- `ARGUMENT`, without its anchors. -/
def argumentPattern (argument : List Char) : Bool :=
  (1 ≤ argument.length && argument.length ≤ 100)
    && argument.all (isWordChar ['.', '=', ':', '/', '-'])

/-- `check_command`. -/
def checkCommand (command : String) : Except Err String := do
  let words := splitSpace command
  let command := String.intercalate " " words
  ensure (command ≠ "" ∧ command.toList.length ≤ MAX_COMMAND)
    (hostingError "Enter the PHP script to run, for example: php public_html/cron.php")
  ensure (words.headD "" = "php" ∧ 2 ≤ words.length)
    (hostingError ("Only PHP scripts can be scheduled here. Start the command with php, for "
      ++ "example: php public_html/cron.php"))
  let script := words.getD 1 ""
  ensure (¬(startsWith script "/" = true ∨ ".." ∈ splitOn '/' script
      ∨ matchesLine scriptPattern script = false))
    (hostingError ("The script must be a .php file inside your hosting folder, written without a "
      ++ "leading slash or '..'."))
  ensure (∀ argument ∈ words.drop 2, matchesLine argumentPattern argument = true)
    (hostingError ("Arguments may only contain letters, numbers and . _ = : / - (no shell "
      ++ "symbols)."))
  return command

/-! ### What a schedule means -/

/-- What stands before the slash of a part. -/
def baseOf (part : String) : String := if '/' ∈ part.toList then (partition '/' part).1 else part

/-- The step of a part, which is 1 where none is written. -/
def stepOf (part : String) : Option ℕ :=
  if '/' ∈ part.toList then parseNat (partition '/' part).2.toList else some 1

/-- The numbers a part stands for: `*` and a range with their step, one number alone, and `n/s` for
    `n`, `n+s` and so on up to the field's maximum, for every step. -/
def Field.PartDenotes (field : Field) (part : String) (n : ℕ) : Prop :=
  ∃ s, stepOf part = some s ∧
    ((baseOf part = "*" ∧ field.low ≤ n ∧ n ≤ field.high ∧ s ∣ n - field.low)
      ∨ (isRange (baseOf part) = true ∧ ∃ start finish,
          parseNat (partition '-' (baseOf part)).1.toList = some start
          ∧ parseNat (partition '-' (baseOf part)).2.toList = some finish
          ∧ start ≤ n ∧ n ≤ finish ∧ s ∣ n - start)
      ∨ (isDigitText (baseOf part) = true ∧ ∃ start, parseNat (baseOf part).toList = some start
          ∧ (n = start ∨ '/' ∈ part.toList ∧ start ≤ n ∧ n ≤ field.high ∧ s ∣ n - start)))

/-- A field stands for what any of its parts stands for. -/
def Field.Denotes (field : Field) (text : String) (n : ℕ) : Prop :=
  ∃ part ∈ splitOn ',' text, field.PartDenotes part n

/-- A day of the calendar: Sunday is 0. -/
structure Day where
  dayOfMonth : ℕ
  month : ℕ
  weekday : ℕ
  deriving DecidableEq, Repr

/-- The day fields name a day: where both the day of the month and the day of the week say
    something, one of them is enough; 7 is a Sunday as well. -/
def OnDay (dayText monthText weekdayText : String) (day : Day) : Prop :=
  let byMonth := dayField.Denotes dayText day.dayOfMonth
  let byWeek := weekdayField.Denotes weekdayText day.weekday
    ∨ day.weekday = 0 ∧ weekdayField.Denotes weekdayText 7
  monthField.Denotes monthText day.month
    ∧ if startsWith dayText "*" || startsWith weekdayText "*" then byMonth ∧ byWeek
      else byMonth ∨ byWeek

/-- The job of five parts fires at a minute, counted from the start of a day; `calendar` says which
    days these are. -/
def Fires (calendar : ℕ → Day) (parts : List String) (t : ℕ) : Prop :=
  minuteField.Denotes (parts.getD 0 "") (t % 60)
    ∧ hourField.Denotes (parts.getD 1 "") (t / 60 % 24)
    ∧ OnDay (parts.getD 2 "") (parts.getD 3 "") (parts.getD 4 "") (calendar (t / 60 / 24))

/-- It never fires twice less than `MIN_INTERVAL` minutes apart. -/
def NeverTooOften (calendar : ℕ → Day) (parts : List String) : Prop :=
  ∀ t t', t < t' → Fires calendar parts t → Fires calendar parts t' → t + MIN_INTERVAL ≤ t'

/-- **A schedule is refused with a reason, or never fires too often.** -/
def Checked (calendar : ℕ → Day) (schedule : String) : Prop :=
  match checkSchedule schedule with
  | .ok _ => NeverTooOften calendar (splitSpace schedule)
  | .error e => ∃ message, e = hostingError message

/-! ### Numbers that cannot be read -/

/-- Digits that `int` does not read: one of them is not decimal, or there are too many. -/
def Strange (number : String) : Prop :=
  isDigitText number = true ∧ parseNat number.toList = none

/-- In what stands before the step. -/
def StrangeBase (base : String) : Prop :=
  Strange base ∨ isRange base = true
    ∧ (Strange (partition '-' base).1 ∨ Strange (partition '-' base).2)

/-- In a part: its step, or behind a step that can be read what stands before it. -/
def StrangePart (part : String) : Prop :=
  ('/' ∈ part.toList ∧ Strange (partition '/' part).2)
    ∨ ('/' ∈ part.toList → isDigitText (partition '/' part).2 = true
        ∧ ∃ s, stepOf part = some s ∧ 1 ≤ s)
      ∧ StrangeBase (baseOf part)

/-- The parts of a schedule in the order they are read, with their fields. -/
def partsOf (schedule : String) : List (Field × String) :=
  ((splitSpace schedule).zip FIELDS).flatMap fun p => (splitOn ',' p.1).map fun part => (p.2, part)

/-- **The check comes upon a number that cannot be read**: of the parts of five fields, one holds
    such a number and those before it are accepted. -/
def Unreadable (schedule : String) : Prop :=
  (splitSpace schedule).length = 5 ∧ ∃ front part back, partsOf schedule = front ++ part :: back
    ∧ (∀ p ∈ front, ∃ found, p.1.partValues p.2 = Except.ok found) ∧ StrangePart part.2

section

variable {field : Field} {part base text : String} {step start finish n : ℕ} {found : List ℕ}

theorem int_eq_ok : int text = .ok n ↔ parseNat text.toList = some n := by
  unfold int
  cases parseNat text.toList <;> simp

theorem int_eq_error {e : Err} : int text = .error e ↔ parseNat text.toList = none
    ∧ e = valueError := by
  unfold int
  cases parseNat text.toList with
  | none => exact ⟨fun h => ⟨rfl, (Except.error.inj h).symm⟩, fun h => by rw [h.2]; rfl⟩
  | some n => simp

/-- An error of the check that is no `ValueError` gives a reason. -/
def Reasoned (e : Err) : Prop := e = valueError ∨ ∃ message, e = hostingError message

theorem hostingError_ne_valueError (message : String) : hostingError message ≠ valueError := nofun

theorem reasoned_hostingError (message : String) : Reasoned (hostingError message) :=
  .inr ⟨message, rfl⟩

theorem raises_int (text : String) : Raises (int text) Reasoned :=
  fun _ h => .inl (int_eq_error.mp h).2

/-- The digits of a range are digits. -/
theorem isDigitText_of_decimal {chars : String}
    (h : (!chars.toList.isEmpty && chars.toList.all isDecimal) = true) :
    isDigitText chars = true := by
  rw [Bool.and_eq_true] at h
  rw [isDigitText, h.1, Bool.true_and]
  refine List.all_eq_true.mpr fun c hc => ?_
  rw [isDigitChar, List.all_eq_true.mp h.2 c hc, Bool.true_or]

theorem isDigitText_of_isRange (h : isRange base = true) :
    isDigitText (partition '-' base).1 = true ∧ isDigitText (partition '-' base).2 = true := by
  rw [isRange, Bool.and_eq_true] at h
  exact ⟨isDigitText_of_decimal h.1, isDigitText_of_decimal h.2⟩

theorem readStep_eq_ok : field.readStep text = .ok step
    ↔ isDigitText text = true ∧ parseNat text.toList = some step ∧ 1 ≤ step := by
  simp only [Field.readStep, bind_eq_ok, ensure_eq_ok, int_eq_ok, pure_eq_ok]
  constructor
  · rintro ⟨_, hdigits, s, hs, _, hone, rfl⟩
    exact ⟨hdigits, hs, hone⟩
  · rintro ⟨hdigits, hs, hone⟩
    exact ⟨⟨⟩, hdigits, step, hs, ⟨⟩, hone, rfl⟩

theorem readStep_eq_valueError : field.readStep text = .error valueError ↔ Strange text := by
  simp only [Field.readStep, bind_eq_error, ensure_eq_ok, ensure_eq_error, int_eq_error,
    pure_ne_error, Field.notValid]
  constructor
  · rintro (⟨-, habsurd⟩ | ⟨_, hdigits, hint | ⟨s, -, ⟨-, habsurd⟩ | ⟨_, -, hfalse⟩⟩⟩)
    · exact absurd habsurd (hostingError_ne_valueError _)
    · exact ⟨hdigits, hint.1⟩
    · exact absurd habsurd (hostingError_ne_valueError _)
    · exact hfalse.elim
  · rintro ⟨hdigits, hnone⟩
    exact .inr ⟨⟨⟩, hdigits, .inl ⟨hnone, trivial⟩⟩

theorem raises_readStep (field : Field) (text : String) : Raises (field.readStep text) Reasoned :=
  (raises_ensure (reasoned_hostingError _)).bind fun _ => (raises_int _).bind fun _ =>
    (raises_ensure (reasoned_hostingError _)).bind fun _ => raises_pure _

/-- The three forms of what stands before the step. -/
theorem readBounds_eq_ok : field.readBounds base step = .ok (start, finish)
    ↔ base = "*" ∧ start = field.low ∧ finish = field.high
      ∨ base ≠ "*" ∧ isRange base = true ∧ parseNat (partition '-' base).1.toList = some start
        ∧ parseNat (partition '-' base).2.toList = some finish
      ∨ base ≠ "*" ∧ isRange base = false ∧ isDigitText base = true
        ∧ parseNat base.toList = some start
        ∧ finish = if 1 < step then field.high else start := by
  unfold Field.readBounds
  by_cases hstar : base = "*"
  · rw [if_pos hstar, pure_eq_ok, Prod.mk.injEq]
    simp only [hstar, ne_eq, not_true_eq_false, false_and, or_false, true_and]
    exact and_congr eq_comm eq_comm
  · rw [if_neg hstar]
    by_cases hrange : isRange base = true
    · rw [if_pos hrange]
      simp only [bind_eq_ok, int_eq_ok, pure_eq_ok, Prod.mk.injEq, hstar, hrange, false_and,
        false_or, ne_eq, not_false_eq_true, true_and, Bool.true_eq_false, and_false, or_false]
      constructor
      · rintro ⟨a, ha, b, hb, rfl, rfl⟩
        exact ⟨ha, hb⟩
      · exact fun h => ⟨start, h.1, finish, h.2, rfl, rfl⟩
    · have hrange' : isRange base = false := Bool.eq_false_iff.mpr hrange
      rw [if_neg hrange]
      by_cases hdigits : isDigitText base = true
      · rw [if_pos hdigits]
        simp only [bind_eq_ok, int_eq_ok, pure_eq_ok, Prod.mk.injEq, hstar, hrange', hdigits,
          false_and, false_or, ne_eq, not_false_eq_true, true_and, Bool.false_eq_true, and_false]
        constructor
        · rintro ⟨a, ha, rfl, hfinish⟩
          exact ⟨ha, hfinish.symm⟩
        · exact fun h => ⟨start, h.1, rfl, h.2.symm⟩
      · rw [if_neg hdigits]
        simp [hstar, hrange', hdigits]

/-- A range is no number. -/
theorem not_isDigitText_of_isRange (h : isRange base = true) : isDigitText base = false := by
  have hdash : '-' ∈ base.toList := by
    by_contra hno
    have hall : base.toList.dropWhile (· ≠ '-') = [] :=
      List.dropWhile_eq_nil_iff.mpr fun c hc => decide_eq_true fun heq => hno (heq ▸ hc)
    have hnil : (partition '-' base).2.toList = [] := by
      rw [partition, hall]
      rfl
    rw [isRange, hnil] at h
    simp at h
  rw [isDigitText, List.all_eq_false.mpr ⟨'-', hdash, by decide +kernel⟩, Bool.and_false]

theorem readBounds_eq_valueError :
    field.readBounds base step = .error valueError ↔ StrangeBase base := by
  unfold Field.readBounds StrangeBase
  by_cases hstar : base = "*"
  · rw [if_pos hstar, hstar]
    refine iff_of_false (pure_ne_error _ _) ?_
    rintro (h | h)
    · exact absurd h.1 (by decide +kernel)
    · exact absurd h.1 (by decide +kernel)
  · rw [if_neg hstar]
    by_cases hrange : isRange base = true
    · obtain ⟨hfirst, hsecond⟩ := isDigitText_of_isRange hrange
      have hno : ¬Strange base := fun h => by
        rw [Strange, not_isDigitText_of_isRange hrange] at h
        exact Bool.false_ne_true h.1
      rw [if_pos hrange, or_iff_right hno, and_iff_right hrange, Strange, Strange, hfirst, hsecond]
      simp only [bind_eq_error, int_eq_error, int_eq_ok, pure_ne_error, and_false, exists_false,
        or_false, and_true, true_and]
      constructor
      · rintro (hnone | ⟨a, -, hnone⟩)
        · exact .inl hnone
        · exact .inr hnone
      · intro h
        cases ha : parseNat (partition '-' base).1.toList with
        | none => exact .inl rfl
        | some a => exact .inr ⟨a, rfl, h.resolve_left (ha ▸ Option.some_ne_none a)⟩
    · rw [if_neg hrange, or_iff_left fun h => hrange h.1]
      by_cases hdigits : isDigitText base = true
      · rw [if_pos hdigits, Strange, hdigits]
        simp only [bind_eq_error, int_eq_error, pure_ne_error, and_false, exists_false, or_false,
          and_true, true_and]
      · rw [if_neg hdigits]
        refine iff_of_false (fun h => ?_) fun h => hdigits h.1
        exact hostingError_ne_valueError _ (Except.error.inj h)

theorem raises_readBounds (field : Field) (base : String) (step : ℕ) :
    Raises (field.readBounds base step) Reasoned := by
  unfold Field.readBounds
  split
  · exact raises_pure _
  · split
    · exact (raises_int _).bind fun _ => (raises_int _).bind fun _ => raises_pure _
    · split
      · exact (raises_int _).bind fun _ => raises_pure _
      · exact raises_throw (reasoned_hostingError _)

/-! ### A part and a schedule, read backwards -/

theorem spread_eq_ok : field.spread step (start, finish) = .ok found
    ↔ field.low ≤ start ∧ finish ≤ field.high ∧ start ≤ finish
      ∧ found = List.range' start ((finish - start) / step + 1) step := by
  simp only [Field.spread, bind_eq_ok, ensure_eq_ok, pure_eq_ok, not_or, Nat.not_lt]
  constructor
  · rintro ⟨_, ⟨hlow, hhigh, hle⟩, rfl⟩
    exact ⟨hlow, hhigh, hle, rfl⟩
  · rintro ⟨hlow, hhigh, hle, rfl⟩
    exact ⟨⟨⟩, ⟨hlow, hhigh, hle⟩, rfl⟩

theorem spread_ne_valueError (bounds : ℕ × ℕ) : field.spread step bounds ≠ .error valueError := by
  intro h
  rcases bind_eq_error.mp h with h | ⟨_, -, h⟩
  · exact hostingError_ne_valueError _ (ensure_eq_error.mp h).2
  · exact absurd h (pure_ne_error _ _)

theorem raises_spread (field : Field) (step : ℕ) (bounds : ℕ × ℕ) :
    Raises (field.spread step bounds) Reasoned :=
  (raises_ensure (reasoned_hostingError _)).bind fun _ => raises_pure _

/-- A part is read from its step and what stands before it. -/
theorem partValues_of_slash (h : '/' ∈ part.toList) : field.partValues part
    = field.readStep (partition '/' part).2 >>= fun step =>
      field.readBounds (baseOf part) step >>= field.spread step := by
  rw [Field.partValues, if_pos h, baseOf, if_pos h]

theorem partValues_of_not_slash (h : '/' ∉ part.toList) :
    field.partValues part = field.readBounds (baseOf part) 1 >>= field.spread 1 := by
  rw [Field.partValues, if_neg h, baseOf, if_neg h]

/-- A part that is accepted. -/
theorem partValues_eq_ok (h : field.partValues part = .ok found) :
    ∃ step start finish, stepOf part = some step ∧ 1 ≤ step
      ∧ ('/' ∉ part.toList → step = 1)
      ∧ field.readBounds (baseOf part) step = .ok (start, finish)
      ∧ field.spread step (start, finish) = .ok found := by
  by_cases hslash : '/' ∈ part.toList
  · rw [partValues_of_slash hslash] at h
    obtain ⟨step, hstep, h⟩ := bind_eq_ok.mp h
    obtain ⟨bounds, hbounds, h⟩ := bind_eq_ok.mp h
    obtain ⟨-, hs, hone⟩ := readStep_eq_ok.mp hstep
    refine ⟨step, bounds.1, bounds.2, ?_, hone, fun hno => absurd hslash hno, hbounds, h⟩
    rw [stepOf, if_pos hslash, hs]
  · rw [partValues_of_not_slash hslash] at h
    obtain ⟨bounds, hbounds, h⟩ := bind_eq_ok.mp h
    refine ⟨1, bounds.1, bounds.2, ?_, Nat.le_refl 1, fun _ => rfl, hbounds, h⟩
    rw [stepOf, if_neg hslash]

theorem partValues_eq_valueError :
    field.partValues part = .error valueError ↔ StrangePart part := by
  have hbase : ∀ step, field.readBounds (baseOf part) step >>= field.spread step
      = .error valueError ↔ StrangeBase (baseOf part) := by
    intro step
    rw [bind_eq_error, readBounds_eq_valueError]
    refine or_iff_left ?_
    rintro ⟨bounds, -, h⟩
    exact spread_ne_valueError bounds h
  unfold StrangePart
  by_cases hslash : '/' ∈ part.toList
  · have hstepOf : stepOf part = parseNat (partition '/' part).2.toList := if_pos hslash
    rw [partValues_of_slash hslash, bind_eq_error, readStep_eq_valueError, hstepOf]
    refine or_congr (iff_and_self.mpr fun _ => hslash) ?_
    constructor
    · rintro ⟨step, hstep, h⟩
      obtain ⟨hdigits, hs, hone⟩ := readStep_eq_ok.mp hstep
      exact ⟨fun _ => ⟨hdigits, step, hs, hone⟩, (hbase step).mp h⟩
    · rintro ⟨hread, h⟩
      obtain ⟨hdigits, step, hs, hone⟩ := hread hslash
      exact ⟨step, readStep_eq_ok.mpr ⟨hdigits, hs, hone⟩, (hbase step).mpr h⟩
  · rw [partValues_of_not_slash hslash, hbase]
    constructor
    · exact fun h => .inr ⟨fun hno => absurd hno hslash, h⟩
    · rintro (h | h)
      · exact absurd h.1 hslash
      · exact h.2

theorem raises_partValues (field : Field) (part : String) :
    Raises (field.partValues part) Reasoned := by
  unfold Field.partValues
  split
  · exact (raises_readStep _ _).bind fun _ => (raises_readBounds _ _ _).bind fun _ =>
      raises_spread _ _ _
  · exact (raises_readBounds _ _ _).bind fun _ => raises_spread _ _ _

theorem values_eq_ok {sets : List ℕ} (h : field.values text = .ok sets) :
    ∃ founds, (splitOn ',' text).mapM field.partValues = .ok founds ∧ sets = founds.flatten := by
  obtain ⟨founds, hfounds, h⟩ := bind_eq_ok.mp h
  exact ⟨founds, hfounds, ((pure_eq_ok _ _).mp h).symm⟩

theorem values_eq_error {e : Err} :
    field.values text = .error e ↔ (splitOn ',' text).mapM field.partValues = .error e := by
  unfold Field.values
  exact bind_pure_eq_error

/-- The fields are read part by part. -/
theorem mapM_values_eq_error {e : Err} (fields : List (String × Field)) :
    fields.mapM (fun p => p.2.values p.1) = .error e
      ↔ (fields.flatMap fun p => (splitOn ',' p.1).map fun part => (p.2, part)).mapM
          (fun p => p.1.partValues p.2) = .error e := by
  induction fields with
  | nil => exact iff_of_false (pure_ne_error _ _) (pure_ne_error _ _)
  | cons p fields ih =>
    have hparts : ((splitOn ',' p.1).map fun part => (p.2, part)).mapM
        (fun p => p.1.partValues p.2) = (splitOn ',' p.1).mapM p.2.partValues := List.mapM_map
    rw [List.mapM_cons, List.flatMap_cons, List.mapM_append, hparts, bind_eq_error,
      bind_eq_error, values_eq_error]
    refine or_congr_right ⟨?_, ?_⟩
    · rintro ⟨sets, hsets, h⟩
      obtain ⟨founds, hfounds, -⟩ := values_eq_ok hsets
      exact ⟨founds, hfounds, bind_pure_eq_error.mpr (ih.mp (bind_pure_eq_error.mp h))⟩
    · rintro ⟨founds, hfounds, h⟩
      refine ⟨founds.flatten, ?_, bind_pure_eq_error.mpr (ih.mpr (bind_pure_eq_error.mp h))⟩
      rw [Field.values, hfounds]
      rfl

/-- **The check raises `ValueError` exactly when it comes upon a number it cannot read.** -/
theorem checkSchedule_eq_valueError {schedule : String} :
    checkSchedule schedule = .error valueError ↔ Unreadable schedule := by
  have hparts : (partsOf schedule).mapM (fun p => p.1.partValues p.2) = .error valueError
      ↔ ∃ front part back, partsOf schedule = front ++ part :: back
        ∧ (∀ p ∈ front, ∃ found, p.1.partValues p.2 = Except.ok found) ∧ StrangePart part.2 := by
    rw [mapM_eq_error]
    simp only [partValues_eq_valueError]
  unfold checkSchedule Unreadable
  rw [bind_eq_error, ← hparts, partsOf, ← mapM_values_eq_error]
  constructor
  · rintro (h | ⟨_, hfive, h⟩)
    · exact absurd (ensure_eq_error.mp h).2 (hostingError_ne_valueError _)
    · refine ⟨ensure_eq_ok.mp hfive, ?_⟩
      rcases bind_eq_error.mp h with h | ⟨_, -, h⟩
      · exact h
      · rcases bind_eq_error.mp h with h | ⟨_, -, h⟩
        · exact absurd (ensure_eq_error.mp h).2 (hostingError_ne_valueError _)
        · exact absurd h (pure_ne_error _ _)
  · rintro ⟨hfive, h⟩
    exact .inr ⟨⟨⟩, ensure_eq_ok.mpr hfive, bind_eq_error.mpr (.inl h)⟩

theorem raises_checkSchedule (schedule : String) : Raises (checkSchedule schedule) Reasoned := by
  refine (raises_ensure (reasoned_hostingError _)).bind fun _ => Raises.bind ?_ fun _ =>
    (raises_ensure (reasoned_hostingError _)).bind fun _ => raises_pure _
  exact raises_mapM fun p => (raises_mapM fun part => raises_partValues _ _).bind fun _ =>
    raises_pure _

/-! ### What an accepted part stands for -/

/-- A part `n/1`. -/
def UnitStep (part : String) (start : ℕ) : Prop :=
  '/' ∈ part.toList ∧ stepOf part = some 1 ∧ isDigitText (baseOf part) = true
    ∧ parseNat (baseOf part).toList = some start

/-- **The minutes say `n/1`**, and there is a minute after `n`. -/
def EveryMinute (text : String) : Prop :=
  ∃ part ∈ splitOn ',' text, ∃ start < minuteField.high, UnitStep part start

private theorem mem_steps {a b s n : ℕ} (hs : 1 ≤ s) (hab : a ≤ b) :
    n ∈ List.range' a ((b - a) / s + 1) s ↔ a ≤ n ∧ n ≤ b ∧ s ∣ n - a := by
  rw [List.mem_range']
  constructor
  · rintro ⟨i, hi, rfl⟩
    have hle : s * i ≤ b - a :=
      (Nat.mul_le_mul_left s (Nat.lt_succ_iff.mp hi)).trans (Nat.mul_div_le (b - a) s)
    refine ⟨Nat.le_add_right a _, by omega, ?_⟩
    rw [Nat.add_sub_cancel_left]
    exact Nat.dvd_mul_right s i
  · rintro ⟨ha, hb, i, hi⟩
    refine ⟨i, Nat.lt_succ_iff.mpr ((Nat.le_div_iff_mul_le hs).mpr ?_), by omega⟩
    rw [Nat.mul_comm, ← hi]
    omega

private theorem star_forms : isRange "*" = false ∧ isDigitText "*" = false := by decide +kernel

/-- What was found lies within the bounds of the field. -/
theorem mem_partValues (h : field.partValues part = .ok found) (hn : n ∈ found) :
    field.low ≤ n ∧ n ≤ field.high := by
  obtain ⟨step, start, finish, -, hone, -, -, hspread⟩ := partValues_eq_ok h
  obtain ⟨hlow, hhigh, hle, rfl⟩ := spread_eq_ok.mp hspread
  obtain ⟨hstart, hfinish, -⟩ := (mem_steps hone hle).mp hn
  omega

/-- **An accepted part stands for what was found**, unless it says `n/1`. -/
theorem partDenotes_iff (h : field.partValues part = .ok found)
    (hunit : ∀ start < field.high, ¬UnitStep part start) :
    field.PartDenotes part n ↔ n ∈ found := by
  obtain ⟨step, start, finish, hstep, hone, hplain, hbounds, hspread⟩ := partValues_eq_ok h
  obtain ⟨hlow, hhigh, hle, rfl⟩ := spread_eq_ok.mp hspread
  have hdenotes : ∀ {P : ℕ → Prop}, (∃ s, stepOf part = some s ∧ P s) ↔ P step := by
    intro P
    refine ⟨?_, fun hP => ⟨step, hstep, hP⟩⟩
    rintro ⟨s, hs, hP⟩
    rw [hstep] at hs
    exact Option.some.inj hs ▸ hP
  rw [Field.PartDenotes, hdenotes, mem_steps hone hle]
  rcases readBounds_eq_ok.mp hbounds with
    ⟨hstar, rfl, rfl⟩ | ⟨hstar, hrange, hstart, hfinish⟩ | ⟨hstar, hrange, hdigits, hstart, hfinish⟩
  · rw [hstar, star_forms.1, star_forms.2]
    simp
  · simp [hstar, hrange, not_isDigitText_of_isRange hrange, hstart, hfinish]
  · simp only [hstar, hrange, hdigits, hstart, false_and, false_or, Bool.false_eq_true, true_and,
      Option.some.injEq, exists_eq_left']
    by_cases hmore : 1 < step
    · -- a step is written
      have hslash : '/' ∈ part.toList := by
        by_contra hno
        have := hplain hno
        omega
      rw [if_pos hmore] at hfinish
      subst hfinish
      constructor
      · rintro (rfl | ⟨-, hn⟩)
        · exact ⟨Nat.le_refl n, hle, by simp⟩
        · exact hn
      · exact fun hn => .inr ⟨hslash, hn⟩
    · rw [if_neg hmore] at hfinish
      subst hfinish
      constructor
      · rintro (rfl | ⟨hslash, hn, hhigh', -⟩)
        · exact ⟨Nat.le_refl n, Nat.le_refl n, by simp⟩
        · -- `n/1`, which begins at the last number of the field
          have hstep1 : stepOf part = some 1 := by
            rw [hstep, show step = 1 by omega]
          have hlast : ¬finish < field.high := fun hlt =>
            hunit finish hlt ⟨hslash, hstep1, hdigits, hstart⟩
          obtain rfl : n = finish := by omega
          exact ⟨Nat.le_refl n, Nat.le_refl n, by simp⟩
      · exact fun hn => .inl (Nat.le_antisymm hn.2.1 hn.1)

/-- An accepted part stands for where it starts. -/
theorem exists_partDenotes (h : field.partValues part = .ok found) :
    ∃ n, field.PartDenotes part n ∧ n ≤ field.high := by
  obtain ⟨step, start, finish, hstep, hone, hplain, hbounds, hspread⟩ := partValues_eq_ok h
  obtain ⟨hlow, hhigh, hle, rfl⟩ := spread_eq_ok.mp hspread
  refine ⟨start, ⟨step, hstep, ?_⟩, by omega⟩
  rcases readBounds_eq_ok.mp hbounds with
    ⟨hstar, rfl, rfl⟩ | ⟨-, hrange, hstart, hfinish⟩ | ⟨-, -, hdigits, hstart, -⟩
  · exact .inl ⟨hstar, Nat.le_refl _, hle, by simp⟩
  · exact .inr (.inl ⟨hrange, start, finish, hstart, hfinish, Nat.le_refl _, hle, by simp⟩)
  · exact .inr (.inr ⟨hdigits, start, hstart, .inl rfl⟩)

/-- `n/1` stands for `n` and for the number after it. -/
theorem UnitStep.denotes (h : UnitStep part start) (hlast : start < field.high) :
    field.PartDenotes part start ∧ field.PartDenotes part (start + 1) := by
  obtain ⟨hslash, hstep, hdigits, hstart⟩ := h
  exact ⟨⟨1, hstep, .inr (.inr ⟨hdigits, start, hstart, .inl rfl⟩)⟩,
    ⟨1, hstep, .inr (.inr ⟨hdigits, start, hstart, .inr ⟨hslash, by omega, hlast, one_dvd _⟩⟩)⟩⟩

/-- An accepted field stands for what was found, unless a part of it says `n/1`. -/
theorem denotes_iff (h : field.values text = .ok found)
    (hunit : ∀ part ∈ splitOn ',' text, ∀ start < field.high, ¬UnitStep part start) :
    field.Denotes text n ↔ n ∈ found := by
  obtain ⟨founds, hfounds, rfl⟩ := values_eq_ok h
  rw [List.mem_flatten]
  constructor
  · rintro ⟨part, hpart, hn⟩
    obtain ⟨found, hmem, hok⟩ := mapM_eq_ok_of_mem hfounds part hpart
    exact ⟨found, hmem, (partDenotes_iff hok (hunit part hpart)).mp hn⟩
  · rintro ⟨found, hmem, hn⟩
    obtain ⟨part, hpart, hok⟩ := mapM_eq_ok hfounds found hmem
    exact ⟨part, hpart, (partDenotes_iff hok (hunit part hpart)).mpr hn⟩

theorem mem_values (h : field.values text = .ok found) (hn : n ∈ found) :
    field.low ≤ n ∧ n ≤ field.high := by
  obtain ⟨founds, hfounds, rfl⟩ := values_eq_ok h
  obtain ⟨found, hmem, hn⟩ := List.mem_flatten.mp hn
  obtain ⟨part, -, hok⟩ := mapM_eq_ok hfounds found hmem
  exact mem_partValues hok hn

/-- An accepted field stands for something. -/
theorem exists_denotes (h : field.values text = .ok found) :
    ∃ n, field.Denotes text n ∧ n ≤ field.high := by
  obtain ⟨founds, hfounds, -⟩ := values_eq_ok h
  obtain ⟨part, rest, hparts⟩ := List.exists_cons_of_ne_nil (splitOn_ne_nil ',' text)
  have hpart : part ∈ splitOn ',' text := hparts ▸ List.mem_cons_self
  obtain ⟨found, -, hok⟩ := mapM_eq_ok_of_mem hfounds part hpart
  obtain ⟨n, hn, hle⟩ := exists_partDenotes hok
  exact ⟨n, ⟨part, hpart, hn⟩, hle⟩

/-! ### The gaps -/

private theorem isChain_of_gaps {l : List ℕ}
    (h : ∀ gap ∈ List.zipWith (fun a b => b - a) l l.tail, MIN_INTERVAL ≤ gap) :
    l.IsChain fun a b => a + MIN_INTERVAL ≤ b := by
  induction l with
  | nil => exact List.IsChain.nil
  | cons a l ih =>
    cases l with
    | nil => exact List.IsChain.singleton a
    | cons b l =>
      rw [List.tail_cons, List.zipWith_cons_cons, List.forall_mem_cons] at h
      have hfirst : MIN_INTERVAL ≤ b - a := h.1
      refine List.IsChain.cons_cons ?_ (ih h.2)
      unfold MIN_INTERVAL at hfirst ⊢
      omega

private theorem head_le {l : List ℕ} (hsorted : l.Pairwise (· ≤ ·)) {a : ℕ} (ha : a ∈ l) :
    l.headD 0 ≤ a := by
  cases l with
  | nil => exact absurd ha List.not_mem_nil
  | cons x l =>
    rcases List.mem_cons.mp ha with rfl | hmem
    · exact Nat.le_refl _
    · exact (List.pairwise_cons.mp hsorted).1 a hmem

private theorem le_getLast {l : List ℕ} (hsorted : l.Pairwise (· ≤ ·)) {a : ℕ} (ha : a ∈ l) :
    a ≤ l.getLastD 0 := by
  rcases List.eq_nil_or_concat l with rfl | ⟨front, z, rfl⟩
  · exact absurd ha List.not_mem_nil
  · rw [List.concat_eq_append] at ha hsorted ⊢
    rw [List.getLastD_concat]
    rcases List.mem_append.mp ha with hmem | hlast
    · exact (List.pairwise_append.mp hsorted).2.2 a hmem z List.mem_cons_self
    · exact (List.mem_singleton.mp hlast).le

/-- **Minutes whose gaps are wide are far apart**, also over the hour. -/
theorem far_of_gaps {minutes : List ℕ} (hgaps : ∀ gap ∈ gaps minutes, MIN_INTERVAL ≤ gap)
    (hsorted : minutes.Pairwise (· ≤ ·)) (hbound : ∀ m ∈ minutes, m < 60) {a b : ℕ}
    (ha : a ∈ minutes) (hb : b ∈ minutes) (hab : a < b) :
    a + MIN_INTERVAL ≤ b ∧ b + MIN_INTERVAL ≤ a + 60 := by
  have hover : MIN_INTERVAL ≤ 60 - minutes.getLastD 0 + minutes.headD 0 :=
    hgaps _ (List.mem_append_right _ List.mem_cons_self)
  have hfirst := head_le hsorted ha
  have hlast := le_getLast hsorted hb
  have hb60 := hbound b hb
  let _ : Trans (fun a b => a + MIN_INTERVAL ≤ b) (fun a b => a + MIN_INTERVAL ≤ b)
      fun a b => a + MIN_INTERVAL ≤ b := ⟨fun h h' => by omega⟩
  have hpair := List.isChain_iff_pairwise.mp (isChain_of_gaps fun gap hgap =>
    hgaps gap (List.mem_append_left _ hgap))
  refine ⟨?_, by omega⟩
  obtain ⟨i, hi, rfl⟩ := List.getElem_of_mem ha
  obtain ⟨j, hj, rfl⟩ := List.getElem_of_mem hb
  rcases Nat.lt_trichotomy i j with hij | rfl | hij
  · exact List.pairwise_iff_getElem.mp hpair i j hi hj hij
  · exact absurd hab (Nat.lt_irrefl _)
  · have hback := List.pairwise_iff_getElem.mp hpair j i hj hi hij
    omega

theorem mem_sorted {found : List ℕ} : n ∈ sorted found ↔ n ∈ found := by
  rw [sorted, List.mem_insertionSort, List.mem_dedup]

/-- The minutes of an accepted schedule are far apart, also over the hour. -/
theorem far_of_accepted {minutes : List ℕ} (hbound : ∀ m ∈ minutes, m < 60)
    (hwide : ¬(1 < (sorted minutes).length ∧ ∃ gap ∈ gaps (sorted minutes), gap < MIN_INTERVAL))
    {a b : ℕ} (ha : a ∈ minutes) (hb : b ∈ minutes) (hab : a < b) :
    a + MIN_INTERVAL ≤ b ∧ b + MIN_INTERVAL ≤ a + 60 := by
  have ha' := mem_sorted.mpr ha
  have hb' := mem_sorted.mpr hb
  have hmore : 1 < (sorted minutes).length := by
    by_contra hone
    obtain ⟨i, hi, hai⟩ := List.getElem_of_mem ha'
    obtain ⟨j, hj, hbj⟩ := List.getElem_of_mem hb'
    obtain rfl : i = j := by omega
    omega
  refine far_of_gaps (fun gap hgap => ?_) (List.pairwise_insertionSort _ _)
    (fun m hm => hbound m (mem_sorted.mp hm)) ha' hb' hab
  by_contra hlt
  exact hwide ⟨hmore, gap, hgap, Nat.lt_of_not_le hlt⟩

/-! ### When the job fires -/

/-- What is known of a schedule that is accepted. -/
theorem checkSchedule_eq_ok {schedule shown : String} (h : checkSchedule schedule = .ok shown) :
    ∃ minutes hours, minuteField.values ((splitSpace schedule).getD 0 "") = .ok minutes
      ∧ hourField.values ((splitSpace schedule).getD 1 "") = .ok hours
      ∧ ¬(1 < (sorted minutes).length ∧ ∃ gap ∈ gaps (sorted minutes), gap < MIN_INTERVAL) := by
  obtain ⟨_, hfive, h⟩ := bind_eq_ok.mp h
  obtain ⟨sets, hsets, h⟩ := bind_eq_ok.mp h
  obtain ⟨_, hwide, -⟩ := bind_eq_ok.mp h
  have hwide := ensure_eq_ok.mp hwide
  have hfive := ensure_eq_ok.mp hfive
  obtain ⟨a, b, rest, hparts⟩ : ∃ a b rest, splitSpace schedule = a :: b :: rest := by
    cases hsplit : splitSpace schedule with
    | nil =>
      rw [hsplit] at hfive
      cases hfive
    | cons a tail =>
      cases tail with
      | nil =>
        rw [hsplit] at hfive
        cases hfive
      | cons b rest => exact ⟨a, b, rest, rfl⟩
  rw [hparts] at hsets ⊢
  simp only [FIELDS, List.zip_cons_cons, List.mapM_cons, bind_eq_ok, pure_eq_ok] at hsets
  obtain ⟨minutes, hminutes, _, ⟨hours, hhours, -⟩, rfl⟩ := hsets
  exact ⟨minutes, hours, hminutes, hhours, hwide⟩

/-- **Where no part says `n/1`, the job never fires too often.** -/
theorem neverTooOften_of_not_everyMinute {schedule shown : String} (calendar : ℕ → Day)
    (h : checkSchedule schedule = .ok shown)
    (hno : ¬EveryMinute ((splitSpace schedule).getD 0 "")) :
    NeverTooOften calendar (splitSpace schedule) := by
  obtain ⟨minutes, hours, hminutes, -, hwide⟩ := checkSchedule_eq_ok h
  have hdenotes : ∀ {n}, minuteField.Denotes ((splitSpace schedule).getD 0 "") n ↔ n ∈ minutes :=
    denotes_iff hminutes fun part hpart start hlt hunit => hno ⟨part, hpart, start, hlt, hunit⟩
  have hbound : ∀ m ∈ minutes, m < 60 := fun m hm =>
    Nat.lt_succ_of_le (mem_values hminutes hm).2
  intro t t' hlt hfires hfires'
  have hm := hdenotes.mp hfires.1
  have hm' := hdenotes.mp hfires'.1
  by_contra hclose
  unfold MIN_INTERVAL at hclose
  -- the two minutes are in one hour, or in one and the next
  rcases Nat.lt_trichotomy (t % 60) (t' % 60) with hlt' | heq | hgt
  · have hfar := (far_of_accepted hbound hwide hm hm' hlt').1
    have hover := (far_of_accepted hbound hwide hm hm' hlt').2
    unfold MIN_INTERVAL at hfar hover
    omega
  · omega
  · have hfar := (far_of_accepted hbound hwide hm' hm hgt).1
    have hover := (far_of_accepted hbound hwide hm' hm hgt).2
    unfold MIN_INTERVAL at hfar hover
    omega

/-- **A part `n/1` fires every minute**, on any day the schedule names. -/
theorem not_neverTooOften_of_everyMinute {schedule shown : String} {calendar : ℕ → Day} {d : ℕ}
    (h : checkSchedule schedule = .ok shown)
    (hday : OnDay ((splitSpace schedule).getD 2 "") ((splitSpace schedule).getD 3 "")
      ((splitSpace schedule).getD 4 "") (calendar d))
    (hevery : EveryMinute ((splitSpace schedule).getD 0 "")) :
    ¬NeverTooOften calendar (splitSpace schedule) := by
  obtain ⟨minutes, hours, hminutes, hhours, -⟩ := checkSchedule_eq_ok h
  obtain ⟨hour, hhour, hle⟩ := exists_denotes hhours
  obtain ⟨part, hpart, start, hlt, hunit⟩ := hevery
  obtain ⟨hfirst, hsecond⟩ := hunit.denotes hlt
  have hlt : start < 59 := hlt
  have hle : hour ≤ 23 := hle
  have hfires : ∀ n, n < 60 → minuteField.Denotes ((splitSpace schedule).getD 0 "") n →
      Fires calendar (splitSpace schedule) ((d * 24 + hour) * 60 + n) := by
    intro n hn hdenotes
    have hmod : ((d * 24 + hour) * 60 + n) % 60 = n := by omega
    have hdiv : ((d * 24 + hour) * 60 + n) / 60 = d * 24 + hour := by omega
    refine ⟨?_, ?_, ?_⟩
    · rw [hmod]
      exact hdenotes
    · rw [hdiv, show (d * 24 + hour) % 24 = hour by omega]
      exact hhour
    · rw [hdiv, show (d * 24 + hour) / 24 = d by omega]
      exact hday
  intro hnever
  have htooSoon := hnever _ _ (by omega) (hfires start (by omega) ⟨part, hpart, hfirst⟩)
    (hfires (start + 1) (by omega) ⟨part, hpart, hsecond⟩)
  unfold MIN_INTERVAL at htooSoon
  omega

end

/-- **A schedule is refused with a reason or never fires too often exactly where the check comes
    upon no number it cannot read, and the minutes of a schedule it accepts, if this ever fires,
    say nowhere `n/1`.** -/
theorem checked_iff (calendar : ℕ → Day) (schedule : String) :
    Checked calendar schedule
      ↔ ¬Unreadable schedule
        ∧ ((checkSchedule schedule).isOk = true →
          (∃ d, OnDay ((splitSpace schedule).getD 2 "") ((splitSpace schedule).getD 3 "")
            ((splitSpace schedule).getD 4 "") (calendar d)) →
          ¬EveryMinute ((splitSpace schedule).getD 0 "")) := by
  rw [← checkSchedule_eq_valueError]
  unfold Checked
  cases h : checkSchedule schedule with
  | error e =>
    refine ⟨?_, fun hcond => ?_⟩
    · rintro ⟨message, rfl⟩
      exact ⟨fun heq => hostingError_ne_valueError _ (Except.error.inj heq),
        fun hok => by cases hok⟩
    · rcases raises_checkSchedule schedule e h with rfl | hreason
      · exact absurd rfl hcond.1
      · exact hreason
  | ok shown =>
    refine ⟨fun hnever => ⟨by simp, fun _ hday hevery => ?_⟩, fun hcond => ?_⟩
    · obtain ⟨d, hday⟩ := hday
      exact not_neverTooOften_of_everyMinute h hday hevery hnever
    · by_cases hevery : EveryMinute ((splitSpace schedule).getD 0 "")
      · -- the day fields name no day at all
        have hnone := fun hday => hcond.2 rfl hday hevery
        intro t _ _ hfires _
        exact absurd ⟨_, hfires.2.2⟩ hnone
      · exact neverTooOften_of_not_everyMinute calendar h hevery

example : checkSchedule "*/15 2 * * *" = .ok "*/15 2 * * *" := by decide +kernel

private theorem denotes_star {field : Field} {n : ℕ} (hlow : field.low ≤ n)
    (hhigh : n ≤ field.high) : field.Denotes "*" n := by
  have hforms : splitOn ',' "*" = ["*"] ∧ stepOf "*" = some 1 ∧ baseOf "*" = "*" := by
    decide +kernel
  refine ⟨"*", ?_, 1, hforms.2.1, .inl ⟨hforms.2.2, hlow, hhigh, one_dvd _⟩⟩
  rw [hforms.1]
  exact List.mem_cons_self

/-- **`0/1 * * * *` is accepted, and fires every minute of every hour; `² * * * *` raises
    `ValueError`.** -/
theorem not_checked_everyMinute : ¬Checked (fun d => ⟨d % 31 + 1, 1, d % 7⟩) "0/1 * * * *"
    ∧ ¬Checked (fun d => ⟨d % 31 + 1, 1, d % 7⟩) "² * * * *" := by
  constructor
  · have haccepted : checkSchedule "0/1 * * * *" = .ok "0/1 * * * *" := by decide +kernel
    have hparts : splitSpace "0/1 * * * *" = ["0/1", "*", "*", "*", "*"] := by decide +kernel
    have hday : OnDay "*" "*" "*" ⟨1, 1, 0⟩ := by
      refine ⟨denotes_star (by decide) (by decide), ?_⟩
      rw [if_pos (by decide +kernel)]
      exact ⟨denotes_star (by decide) (by decide), .inl (denotes_star (by decide) (by decide))⟩
    have hunit : EveryMinute "0/1" := by
      have hforms : splitOn ',' "0/1" = ["0/1"] ∧ '/' ∈ "0/1".toList ∧ stepOf "0/1" = some 1
          ∧ isDigitText (baseOf "0/1") = true ∧ parseNat (baseOf "0/1").toList = some 0 := by
        decide +kernel
      refine ⟨"0/1", ?_, 0, by decide, hforms.2⟩
      rw [hforms.1]
      exact List.mem_cons_self
    unfold Checked
    rw [haccepted]
    refine not_neverTooOften_of_everyMinute (d := 0) haccepted ?_ ?_
    · rw [hparts]
      exact hday
    · rw [hparts]
      exact hunit
  · have hraises : checkSchedule "² * * * *" = .error valueError := by decide +kernel
    unfold Checked
    rw [hraises]
    rintro ⟨message, h⟩
    exact hostingError_ne_valueError message h.symm

end WPanel.Hosting.Schedules
