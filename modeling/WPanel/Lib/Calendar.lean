import Mathlib.Algebra.GroupWithZero.Nat

namespace WPanel.Lib

/-!
# Dates and moments

Calendar dates of the proleptic Gregorian calendar, moments (a date and a time of day in
one fixed zone), the count of days between them, and the step by whole months that keeps
the day of the month where it can.
-/

def isLeap (year : Nat) : Bool := year % 4 = 0 && (year % 100 ≠ 0 || year % 400 = 0)

/-- `calendar.monthrange(year, month)[1]`. -/
def daysInMonth (year month : Nat) : Nat :=
  if month = 2 then (if isLeap year then 29 else 28)
  else if month = 4 ∨ month = 6 ∨ month = 9 ∨ month = 11 then 30
  else 31

theorem daysInMonth_pos (year month : Nat) : 1 ≤ daysInMonth year month := by
  unfold daysInMonth
  split
  · split <;> omega
  · split <;> omega

/-- The last year a date can have. -/
def maxYear : Nat := 9999

/-- A calendar date. -/
structure Date where
  year : Nat
  month : Nat
  day : Nat
  month_valid : 1 ≤ month ∧ month ≤ 12
  day_valid : 1 ≤ day ∧ day ≤ daysInMonth year month
  deriving DecidableEq, Repr

/-- The days of the years before `year`. -/
def daysBeforeYear (year : Nat) : Nat :=
  let y := year - 1
  y * 365 + y / 4 - y / 100 + y / 400

/-- The days of `year` before `month`. -/
def daysBeforeMonth (year month : Nat) : Nat :=
  ((List.range (month - 1)).map fun i => daysInMonth year (i + 1)).sum

/-- `date.toordinal()`: January 1 of year 1 is day 1. -/
def Date.toOrdinal (d : Date) : Nat :=
  daysBeforeYear d.year + daysBeforeMonth d.year d.month + d.day

/-- A date and a time of day in microseconds. -/
structure Moment where
  date : Date
  micros : Nat
  deriving DecidableEq, Repr

def microsPerSecond : Nat := 1000000

def microsPerDay : Nat := 86400 * microsPerSecond

/-- Microseconds on one time line. -/
def Moment.instant (m : Moment) : Nat := m.date.toOrdinal * microsPerDay + m.micros

instance : LT Moment := ⟨fun a b => a.instant < b.instant⟩

instance (a b : Moment) : Decidable (a < b) := inferInstanceAs (Decidable (a.instant < b.instant))

/-- `moment` moved forward `months` calendar months; a day that doesn't exist becomes the
    month's last day.  There is no date past year 9999. -/
def addMonths (moment : Moment) (months : Nat) : Option Moment :=
  let total := moment.date.month - 1 + months
  let year := moment.date.year + total / 12
  let month := total % 12 + 1
  if year ≤ maxYear then
    some { moment with date := {
      year, month, day := min moment.date.day (daysInMonth year month)
      month_valid := by omega
      day_valid := ⟨by have := moment.date.day_valid.1; have := daysInMonth_pos year month; omega,
        Nat.min_le_right _ _⟩ } }
  else none

/-! ### Stepping by months more than once -/

/-- The months before `d`, counted from the start of year 0. -/
def Date.monthIndex (d : Date) : Nat := d.year * 12 + (d.month - 1)

/-- The moments of one month at one time of day differ in their day only. -/
structure Moment.SameMonth (a b : Moment) : Prop where
  year : a.date.year = b.date.year
  month : a.date.month = b.date.month
  micros : a.micros = b.micros

/-- The number of months fixes the year and the month. -/
theorem Date.eq_of_monthIndex {d d' : Date} (h : d.monthIndex = d'.monthIndex) :
    d.year = d'.year ∧ d.month = d'.month := by
  have hmonth := d.month_valid
  have hmonth' := d'.month_valid
  unfold Date.monthIndex at h
  omega

theorem twenty_eight_le_daysInMonth (year month : Nat) : 28 ≤ daysInMonth year month := by
  unfold daysInMonth
  split
  · split <;> omega
  · split <;> omega

theorem daysInMonth_le (year month : Nat) : daysInMonth year month ≤ 31 := by
  unfold daysInMonth
  split
  · split <;> omega
  · split <;> omega

/-- When the step succeeds. -/
theorem addMonths_isSome (moment : Moment) (months : Nat) :
    (addMonths moment months).isSome ↔ (moment.date.monthIndex + months) / 12 ≤ maxYear := by
  have hyear : (moment.date.monthIndex + months) / 12
      = moment.date.year + (moment.date.month - 1 + months) / 12 := by
    unfold Date.monthIndex
    omega
  rw [hyear]
  unfold addMonths
  dsimp only
  split
  · next h => simpa using h
  · next h => simpa using h

/-- What the step leads to. -/
theorem addMonths_spec {moment moment' : Moment} {months : Nat}
    (h : addMonths moment months = some moment') :
    moment'.date.monthIndex = moment.date.monthIndex + months
      ∧ moment'.micros = moment.micros
      ∧ moment'.date.day
        = min moment.date.day (daysInMonth moment'.date.year moment'.date.month) := by
  unfold addMonths at h
  dsimp only at h
  split at h
  · obtain rfl := Option.some.inj h
    refine ⟨?_, rfl, rfl⟩
    show (moment.date.year + (moment.date.month - 1 + months) / 12) * 12
      + ((moment.date.month - 1 + months) % 12 + 1 - 1) = _
    unfold Date.monthIndex
    omega
  · cases h

/-- These months added one after the other. -/
def addAll (moment : Moment) (months : List Nat) : Option Moment := months.foldlM addMonths moment

/-- A chain of steps fails where one step by their sum does. -/
theorem addAll_isSome {moment : Moment} (hyear : moment.date.year ≤ maxYear) (months : List Nat) :
    (addAll moment months).isSome ↔ (moment.date.monthIndex + months.sum) / 12 ≤ maxYear := by
  unfold addAll
  induction months generalizing moment with
  | nil =>
    have hmonth := moment.date.month_valid
    simp only [List.foldlM_nil, List.sum_nil, Date.monthIndex]
    constructor
    · intro _
      omega
    · intro _
      rfl
  | cons k rest ih =>
    rw [List.foldlM_cons, List.sum_cons]
    have hstep := addMonths_isSome moment k
    cases hk : addMonths moment k with
    | none =>
      -- a step past the last year is not undone by the later ones
      rw [hk] at hstep
      simp only [Option.isSome_none, Bool.false_eq_true, false_iff, Nat.not_le] at hstep
      constructor
      · intro h
        cases h
      · intro h
        omega
    | some next =>
      rw [hk] at hstep
      obtain ⟨hindex, -, -⟩ := addMonths_spec hk
      have hnext : next.date.year ≤ maxYear := by
        have hmonth := next.date.month_valid
        have hle := hstep.mp rfl
        rw [← hindex] at hle
        unfold Date.monthIndex at hle
        omega
      have hrest := ih hnext
      rw [hindex, Nat.add_assoc] at hrest
      exact hrest

/-- **Where a chain leads.** The day only shrinks on the way, and never below the 28th, which
    every month has. -/
theorem addAll_spec {moment moment' : Moment} {months : List Nat}
    (h : addAll moment months = some moment') :
    moment'.date.monthIndex = moment.date.monthIndex + months.sum
      ∧ moment'.micros = moment.micros
      ∧ moment'.date.day ≤ moment.date.day
      ∧ min moment.date.day 28 ≤ moment'.date.day := by
  unfold addAll at h
  induction months generalizing moment with
  | nil =>
    rw [List.foldlM_nil] at h
    obtain rfl := Option.some.inj h
    exact ⟨rfl, rfl, Nat.le_refl _, Nat.min_le_left _ _⟩
  | cons k rest ih =>
    rw [List.foldlM_cons] at h
    cases hk : addMonths moment k with
    | none =>
      rw [hk] at h
      cases h
    | some next =>
      rw [hk] at h
      obtain ⟨hindex, hmicros, hday⟩ := addMonths_spec hk
      obtain ⟨hindex', hmicros', hshrinks, hfloor⟩ := ih h
      have hmonth := twenty_eight_le_daysInMonth next.date.year next.date.month
      refine ⟨?_, hmicros'.trans hmicros, ?_, ?_⟩
      · rw [hindex', hindex, List.sum_cons, Nat.add_assoc]
      · omega
      · omega

end WPanel.Lib
