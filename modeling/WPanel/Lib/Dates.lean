import WPanel.Lib.Calendar
import WPanel.Lib.Periods
import Mathlib.Algebra.Group.Action.Defs
import Mathlib.Algebra.Order.BigOperators.Group.List
import Mathlib.Algebra.Order.Group.Nat
import Mathlib.Order.Basic

namespace WPanel.Lib

/-!
# Days, months and years

The order of the dates, the steps `datetime` makes from one to another (`+ timedelta(days=…)`,
`replace(…)`), and the days, months and years they fall in as periods.

* `tomorrow`, `addDays`, `yesterday`, `subtractDays` — one day or some on, or back;
* `firstOfMonth`, `firstOfYear`, `replaceYear` — another day or year in a date;
* `days`, `months`, `years` — the periods; the step to the following month goes four days on from
  the 28th.
-/

/-! ### The order -/

/-- The months before a date and the days before it in its own, as one number. -/
def Date.key (d : Date) : ℕ := d.monthIndex * 31 + (d.day - 1)

/-- No month has more than 31 days. -/
theorem Date.day_le (d : Date) : 1 ≤ d.day ∧ d.day ≤ 31 :=
  ⟨d.day_valid.1, d.day_valid.2.trans (daysInMonth_le _ _)⟩

/-- A date is its month and its day. -/
theorem Date.eq_of_monthIndex_day {a b : Date} (hmonth : a.monthIndex = b.monthIndex)
    (hday : a.day = b.day) : a = b := by
  obtain ⟨hyear, hmonth⟩ := Date.eq_of_monthIndex hmonth
  cases a
  cases b
  simp_all

/-- So a date is its key. -/
theorem Date.key_injective : Function.Injective Date.key := by
  intro a b h
  have ha := a.day_le
  have hb := b.day_le
  unfold Date.key at h
  refine Date.eq_of_monthIndex_day ?_ ?_
  · omega
  · omega

/-- Earlier by year, then by month, then by day. -/
instance : LinearOrder Date := LinearOrder.lift' Date.key Date.key_injective

/-- Dates are compared by their keys. -/
theorem Date.le_iff {a b : Date} : a ≤ b ↔ a.key ≤ b.key := Iff.rfl

theorem Date.lt_iff {a b : Date} : a < b ↔ a.key < b.key := Iff.rfl

theorem Date.strictMono_key : StrictMono Date.key := fun _ _ h => h

/-- A later day is in no earlier month. -/
theorem Date.monthIndex_mono : Monotone Date.monthIndex := by
  intro a b h
  have ha := a.day_le
  have hb := b.day_le
  rw [Date.le_iff, Date.key, Date.key] at h
  omega

/-- Nor in an earlier year. -/
theorem Date.year_mono : Monotone Date.year := by
  intro a b h
  have hmonths := Date.monthIndex_mono h
  have ha := a.month_valid
  have hb := b.month_valid
  unfold Date.monthIndex at hmonths
  omega

/-! ### Other days -/

/-- The first of a month. -/
def firstOf (year month : ℕ) (h : 1 ≤ month ∧ month ≤ 12) : Date :=
  ⟨year, month, 1, h, Nat.le_refl 1, daysInMonth_pos _ _⟩

/-- The last of a month. -/
def lastOf (year month : ℕ) (h : 1 ≤ month ∧ month ≤ 12) : Date :=
  ⟨year, month, daysInMonth year month, h, daysInMonth_pos _ _, Nat.le_refl _⟩

private theorem january_valid : 1 ≤ 1 ∧ 1 ≤ 12 := by decide

private theorem december_valid : 1 ≤ 12 ∧ 12 ≤ 12 := by decide

/-- `replace(day=1)`. -/
def Date.firstOfMonth (d : Date) : Date := firstOf d.year d.month d.month_valid

/-- `replace(month=1, day=1)`. -/
def Date.firstOfYear (d : Date) : Date := firstOf d.year 1 january_valid

/-- `replace(day=day)`, for a day that every month has. -/
def Date.onDay (d : Date) (day : ℕ) (h : 1 ≤ day ∧ day ≤ 28) : Date :=
  ⟨d.year, d.month, day, d.month_valid, h.1, h.2.trans (twenty_eight_le_daysInMonth _ _)⟩

/-- `replace(year=year)`: there may be no such day in that year, or no such year. -/
def Date.replaceYear (d : Date) (year : ℕ) : Option Date :=
  if h : (1 ≤ year ∧ year ≤ maxYear) ∧ d.day ≤ daysInMonth year d.month then
    some ⟨year, d.month, d.day, d.month_valid, d.day_valid.1, h.2⟩
  else none

private theorem succ_month_valid {d : Date} (h : d.month < 12) :
    1 ≤ d.month + 1 ∧ d.month + 1 ≤ 12 := ⟨Nat.succ_pos _, h⟩

private theorem pred_month_valid {d : Date} (h : 1 < d.month) :
    1 ≤ d.month - 1 ∧ d.month - 1 ≤ 12 := by
  have hmonth := d.month_valid
  omega

private theorem pred_day_valid {d : Date} (h : 1 < d.day) :
    1 ≤ d.day - 1 ∧ d.day - 1 ≤ daysInMonth d.year d.month := by
  have hday := d.day_valid
  omega

/-- `+ timedelta(days=1)`. -/
def Date.tomorrow (d : Date) : Option Date :=
  if h : d.day < daysInMonth d.year d.month then
    some ⟨d.year, d.month, d.day + 1, d.month_valid, Nat.succ_pos _, h⟩
  else if h : d.month < 12 then some (firstOf d.year (d.month + 1) (succ_month_valid h))
  else if d.year < maxYear then some (firstOf (d.year + 1) 1 january_valid)
  else none

/-- `- timedelta(days=1)`. -/
def Date.yesterday (d : Date) : Option Date :=
  if h : 1 < d.day then some ⟨d.year, d.month, d.day - 1, d.month_valid, pred_day_valid h⟩
  else if h : 1 < d.month then some (lastOf d.year (d.month - 1) (pred_month_valid h))
  else if 1 < d.year then some (lastOf (d.year - 1) 12 december_valid)
  else none

/-- `+ timedelta(days=…)`. -/
def Date.addDays : ℕ → Date → Option Date
  | 0, d => some d
  | n + 1, d => d.tomorrow.bind (Date.addDays n)

/-- `- timedelta(days=…)`. -/
def Date.subtractDays : ℕ → Date → Option Date
  | 0, d => some d
  | n + 1, d => d.yesterday.bind (Date.subtractDays n)

/-! ### What the steps lead to -/

section

variable {d d' : Date}

/-- **The next day is in the same month, or the first of the following one.** -/
theorem Date.tomorrow_spec (h : d.tomorrow = some d') :
    d'.monthIndex = d.monthIndex ∧ d'.day = d.day + 1
    ∨ d.day = daysInMonth d.year d.month ∧ d'.monthIndex = d.monthIndex + 1 ∧ d'.day = 1 := by
  have hday := d.day_valid
  have hmonth := d.month_valid
  unfold Date.tomorrow at h
  split at h
  · obtain rfl := Option.some.inj h
    exact .inl ⟨rfl, rfl⟩
  · split at h
    · obtain rfl := Option.some.inj h
      refine .inr ⟨by omega, ?_, rfl⟩
      simp only [Date.monthIndex, firstOf]
      omega
    · split at h
      · obtain rfl := Option.some.inj h
        refine .inr ⟨by omega, ?_, rfl⟩
        simp only [Date.monthIndex, firstOf]
        omega
      · cases h

/-- There is a next day before the last month of all. -/
theorem Date.isSome_tomorrow (h : d.monthIndex + 1 < 12 * (maxYear + 1)) :
    d.tomorrow.isSome := by
  have hmonth := d.month_valid
  unfold Date.tomorrow
  split
  · rfl
  · split
    · rfl
    · split
      · rfl
      · exfalso
        unfold Date.monthIndex at h
        omega

/-- So many days on there is a day, unless the months may run out. -/
theorem Date.isSome_addDays {n : ℕ} (h : d.monthIndex + n + 1 < 12 * (maxYear + 1)) :
    (Date.addDays n d).isSome := by
  induction n generalizing d with
  | zero => rfl
  | succ n ih =>
    have hmonth : d.monthIndex + 1 < 12 * (maxYear + 1) := by omega
    obtain ⟨d', hd'⟩ := Option.isSome_iff_exists.mp (Date.isSome_tomorrow hmonth)
    rw [Date.addDays, hd', Option.bind_some]
    refine ih ?_
    rcases Date.tomorrow_spec hd' with ⟨hsame, -⟩ | ⟨-, hnext, -⟩
    · omega
    · omega

/-- **Four days on from the 28th is a day of the following month.** -/
theorem Date.monthIndex_addDays_four {h28 : 1 ≤ 28 ∧ 28 ≤ 28}
    (h : Date.addDays 4 (d.onDay 28 h28) = some d') : d'.monthIndex = d.monthIndex + 1 := by
  simp only [Date.addDays, Option.bind_eq_some_iff, Option.some.injEq] at h
  obtain ⟨first, hfirst, second, hsecond, third, hthird, fourth, hfourth, rfl⟩ := h
  have hstart : (d.onDay 28 h28).monthIndex = d.monthIndex ∧ (d.onDay 28 h28).day = 28 :=
    ⟨rfl, rfl⟩
  have hdays := first.day_le
  have hdays' := second.day_le
  have hdays'' := third.day_le
  have hdays''' := fourth.day_le
  have hlong := twenty_eight_le_daysInMonth first.year first.month
  have hlong' := twenty_eight_le_daysInMonth second.year second.month
  have hlong'' := twenty_eight_le_daysInMonth third.year third.month
  -- one of the four steps, and no second one, is past the end of a month
  have h1 := Date.tomorrow_spec hfirst
  have h2 := Date.tomorrow_spec hsecond
  have h3 := Date.tomorrow_spec hthird
  have h4 := Date.tomorrow_spec hfourth
  omega

/-- The first of a month has the least key in it. -/
theorem Date.key_firstOfMonth (d : Date) : d.firstOfMonth.key = d.monthIndex * 31 := rfl

theorem Date.key_firstOfYear (d : Date) : d.firstOfYear.key = d.year * 12 * 31 := rfl

end

/-! ### The periods -/

private theorem twenty_eight_valid : 1 ≤ 28 ∧ 28 ≤ 28 := by decide

/-- The first of the following month: `(d.replace(day=28) + timedelta(days=4)).replace(day=1)`. -/
def Date.followingMonth (d : Date) : Option Date :=
  (Date.addDays 4 (d.onDay 28 twenty_eight_valid)).map Date.firstOfMonth

/-- The first of the next month is what its name says. -/
theorem Date.followingMonth_spec {d d' : Date} (h : d.followingMonth = some d') :
    d'.firstOfMonth = d' ∧ d'.monthIndex = d.monthIndex + 1 := by
  obtain ⟨later, hlater, rfl⟩ := Option.map_eq_some_iff.mp h
  exact ⟨rfl, (Date.monthIndex_addDays_four hlater : later.monthIndex = _)⟩

/-- Every month but those of the last year has a next one. -/
theorem Date.isSome_followingMonth {d : Date} (h : d.monthIndex < 12 * maxYear) :
    d.followingMonth.isSome := by
  have hlater : (d.onDay 28 twenty_eight_valid).monthIndex + 4 + 1 < 12 * (maxYear + 1) := by
    show d.monthIndex + 4 + 1 < 12 * (maxYear + 1)
    omega
  rw [Date.followingMonth, Option.isSome_map]
  exact Date.isSome_addDays hlater

/-- The first of January is in every year there is. -/
theorem Date.isSome_replaceYear {d : Date} {year : ℕ} (hfirst : d.firstOfYear = d)
    (hpos : 1 ≤ year) : (d.replaceYear year).isSome ↔ year ≤ maxYear := by
  have hday : d.day ≤ daysInMonth year d.month := by
    rw [← hfirst]
    exact daysInMonth_pos _ _
  unfold Date.replaceYear
  split
  · next h => exact iff_of_true rfl h.1.2
  · next h => exact iff_of_false Bool.false_ne_true fun hyear => h ⟨⟨hpos, hyear⟩, hday⟩

/-- No day is between a day and the next. -/
private theorem tomorrow_isLeast {first following : Date} (_ : id first = first)
    (h : first.tomorrow = some following) :
    IsLeast {x | id x = x ∧ first < x} following := by
  have hday := first.day_le
  rcases Date.tomorrow_spec h with ⟨hmonth, hnext⟩ | ⟨hlast, hmonth, hnext⟩
  · constructor
    · refine ⟨rfl, ?_⟩
      rw [Date.lt_iff, Date.key, Date.key]
      omega
    · rintro x ⟨-, hlt⟩
      have hx := x.day_le
      rw [Date.lt_iff, Date.key, Date.key] at hlt
      rw [Date.le_iff, Date.key, Date.key]
      omega
  · constructor
    · refine ⟨rfl, ?_⟩
      rw [Date.lt_iff, Date.key, Date.key]
      omega
    · rintro x ⟨-, hlt⟩
      have hx := x.day_le
      rw [Date.lt_iff, Date.key, Date.key] at hlt
      rw [Date.le_iff, Date.key, Date.key]
      -- a later day of the same month would be past its last
      by_cases hsame : x.monthIndex = first.monthIndex
      · obtain ⟨hyear, hmonth'⟩ := Date.eq_of_monthIndex hsame
        have hvalid := x.day_valid.2
        rw [hyear, hmonth'] at hvalid
        omega
      · omega

private theorem firstOfMonth_le (d : Date) : d.firstOfMonth ≤ d := by
  rw [Date.le_iff, Date.key_firstOfMonth, Date.key]
  omega

private theorem firstOfMonth_mono : Monotone Date.firstOfMonth := by
  intro a b h
  have hmonths := Date.monthIndex_mono h
  rw [Date.le_iff, Date.key_firstOfMonth, Date.key_firstOfMonth]
  omega

/-- No first of a month is between this one and the next. -/
private theorem followingMonth_isLeast {first following : Date}
    (hfirst : first.firstOfMonth = first) (h : first.followingMonth = some following) :
    IsLeast {x | x.firstOfMonth = x ∧ first < x} following := by
  obtain ⟨hstart, hmonth⟩ := Date.followingMonth_spec h
  have hkey := Date.key_firstOfMonth first
  have hkey' := Date.key_firstOfMonth following
  rw [hfirst] at hkey
  rw [hstart] at hkey'
  constructor
  · refine ⟨hstart, ?_⟩
    rw [Date.lt_iff]
    omega
  · rintro x ⟨hx, hlt⟩
    have hkeyx := Date.key_firstOfMonth x
    rw [hx] at hkeyx
    rw [Date.lt_iff] at hlt
    rw [Date.le_iff]
    omega

private theorem firstOfYear_le (d : Date) : d.firstOfYear ≤ d := by
  rw [Date.le_iff, Date.key_firstOfYear, Date.key, Date.monthIndex]
  omega

private theorem firstOfYear_mono : Monotone Date.firstOfYear := by
  intro a b h
  have hyears := Date.year_mono h
  rw [Date.le_iff, Date.key_firstOfYear, Date.key_firstOfYear]
  omega

/-- No first of a year is between this one and the next. -/
private theorem followingYear_isLeast {first following : Date}
    (hfirst : first.firstOfYear = first)
    (h : first.replaceYear (first.year + 1) = some following) :
    IsLeast {x | x.firstOfYear = x ∧ first < x} following := by
  unfold Date.replaceYear at h
  split at h
  · obtain rfl := Option.some.inj h
    have hkey := Date.key_firstOfYear first
    rw [hfirst] at hkey
    have hday : first.day = 1 := by rw [← hfirst]; rfl
    have hmonth : first.month = 1 := by rw [← hfirst]; rfl
    constructor
    · refine ⟨?_, ?_⟩
      · refine Date.eq_of_monthIndex_day ?_ hday.symm
        simp only [Date.monthIndex, Date.firstOfYear, firstOf, hmonth]
      · rw [Date.lt_iff]
        simp only [Date.key, Date.monthIndex]
        omega
    · rintro x ⟨hx, hlt⟩
      have hkeyx := Date.key_firstOfYear x
      rw [hx] at hkeyx
      rw [Date.lt_iff] at hlt
      rw [Date.le_iff]
      simp only [Date.key, Date.monthIndex, hmonth, hday] at hkeyx hlt ⊢
      omega
  · cases h

/-- Every day by itself. -/
def days : Periods Date where
  start := id
  next := Date.tomorrow
  start_le := fun _ => le_refl _
  start_mono := monotone_id
  start_start := fun _ => rfl
  next_start := tomorrow_isLeast

/-- The months, by their first days. -/
def months : Periods Date where
  start := Date.firstOfMonth
  next := Date.followingMonth
  start_le := firstOfMonth_le
  start_mono := firstOfMonth_mono
  start_start := fun _ => rfl
  next_start := followingMonth_isLeast

/-- The years, by their first days. -/
def years : Periods Date where
  start := Date.firstOfYear
  next := fun d => d.replaceYear (d.year + 1)
  start_le := firstOfYear_le
  start_mono := firstOfYear_mono
  start_start := fun _ => rfl
  next_start := followingYear_isLeast

/-! ### How many days a month takes -/

/-- The months before one have at most 31 days each. -/
private theorem daysBeforeMonth_le (year month : ℕ) :
    daysBeforeMonth year month ≤ (month - 1) * 31 := by
  unfold daysBeforeMonth
  refine (List.sum_le_card_nsmul _ 31 ?_).trans ?_
  · intro n hn
    obtain ⟨i, -, rfl⟩ := List.mem_map.mp hn
    exact daysInMonth_le _ _
  · rw [List.length_map, List.length_range, smul_eq_mul]

/-- **Ten years are at most twelve of the calendar.** -/
theorem Date.monthIndex_le_of_toOrdinal {a b : Date} (h : b.toOrdinal ≤ a.toOrdinal + 3660) :
    b.monthIndex ≤ a.monthIndex + 155 := by
  have ha := a.day_le
  have hb := b.day_le
  have hmonth := a.month_valid
  have hmonth' := b.month_valid
  have hbefore := daysBeforeMonth_le a.year a.month
  unfold Date.toOrdinal daysBeforeYear at h
  unfold Date.monthIndex
  dsimp only at h
  omega

end WPanel.Lib
