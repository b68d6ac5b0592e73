import WPanel.Billing.Models
import WPanel.Lib.Dates
import WPanel.Lib.Grouping
import Mathlib.Data.Set.Card
import Mathlib.Data.String.Basic

namespace WPanel.Reports

open WPanel.Lib
open WPanel.Billing (TransactionType TransactionStatus)

/-!
# The income report and the monthly summary

What two of the reports show of the money that came in (`reports/definitions.py` and
`reports/builders.py`): the income by day, month or year, and the summary with one line for each
month.

* `parseParams` — the range of days and the grouping a report takes;
* `income`, `monthlySummary` — the two reports;
* `Tells` — a report's total is the net income of its days, and every payment and refund of them is
  in one of its rows;
* `Tidy` — the years stay below the last one, the days of the first and the last month that are
  outside the range net nothing, and no row with a payment or refund is beyond `MAX_ROWS`;
* `tells_iff` — both reports tell the income of exactly such ranges, however they are grouped.
-/

/-! ### What a report takes -/

def MAX_ROWS : ℕ := 50000

def MAX_DAYS : ℤ := 3660

def MAX_DAILY_DAYS : ℤ := 731

inductive Group where
  | day
  | month
  | year
  deriving DecidableEq, Repr

/-- `GROUPS`: as they are asked for, and as they are shown. -/
def GROUPS : List (String × Group × String) :=
  [("day", .day, "Day"), ("month", .month, "Month"), ("year", .year, "Year")]

structure ReportDef where
  slug : String
  title : String
  group : String
  description : String
  permissions : List String
  uses : List String

structure Params where
  start : Date
  last : Date
  group : Group := .day
  deriving DecidableEq

/-- A date as it reaches a report: not at all, as a date, or as text. -/
inductive DateField where
  | missing
  | date (value : Date)
  | text (value : String)

/-- What a report is asked for. -/
structure Data where
  start : DateField := .missing
  last : DateField := .missing
  group : String := ""

/-- `OverflowError` or `ValueError`: there is no such date. -/
def outOfRange : Err := .unexpected "date value out of range"

/-- A date that a step led to. -/
def reached (date : Option Date) : Except Err Date := date.elim (.error outOfRange) .ok

/-- `(last - start).days`. -/
def daysBetween (start last : Date) : ℤ := (last.toOrdinal : ℤ) - start.toOrdinal

section

variable (fromisoformat : String → Option Date)

/-- `_date`. -/
def dateOf (value : DateField) (label : String) : Except Err (Option Date) :=
  match value with
  | .missing => .ok none
  | .date value => .ok (some value)
  | .text value =>
    if value = "" then .ok none
    else match fromisoformat (strip value) with
      | some value => .ok (some value)
      | none => .error (.validation (label ++ " must be a date like 2026-09-25."))

/-- The range of `parse_params`. -/
def parseRange (data : Data) (today : Date) : Except Err (Date × Date) := do
  let last := (← dateOf fromisoformat data.last "The end date").getD today
  let start ← (← dateOf fromisoformat data.start "The start date").elim
    (reached (last.subtractDays 29)) pure
  ensure (start ≤ last) (.validation "The start date must not be after the end date.")
  ensure (daysBetween start last + 1 ≤ MAX_DAYS)
    (.validation "Choose a range of at most 10 years.")
  pure (start, last)

/-- The grouping that is asked for, if there is such a one. -/
def groupAsked (asked : String) : Option Group :=
  (GROUPS.find? (·.1 = lower (strip (if asked = "" then "day" else asked)))).map (·.2.1)

/-- The grouping of `parse_params`. -/
def parseGroup (data : Data) (start last : Date) : Except Err Group := do
  let group ← (groupAsked data.group).elim (.error (.validation "Group by day, month or year.")) .ok
  ensure (group = .day → daysBetween start last + 1 ≤ MAX_DAILY_DAYS)
    (.validation ("A day-by-day report covers at most two years; group by month or year "
      ++ "instead."))
  pure group

/-- The range of a report: the last thirty days where it takes none. -/
def rangeFor (definition : ReportDef) (data : Data) (today earlier : Date) :
    Except Err (Date × Date) :=
  if "range" ∈ definition.uses then parseRange fromisoformat data today else pure (earlier, today)

/-- The grouping of a report: by day where it takes none. -/
def groupFor (definition : ReportDef) (data : Data) (range : Date × Date) : Except Err Group :=
  if "group" ∈ definition.uses then parseGroup data range.1 range.2 else pure .day

/-- `parse_params`, for a report that takes neither a number of days nor a scope. -/
def parseParams (definition : ReportDef) (data : Data) (today : Date) : Except Err Params := do
  let earlier ← reached (today.subtractDays 29)
  let range ← rangeFor fromisoformat definition data today earlier
  let group ← groupFor definition data range
  pure { start := range.1, last := range.2, group }

end

/-! ### What a report gives -/

structure Column where
  key : String
  label : String
  kind : String := "text"

/-- A headline figure; money is in cents. -/
structure Figure where
  label : String
  kind : String
  value : ℤ
  deriving DecidableEq, Repr

structure Result (ρ : Type) where
  title : String
  columns : List Column
  rows : List ρ
  summary : List Figure
  notes : List String
  params : List (String × String)
  truncated : Bool

/-- `isoformat()`. -/
def isoformat (d : Date) : String :=
  zeroPad 4 d.year ++ "-" ++ zeroPad 2 d.month ++ "-" ++ zeroPad 2 d.day

/-- `dict(GROUPS)[group]`. -/
def groupTitle : Group → String
  | .day => "Day"
  | .month => "Month"
  | .year => "Year"

/-- `describe`. -/
def describe (definition : ReportDef) (params : Params) : List (String × String) :=
  (if "range" ∈ definition.uses then
    [("From", isoformat params.start), ("To", isoformat params.last)] else [])
  ++ (if "group" ∈ definition.uses then [("Grouped by", groupTitle params.group)] else [])

/-- `_result`: a report never holds more than `MAX_ROWS` rows. -/
def result {ρ : Type} (definition : ReportDef) (params : Params) (columns : List Column)
    (rows : List ρ) (summary : List Figure) (notes : List String) : Result ρ where
  title := definition.title
  columns := columns
  rows := rows.take MAX_ROWS
  summary := summary
  notes := notes ++ if MAX_ROWS < rows.length then
    ["Only the first 50,000 rows are included. Narrow the dates to see the rest."] else []
  params := describe definition params
  truncated := MAX_ROWS < rows.length

/-! ### Periods -/

/-- `_period`: the start date of the period a date falls in. -/
def period (group : Group) (value : Date) : Date :=
  match group with
  | .month => value.firstOfMonth
  | .year => value.firstOfYear
  | .day => value

/-- The start of the period after one. -/
def following (group : Group) (current : Date) : Option Date :=
  match group with
  | .day => current.tomorrow
  | .month => current.followingMonth
  | .year => current.replaceYear (current.year + 1)

/-- `_periods`: every period from `start` to `last`. -/
def periodsOf (group : Group) (start last : Date) : Except Err (List Date) :=
  (enumerate (following group) last (last.key + 1 - (period group start).key)
    (period group start)).elim (.error outOfRange) .ok

/-- `_label`. -/
def label (group : Group) (value : Date) : String :=
  match group with
  | .month => zeroPad 4 value.year ++ "-" ++ zeroPad 2 value.month
  | .year => toString value.year
  | .day => isoformat value

/-! ### The site's records -/

/-- The site's time zone: the local day of every moment, and the first moment of every local day,
    which is `make_aware` of its midnight. -/
structure Zone (μ : Type) [LinearOrder μ] where
  localDay : μ → Date
  midnight : Date → μ
  midnight_le_iff : ∀ day moment, midnight day ≤ moment ↔ day ≤ localDay moment

/-- What a report reads of a transaction; the amount is in cents. -/
structure Transaction (μ : Type) where
  type : TransactionType
  status : TransactionStatus
  amount : ℕ
  currency : String
  occurredAt : μ
  amount_pos : 0 < amount

/-- What the reports read: the transactions, when the clients signed up, and when the cancellations
    that are completed were. -/
structure Records (μ : Type) where
  transactions : List (Transaction μ)
  joined : List μ
  cancelled : List μ

section

variable {μ : Type} [LinearOrder μ] (zone : Zone μ) (store : String)

/-- The range of a report, in moments: the second is the moment after its last day. -/
def bounds (params : Params) : Except Err (μ × μ) := do
  let after ← reached params.last.tomorrow
  pure (zone.midnight params.start, zone.midnight after)

/-- The amounts of the transactions of a type, together. -/
def summed (type : TransactionType) (transactions : List (Transaction μ)) : ℤ :=
  ((transactions.filter (·.type = type)).map fun t => (t.amount : ℤ)).sum

/-- The transactions that succeeded from one moment up to another. -/
def succeeded (startAt endAt : μ) (transactions : List (Transaction μ)) : List (Transaction μ) :=
  transactions.filter fun t => t.status = .succeeded ∧ startAt ≤ t.occurredAt ∧ t.occurredAt < endAt

/-! ### Income -/

structure IncomeRow where
  period : String
  currency : String
  payments : ℕ
  paid : ℤ
  refunded : ℤ
  net : ℤ
  deriving DecidableEq, Repr

/-- The transactions of one period in one currency. -/
def grouped (group : Group) (those : List (Transaction μ)) (start : Date) (currency : String) :
    List (Transaction μ) :=
  those.filter fun t => period group (zone.localDay t.occurredAt) = start ∧ t.currency = currency

def incomeRow (group : Group) (those : List (Transaction μ)) (start : Date) (currency : String) :
    IncomeRow :=
  let data := grouped zone group those start currency
  let paid := summed .payment data
  let refunded := summed .refund data
  { period := label group start, currency, payments := (data.filter (·.type = .payment)).length,
    paid, refunded, net := paid - refunded }

/-- `sorted(…)` of the currencies, with the store's. -/
def currenciesOf (those : List (Transaction μ)) : List String :=
  (store :: those.map (·.currency)).dedup.insertionSort (· ≤ ·)

/-- The rows: the store's currency has one in every period, any other where there is something. -/
def incomeRows (group : Group) (those : List (Transaction μ)) (starts : List Date) :
    List IncomeRow :=
  starts.flatMap fun start => (currenciesOf store those).filterMap fun currency =>
    if (grouped zone group those start currency).isEmpty = true ∧ currency ≠ store then none
    else some (incomeRow zone group those start currency)

/-- The totals of a currency over all rows. -/
def currencyFigures (rows : List IncomeRow) (currencies : List String) (currency : String) :
    List Figure :=
  let tag := if 1 < currencies.length then " (" ++ currency ++ ")" else ""
  let paid := ((rows.filter (·.currency = currency)).map (·.paid)).sum
  let refunded := ((rows.filter (·.currency = currency)).map (·.refunded)).sum
  [⟨"Received" ++ tag, "money", paid⟩, ⟨"Refunded" ++ tag, "money", refunded⟩,
    ⟨"Net income" ++ tag, "money", paid - refunded⟩]

def incomeDef : ReportDef where
  slug := "income"
  title := "Income"
  group := "financial"
  description :=
    "Money received and refunded, by day, month or year (daily, monthly and annual income)."
  permissions := ["view_billing"]
  uses := ["range", "group"]

def incomeColumns : List Column :=
  [{ key := "period", label := "Period" }, { key := "currency", label := "Currency" },
    { key := "payments", label := "Payments", kind := "int" },
    { key := "paid", label := "Received", kind := "money" },
    { key := "refunded", label := "Refunded", kind := "money" },
    { key := "net", label := "Net", kind := "money" }]

/-- The income report of what succeeded, by these periods. -/
def incomeResult (params : Params) (those : List (Transaction μ)) (starts : List Date) :
    Result IncomeRow :=
  let rows := incomeRows zone store params.group those starts
  let currencies := currenciesOf store those
  result incomeDef params incomeColumns rows
    (currencies.flatMap (currencyFigures rows currencies))
    ["Counted from successful payments and refunds on the day they happened, including tax."]

/-- `income`. -/
def income (params : Params) (transactions : List (Transaction μ)) :
    Except Err (Result IncomeRow) := do
  let (startAt, endAt) ← bounds zone params
  let starts ← periodsOf params.group params.start params.last
  pure (incomeResult zone store params (succeeded startAt endAt transactions) starts)

/-! ### The monthly summary -/

structure MonthRow where
  month : String
  income : ℤ
  new : ℕ
  cancelled : ℕ
  net : ℤ
  deriving DecidableEq, Repr

/-- `_net_income_between`. -/
def netIncomeBetween (transactions : List (Transaction μ)) (startAt endAt : μ) : ℤ :=
  let ok := (succeeded startAt endAt transactions).filter (·.currency = store)
  summed .payment ok - summed .refund ok

/-- How many of the moments are in the range and in a month. -/
def countIn (startAt endAt : μ) (month : Date) (moments : List μ) : ℕ :=
  (moments.filter fun m => startAt ≤ m ∧ m < endAt
    ∧ period .month (zone.localDay m) = month).length

def monthRow (startAt endAt : μ) (records : Records μ) (month : Date) : Except Err MonthRow := do
  let after ← reached month.followingMonth
  let income :=
    netIncomeBetween store records.transactions (zone.midnight month) (zone.midnight after)
  let new := countIn zone startAt endAt month records.joined
  let gone := countIn zone startAt endAt month records.cancelled
  pure { month := label .month month, income, new, cancelled := gone, net := (new : ℤ) - gone }

def monthlySummaryDef : ReportDef where
  slug := "monthly-summary"
  title := "Monthly summary"
  group := "financial"
  description := "Each month in one line: income, new customers, cancellations and what is left "
    ++ "(growth minus churn)."
  permissions := ["view_billing", "view_clients"]
  uses := ["range"]

def monthColumns : List Column :=
  [{ key := "month", label := "Month" }, { key := "income", label := "Income", kind := "money" },
    { key := "new", label := "New customers", kind := "int" },
    { key := "cancelled", label := "Cancellations", kind := "int" },
    { key := "net", label := "Net customers", kind := "int" }]

/-- The totals over all months. -/
def monthFigures (rows : List MonthRow) : List Figure :=
  let new := (rows.map fun row => (row.new : ℤ)).sum
  let gone := (rows.map fun row => (row.cancelled : ℤ)).sum
  [⟨"Income", "money", (rows.map (·.income)).sum⟩, ⟨"New customers", "int", new⟩,
    ⟨"Cancellations", "int", gone⟩, ⟨"Net customers", "int", new - gone⟩]

/-- The monthly summary with these rows. -/
def summaryResult (params : Params) (rows : List MonthRow) : Result MonthRow :=
  result monthlySummaryDef params monthColumns rows (monthFigures rows)
    [("Cancellations are the ones carried out through the portal; an account ended by hand does "
      ++ "not appear.")]

/-- `monthly_summary`. -/
def monthlySummary (params : Params) (records : Records μ) : Except Err (Result MonthRow) := do
  let (startAt, endAt) ← bounds zone params
  let starts ← periodsOf .month params.start params.last
  let rows ← starts.mapM (monthRow zone store startAt endAt records)
  pure (summaryResult params rows)

/-! ### What they are for -/

/-- A transaction's part of the net income. -/
def Transaction.signed (t : Transaction μ) : ℤ :=
  match t.type with
  | .payment => t.amount
  | .refund => -t.amount

/-- The day is in the range. -/
def Params.Covers (params : Params) (day : Date) : Prop := params.start ≤ day ∧ day ≤ params.last

instance (params : Params) (day : Date) : Decidable (params.Covers day) :=
  inferInstanceAs (Decidable (_ ∧ _))

/-- A payment or refund in the store's currency that succeeded on a day of the range. -/
def Counts (params : Params) (t : Transaction μ) : Prop :=
  t.status = .succeeded ∧ t.currency = store ∧ params.Covers (zone.localDay t.occurredAt)

instance (params : Params) (t : Transaction μ) : Decidable (Counts zone store params t) :=
  inferInstanceAs (Decidable (_ ∧ _))

/-- **Payments minus refunds of the range.** -/
def netIncome (params : Params) (transactions : List (Transaction μ)) : ℤ :=
  ((transactions.filter (Counts zone store params ·)).map (·.signed)).sum

/-- One of the numbers is larger by an amount, and the others are the same. -/
def OneMore (before after : List ℤ) (amount : ℤ) : Prop :=
  ∃ i shown, before[i]? = some shown ∧ after = before.set i (shown + amount)

/-- The figure with one of these labels. -/
def figure (labels : List String) (summary : List Figure) : Option ℤ :=
  (summary.find? (·.label ∈ labels)).map (·.value)

/-- **A report tells the income of its range**: there is one, its total is the payments minus the
    refunds, and with each of them one row shows more by its amount than without it. -/
def Tells {ρ : Type} (params : Params) (report : List (Transaction μ) → Except Err (Result ρ))
    (total : List String) (shown : List ρ → List ℤ) (transactions : List (Transaction μ)) : Prop :=
  ∃ given, report transactions = .ok given
    ∧ figure total given.summary = some (netIncome zone store params transactions)
    ∧ ∀ front t back, transactions = front ++ t :: back → Counts zone store params t →
      ∃ without, report (front ++ back) = .ok without
        ∧ OneMore (shown without.rows) (shown given.rows) t.signed

/-- The net income the rows of the income report show in the store's currency. -/
def incomeShown (rows : List IncomeRow) : List ℤ :=
  (rows.filter (·.currency = store)).map (·.net)

/-- The income the rows of the monthly summary show. -/
def monthsShown (rows : List MonthRow) : List ℤ := rows.map (·.income)

/-- **Both reports tell the income of the range, however it is grouped.** -/
structure Agree (fromisoformat : String → Option Date) (data : Data) (today : Date)
    (records : Records μ) : Prop where
  income : ∀ group params,
    parseParams fromisoformat incomeDef { data with group } today = .ok params →
    Tells zone store params (income zone store params)
      ["Net income", "Net income (" ++ store ++ ")"] (incomeShown store) records.transactions
  monthly : ∀ params, parseParams fromisoformat monthlySummaryDef data today = .ok params →
    Tells zone store params
      (fun transactions => monthlySummary zone store params { records with transactions })
      ["Income"] monthsShown records.transactions

/-- The day is outside the range and in one of its months. -/
def Params.Strays (params : Params) (day : Date) : Prop :=
  ¬params.Covers day ∧ params.start.firstOfMonth ≤ day.firstOfMonth
    ∧ day.firstOfMonth ≤ params.last.firstOfMonth

instance (params : Params) (day : Date) : Decidable (params.Strays day) :=
  inferInstanceAs (Decidable (_ ∧ _))

/-- A row is there for a period of the range and the store's currency, or one in which something
    succeeded in the period. -/
def IsRow (params : Params) (group : Group) (transactions : List (Transaction μ))
    (row : Date × String) : Prop :=
  (period group row.1 = row.1 ∧ period group params.start ≤ row.1 ∧ row.1 ≤ params.last)
    ∧ (row.2 = store ∨ ∃ t ∈ transactions, t.status = .succeeded ∧ t.currency = row.2
      ∧ params.Covers (zone.localDay t.occurredAt)
      ∧ period group (zone.localDay t.occurredAt) = row.1)

/-- The rows come by period, then by currency. -/
def Before (row row' : Date × String) : Prop :=
  row.1 < row'.1 ∨ row.1 = row'.1 ∧ row.2 < row'.2

/-- The range ends before the last year; the days of its first and last month that are outside it
    net nothing; and fewer than `MAX_ROWS` rows come before one with a payment or refund. -/
structure Tidy (params : Params) (transactions : List (Transaction μ)) : Prop where
  year : params.last.year < maxYear
  strays : ((transactions.filter fun t => t.status = .succeeded ∧ t.currency = store
    ∧ params.Strays (zone.localDay t.occurredAt)).map (·.signed)).sum = 0
  kept : ∀ group, (group = .day → daysBetween params.start params.last + 1 ≤ MAX_DAILY_DAYS) →
    ∀ t ∈ transactions, Counts zone store params t →
      {row | IsRow zone store params group transactions row
        ∧ Before row (period group (zone.localDay t.occurredAt), store)}.ncard < MAX_ROWS

end

/-! ### One row more -/

section

variable {κ : Type}

/-- **Where one key alone has a larger value, one entry does.** -/
theorem oneMore_map {keys : List κ} (hnodup : keys.Nodup) {f g : κ → ℤ} {k : κ} {amount : ℤ}
    (hk : k ∈ keys) (hone : f k = g k + amount) (hrest : ∀ k' ∈ keys, k' ≠ k → f k' = g k') :
    OneMore (keys.map g) (keys.map f) amount := by
  obtain ⟨front, back, rfl⟩ := List.append_of_mem hk
  have hapart := List.nodup_middle.mp hnodup
  refine ⟨front.length, g k, ?_, ?_⟩
  · rw [List.map_append, List.map_cons, List.getElem?_append_right (by simp)]
    simp
  · have hsame : ∀ k' ∈ front ++ back, f k' = g k' := by
      intro k' hk'
      refine hrest k' ?_ ?_
      · rcases List.mem_append.mp hk' with h | h
        · exact List.mem_append_left _ h
        · exact List.mem_append_right _ (List.mem_cons_of_mem _ h)
      · rintro rfl
        exact (List.nodup_cons.mp hapart).1 hk'
    rw [List.map_append, List.map_append, List.map_cons, List.map_cons, List.set_append_right]
    · rw [List.map_congr_left fun k' h => hsame k' (List.mem_append_left _ h),
        List.map_congr_left fun k' h => hsame k' (List.mem_append_right _ h), hone]
      simp
    · simp

/-- No entry is larger by something in the same list. -/
theorem eq_zero_of_oneMore {shown : List ℤ} {amount : ℤ} (h : OneMore shown shown amount) :
    amount = 0 := by
  obtain ⟨i, value, hvalue, hsame⟩ := h
  have hset : (shown.set i (value + amount))[i]? = some (value + amount) := by
    rw [List.getElem?_set_self' , hvalue]
    rfl
  rw [← hsame, hvalue] at hset
  have := Option.some.inj hset
  omega

end

section

variable {μ : Type} {t : Transaction μ}

theorem Transaction.signed_ne_zero (t : Transaction μ) : t.signed ≠ 0 := by
  have hpos := t.amount_pos
  unfold Transaction.signed
  cases t.type with
  | payment =>
    show (t.amount : ℤ) ≠ 0
    omega
  | refund =>
    show -(t.amount : ℤ) ≠ 0
    omega

theorem Transaction.signed_payment (h : t.type = .payment) : t.signed = t.amount := by
  rw [Transaction.signed, h]

theorem Transaction.signed_refund (h : t.type = .refund) : t.signed = -t.amount := by
  rw [Transaction.signed, h]

/-- Payments minus refunds, one by one. -/
theorem summed_sub_summed (l : List (Transaction μ)) :
    summed .payment l - summed .refund l = (l.map (·.signed)).sum := by
  unfold summed
  induction l with
  | nil => rfl
  | cons t l ih =>
    rw [List.map_cons, List.sum_cons, ← ih]
    cases htype : t.type with
    | payment =>
      rw [List.filter_cons_of_pos (by simp [htype]), List.filter_cons_of_neg (by simp [htype]),
        List.map_cons, List.sum_cons, Transaction.signed_payment htype]
      omega
    | refund =>
      rw [List.filter_cons_of_neg (by simp [htype]), List.filter_cons_of_pos (by simp [htype]),
        List.map_cons, List.sum_cons, Transaction.signed_refund htype]
      omega

end

section

variable {μ : Type} [LinearOrder μ] {zone : Zone μ} {store : String} {params : Params}
  {group : Group} {starts : List Date} {startAt endAt : μ}
  {transactions those : List (Transaction μ)} {t : Transaction μ}

/-! ### The range -/

theorem reached_eq_ok {date : Option Date} {d : Date} : reached date = .ok d ↔ date = some d := by
  cases date with
  | none => exact ⟨nofun, nofun⟩
  | some d' => exact ⟨fun h => by cases h; rfl, fun h => by cases h; rfl⟩

/-- **Between the two moments are the days of the range.** -/
theorem covers_of_bounds (h : bounds zone params = .ok (startAt, endAt)) (moment : μ) :
    startAt ≤ moment ∧ moment < endAt ↔ params.Covers (zone.localDay moment) := by
  unfold bounds at h
  obtain ⟨after, hafter, hpair⟩ := bind_eq_ok.mp h
  rw [reached_eq_ok] at hafter
  rw [pure_eq_ok, Prod.mk.injEq] at hpair
  obtain ⟨rfl, rfl⟩ := hpair
  obtain ⟨⟨-, hlt⟩, hleast⟩ := days.next_start rfl hafter
  rw [zone.midnight_le_iff, ← not_le, zone.midnight_le_iff, not_le]
  refine and_congr_right fun _ => ⟨fun hday => ?_, fun hday => hday.trans_lt hlt⟩
  by_contra hpast
  exact absurd (hleast ⟨rfl, not_le.mp hpast⟩) (not_le.mpr hday)

theorem exists_bounds (h : params.last.year < maxYear) :
    ∃ startAt endAt, bounds zone params = .ok (startAt, endAt) := by
  have hmonth := params.last.month_valid
  have hlast : params.last.monthIndex + 1 < 12 * (maxYear + 1) := by
    unfold Date.monthIndex
    omega
  obtain ⟨after, hafter⟩ := Option.isSome_iff_exists.mp (Date.isSome_tomorrow hlast)
  exact ⟨_, _, bind_eq_ok.mpr ⟨after, reached_eq_ok.mpr hafter, rfl⟩⟩

/-- What succeeded in the range. -/
theorem mem_succeeded (h : bounds zone params = .ok (startAt, endAt)) :
    t ∈ succeeded startAt endAt transactions ↔ t ∈ transactions ∧ t.status = .succeeded
      ∧ params.Covers (zone.localDay t.occurredAt) := by
  rw [succeeded, List.mem_filter, decide_eq_true_eq, covers_of_bounds h]

/-! ### The periods -/

/-- The periods a report is grouped by. -/
def periods : Group → Periods Date
  | .day => days
  | .month => months
  | .year => years

theorem start_periods (group : Group) : (periods group).start = period group := by
  cases group <;> rfl

theorem next_periods (group : Group) : (periods group).next = following group := by
  cases group <;> rfl

/-- The enumeration behind `periodsOf`. -/
theorem periodsOf_eq_ok {start last : Date} : periodsOf group start last = .ok starts
    ↔ enumerate (periods group).next last (last.key + 1 - ((periods group).start start).key)
      ((periods group).start start) = some starts := by
  rw [periodsOf, start_periods, next_periods]
  cases enumerate (following group) last _ _ with
  | none => exact ⟨nofun, nofun⟩
  | some found => exact ⟨fun h => by cases h; rfl, fun h => by cases h; rfl⟩

private theorem enough_fuel (first last : Date) :
    last.key < first.key + (last.key + 1 - first.key) := by omega

theorem mem_periodsOf {start last : Date} (h : periodsOf group start last = .ok starts)
    {d : Date} : d ∈ starts ↔ period group d = d ∧ period group start ≤ d ∧ d ≤ last := by
  rw [mem_enumerate Date.strictMono_key (enough_fuel _ _) ((periods group).start_start _)
    (periodsOf_eq_ok.mp h), start_periods]

theorem pairwise_periodsOf {start last : Date} (h : periodsOf group start last = .ok starts) :
    starts.Pairwise (· < ·) :=
  pairwise_enumerate Date.strictMono_key (enough_fuel _ _) ((periods group).start_start _)
    (periodsOf_eq_ok.mp h)

/-- **The period of every day of the range is one of them.** -/
theorem period_mem_periodsOf (h : periodsOf group params.start params.last = .ok starts)
    {d : Date} (hd : params.Covers d) : period group d ∈ starts := by
  rw [← start_periods]
  exact start_mem_enumerate Date.strictMono_key (enough_fuel _ _) (periodsOf_eq_ok.mp h) hd.1 hd.2

theorem exists_periodsOf (group : Group) (h : params.last.year < maxYear) :
    ∃ starts, periodsOf group params.start params.last = .ok starts := by
  have hnext : ∀ d, (periods group).start d = d → d ≤ params.last →
      ((periods group).next d).isSome := by
    intro d hstart hd
    have hyear := Date.year_mono hd
    have hmonth := d.month_valid
    have hindex : d.monthIndex < 12 * maxYear := by
      unfold Date.monthIndex
      omega
    cases group with
    | day => exact Date.isSome_tomorrow (by omega)
    | month => exact Date.isSome_followingMonth hindex
    | year => exact (Date.isSome_replaceYear hstart (by omega)).mpr (by omega)
  obtain ⟨starts, hstarts⟩ := Option.isSome_iff_exists.mp
    (@isSome_enumerate Date _ (periods group) params.last _
      (params.last.key + 1 - ((periods group).start params.start).key)
      ((periods group).start_start params.start) fun d hstart _ hd => hnext d hstart hd)
  exact ⟨starts, periodsOf_eq_ok.mpr hstarts⟩

/-- **By year there is no report whose range reaches the last year**: the step from its start is
    taken as well. -/
theorem year_lt_of_periodsOf (hle : params.start ≤ params.last)
    (h : periodsOf .year params.start params.last = .ok starts) :
    params.last.year < maxYear := by
  have hmem := period_mem_periodsOf h ⟨hle, le_refl _⟩
  have hnext := next_of_mem (periodsOf_eq_ok.mp h) hmem
  have hyear : params.last.year + 1 ≤ maxYear :=
    (Date.isSome_replaceYear rfl (Nat.succ_pos _)).mp hnext
  omega

/-! ### The rows of the income report -/

omit [LinearOrder μ] in
/-- The currencies of a report: the store's own, and those of its transactions. -/
theorem mem_currenciesOf {currency : String} : currency ∈ currenciesOf store those
    ↔ currency = store ∨ ∃ t ∈ those, t.currency = currency := by
  rw [currenciesOf, List.mem_insertionSort, List.mem_dedup, List.mem_cons, List.mem_map]

omit [LinearOrder μ] in
/-- Each currency comes once, in order. -/
theorem pairwise_currenciesOf (store : String) (those : List (Transaction μ)) :
    (currenciesOf store those).Pairwise (· < ·) := by
  have hsorted := List.pairwise_insertionSort (· ≤ ·) (store :: those.map (·.currency)).dedup
  have hnodup := (List.perm_insertionSort (· ≤ ·) _).nodup_iff.mpr
    (List.nodup_dedup (store :: those.map (·.currency)))
  exact (hsorted.and hnodup).imp fun h => lt_of_le_of_ne h.1 h.2

/-- The period and the currency of every row. -/
def rowKeys (zone : Zone μ) (store : String) (group : Group) (those : List (Transaction μ))
    (starts : List Date) : List (Date × String) :=
  starts.flatMap fun start => ((currenciesOf store those).filter fun currency =>
    ¬((grouped zone group those start currency).isEmpty = true ∧ currency ≠ store)).map
      (start, ·)

private theorem filterMap_ite {α β : Type} (p : α → Prop) [DecidablePred p] (f : α → β)
    (l : List α) : (l.filterMap fun a => if p a then none else some (f a))
      = (l.filter fun a => ¬p a).map f := by
  induction l with
  | nil => rfl
  | cons a l ih =>
    rw [List.filterMap_cons]
    by_cases ha : p a
    · rw [if_pos ha, List.filter_cons_of_neg (by simpa using ha)]
      exact ih
    · rw [if_neg ha, List.filter_cons_of_pos (by simpa using ha), List.map_cons, ← ih]

theorem incomeRows_eq : incomeRows zone store group those starts
    = (rowKeys zone store group those starts).map fun row =>
      incomeRow zone group those row.1 row.2 := by
  rw [incomeRows, rowKeys, List.map_flatMap]
  congr 1
  funext start
  rw [filterMap_ite, List.map_map]
  rfl

instance : Std.Irrefl Before where
  irrefl := fun _ h => h.elim (lt_irrefl _) fun h => lt_irrefl _ h.2

instance : Std.Antisymm Before where
  antisymm := by
    rintro ⟨a, c⟩ ⟨b, d⟩ (h | ⟨h, hlt⟩) (h' | ⟨h', hlt'⟩)
    · exact absurd h' (lt_asymm h)
    · exact absurd h (h'.symm ▸ lt_irrefl _)
    · exact absurd h' (h.symm ▸ lt_irrefl _)
    · exact absurd hlt' (lt_asymm hlt)

/-- **The rows come in order, so none comes twice.** -/
theorem pairwise_rowKeys (hstarts : starts.Pairwise (· < ·)) :
    (rowKeys zone store group those starts).Pairwise Before := by
  refine List.pairwise_flatMap.mpr ⟨fun start _ => ?_, hstarts.imp fun {a b} h => ?_⟩
  · refine List.pairwise_map.mpr (((pairwise_currenciesOf store those).filter _).imp ?_)
    exact fun h => .inr ⟨rfl, h⟩
  · intro row hrow row' hrow'
    obtain ⟨-, -, rfl⟩ := List.mem_map.mp hrow
    obtain ⟨-, -, rfl⟩ := List.mem_map.mp hrow'
    exact .inl h

section

variable (hbounds : bounds zone params = .ok (startAt, endAt))
  (hstarts : periodsOf group params.start params.last = .ok starts)

include hbounds hstarts

/-- **Which rows there are.** -/
theorem mem_rowKeys {row : Date × String} :
    row ∈ rowKeys zone store group (succeeded startAt endAt transactions) starts
      ↔ IsRow zone store params group transactions row := by
  have hsome : (grouped zone group (succeeded startAt endAt transactions) row.1 row.2).isEmpty
      ≠ true ↔ ∃ t ∈ transactions, t.status = .succeeded ∧ t.currency = row.2
        ∧ params.Covers (zone.localDay t.occurredAt)
        ∧ period group (zone.localDay t.occurredAt) = row.1 := by
    rw [ne_eq, List.isEmpty_iff]
    constructor
    · intro hne
      obtain ⟨t, ht⟩ := List.exists_mem_of_ne_nil _ hne
      rw [grouped, List.mem_filter, mem_succeeded hbounds, decide_eq_true_eq] at ht
      obtain ⟨⟨ht, hstatus, hcovers⟩, hperiod, hcurrency⟩ := ht
      exact ⟨t, ht, hstatus, hcurrency, hcovers, hperiod⟩
    · rintro ⟨t, ht, hstatus, hcurrency, hcovers, hperiod⟩
      refine List.ne_nil_of_mem (a := t) ?_
      rw [grouped, List.mem_filter, mem_succeeded hbounds, decide_eq_true_eq]
      exact ⟨⟨ht, hstatus, hcovers⟩, hperiod, hcurrency⟩
  obtain ⟨start, currency⟩ := row
  unfold IsRow
  rw [← mem_periodsOf hstarts, ← hsome, rowKeys, List.mem_flatMap]
  constructor
  · rintro ⟨start', hstart', hrow⟩
    obtain ⟨currency', hcurrency', heq⟩ := List.mem_map.mp hrow
    rw [Prod.mk.injEq] at heq
    obtain ⟨rfl, rfl⟩ := heq
    have htest := of_decide_eq_true (List.mem_filter.mp hcurrency').2
    refine ⟨hstart', ?_⟩
    by_cases hstore : currency' = store
    · exact .inl hstore
    · exact .inr fun hempty => htest ⟨hempty, hstore⟩
  · rintro ⟨hstart, hrow⟩
    refine ⟨start, hstart, List.mem_map.mpr ⟨currency, List.mem_filter.mpr ⟨?_, ?_⟩, rfl⟩⟩
    · rw [mem_currenciesOf]
      rcases hrow with hstore | hsomething
      · exact .inl hstore
      · obtain ⟨t, ht, hstatus, hcurrency, hcovers, -⟩ := hsome.mp hsomething
        exact .inr ⟨t, (mem_succeeded hbounds).mpr ⟨ht, hstatus, hcovers⟩, hcurrency⟩
    · refine decide_eq_true fun h => ?_
      exact hrow.elim h.2 fun hsomething => hsomething h.1

end

/-- **Where a row stands among the others.** -/
theorem mem_take_iff {rows : List (Date × String)} (hsorted : rows.Pairwise Before)
    {row : Date × String} (hrow : row ∈ rows) (n : ℕ) :
    row ∈ rows.take n ↔ {row' | row' ∈ rows ∧ Before row' row}.ncard < n := by
  obtain ⟨front, back, rfl⟩ := List.append_of_mem hrow
  obtain ⟨hfront, hback, hacross⟩ := List.pairwise_append.mp hsorted
  have hbefore : {row' | row' ∈ front ++ row :: back ∧ Before row' row}
      = {row' | row' ∈ front} := by
    ext row'
    constructor
    · rintro ⟨hmem, hlt⟩
      rcases List.mem_append.mp hmem with h | h
      · exact h
      · exfalso
        rcases List.mem_cons.mp h with rfl | h
        · exact irrefl _ hlt
        · have hgt := List.rel_of_pairwise_cons hback h
          exact irrefl row' (antisymm hgt hlt ▸ hlt)
    · exact fun h => ⟨List.mem_append_left _ h, hacross _ h _ List.mem_cons_self⟩
  have hcard : {row' | row' ∈ front}.ncard = front.length := by
    classical
    rw [← List.toFinset_card_of_nodup hfront.nodup, ← Set.ncard_coe_finset]
    congr 1
    ext row'
    simp
  rw [hbefore, hcard]
  have hnot : row ∉ front := fun h => irrefl _ (hacross _ h _ List.mem_cons_self)
  constructor
  · intro h
    by_contra hle
    rw [List.take_append_of_le_length (not_lt.mp hle)] at h
    exact hnot (List.mem_of_mem_take h)
  · intro h
    obtain ⟨m, rfl⟩ := Nat.exists_eq_add_of_lt h
    rw [List.take_append]
    refine List.mem_append_right _ ?_
    rw [show front.length + m + 1 - front.length = m + 1 by omega]
    exact List.mem_cons_self

/-! ### What the income report shows -/

/-- What a row shows. -/
private def rowNet (zone : Zone μ) (group : Group) (those : List (Transaction μ))
    (row : Date × String) : ℤ := ((grouped zone group those row.1 row.2).map (·.signed)).sum

private theorem incomeShown_eq (n : ℕ) :
    incomeShown store ((incomeRows zone store group those starts).take n)
      = (((rowKeys zone store group those starts).take n).filter (·.2 = store)).map
        (rowNet zone group those) := by
  rw [incomeRows_eq, ← List.map_take, incomeShown, List.filter_map, List.map_map]
  refine List.map_congr_left fun row _ => ?_
  exact summed_sub_summed _

/-- A transaction changes what the row of its period and its currency shows. -/
private theorem rowNet_middle (front back : List (Transaction μ)) (row : Date × String) :
    rowNet zone group (succeeded startAt endAt (front ++ t :: back)) row
      = rowNet zone group (succeeded startAt endAt (front ++ back)) row
        + if (period group (zone.localDay t.occurredAt) = row.1 ∧ t.currency = row.2)
            ∧ t.status = .succeeded ∧ startAt ≤ t.occurredAt ∧ t.occurredAt < endAt
          then t.signed else 0 := by
  rw [rowNet, rowNet, grouped, grouped, succeeded, succeeded, List.filter_filter,
    List.filter_filter, sum_filter_middle]
  simp only [Bool.and_eq_true, decide_eq_true_eq]

/-- The store's currency has its rows also without the transaction. -/
private theorem isRow_middle {front back : List (Transaction μ)} (hcounts : t.currency = store)
    (row : Date × String) : IsRow zone store params group (front ++ back) row
      ↔ IsRow zone store params group (front ++ t :: back) row := by
  refine and_congr_right fun _ => ?_
  constructor
  · rintro (hstore | ⟨t', ht', hrest⟩)
    · exact .inl hstore
    · refine .inr ⟨t', ?_, hrest⟩
      rcases List.mem_append.mp ht' with h | h
      · exact List.mem_append_left _ h
      · exact List.mem_append_right _ (List.mem_cons_of_mem _ h)
  · rintro (hstore | ⟨t', ht', hrest⟩)
    · exact .inl hstore
    · rcases List.mem_append.mp ht' with h | h
      · exact .inr ⟨t', List.mem_append_left _ h, hrest⟩
      · rcases List.mem_cons.mp h with rfl | h
        · exact .inl (hrest.2.1.symm.trans hcounts)
        · exact .inr ⟨t', List.mem_append_right _ h, hrest⟩

section

variable (hbounds : bounds zone params = .ok (startAt, endAt))
  (hstarts : periodsOf group params.start params.last = .ok starts)

include hbounds hstarts

/-- **A payment or refund is in the row of its day's period, unless that row is cut.** -/
theorem oneMore_income {front back : List (Transaction μ)} (hcounts : Counts zone store params t) :
    OneMore (incomeShown store
        ((incomeRows zone store group (succeeded startAt endAt (front ++ back)) starts).take
          MAX_ROWS))
      (incomeShown store
        ((incomeRows zone store group (succeeded startAt endAt (front ++ t :: back)) starts).take
          MAX_ROWS)) t.signed
    ↔ {row | IsRow zone store params group (front ++ t :: back) row
      ∧ Before row (period group (zone.localDay t.occurredAt), store)}.ncard < MAX_ROWS := by
  obtain ⟨hstatus, hstore, hcovers⟩ := hcounts
  have hsorted := @pairwise_rowKeys μ _ zone store group starts
    (succeeded startAt endAt (front ++ t :: back)) (pairwise_periodsOf hstarts)
  -- the rows are those of before: this one is there anyway
  have hkeys : rowKeys zone store group (succeeded startAt endAt (front ++ back)) starts
      = rowKeys zone store group (succeeded startAt endAt (front ++ t :: back)) starts := by
    refine List.Pairwise.eq_of_mem_iff (pairwise_rowKeys (pairwise_periodsOf hstarts)) hsorted ?_
    intro row
    rw [mem_rowKeys hbounds hstarts, mem_rowKeys hbounds hstarts, isRow_middle hstore]
  have hrow : (period group (zone.localDay t.occurredAt), store)
      ∈ rowKeys zone store group (succeeded startAt endAt (front ++ t :: back)) starts := by
    rw [mem_rowKeys hbounds hstarts]
    refine ⟨(mem_periodsOf hstarts).mp (period_mem_periodsOf hstarts hcovers), .inl rfl⟩
  have hplace := mem_take_iff hsorted hrow MAX_ROWS
  simp only [mem_rowKeys hbounds hstarts] at hplace
  rw [incomeShown_eq, incomeShown_eq, hkeys, ← hplace]
  generalize hkept : (rowKeys zone store group (succeeded startAt endAt (front ++ t :: back))
    starts).take MAX_ROWS = kept
  have hnodup : kept.Nodup := by
    rw [← hkept]
    exact (hsorted.sublist (List.take_sublist _ _)).nodup
  have hin : (period group (zone.localDay t.occurredAt), store)
      ∈ kept.filter (·.2 = store) ↔ (period group (zone.localDay t.occurredAt), store) ∈ kept := by
    rw [List.mem_filter, decide_eq_true_eq, and_iff_left rfl]
  -- no other row counts it
  have hother : ∀ row ∈ kept.filter (·.2 = store),
      row ≠ (period group (zone.localDay t.occurredAt), store) →
      rowNet zone group (succeeded startAt endAt (front ++ t :: back)) row
        = rowNet zone group (succeeded startAt endAt (front ++ back)) row := by
    intro row hmem hne
    rw [rowNet_middle, if_neg, add_zero]
    rintro ⟨⟨hperiod, -⟩, -⟩
    have hcurrency := of_decide_eq_true (List.mem_filter.mp hmem).2
    exact hne (Prod.ext hperiod.symm hcurrency)
  constructor
  · intro hmore
    by_contra hcut
    have hsame : (kept.filter (·.2 = store)).map
          (rowNet zone group (succeeded startAt endAt (front ++ t :: back)))
        = (kept.filter (·.2 = store)).map
          (rowNet zone group (succeeded startAt endAt (front ++ back))) := by
      refine List.map_congr_left fun row hmem => hother row hmem ?_
      rintro rfl
      exact hcut (hin.mp hmem)
    rw [hsame] at hmore
    exact t.signed_ne_zero (eq_zero_of_oneMore hmore)
  · intro hmem
    refine oneMore_map (hnodup.filter _) (hin.mpr hmem) ?_ hother
    rw [rowNet_middle, if_pos]
    exact ⟨⟨rfl, hstore⟩, hstatus, (covers_of_bounds hbounds _).mpr hcovers⟩

end

private theorem sum_sub_sum {α : Type} (f g : α → ℤ) (l : List α) :
    (l.map f).sum - (l.map g).sum = (l.map fun x => f x - g x).sum := by
  induction l with
  | nil => rfl
  | cons x l ih =>
    simp only [List.map_cons, List.sum_cons, ← ih]
    omega

/-- **The total of the income report is the net income of its range.** -/
theorem total_income (hbounds : bounds zone params = .ok (startAt, endAt))
    (hstarts : periodsOf group params.start params.last = .ok starts) :
    let rows := incomeRows zone store group (succeeded startAt endAt transactions) starts
    ((rows.filter (·.currency = store)).map (·.paid)).sum
      - ((rows.filter (·.currency = store)).map (·.refunded)).sum
      = netIncome zone store params transactions := by
  intro rows
  have hsorted := pairwise_periodsOf hstarts
  have hkeys := @pairwise_rowKeys μ _ zone store group starts
    (succeeded startAt endAt transactions) hsorted
  have hperm : ((rowKeys zone store group (succeeded startAt endAt transactions) starts).filter
      (·.2 = store)).Perm (starts.map (·, store)) := by
    refine (List.perm_ext_iff_of_nodup (hkeys.nodup.filter _) ?_).mpr fun row => ?_
    · exact hsorted.nodup.map fun a b h => (Prod.mk.inj h).1
    · rw [List.mem_filter, decide_eq_true_eq, mem_rowKeys hbounds hstarts, List.mem_map]
      constructor
      · rintro ⟨⟨hperiod, -⟩, hcurrency⟩
        exact ⟨row.1, (mem_periodsOf hstarts).mpr hperiod, Prod.ext rfl hcurrency.symm⟩
      · rintro ⟨start, hstart, rfl⟩
        exact ⟨⟨(mem_periodsOf hstarts).mp hstart, .inl rfl⟩, rfl⟩
  have hrows : ((rows.filter (·.currency = store)).map (·.paid)).sum
      - ((rows.filter (·.currency = store)).map (·.refunded)).sum
      = (((rowKeys zone store group (succeeded startAt endAt transactions) starts).filter
          (·.2 = store)).map
        (rowNet zone group (succeeded startAt endAt transactions))).sum := by
    rw [sum_sub_sum, show rows = _ from incomeRows_eq, List.filter_map, List.map_map]
    congr 1
    exact List.map_congr_left fun row _ => summed_sub_summed _
  rw [hrows, (hperm.map _).sum_eq, List.map_map]
  have hgroup : ∀ start, rowNet zone group (succeeded startAt endAt transactions) (start, store)
      = (((transactions.filter (Counts zone store params ·)).filter fun t =>
        period group (zone.localDay t.occurredAt) = start).map (·.signed)).sum := by
    intro start
    rw [rowNet, grouped, succeeded, List.filter_filter, List.filter_filter]
    congr 2
    refine List.filter_congr fun t _ => ?_
    rw [← Bool.decide_and, ← Bool.decide_and]
    refine decide_eq_decide.mpr ?_
    rw [Counts, covers_of_bounds hbounds]
    tauto
  calc (starts.map (rowNet zone group (succeeded startAt endAt transactions) ∘ (·, store))).sum
      = (starts.map fun start =>
          (((transactions.filter (Counts zone store params ·)).filter fun t =>
            period group (zone.localDay t.occurredAt) = start).map (·.signed)).sum).sum := by
        congr 1
        exact List.map_congr_left fun start _ => hgroup start
    _ = (((transactions.filter (Counts zone store params ·)).filter fun t =>
          period group (zone.localDay t.occurredAt) ∈ starts).map (·.signed)).sum :=
        sum_by_key hsorted.nodup _ _ _
    _ = netIncome zone store params transactions := by
        rw [List.filter_eq_self.mpr fun t ht => ?_]
        · rfl
        · have hcounts := of_decide_eq_true (List.mem_filter.mp ht).2
          exact decide_eq_true (period_mem_periodsOf hstarts hcounts.2.2)

private theorem findSome?_of_mem {α β : Type} {f : α → Option β} {l : List α} {a : α} {b : β}
    (ha : a ∈ l) (hfound : f a = some b) (hother : ∀ c ∈ l, c ≠ a → f c = none) :
    l.findSome? f = some b := by
  induction l with
  | nil => cases ha
  | cons c l ih =>
    by_cases hc : c = a
    · rw [hc, List.findSome?_cons, hfound]
    · rw [List.findSome?_cons, hother c List.mem_cons_self hc]
      exact ih ((List.mem_cons.mp ha).resolve_left (Ne.symm hc)) fun d hd =>
        hother d (List.mem_cons_of_mem _ hd)

/-- **The report's net income is the one under the store's currency.** -/
theorem figure_income {rows : List IncomeRow} {currencies : List String}
    (hstore : store ∈ currencies) :
    figure ["Net income", "Net income (" ++ store ++ ")"]
        (currencies.flatMap (currencyFigures rows currencies))
      = some (((rows.filter (·.currency = store)).map (·.paid)).sum
        - ((rows.filter (·.currency = store)).map (·.refunded)).sum) := by
  have hother : ∀ text : String, text.toList.head? ≠ some 'N' →
      text ∉ ["Net income", "Net income (" ++ store ++ ")"] := by
    intro text htext h
    rcases List.mem_pair.mp h with rfl | rfl
    · exact htext (by simp)
    · exact htext (by simp)
  have hreceived : ∀ tag, "Received" ++ tag ∉ ["Net income", "Net income (" ++ store ++ ")"] :=
    fun tag => hother _ (by simp)
  have hrefunded : ∀ tag, "Refunded" ++ tag ∉ ["Net income", "Net income (" ++ store ++ ")"] :=
    fun tag => hother _ (by simp)
  have hfound : ∃ label, (currencyFigures rows currencies store).find?
      (·.label ∈ ["Net income", "Net income (" ++ store ++ ")"])
      = some ⟨label, "money", ((rows.filter (·.currency = store)).map (·.paid)).sum
        - ((rows.filter (·.currency = store)).map (·.refunded)).sum⟩ := by
    refine ⟨"Net income" ++ if 1 < currencies.length then " (" ++ store ++ ")" else "", ?_⟩
    rw [currencyFigures, List.find?_cons_of_neg (by simpa using hreceived _),
      List.find?_cons_of_neg (by simpa using hrefunded _), List.find?_cons_of_pos]
    split
    · simp [← String.append_assoc]
    · simp
  obtain ⟨label, hfound⟩ := hfound
  rw [figure, List.find?_flatMap, findSome?_of_mem hstore hfound]
  · rfl
  · intro currency hcurrency hne
    -- another currency has its name in the labels
    have hmany : 1 < currencies.length := by
      by_contra hone
      obtain ⟨only, rfl⟩ := List.length_eq_one_iff.mp
        (Nat.le_antisymm (not_lt.mp hone) (List.length_pos_of_mem hstore))
      exact hne ((List.mem_singleton.mp hcurrency).trans (List.mem_singleton.mp hstore).symm)
    have hnet : "Net income" ++ (" (" ++ currency ++ ")")
        ∉ ["Net income", "Net income (" ++ store ++ ")"] := by
      intro h
      simp only [List.mem_cons, List.not_mem_nil, or_false, ← String.toList_inj,
        String.toList_append] at h
      rcases h with h | h
      · exact absurd (congrArg List.length h) (by simp)
      · have hsame : currency.toList = store.toList := by simpa using h
        exact hne (String.toList_inj.mp hsame)
    rw [currencyFigures, if_pos hmany, List.find?_cons_of_neg (by simpa using hreceived _),
      List.find?_cons_of_neg (by simpa using hrefunded _),
      List.find?_cons_of_neg (by simpa using hnet), List.find?_nil]

/-- **When the income report tells the income of a range.** -/
theorem tells_income_iff (hyear : params.last.year < maxYear) :
    Tells zone store params (income zone store params)
      ["Net income", "Net income (" ++ store ++ ")"] (incomeShown store) transactions
    ↔ ∀ t ∈ transactions, Counts zone store params t →
      {row | IsRow zone store params params.group transactions row
        ∧ Before row (period params.group (zone.localDay t.occurredAt), store)}.ncard
        < MAX_ROWS := by
  obtain ⟨startAt, endAt, hbounds⟩ := @exists_bounds μ _ zone params hyear
  obtain ⟨starts, hstarts⟩ := exists_periodsOf params.group hyear
  have hreport : ∀ transactions, income zone store params transactions
      = .ok (incomeResult zone store params (succeeded startAt endAt transactions) starts) := by
    intro transactions
    rw [income, hbounds, ok_bind, hstarts]
    rfl
  constructor
  · rintro ⟨given, hgiven, -, hrows⟩ t ht hcounts
    obtain ⟨front, back, rfl⟩ := List.append_of_mem ht
    obtain ⟨without, hwithout, hmore⟩ := hrows front t back rfl hcounts
    obtain rfl := Except.ok.inj ((hreport _).symm.trans hgiven)
    obtain rfl := Except.ok.inj ((hreport _).symm.trans hwithout)
    exact (oneMore_income hbounds hstarts hcounts).mp hmore
  · intro hkept
    refine ⟨_, hreport _, ?_, ?_⟩
    · exact (figure_income (mem_currenciesOf.mpr (.inl rfl))).trans
        (congrArg some (total_income hbounds hstarts))
    · rintro front t back rfl hcounts
      refine ⟨_, hreport _, (oneMore_income hbounds hstarts hcounts).mpr ?_⟩
      exact hkept t (List.mem_append_right _ List.mem_cons_self) hcounts

/-! ### What the monthly summary shows -/

/-- The net income of a month, with all its days. -/
private def monthNet (zone : Zone μ) (store : String) (transactions : List (Transaction μ))
    (month : Date) : ℤ :=
  ((transactions.filter fun t => (t.status = .succeeded ∧ t.currency = store)
    ∧ (zone.localDay t.occurredAt).firstOfMonth = month).map (·.signed)).sum

/-- **A row shows the income of its whole month.** -/
theorem netIncomeBetween_eq {month after : Date} (hfirst : month.firstOfMonth = month)
    (hafter : month.followingMonth = some after) :
    netIncomeBetween store transactions (zone.midnight month) (zone.midnight after)
      = monthNet zone store transactions month := by
  rw [netIncomeBetween, summed_sub_summed, succeeded, List.filter_filter, monthNet]
  congr 2
  refine List.filter_congr fun t _ => ?_
  have hmonth := @months.start_eq_iff _ _ _ _ (zone.localDay t.occurredAt) hfirst hafter
  rw [← Bool.decide_and]
  refine decide_eq_decide.mpr ?_
  rw [zone.midnight_le_iff, ← @not_le _ _ (zone.midnight after), zone.midnight_le_iff, not_le]
  rw [← show _ ↔ (zone.localDay t.occurredAt).firstOfMonth = month from hmonth.symm]
  tauto

private theorem monthNet_middle (front back : List (Transaction μ)) (month : Date) :
    monthNet zone store (front ++ t :: back) month = monthNet zone store (front ++ back) month
      + if (t.status = .succeeded ∧ t.currency = store)
          ∧ (zone.localDay t.occurredAt).firstOfMonth = month then t.signed else 0 := by
  rw [monthNet, monthNet, sum_filter_middle]
  simp only [decide_eq_true_eq]

/-- There is a row for every month of the range. -/
theorem exists_monthRows (hstarts : periodsOf .month params.start params.last = .ok starts)
    (startAt endAt : μ) (records : Records μ) :
    ∃ rows, starts.mapM (monthRow zone store startAt endAt records) = .ok rows
      ∧ rows.map (·.income) = starts.map (monthNet zone store records.transactions) := by
  have hrow : ∀ month ∈ starts, ∃ row,
      monthRow zone store startAt endAt records month = .ok row
        ∧ row.income = monthNet zone store records.transactions month := by
    intro month hmonth
    obtain ⟨after, hafter⟩ := Option.isSome_iff_exists.mp
      (next_of_mem (periodsOf_eq_ok.mp hstarts) hmonth)
    refine ⟨_, bind_eq_ok.mpr ⟨after, reached_eq_ok.mpr hafter, rfl⟩, ?_⟩
    exact netIncomeBetween_eq ((mem_periodsOf hstarts).mp hmonth).1 hafter
  clear hstarts
  induction starts with
  | nil => exact ⟨[], rfl, rfl⟩
  | cons month starts ih =>
    obtain ⟨row, hok, hincome⟩ := hrow month List.mem_cons_self
    obtain ⟨rows, hrows, hincomes⟩ := ih fun m hm => hrow m (List.mem_cons_of_mem _ hm)
    refine ⟨row :: rows, ?_, ?_⟩
    · rw [List.mapM_cons, hok, ok_bind, hrows]
      rfl
    · rw [List.map_cons, List.map_cons, hincome, hincomes]

/-- **All months together: the range, and the days around it.** -/
theorem sum_monthNet (hstarts : periodsOf .month params.start params.last = .ok starts) :
    (starts.map (monthNet zone store transactions)).sum
      = netIncome zone store params transactions
        + ((transactions.filter fun t => t.status = .succeeded ∧ t.currency = store
          ∧ params.Strays (zone.localDay t.occurredAt)).map (·.signed)).sum := by
  have hkey : ∀ month, monthNet zone store transactions month
      = (((transactions.filter fun t => t.status = .succeeded ∧ t.currency = store).filter
        fun t => (zone.localDay t.occurredAt).firstOfMonth = month).map (·.signed)).sum := by
    intro month
    rw [monthNet, List.filter_filter]
    congr 2
    refine List.filter_congr fun t _ => ?_
    rw [← Bool.decide_and]
    exact decide_eq_decide.mpr and_comm
  rw [List.map_congr_left fun month _ => hkey month,
    sum_by_key (pairwise_periodsOf hstarts).nodup, List.filter_filter, netIncome]
  refine sum_filter_add _ _ fun t => ?_
  simp only [Bool.and_eq_true, decide_eq_true_eq, mem_periodsOf hstarts]
  have hmonth : ((zone.localDay t.occurredAt).firstOfMonth ≤ params.last)
      ↔ (zone.localDay t.occurredAt).firstOfMonth ≤ params.last.firstOfMonth := by
    refine ⟨fun h => ?_, fun h => h.trans (months.start_le _)⟩
    have hstart := months.start_mono h
    exact hstart
  by_cases hgood : t.status = .succeeded ∧ t.currency = store
  · by_cases hcovers : params.Covers (zone.localDay t.occurredAt)
    · have hin : period .month (zone.localDay t.occurredAt).firstOfMonth
            = (zone.localDay t.occurredAt).firstOfMonth
          ∧ period .month params.start ≤ (zone.localDay t.occurredAt).firstOfMonth
          ∧ (zone.localDay t.occurredAt).firstOfMonth ≤ params.last :=
        ⟨rfl, months.start_mono hcovers.1, (months.start_le _).trans hcovers.2⟩
      have hcounts : Counts zone store params t := ⟨hgood.1, hgood.2, hcovers⟩
      rw [if_pos ⟨hin, hgood⟩, if_pos hcounts,
        if_neg fun h : _ ∧ _ ∧ params.Strays _ => h.2.2.1 hcovers, add_zero]
    · rw [if_neg fun h : Counts zone store params t => hcovers h.2.2, zero_add]
      refine if_congr ?_ rfl rfl
      unfold Params.Strays
      rw [and_iff_left hgood, ← hmonth]
      constructor
      · rintro ⟨-, hfrom, hto⟩
        exact ⟨hgood.1, hgood.2, hcovers, hfrom, hto⟩
      · rintro ⟨-, -, -, hfrom, hto⟩
        exact ⟨rfl, hfrom, hto⟩
  · rw [if_neg fun h => hgood h.2,
      if_neg fun h : Counts zone store params t => hgood ⟨h.1, h.2.1⟩,
      if_neg fun h => hgood ⟨h.1, h.2.1⟩, add_zero]

/-- A range has few months. -/
theorem length_months_le (hdays : daysBetween params.start params.last + 1 ≤ MAX_DAYS)
    (hstarts : periodsOf .month params.start params.last = .ok starts) :
    starts.length ≤ MAX_ROWS := by
  have hlength := length_enumerate_le Date.monthIndex_mono (fun x y hnext => by
    have hspec := (Date.followingMonth_spec hnext).2
    omega) (periodsOf_eq_ok.mp hstarts)
  have hmonths := @Date.monthIndex_le_of_toOrdinal params.start params.last (by
    unfold daysBetween MAX_DAYS at hdays
    omega)
  have hfirst : ((periods .month).start params.start).monthIndex = params.start.monthIndex := rfl
  unfold MAX_ROWS
  omega

/-- **When the monthly summary tells the income of a range.** -/
theorem tells_monthly_iff (hdays : daysBetween params.start params.last + 1 ≤ MAX_DAYS)
    (hyear : params.last.year < maxYear) (records : Records μ) :
    Tells zone store params
      (fun transactions => monthlySummary zone store params { records with transactions })
      ["Income"] monthsShown transactions
    ↔ ((transactions.filter fun t => t.status = .succeeded ∧ t.currency = store
      ∧ params.Strays (zone.localDay t.occurredAt)).map (·.signed)).sum = 0 := by
  obtain ⟨startAt, endAt, hbounds⟩ := @exists_bounds μ _ zone params hyear
  obtain ⟨starts, hstarts⟩ := exists_periodsOf .month hyear
  have hreport : ∀ transactions, ∃ given,
      monthlySummary zone store params { records with transactions } = .ok given
        ∧ monthsShown given.rows = starts.map (monthNet zone store transactions)
        ∧ figure ["Income"] given.summary
          = some (starts.map (monthNet zone store transactions)).sum := by
    intro transactions
    obtain ⟨rows, hrows, hincomes⟩ := @exists_monthRows μ _ zone store params starts hstarts
      startAt endAt { records with transactions }
    refine ⟨summaryResult params rows, ?_, ?_, ?_⟩
    · simp only [monthlySummary, hbounds, ok_bind, hstarts, hrows]
      rfl
    · have hlength := congrArg List.length hincomes
      rw [List.length_map, List.length_map] at hlength
      have hshort := length_months_le hdays hstarts
      show (rows.take MAX_ROWS).map (·.income) = _
      rw [List.take_of_length_le (by omega), hincomes]
    · rw [← hincomes]
      simp [figure, summaryResult, result, monthFigures]
  constructor
  · rintro ⟨given, hgiven, htotal, -⟩
    obtain ⟨given', hgiven', -, htotal'⟩ := hreport transactions
    obtain rfl := Except.ok.inj (hgiven'.symm.trans hgiven)
    have hsum := Option.some.inj (htotal'.symm.trans htotal)
    rw [sum_monthNet hstarts] at hsum
    omega
  · intro hstrays
    obtain ⟨given, hgiven, hshown, htotal⟩ := hreport transactions
    refine ⟨given, hgiven, ?_, ?_⟩
    · rw [htotal, sum_monthNet hstarts, hstrays, add_zero]
    · rintro front t back rfl hcounts
      obtain ⟨without, hwithout, hshown', -⟩ := hreport (front ++ back)
      refine ⟨without, hwithout, ?_⟩
      rw [hshown, hshown']
      have hmem := period_mem_periodsOf hstarts hcounts.2.2
      refine oneMore_map (pairwise_periodsOf hstarts).nodup hmem ?_ fun month _ hne => ?_
      · rw [monthNet_middle, if_pos ⟨⟨hcounts.1, hcounts.2.1⟩, rfl⟩]
      · rw [monthNet_middle, if_neg fun h => hne h.2.symm, add_zero]

/-! ### What a range is asked for with -/

section

variable {fromisoformat : String → Option Date} {data : Data} {today : Date}

/-- The input of a report that takes a range. -/
theorem parseParams_eq_ok {definition : ReportDef} (hrange : "range" ∈ definition.uses) :
    parseParams fromisoformat definition data today = .ok params
    ↔ (∃ earlier, reached (today.subtractDays 29) = .ok earlier)
      ∧ parseRange fromisoformat data today = .ok (params.start, params.last)
      ∧ groupFor definition data (params.start, params.last) = .ok params.group := by
  simp only [parseParams, rangeFor, if_pos hrange, bind_eq_ok, pure_eq_ok, Prod.exists]
  constructor
  · rintro ⟨earlier, hearlier, start, last, hrange, group, hgroup, rfl⟩
    exact ⟨⟨earlier, hearlier⟩, hrange, hgroup⟩
  · rintro ⟨⟨earlier, hearlier⟩, hrange, hgroup⟩
    exact ⟨earlier, hearlier, _, _, hrange, _, hgroup, rfl⟩

theorem parseRange_spec {start last : Date}
    (h : parseRange fromisoformat data today = .ok (start, last)) :
    start ≤ last ∧ daysBetween start last + 1 ≤ MAX_DAYS := by
  unfold parseRange at h
  simp only [bind_eq_ok, ensure_eq_ok, pure_eq_ok, Prod.mk.injEq] at h
  obtain ⟨_, -, _, -, _, -, -, hle, -, hdays, rfl, rfl⟩ := h
  exact ⟨hle, hdays⟩

/-- The ways to group that a range is allowed. -/
theorem exists_parseGroup (group : Group) {start last : Date}
    (h : group = .day → daysBetween start last + 1 ≤ MAX_DAILY_DAYS) :
    ∃ asked, parseGroup { data with group := asked } start last = .ok group := by
  have hasked : ∃ asked, groupAsked asked = some group := by
    cases group with
    | day => exact ⟨"day", by decide⟩
    | month => exact ⟨"month", by decide⟩
    | year => exact ⟨"year", by decide⟩
  obtain ⟨asked, hasked⟩ := hasked
  refine ⟨asked, ?_⟩
  rw [parseGroup, hasked, Option.elim_some, ok_bind]
  exact bind_eq_ok.mpr ⟨(), ensure_eq_ok.mpr h, rfl⟩

theorem parseGroup_spec {start last : Date} {group : Group}
    (h : parseGroup data start last = .ok group) :
    group = .day → daysBetween start last + 1 ≤ MAX_DAILY_DAYS := by
  obtain ⟨asked, -, hchecks⟩ := bind_eq_ok.mp h
  obtain ⟨_, hdays, hsame⟩ := bind_eq_ok.mp hchecks
  obtain rfl := Except.ok.inj hsame
  exact ensure_eq_ok.mp hdays

end

/-- **Both reports tell the income of a range, however it is grouped, exactly where the range ends
    before the last year, the days of its first and its last month that are outside it net nothing,
    and no row with a payment or refund is cut.** -/
theorem tells_iff {fromisoformat : String → Option Date} {data : Data} {today : Date}
    (h : parseParams fromisoformat monthlySummaryDef data today = .ok params)
    (records : Records μ) :
    Agree zone store fromisoformat data today records
      ↔ Tidy zone store params records.transactions := by
  obtain ⟨hearlier, hrange, -⟩ := (parseParams_eq_ok (by decide)).mp h
  obtain ⟨hle, hdays⟩ := parseRange_spec hrange
  -- the income report takes the same range, with the groupings that it allows
  have hincome : ∀ group, (group = .day → daysBetween params.start params.last + 1
      ≤ MAX_DAILY_DAYS) → ∃ asked, parseParams fromisoformat incomeDef
        { data with group := asked } today = .ok { params with group } := by
    intro group hgroup
    obtain ⟨asked, hasked⟩ := @exists_parseGroup data group _ _ hgroup
    exact ⟨asked, (parseParams_eq_ok (by decide)).mpr
      ⟨hearlier, hrange, (if_pos (by decide)).trans hasked⟩⟩
  constructor
  · rintro ⟨hall, hmonthly⟩
    have hyear : params.last.year < maxYear := by
      obtain ⟨asked, hasked⟩ := hincome .year nofun
      obtain ⟨given, hgiven, -, -⟩ := hall asked _ hasked
      simp only [income, bind_eq_ok] at hgiven
      obtain ⟨_, -, starts, hstarts, -⟩ := hgiven
      exact year_lt_of_periodsOf hle hstarts
    refine ⟨hyear, (tells_monthly_iff hdays hyear records).mp (hmonthly params h), ?_⟩
    intro group hgroup
    obtain ⟨asked, hasked⟩ := hincome group hgroup
    have hyear' : ({ params with group } : Params).last.year < maxYear := hyear
    exact (tells_income_iff hyear').mp (hall asked _ hasked)
  · rintro ⟨hyear, hstrays, hkept⟩
    constructor
    · intro asked params' hparams'
      obtain ⟨-, hrange', hasked⟩ := (parseParams_eq_ok (by decide)).mp hparams'
      rw [groupFor, if_pos (by decide)] at hasked
      have hsame := Prod.mk.inj (Except.ok.inj (hrange'.symm.trans hrange))
      obtain ⟨start, last, group⟩ := params'
      obtain ⟨rfl, rfl⟩ := hsame
      have hyear' : ({ params with group } : Params).last.year < maxYear := hyear
      exact (tells_income_iff hyear').mpr (hkept group (parseGroup_spec hasked))
    · intro params' hparams'
      obtain rfl := Except.ok.inj (hparams'.symm.trans h)
      exact (tells_monthly_iff hdays hyear records).mpr hstrays

end

/-! ### A range that begins within a month -/

/-- A zone whose moments are the days. -/
def wholeDays : Zone Date where
  localDay := id
  midnight := id
  midnight_le_iff := fun _ _ => Iff.rfl

private theorem january_month_valid : 1 ≤ 1 ∧ 1 ≤ 12 := by decide

private theorem february_month_valid : 1 ≤ 2 ∧ 2 ≤ 12 := by decide

private theorem january_fifth_valid : 1 ≤ 5 ∧ 5 ≤ daysInMonth 2026 1 := by decide

private theorem january_tenth_valid : 1 ≤ 10 ∧ 10 ≤ daysInMonth 2026 1 := by decide

private theorem february_ninth_valid : 1 ≤ 9 ∧ 9 ≤ daysInMonth 2026 2 := by decide

/-- From January 10 to February 9, 2026. -/
def withinMonths : Params where
  start := ⟨2026, 1, 10, january_month_valid, january_tenth_valid⟩
  last := ⟨2026, 2, 9, february_month_valid, february_ninth_valid⟩

private theorem hundred_pos : 0 < 100 := by decide

/-- One dollar, on January 5. -/
def dollar : Transaction Date where
  type := .payment
  status := .succeeded
  amount := 100
  currency := "USD"
  occurredAt := ⟨2026, 1, 5, january_month_valid, january_fifth_valid⟩
  amount_pos := hundred_pos

/-- It was paid before the range. -/
def paidBefore : Records Date where
  transactions := [dollar]
  joined := []
  cancelled := []

private theorem parse_withinMonths : parseParams (fun _ => none) monthlySummaryDef
    { start := .date withinMonths.start, last := .date withinMonths.last } withinMonths.last
      = .ok withinMonths := by
  rfl

theorem tells_iff_withinMonths :
    Agree wholeDays "USD" (fun _ => none)
        { start := .date withinMonths.start, last := .date withinMonths.last } withinMonths.last
        paidBefore
      ↔ Tidy wholeDays "USD" withinMonths paidBefore.transactions :=
  tells_iff parse_withinMonths paidBefore

/-- The monthly summary counts it, and the income report does not. -/
theorem not_agree_withinMonths :
    ¬Agree wholeDays "USD" (fun _ => none)
      { start := .date withinMonths.start, last := .date withinMonths.last } withinMonths.last
      paidBefore := by
  rintro ⟨-, hmonthly⟩
  have hstrays := (tells_monthly_iff (by decide) (by decide) paidBefore).mp
    (hmonthly withinMonths parse_withinMonths)
  exact absurd hstrays (by decide)

end WPanel.Reports
