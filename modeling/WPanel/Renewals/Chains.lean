import WPanel.Renewals.Services

namespace WPanel.Renewals

open WPanel.Lib WPanel.Billing

/-!
# Chains of early renewals

A renewal that is applied before the term ends adds its months to the end of the term.  Each
step clamps the day to the month it reaches, and the clamped day carries into the next step.

* `Near` — the end of a chain beside the end of one renewal for as many months;
* `addAll_near` — every chain of months ends near the step by their sum;
* `RenewedEarly` — a history of an account in which only early renewals move the end of the
  term.
-/

/-! ### Months one after the other -/

/-- `chained` is what `atOnce` is, up to the clamp: the same month and time of day, never
    later, and at most three days earlier. -/
structure Near (chained atOnce : Moment) : Prop where
  same : chained.SameMonth atOnce
  not_later : chained.instant ≤ atOnce.instant
  at_most_three_days : atOnce.instant ≤ chained.instant + 3 * microsPerDay

/-- In one month, the moments are as far apart as their days. -/
private theorem Near.of_days {chained atOnce : Moment} (hsame : chained.SameMonth atOnce)
    (hle : chained.date.day ≤ atOnce.date.day)
    (hthree : atOnce.date.day ≤ chained.date.day + 3) : Near chained atOnce := by
  refine ⟨hsame, ?_, ?_⟩
  · unfold Moment.instant Date.toOrdinal
    rw [hsame.year, hsame.month, hsame.micros]
    exact Nat.add_le_add_right (Nat.mul_le_mul_right _ (Nat.add_le_add_left hle _)) _
  · have hdays : atOnce.date.toOrdinal ≤ chained.date.toOrdinal + 3 := by
      unfold Date.toOrdinal
      rw [hsame.year, hsame.month]
      omega
    unfold Moment.instant
    calc atOnce.date.toOrdinal * microsPerDay + atOnce.micros
        ≤ (chained.date.toOrdinal + 3) * microsPerDay + atOnce.micros :=
          Nat.add_le_add_right (Nat.mul_le_mul_right _ hdays) _
      _ = chained.date.toOrdinal * microsPerDay + chained.micros + 3 * microsPerDay := by
          rw [Nat.add_mul, hsame.micros, Nat.add_right_comm]

/-- The chain and the step by the sum fail together, and end near each other. -/
theorem addAll_near {moment : Moment} (hyear : moment.date.year ≤ maxYear) (months : List ℕ) :
    Option.Rel Near (addAll moment months) (addMonths moment months.sum) := by
  have hsome := (addAll_isSome hyear months).trans (addMonths_isSome moment months.sum).symm
  cases hchain : addAll moment months with
  | none =>
    cases honce : addMonths moment months.sum with
    | none => exact .none
    | some atOnce =>
      rw [hchain, honce] at hsome
      exact absurd (hsome.mpr rfl) (by simp)
  | some chained =>
    cases honce : addMonths moment months.sum with
    | none =>
      rw [hchain, honce] at hsome
      exact absurd (hsome.mp rfl) (by simp)
    | some atOnce =>
      obtain ⟨hindex, hmicros, hshrinks, hfloor⟩ := addAll_spec hchain
      obtain ⟨hindex', hmicros', hday'⟩ := addMonths_spec honce
      obtain ⟨hy, hm⟩ := Date.eq_of_monthIndex (hindex.trans hindex'.symm)
      have hlong := daysInMonth_le atOnce.date.year atOnce.date.month
      have hfits := chained.date.day_valid.2
      rw [hy, hm] at hfits
      -- both days are the start's where every month has it; otherwise both are among the
      -- four days from the 28th to the 31st
      refine .some (Near.of_days ⟨hy, hm, hmicros.trans hmicros'.symm⟩ ?_ ?_)
      · rw [hday']
        exact le_min hshrinks hfits
      · omega

/-! ### The term of an account -/

/-- When the paid term of the account ends. -/
def Store.expiryOf (s : Store) (pk : ℕ) : Option Moment :=
  (s.accounts.get? pk).bind fun account => account.term.expiresAt

/-- From `s` to `s'` the end of the term of the account `pk` is moved by renewals for these
    months alone, each applied while the term runs. -/
inductive RenewedEarly (pk : ℕ) : Store → List ℕ → Store → Prop
  | start (s : Store) : RenewedEarly pk s [] s
  | renewed {s s' s'' : Store} {months : List ℕ} {env : Env} {providers : Providers}
      {change : ServiceChange} {expiresAt : Moment} {fresh : Bool} :
      RenewedEarly pk s months s' → change.kind = .renewal →
      s'.expiryOf pk = some expiresAt → env.now < expiresAt →
      applyHosting env providers change pk s' = .ok (s'', fresh) →
      RenewedEarly pk s (months ++ [change.periodMonths]) s''
  | meanwhile {s s' s'' : Store} {months : List ℕ} :
      RenewedEarly pk s months s' → s''.expiryOf pk = s'.expiryOf pk →
      RenewedEarly pk s months s''

theorem monthsLater_eq_ok {moment moment' : Moment} {months : ℕ} :
    monthsLater moment months = .ok moment' ↔ addMonths moment months = some moment' := by
  unfold monthsLater
  cases addMonths moment months <;> simp

/-- An early renewal moves the end of the term by its months. -/
theorem expiryOf_renewed {env : Env} {providers : Providers} {change : ServiceChange} {pk : ℕ}
    {s s' : Store} {expiresAt : Moment} {fresh : Bool} (hkind : change.kind = .renewal)
    (hexpiry : s.expiryOf pk = some expiresAt) (hearly : env.now < expiresAt)
    (h : applyHosting env providers change pk s = .ok (s', fresh)) :
    ∃ extended, addMonths expiresAt change.periodMonths = some extended
      ∧ s'.expiryOf pk = some extended := by
  unfold applyHosting at h
  simp only [hkind, bind_eq_ok, lockAccount_eq_ok, ensure_eq_ok, exists_and_left, exists_const,
    pure_eq_ok, Prod.exists, Prod.mk.injEq] at h
  obtain ⟨account, haccount, -, term, fresh', hterm, rfl, -⟩ := h
  have hends : account.term.expiresAt = some expiresAt := by
    unfold Store.expiryOf at hexpiry
    rw [haccount] at hexpiry
    exact hexpiry
  -- the term still runs, so it goes on
  unfold Term.renewed Term.paidOn at hterm
  rw [hends] at hterm
  simp only [hearly, if_true] at hterm
  obtain ⟨t, ht, heq⟩ := map_eq_ok.mp hterm
  simp only [bind_eq_ok, pure_eq_ok] at ht
  obtain ⟨extended, hextended, rfl⟩ := ht
  cases heq
  refine ⟨extended, monthsLater_eq_ok.mp hextended, ?_⟩
  unfold Store.expiryOf Store.putAccount
  rw [Table.get?_put_self haccount]
  rfl

/-- **A history of early renewals is a chain of months.** -/
theorem RenewedEarly.expiryOf_eq {pk : ℕ} {s s' : Store} {months : List ℕ} {start : Moment}
    (h : RenewedEarly pk s months s') (hstart : s.expiryOf pk = some start) :
    ∃ chained, addAll start months = some chained ∧ s'.expiryOf pk = some chained := by
  induction h with
  | start => exact ⟨start, rfl, hstart⟩
  | renewed _ hkind hexpiry hearly happly ih =>
    obtain ⟨chained, hchain, hends⟩ := ih
    obtain ⟨extended, hextended, hends'⟩ := expiryOf_renewed hkind hexpiry hearly happly
    obtain rfl := Option.some.inj (hends.symm.trans hexpiry)
    refine ⟨extended, ?_, hends'⟩
    unfold addAll at hchain ⊢
    rw [List.foldlM_append, hchain]
    show (addMonths chained _).bind _ = _
    rw [hextended]
    rfl
  | meanwhile _ hsame ih =>
    obtain ⟨chained, hchain, hends⟩ := ih
    exact ⟨chained, hchain, hsame.trans hends⟩

/-! ### The chain and the sum -/

/-- **Chains of months clamp once.** Adding months one after the other fails where adding their
    sum does, and ends in the same month at the same time of day, never later and at most three
    days earlier; so early renewals leave the end of a term where one renewal for all their
    months would, up to that clamp. -/
theorem renewals_near_sum (moment : Moment) (hyear : moment.date.year ≤ maxYear) :
    (∀ months : List ℕ,
        Option.Rel Near (addAll moment months) (addMonths moment months.sum))
      ∧ ∀ (pk : ℕ) (s s' : Store) (months : List ℕ),
          RenewedEarly pk s months s' → s.expiryOf pk = some moment →
            ∃ chained atOnce, s'.expiryOf pk = some chained
              ∧ addMonths moment months.sum = some atOnce ∧ Near chained atOnce := by
  refine ⟨addAll_near hyear, fun pk s s' months h hstart => ?_⟩
  obtain ⟨chained, hchain, hends⟩ := h.expiryOf_eq hstart
  have hnear := addAll_near hyear months
  rw [hchain] at hnear
  cases honce : addMonths moment months.sum with
  | none =>
    rw [honce] at hnear
    cases hnear
  | some atOnce =>
    rw [honce] at hnear
    cases hnear with
    | some hnear => exact ⟨chained, atOnce, hends, rfl, hnear⟩

private theorem january_month : 1 ≤ 1 ∧ 1 ≤ 12 := by decide

private theorem thirtyFirst_valid : 1 ≤ 31 ∧ 31 ≤ daysInMonth 2024 1 := by decide

/-- Ten in the morning of January 31, 2024. -/
def lastOfJanuary : Moment where
  date := ⟨2024, 1, 31, january_month, thirtyFirst_valid⟩
  micros := 36000 * microsPerSecond

private theorem first_valid' : 1 ≤ 1 ∧ 1 ≤ daysInMonth 2024 1 := by decide

/-- Ten in the morning of January 1, 2024. -/
def newYearsDay : Env where
  now := { date := ⟨2024, 1, 1, january_month, first_valid'⟩, micros := 36000 * microsPerSecond }
  localdate := fun moment => moment.date.toOrdinal
  isoDay := fun _ => "2024-01-01"
  clients := fun _ => { currency := "USD" }

/-- Neither a server nor a registrar is asked. -/
def nobodyAsked : Providers where
  products := fun _ => none
  tldPricings := []
  changePackage := fun _ _ => .error .crashed
  renewDomain := fun _ _ => .error .crashed

/-- One account, paid until `expiresAt`. -/
def paidUntil (expiresAt : Moment) (termPaid : ℤ) : Store where
  accounts := ⟨[some {
    client := 1, domain := "example.com"
    placement := { product := 1, server := none, status := .active }
    term := {
      billingCycle := "monthly", termStart := some newYearsDay.now, expiresAt := some expiresAt
      termPaid } }]⟩

/-- A renewal for one month, for 5.00. -/
def oneMonthMore : ServiceChange where
  client := 1
  invoice := 0
  kind := .renewal
  service := .hosting 0
  billingCycle := "monthly"
  periodMonths := 1
  paidValue := 500
  expectedExpiresAt := none

private theorem applyHosting_oneMonthMore {ends later : Moment} (termPaid : ℤ)
    (hearly : newYearsDay.now < ends) (hlater : addMonths ends 1 = some later) :
    applyHosting newYearsDay nobodyAsked oneMonthMore 0 (paidUntil ends termPaid)
      = .ok (paidUntil later (termPaid + 500), false) := by
  have hmonths : monthsLater ends 1 = .ok later := monthsLater_eq_ok.mpr hlater
  simp only [applyHosting, oneMonthMore, bind_eq_ok, lockAccount_eq_ok, ensure_eq_ok, pure_eq_ok,
    Prod.exists, Term.renewed, Term.paidOn]
  refine ⟨_, rfl, (), .inl rfl, _, false, ?_, rfl⟩
  dsimp only
  rw [if_pos hearly, hmonths]
  rfl

/-- The account is renewed twice on New Year's Day. -/
private theorem renewed_twice : ∃ s, RenewedEarly 0 (paidUntil lastOfJanuary 500) [1, 1] s := by
  obtain ⟨february, hfebruary, hearly⟩ : ∃ february, addMonths lastOfJanuary 1 = some february
      ∧ newYearsDay.now < february := ⟨_, rfl, by decide⟩
  obtain ⟨march, hmarch⟩ : ∃ march, addMonths february 1 = some march := by
    refine Option.isSome_iff_exists.mp ?_
    rw [← Option.some.inj hfebruary]
    decide
  have honce : RenewedEarly 0 (paidUntil lastOfJanuary 500) [1] (paidUntil february 1000) :=
    .renewed (.start _) rfl rfl (by decide) (applyHosting_oneMonthMore 500 (by decide) hfebruary)
  exact ⟨_, .renewed honce rfl rfl hearly (applyHosting_oneMonthMore 1000 hearly hmarch)⟩

/-- Two single months lead to March 29, and two months at once to March 31; so do two renewals of
    an account. -/
theorem lastOfJanuary_renewed :
    (Option.Rel Near (addAll lastOfJanuary [1, 1]) (addMonths lastOfJanuary [1, 1].sum)
        ∧ (addAll lastOfJanuary [1, 1]).map (·.date.day) = some 29
        ∧ (addMonths lastOfJanuary 2).map (·.date.day) = some 31)
      ∧ ∃ s, RenewedEarly 0 (paidUntil lastOfJanuary 500) [1, 1] s
        ∧ ∃ chained atOnce, s.expiryOf 0 = some chained
          ∧ addMonths lastOfJanuary [1, 1].sum = some atOnce ∧ Near chained atOnce := by
  obtain ⟨hchains, hrenewals⟩ := renewals_near_sum lastOfJanuary (by decide)
  obtain ⟨s, hs⟩ := renewed_twice
  exact ⟨⟨hchains [1, 1], by decide, by decide⟩, s, hs, hrenewals 0 _ s [1, 1] hs rfl⟩

end WPanel.Renewals
