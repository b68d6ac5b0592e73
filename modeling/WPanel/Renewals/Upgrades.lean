import WPanel.Renewals.Services

namespace WPanel.Renewals

open WPanel.Lib WPanel.Billing

/-!
# The price of an upgrade

An upgrade is charged for the days that remain of the current term.  The number of days comes
out of the credit for the old plan, which is not worked out for a term nothing was paid for.

* `termDays`, `daysLeft` — the days of the term, and those that remain of it;
* `Prorated` — the price of those days at a full term's price;
* `previewUpgrade_money` — what is credited and what is charged make up the new price;
* `previewUpgrade_fair_iff` — exactly when the new price is the prorated one.
-/

/-! ### The days of a term -/

/-- The days of a term, from the day it starts to the day it ends. -/
def termDays (env : Env) (termStart expiresAt : Moment) : ℤ :=
  (env.localdate expiresAt : ℤ) - env.localdate termStart

/-- The days that remain of a term; all of them while it has not started. -/
def daysLeft (env : Env) (termStart expiresAt : Moment) : ℤ :=
  max 0 (min ((env.localdate expiresAt : ℤ) - env.today) (termDays env termStart expiresAt))

/-- `price` is what `left` of `days` days cost at `fullTermPrice`.  There is no share of a term
    that ends on the day it starts: it is charged in full. -/
def Prorated (fullTermPrice days left price : ℤ) : Prop :=
  if 0 < days then price = money (dec fullTermPrice * left / days) else price = fullTermPrice

theorem daysLeft_bounds (env : Env) (termStart expiresAt : Moment) :
    0 ≤ daysLeft env termStart expiresAt
      ∧ (0 < termDays env termStart expiresAt →
          daysLeft env termStart expiresAt ≤ termDays env termStart expiresAt) := by
  unfold daysLeft
  exact ⟨le_max_left _ _, fun hdays => max_le hdays.le (min_le_right _ _)⟩

/-- Where something was paid, the credit counts the days of the term as they are. -/
theorem unusedCredit_prorated {env : Env} {termPaid : ℤ} (hpaid : 0 < termPaid)
    (termStart expiresAt : Moment) (fullTermPrice : ℤ) :
    Prorated fullTermPrice (termDays env termStart expiresAt) (daysLeft env termStart expiresAt)
      (proratedCost fullTermPrice (unusedCredit env termPaid termStart expiresAt).termDays
        (unusedCredit env termPaid termStart expiresAt).remainingDays) := by
  unfold unusedCredit
  dsimp only
  rw [if_neg (not_le.mpr hpaid)]
  unfold Prorated daysLeft
  rw [show (env.localdate expiresAt : ℤ) - env.localdate termStart
    = termDays env termStart expiresAt from rfl]
  generalize termDays env termStart expiresAt = days
  by_cases hdays : days ≤ 0
  · rw [if_pos hdays, if_neg (not_lt.mpr hdays)]
    rfl
  · rw [if_neg hdays, if_pos (not_le.mp hdays)]
    generalize min ((env.localdate expiresAt : ℤ) - env.today) days = left
    by_cases hleft : left ≤ 0
    · -- no whole day remains, so nothing is charged
      rw [if_pos hleft, max_eq_left hleft, proratedCost, if_neg hdays]
    · rw [if_neg hleft, max_eq_right (not_le.mp hleft).le, proratedCost, if_neg hdays]

/-- Where nothing was paid there is no credit, and the term has no days. -/
theorem unusedCredit_unpaid {env : Env} {termPaid : ℤ} (hpaid : termPaid ≤ 0)
    (termStart expiresAt : Option Moment) :
    unusedCredit env termPaid termStart expiresAt = noCredit := by
  unfold unusedCredit
  split
  · rw [if_pos hpaid]
  · rfl

/-- The share of the days that remain is the full price just where what the others cost rounds
    to nothing. -/
theorem money_share_eq_iff {fullTermPrice days left : ℤ} (hfull : 0 ≤ fullTermPrice)
    (hdays : 0 < days) (hleft : 0 ≤ left) (hle : left ≤ days) :
    fullTermPrice = money (dec fullTermPrice * left / days)
      ↔ 2 * fullTermPrice * (days - left) ≤ days := by
  have hq : (0 : ℚ) < days := by exact_mod_cast hdays
  have hcents : dec fullTermPrice * left / days * 100 = (fullTermPrice * left : ℚ) / days := by
    unfold dec
    field_simp
  have hshare : (0 : ℚ) ≤ (fullTermPrice * left : ℚ) / days := by
    have : (0 : ℚ) ≤ fullTermPrice := by exact_mod_cast hfull
    have : (0 : ℚ) ≤ left := by exact_mod_cast hleft
    positivity
  have hupper : roundHalfUp ((fullTermPrice * left : ℚ) / days) ≤ fullTermPrice := by
    apply roundHalfUp_le_of_le hshare
    rw [div_le_iff₀ hq]
    exact_mod_cast mul_le_mul_of_nonneg_left hle hfull
  have hhalf : (fullTermPrice : ℚ) - 1 / 2 ≤ (fullTermPrice * left : ℚ) / days
      ↔ 2 * fullTermPrice * (days - left) ≤ days := by
    rw [le_div_iff₀ hq]
    constructor
    · intro h
      have : (2 * fullTermPrice * (days - left) : ℚ) ≤ days := by linarith
      exact_mod_cast this
    · intro h
      have : (2 * fullTermPrice * (days - left) : ℚ) ≤ days := by exact_mod_cast h
      linarith
  unfold money
  rw [hcents, ← hhalf]
  constructor
  · intro h
    exact sub_le_of_le_roundHalfUp hshare h.le
  · intro h
    exact le_antisymm (le_roundHalfUp_of_sub_le hshare h) hupper

/-- The days a credit counts are not negative. -/
theorem unusedCredit_days_nonneg (env : Env) (termPaid : ℤ) (termStart expiresAt : Option Moment) :
    0 ≤ (unusedCredit env termPaid termStart expiresAt).termDays
      ∧ 0 ≤ (unusedCredit env termPaid termStart expiresAt).remainingDays := by
  unfold unusedCredit
  split
  · split
    · exact ⟨le_refl 0, le_refl 0⟩
    · dsimp only
      split
      · exact ⟨le_refl 0, le_refl 0⟩
      · next hdays =>
        split
        · exact ⟨(not_le.mp hdays).le, le_refl 0⟩
        · next hleft => exact ⟨(not_le.mp hdays).le, (not_le.mp hleft).le⟩
  · exact ⟨le_refl 0, le_refl 0⟩

theorem proratedCost_nonneg {fullTermPrice days left : ℤ} (hfull : 0 ≤ fullTermPrice)
    (hleft : 0 ≤ left) : 0 ≤ proratedCost fullTermPrice days left := by
  unfold proratedCost
  split
  · exact hfull
  · next hdays =>
    have hq : (0 : ℚ) ≤ days := by exact_mod_cast (not_le.mp hdays).le
    have hl : (0 : ℚ) ≤ left := by exact_mod_cast hleft
    exact money_nonneg (div_nonneg (mul_nonneg (dec_nonneg hfull) hl) hq)

/-! ### The preview -/

/-- The dates of a term that can be renewed. -/
theorem requireTerm_dates {account : HostingAccount} {termStart expiresAt : Moment} {months : ℕ}
    (h : requireTerm account = .ok (termStart, expiresAt, months)) :
    account.term.termStart = some termStart ∧ account.term.expiresAt = some expiresAt := by
  unfold requireTerm at h
  dsimp only at h
  split at h
  · next hstart hend =>
    simp only [bind_eq_ok, ensure_eq_ok, exists_and_left, exists_const, pure_eq_ok,
      Prod.mk.injEq] at h
    obtain ⟨-, _, -, rfl, rfl, -⟩ := h
    exact ⟨hstart, hend⟩
  · cases h

section Preview

variable {env : Env} {providers : Providers} {account : HostingAccount} {newPk : ℕ}
  {preview : UpgradePreview}

/-- **What a preview is made of.** -/
theorem previewUpgrade_spec (h : previewUpgrade env providers account newPk = .ok preview) :
    preview.credit
        = unusedCredit env account.term.termPaid account.term.termStart account.term.expiresAt
      ∧ preview.appliedCredit = min preview.credit.amount preview.newPrice
      ∧ 0 ≤ preview.fullTermPrice
      ∧ ∃ termStart expiresAt, account.term.termStart = some termStart
        ∧ account.term.expiresAt = some expiresAt
        ∧ upgradePrice env expiresAt preview.months preview.fullTermPrice preview.credit
          = .ok (preview.newPrice, preview.newExpiry) := by
  unfold previewUpgrade at h
  simp only [bind_eq_ok, ensure_eq_ok, exists_and_left, exists_const, pure_eq_ok, Prod.exists] at h
  obtain ⟨newProduct, -, -, termStart, expiresAt, months, hterm, -, product, -, -, row, -, -, -,
    newPrice, newExpiry, hprice, rfl⟩ := h
  obtain ⟨hstart, hend⟩ := requireTerm_dates hterm
  exact ⟨rfl, rfl, row.price_nonneg, termStart, expiresAt, hstart, hend, hprice⟩

/-- An upgrade never costs less than nothing. -/
theorem previewUpgrade_newPrice_nonneg
    (h : previewUpgrade env providers account newPk = .ok preview) : 0 ≤ preview.newPrice := by
  obtain ⟨hcredit, -, hfull, _, expiresAt, -, -, hprice⟩ := previewUpgrade_spec h
  unfold upgradePrice at hprice
  split at hprice
  · obtain ⟨hnew, -⟩ := Prod.mk.inj (Except.ok.inj hprice)
    rw [← hnew, hcredit]
    exact proratedCost_nonneg hfull (unusedCredit_days_nonneg env _ _ _).2
  · obtain ⟨_, -, heq⟩ := map_eq_ok.mp hprice
    obtain ⟨hnew, -⟩ := Prod.mk.inj heq
    rw [← hnew]
    exact hfull

/-- **Credit and payment make up the price**, whatever was paid for the term. -/
theorem previewUpgrade_money (hpaid : 0 ≤ account.term.termPaid)
    (h : previewUpgrade env providers account newPk = .ok preview) :
    preview.appliedCredit + preview.netPayable = preview.newPrice
      ∧ 0 ≤ preview.appliedCredit ∧ preview.appliedCredit ≤ preview.credit.amount
      ∧ preview.credit.amount ≤ account.term.termPaid ∧ 0 ≤ preview.netPayable := by
  obtain ⟨hcredit, happlied, -, -⟩ := previewUpgrade_spec h
  have hnew := previewUpgrade_newPrice_nonneg h
  obtain ⟨hamount, hceiling⟩ :=
    unusedCredit_bounds env hpaid account.term.termStart account.term.expiresAt
  rw [← hcredit] at hamount hceiling
  have hnet : preview.netPayable = preview.newPrice - preview.appliedCredit := rfl
  refine ⟨by omega, ?_, ?_, hceiling, ?_⟩
  · rw [happlied]
    exact le_min hamount hnew
  · rw [happlied]
    exact min_le_left _ _
  · rw [hnet, happlied, sub_nonneg]
    exact min_le_right _ _

/-- The new price is prorated by the days of the term, and credit and payment make it up. -/
structure FairUpgrade (env : Env) (account : HostingAccount) (termStart expiresAt : Moment)
    (preview : UpgradePreview) : Prop where
  prorated : Prorated preview.fullTermPrice (termDays env termStart expiresAt)
    (daysLeft env termStart expiresAt) preview.newPrice
  sum : preview.appliedCredit + preview.netPayable = preview.newPrice
  applied_nonneg : 0 ≤ preview.appliedCredit
  applied_le : preview.appliedCredit ≤ preview.credit.amount
  credit_le : preview.credit.amount ≤ account.term.termPaid
  net_nonneg : 0 ≤ preview.netPayable

/-- **When an upgrade is fair.** The days come out of the credit, so a term nothing was paid for
    is charged in full; that is its share only where the term has no days or where the days
    that are over cost nothing. -/
theorem previewUpgrade_fair_iff {termStart expiresAt : Moment}
    (hstart : account.term.termStart = some termStart)
    (hend : account.term.expiresAt = some expiresAt) (hruns : env.now < expiresAt)
    (hpaid : 0 ≤ account.term.termPaid)
    (h : previewUpgrade env providers account newPk = .ok preview) :
    FairUpgrade env account termStart expiresAt preview
      ↔ 0 < account.term.termPaid ∨ termDays env termStart expiresAt ≤ 0
        ∨ 2 * preview.fullTermPrice
            * (termDays env termStart expiresAt - daysLeft env termStart expiresAt)
          ≤ termDays env termStart expiresAt := by
  obtain ⟨hsum, happlied, hle, hceiling, hnet⟩ := previewUpgrade_money hpaid h
  have hfair : FairUpgrade env account termStart expiresAt preview
      ↔ Prorated preview.fullTermPrice (termDays env termStart expiresAt)
          (daysLeft env termStart expiresAt) preview.newPrice :=
    ⟨FairUpgrade.prorated, fun hprice => ⟨hprice, hsum, happlied, hle, hceiling, hnet⟩⟩
  obtain ⟨hcredit, -, hfull, _, expiresAt', -, hend', hprice⟩ := previewUpgrade_spec h
  obtain rfl := Option.some.inj (hend.symm.trans hend')
  unfold upgradePrice at hprice
  rw [if_pos hruns] at hprice
  obtain ⟨hnew, -⟩ := Prod.mk.inj (Except.ok.inj hprice)
  rw [hfair, ← hnew, hcredit, hstart, hend]
  rcases hpaid.lt_or_eq with hpos | hzero
  · exact ⟨fun _ => .inl hpos, fun _ => unusedCredit_prorated hpos termStart expiresAt _⟩
  · -- nothing was paid: no credit, no days, the full price
    rw [unusedCredit_unpaid hzero.symm.le]
    show Prorated _ _ _ preview.fullTermPrice ↔ _
    obtain ⟨hleft, hbound⟩ := daysLeft_bounds env termStart expiresAt
    unfold Prorated
    by_cases hdays : 0 < termDays env termStart expiresAt
    · rw [if_pos hdays, money_share_eq_iff hfull hdays hleft (hbound hdays)]
      constructor
      · intro hshare
        exact .inr (.inr hshare)
      · rintro (hpos | hnone | hshare)
        · exact absurd hzero hpos.ne
        · exact absurd hdays (not_lt.mpr hnone)
        · exact hshare
    · rw [if_neg hdays]
      exact ⟨fun _ => .inr (.inl (not_lt.mp hdays)), fun _ => rfl⟩

end Preview

/-! ### A term nothing was paid for -/

private theorem january_isMonth : 1 ≤ 1 ∧ 1 ≤ 12 := by decide

/-- Noon of a day of January 2024. -/
def noonOf (day : ℕ) (h : 1 ≤ day ∧ day ≤ 31) : Moment where
  date := ⟨2024, 1, day, january_isMonth, h⟩
  micros := 43200 * microsPerSecond

private theorem first_valid : 1 ≤ 1 ∧ 1 ≤ 31 := by decide

private theorem sixteenth_valid : 1 ≤ 16 ∧ 16 ≤ 31 := by decide

private theorem last_valid : 1 ≤ 31 ∧ 31 ≤ 31 := by decide

/-- January 16. -/
def midJanuary : Env where
  now := noonOf 16 sixteenth_valid
  localdate := fun moment => moment.date.toOrdinal
  isoDay := fun _ => "2024-01-16"
  clients := fun _ => { currency := "USD" }

private theorem noSetupFee : (0 : ℤ) ≤ 0 := le_refl 0

/-- A plan with one monthly price. -/
def soldMonthly (name : String) (price : ℤ) (h : 0 ≤ price) : Product where
  name := name
  type := "shared"
  whmPackageName := name
  prices := [{ billingCycle := .monthly, price, price_nonneg := h, setupFee_nonneg := noSetupFee }]

private theorem smallPrice_nonneg : (0 : ℤ) ≤ 500 := by decide

private theorem largePrice_nonneg : (0 : ℤ) ≤ 1000 := by decide

/-- Plan 1 at 5.00 and plan 2 at 10.00. -/
def twoPlans : Providers where
  products
    | 1 => some (soldMonthly "small" 500 smallPrice_nonneg)
    | 2 => some (soldMonthly "large" 1000 largePrice_nonneg)
    | _ => none
  tldPricings := []
  changePackage := fun _ _ => .ok ()
  renewDomain := fun _ _ => .error .crashed

/-- Plan 1 from January 1 to January 31, with `termPaid` paid for it. -/
def januaryAccount (termPaid : ℤ) : HostingAccount where
  client := 1
  domain := "example.com"
  placement := { product := 1, server := none, status := .active }
  term := {
    billingCycle := "monthly"
    termStart := some (noonOf 1 first_valid), expiresAt := some (noonOf 31 last_valid), termPaid }

/-- Half the month is left, so half the price is charged. -/
private theorem previewUpgrade_paid :
    (previewUpgrade midJanuary twoPlans (januaryAccount 500) 2).map
      (fun preview => (preview.newPrice, preview.appliedCredit)) = .ok (500, 250) := by
  decide +kernel

/-- All of it is charged where the plan was free. -/
private theorem previewUpgrade_free :
    (previewUpgrade midJanuary twoPlans (januaryAccount 0) 2).map
      (fun preview => (preview.newPrice, preview.fullTermPrice)) = .ok (1000, 1000) := by
  decide +kernel

theorem previewUpgrade_fair_january :
    ∃ preview, previewUpgrade midJanuary twoPlans (januaryAccount 500) 2 = .ok preview
      ∧ preview.newPrice = 500
      ∧ FairUpgrade midJanuary (januaryAccount 500) (noonOf 1 first_valid) (noonOf 31 last_valid)
          preview := by
  obtain ⟨preview, hpreview, hvalues⟩ := map_eq_ok.mp previewUpgrade_paid
  exact ⟨preview, hpreview, (Prod.mk.inj hvalues).1,
    (previewUpgrade_fair_iff rfl rfl (by decide) (by decide) hpreview).mpr (.inl (by decide))⟩

/-- **A free plan's upgrade is charged in full**, though half the term is over. -/
theorem not_previewUpgrade_fair :
    ¬∀ (env : Env) (providers : Providers) (account : HostingAccount) (newPk : ℕ)
        (preview : UpgradePreview) (termStart expiresAt : Moment),
      account.term.termStart = some termStart → account.term.expiresAt = some expiresAt →
      termStart < expiresAt → env.now < expiresAt → 0 ≤ account.term.termPaid →
      previewUpgrade env providers account newPk = .ok preview →
      FairUpgrade env account termStart expiresAt preview := by
  intro h
  obtain ⟨preview, hpreview, hvalues⟩ := map_eq_ok.mp previewUpgrade_free
  obtain ⟨hnew, hfull⟩ := Prod.mk.inj hvalues
  have hfair := (h midJanuary twoPlans (januaryAccount 0) 2 preview _ _ rfl rfl (by decide)
    (by decide) (by decide) hpreview).prorated
  rw [hnew, hfull] at hfair
  exact absurd hfair (by unfold Prorated; decide +kernel)

end WPanel.Renewals
