import WPanel.Billing.Models

namespace WPanel.Renewals

open WPanel.Lib WPanel.Billing

/-!
# Proration

`renewals/proration.py`: what the unused part of a paid term is worth, and what the rest of
a term costs on another plan.
-/

/-- The value of the unused part of a term. -/
structure Credit where
  termPaid : ℤ
  termDays : ℤ
  remainingDays : ℤ
  amount : ℤ
  deriving DecidableEq, Repr

/-- `NO_CREDIT`. -/
def noCredit : Credit := ⟨0, 0, 0, 0⟩

/-- The value of the unused part of the current term. -/
def unusedCredit (env : Env) (termPaid : ℤ) (termStart expiresAt : Option Moment) : Credit :=
  match termStart, expiresAt with
  | some termStart, some expiresAt =>
    if termPaid ≤ 0 then noCredit
    else
      let today : ℤ := env.today
      let start : ℤ := env.localdate termStart
      let finish : ℤ := env.localdate expiresAt
      let termDays := finish - start
      if termDays ≤ 0 then noCredit
      else
        -- a term that has not started yet is worth all of it
        let remaining := min (finish - today) termDays
        if remaining ≤ 0 then ⟨termPaid, termDays, 0, 0⟩
        else ⟨termPaid, termDays, remaining, min (money (dec termPaid * remaining / termDays))
          termPaid⟩
  | _, _ => noCredit

/-- What the remaining part of the current term is worth at the price of a full term. -/
def proratedCost (fullTermPrice termDays remainingDays : ℤ) : ℤ :=
  if termDays ≤ 0 then fullTermPrice
  else money (dec fullTermPrice * remainingDays / termDays)

/-- A credit is never negative, and never more than what was paid. -/
theorem unusedCredit_bounds (env : Env) {termPaid : ℤ} (h : 0 ≤ termPaid)
    (termStart expiresAt : Option Moment) :
    0 ≤ (unusedCredit env termPaid termStart expiresAt).amount
      ∧ (unusedCredit env termPaid termStart expiresAt).amount ≤ termPaid := by
  unfold unusedCredit
  split
  · next start finish =>
    split
    · exact ⟨le_refl 0, h⟩
    · dsimp only
      split
      · exact ⟨le_refl 0, h⟩
      · next hterm =>
        split
        · exact ⟨le_refl 0, h⟩
        · next hremaining =>
          -- both day counts are positive here, so the share is not negative
          set days : ℤ := (env.localdate finish : ℤ) - env.localdate start
          set remaining : ℤ := min ((env.localdate finish : ℤ) - env.today) days
          have hdays : (0 : ℚ) ≤ days := by exact_mod_cast (not_le.mp hterm).le
          have hleft : (0 : ℚ) ≤ remaining := by exact_mod_cast (not_le.mp hremaining).le
          exact ⟨le_min (money_nonneg (div_nonneg (mul_nonneg (dec_nonneg h) hleft) hdays)) h,
            min_le_right _ _⟩
  · exact ⟨le_refl 0, h⟩

end WPanel.Renewals
