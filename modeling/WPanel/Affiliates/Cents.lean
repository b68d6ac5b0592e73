import WPanel.Affiliates.Services

namespace WPanel.Affiliates

open WPanel.Lib WPanel.Billing

/-!
# The cent that 28 digits can lose

`on_invoice_refunded` multiplies the original amount of a commission with the part of the money that
was kept.  The part is a quotient, rounded to 28 digits, and so is the product, before it is
rounded to cents.

* `keptPart` — the part itself;
* `RoundedDown` — the product lies exactly half-way between two cents, and the part was rounded
  down;
* `abs_adjusted_sub_lt` — the two roundings move an amount by less than 10⁻¹⁷;
* `floor_eq_of_close` — amounts that have one come to the same cent, or the exact one is half-way;
* `money_adjusted` — **the code finds the right cent, unless the part is `RoundedDown`**.
-/

/-- The part of the money on an invoice that was kept. -/
def keptPart (invoice : Invoice) : Decimal :=
  dec (invoice.amountPaid - invoice.amountRefunded) / dec invoice.amountPaid

/-- A value exactly half-way between two cents. -/
def Halfway (value : Decimal) : Prop := Int.fract (value * 100) = 1 / 2

instance (value : Decimal) : Decidable (Halfway value) := inferInstanceAs (Decidable (_ = _))

/-- An amount of which a part was kept comes to half a cent, and the decimal of 28 digits nearest to
    that part is less than the part. -/
def RoundedDown (original kept paid : ℤ) : Prop :=
  Halfway (dec original * (dec kept / dec paid))
    ∧ inContext (dec kept / dec paid) < dec kept / dec paid

instance (original kept paid : ℤ) : Decidable (RoundedDown original kept paid) :=
  inferInstanceAs (Decidable (_ ∧ _))

/-- `DecimalField(max_digits=12, decimal_places=2)` has no room for as many cents. -/
def columnLimit : ℤ := 10 ^ 12

/-- Money was paid on an invoice, and no more of it was given back. -/
structure Paid (invoice : Invoice) : Prop where
  pos : 0 < invoice.amountPaid
  refunded_nonneg : 0 ≤ invoice.amountRefunded
  refunded_le : invoice.amountRefunded ≤ invoice.amountPaid

section

variable {original : ℤ} {invoice : Invoice}

/-! ### The part -/

theorem Paid.keptPart_nonneg (h : Paid invoice) : 0 ≤ keptPart invoice :=
  div_nonneg (dec_nonneg (sub_nonneg.mpr h.refunded_le)) (dec_pos.mpr h.pos).le

theorem Paid.keptPart_le_one (h : Paid invoice) : keptPart invoice ≤ 1 := by
  refine (div_le_one (dec_pos.mpr h.pos)).mpr ?_
  have := h.refunded_nonneg
  unfold dec
  gcongr
  omega

/-- What the code multiplies with is the part, rounded, and cut off at 0 and 1. -/
theorem Paid.netFactor_eq (h : Paid invoice) :
    netFactor invoice = max 0 (min 1 (inContext (keptPart invoice))) :=
  if_neg (not_le.mpr h.pos)

theorem Paid.netFactor_nonneg (h : Paid invoice) : 0 ≤ netFactor invoice := by
  rw [h.netFactor_eq]
  exact le_max_left _ _

theorem Paid.netFactor_le_one (h : Paid invoice) : netFactor invoice ≤ 1 := by
  rw [h.netFactor_eq]
  exact max_le zero_le_one (min_le_left _ _)

/-- The part is off by half of its 27th digit at most. -/
theorem Paid.abs_netFactor_sub_le (h : Paid invoice) :
    |netFactor invoice - keptPart invoice| ≤ 1 / (2 * 10 ^ 27) := by
  have hnonneg := h.keptPart_nonneg
  have hone := h.keptPart_le_one
  have herror := abs_toPrecision_sub_le_mul 28 (keptPart invoice)
  rw [abs_of_nonneg hnonneg, abs_le] at herror
  have hsmall : keptPart invoice * 10 ^ (1 - (28 : ℕ) : ℤ) / 2 ≤ 1 / (2 * 10 ^ 27) := by
    norm_num
    linarith
  -- the part lies between 0 and 1, so that cutting off there takes nothing further away
  rw [h.netFactor_eq, abs_le]
  unfold inContext
  constructor
  · rcases le_total (toPrecision 28 (keptPart invoice)) 1 with hle | hge
    · rw [min_eq_right hle]
      exact le_trans (by linarith) (sub_le_sub_right (le_max_right _ _) _)
    · rw [min_eq_left hge]
      exact le_trans (by norm_num; linarith) (sub_le_sub_right (le_max_right _ _) _)
  · rw [sub_le_iff_le_add, max_le_iff]
    constructor
    · positivity
    · exact (min_le_right _ _).trans (by linarith)

/-! ### The amount -/

/-- What is left of a commission, before it is rounded to cents. -/
def adjusted (original : ℤ) (invoice : Invoice) : Decimal :=
  inContext (dec original * netFactor invoice)

theorem Paid.adjusted_nonneg (h : Paid invoice) (horiginal : 0 ≤ original) :
    0 ≤ adjusted original invoice :=
  toPrecision_nonneg (mul_nonneg (dec_nonneg horiginal) h.netFactor_nonneg)

theorem dec_lt_of_lt (hlimit : original < columnLimit) : dec original < 10 ^ 10 := by
  have hcast : (original : ℚ) < 10 ^ 12 := by exact_mod_cast hlimit
  rw [dec, div_lt_iff₀ (by norm_num)]
  linarith

/-- **The two roundings move an amount by less than 10⁻¹⁷.** -/
theorem Paid.abs_adjusted_sub_lt (h : Paid invoice) (horiginal : 0 ≤ original)
    (hlimit : original < columnLimit) :
    |adjusted original invoice - dec original * keptPart invoice| < 1 / 10 ^ 17 := by
  have hdec : 0 ≤ dec original := dec_nonneg horiginal
  have hsmall := dec_lt_of_lt hlimit
  have hfactor := mul_le_mul_of_nonneg_left h.abs_netFactor_sub_le hdec
  rw [← abs_of_nonneg hdec, ← abs_mul, abs_of_nonneg hdec, mul_sub] at hfactor
  have hproduct := abs_toPrecision_sub_le_mul 28 (dec original * netFactor invoice)
  have hbelow : |dec original * netFactor invoice| ≤ dec original := by
    rw [abs_of_nonneg (mul_nonneg hdec h.netFactor_nonneg)]
    exact mul_le_of_le_one_right hdec h.netFactor_le_one
  have htriangle := abs_sub_le (adjusted original invoice)
    (dec original * netFactor invoice) (dec original * keptPart invoice)
  rw [abs_mul] at hbelow
  norm_num at hfactor hproduct ⊢
  unfold adjusted inContext at htriangle ⊢
  linarith

/-- An amount in cents that is not half a cent from a whole number of them is at least
    `1 / (2 paid)` from there, which is more than the roundings moved it. -/
theorem floor_eq_of_close {cents w : ℚ} {product paid : ℤ} (hpaid : 0 < paid)
    (hlimit : paid < columnLimit) (hcents : cents * paid = product)
    (hclose : |w - cents| < 1 / (2 * columnLimit))
    (hhalf : Int.fract cents = 1 / 2 → cents ≤ w) : ⌊w + 1 / 2⌋ = ⌊cents + 1 / 2⌋ := by
  have hpos : (0 : ℚ) < paid := by exact_mod_cast hpaid
  have hroom : (1 : ℚ) / (2 * columnLimit) ≤ 1 / (2 * paid) := by
    have : (paid : ℚ) ≤ columnLimit := by exact_mod_cast hlimit.le
    gcongr
  rw [abs_lt] at hclose
  have hfloor : ⌊cents + 1 / 2⌋ ≤ cents + 1 / 2 := Int.floor_le _
  have hceil : cents + 1 / 2 < ⌊cents + 1 / 2⌋ + 1 := Int.lt_floor_add_one _
  generalize ⌊cents + 1 / 2⌋ = n at hfloor hceil
  -- both sides are multiples of 1 / (2 paid), so the difference is no less
  have hgap : ∀ m : ℤ, cents + 1 / 2 < m → cents + 1 / 2 + 1 / (2 * paid) ≤ m := by
    intro m hm
    have hlt : 2 * product + paid < 2 * paid * m := by
      have : 2 * (cents * paid) + paid < 2 * paid * (m : ℚ) := by nlinarith
      rw [hcents] at this
      exact_mod_cast this
    have hint : (2 * product + paid + 1 : ℚ) ≤ 2 * paid * m := by exact_mod_cast hlt
    rw [← hcents] at hint
    refine le_of_mul_le_mul_right (a := 2 * (paid : ℚ)) ?_ (by positivity)
    field_simp
    linarith
  have hgap' : ∀ m : ℤ, (m : ℚ) < cents + 1 / 2 → m + 1 / (2 * paid) ≤ cents + 1 / 2 := by
    intro m hm
    have hlt : 2 * paid * m < 2 * product + paid := by
      have : 2 * paid * (m : ℚ) < 2 * (cents * paid) + paid := by nlinarith
      rw [hcents] at this
      exact_mod_cast this
    have hint : (2 * paid * m + 1 : ℚ) ≤ 2 * product + paid := by exact_mod_cast hlt
    rw [← hcents] at hint
    refine le_of_mul_le_mul_right (a := 2 * (paid : ℚ)) ?_ (by positivity)
    field_simp
    linarith
  have hup := hgap (n + 1) (by exact_mod_cast hceil)
  push_cast at hup
  rw [Int.floor_eq_iff]
  refine ⟨?_, by linarith⟩
  rcases hfloor.eq_or_lt with htie | hlt
  · have hfract : Int.fract cents = 1 / 2 := by
      rw [Int.fract_eq_iff]
      exact ⟨by norm_num, by norm_num, n - 1, by push_cast; linarith⟩
    linarith [hhalf hfract]
  · linarith [hgap' n hlt]

/-- Half-way between two cents, an amount is not rounded below what it should be if its part is not
    rounded down. -/
theorem Paid.le_adjusted (h : Paid invoice) (horiginal : 0 ≤ original)
    (hlimit : original < columnLimit) (hhalf : Halfway (dec original * keptPart invoice))
    (hround : keptPart invoice ≤ inContext (keptPart invoice)) :
    dec original * keptPart invoice ≤ adjusted original invoice := by
  have hdec : 0 ≤ dec original := dec_nonneg horiginal
  have hpart : keptPart invoice ≤ netFactor invoice := by
    rw [h.netFactor_eq]
    exact (le_min h.keptPart_le_one hround).trans (le_max_right _ _)
  have hproduct := mul_le_mul_of_nonneg_left hpart hdec
  have hpos : 0 < dec original * netFactor invoice := by
    refine lt_of_lt_of_le ?_ hproduct
    rcases (mul_nonneg hdec h.keptPart_nonneg).eq_or_lt with hzero | hpos
    · rw [Halfway, ← hzero] at hhalf
      norm_num at hhalf
    · exact hpos
  have hfew : dec original * netFactor invoice < 10 ^ ((28 : ℕ) - (3 : ℕ) : ℤ) := by
    have hbelow := mul_le_of_le_one_right hdec h.netFactor_le_one
    have hsmall := dec_lt_of_lt hlimit
    norm_num at hsmall ⊢
    linarith
  -- half a cent is a number of three places, which rounding to 28 digits does not pass
  obtain ⟨m, hm⟩ : ∃ m : ℤ, dec original * keptPart invoice * 10 ^ 3 = m := by
    refine ⟨⌊dec original * keptPart invoice * 100⌋ * 10 + 5, ?_⟩
    have hsplit := Int.floor_add_fract (dec original * keptPart invoice * 100)
    rw [hhalf] at hsplit
    push_cast
    linarith
  exact le_toPrecision hpos hfew hm hproduct

/-- **Rounded to 28 digits twice, an amount still comes to the same cent**, unless its part is
    rounded down from half-way between two cents. -/
theorem Paid.money_adjusted (h : Paid invoice) (horiginal : 0 ≤ original)
    (hlimit : original < columnLimit) (hpaidLimit : invoice.amountPaid < columnLimit)
    (hdown : ¬RoundedDown original (invoice.amountPaid - invoice.amountRefunded)
      invoice.amountPaid) :
    money (adjusted original invoice) = money (dec original * keptPart invoice) := by
  have hexact := mul_nonneg (dec_nonneg horiginal) h.keptPart_nonneg
  have hadjusted := h.adjusted_nonneg horiginal
  have hcents : dec original * keptPart invoice * 100 * invoice.amountPaid
      = (original * (invoice.amountPaid - invoice.amountRefunded) : ℤ) := by
    have hpos : (invoice.amountPaid : ℚ) ≠ 0 := by exact_mod_cast h.pos.ne'
    unfold keptPart dec
    push_cast
    field_simp
  have hclose : |adjusted original invoice * 100 - dec original * keptPart invoice * 100|
      < 1 / (2 * columnLimit) := by
    have hmoved := h.abs_adjusted_sub_lt horiginal hlimit
    rw [← sub_mul, abs_mul]
    unfold columnLimit
    norm_num at hmoved ⊢
    linarith
  have hhalf : Int.fract (dec original * keptPart invoice * 100) = 1 / 2 →
      dec original * keptPart invoice * 100 ≤ adjusted original invoice * 100 := by
    intro hhalf
    have hround : keptPart invoice ≤ inContext (keptPart invoice) :=
      not_lt.mp fun hlt => hdown ⟨hhalf, hlt⟩
    exact mul_le_mul_of_nonneg_right (h.le_adjusted horiginal hlimit hhalf hround) (by norm_num)
  unfold money
  rw [roundHalfUp_of_nonneg (by positivity), roundHalfUp_of_nonneg (by positivity)]
  exact floor_eq_of_close h.pos hpaidLimit hcents hclose hhalf

/-- 7.75 of 13.00 are given back: of 1.30, 0.525 are left, and the code finds 0.52. -/
example : RoundedDown 130 525 1300
    ∧ money (inContext (dec 130 * inContext (dec 525 / dec 1300))) = 52 := by decide +kernel

end

end WPanel.Affiliates
