import WPanel.Billing.Models

namespace WPanel.Affiliates

open WPanel.Lib WPanel.Billing

/-!
# Affiliates, referrals, commissions and payouts

`affiliates/models.py`, as far as the services that earn, review and pay commissions read it.

An affiliate's own commission rule is a kind and a value together, or none: the model's check
constraint.  Where to send an affiliate's money, the visits of a link, the programme's terms
and who reviewed what decide nothing here and are left out.  The end of a hold is kept as an
instant.
-/

inductive CommissionKind where
  | percentage
  | fixed
  deriving DecidableEq, Repr

/-- The single `AffiliateSettings` row. -/
structure AffiliateSettings where
  enabled : Bool := true
  commissionKind : CommissionKind := .percentage
  commissionValue : Decimal := 10
  /-- `0`: only the first paid invoice of a client earns. -/
  recurringMonths : ℕ := 0
  holdDays : ℕ := 14
  minimumPayout : ℤ := 5000
  deriving DecidableEq

inductive AffiliateStatus where
  | pending
  | active
  | suspended
  | rejected
  deriving DecidableEq, Repr

structure Affiliate where
  user : ℕ
  code : String
  status : AffiliateStatus := .pending
  /-- `(commission_kind, commission_value)`; `none` is the programme's rule. -/
  rule : Option (CommissionKind × Decimal) := none
  deriving DecidableEq

def Affiliate.isActive (affiliate : Affiliate) : Bool := affiliate.status = .active

inductive ReferralSource where
  | link
  | staff
  deriving DecidableEq, Repr

/-- Which affiliate a client came from. -/
structure Referral where
  affiliate : ℕ
  client : ℕ
  source : ReferralSource
  createdAt : Moment
  deriving DecidableEq, Repr

inductive CommissionStatus where
  | pending
  | approved
  | paid
  | rejected
  deriving DecidableEq, Repr

/-- A payment made to an affiliate, recorded by staff. -/
structure Payout where
  affiliate : ℕ
  amount : ℤ
  currency : String
  method : String
  reference : String
  paidOn : ℕ
  deriving DecidableEq, Repr

/-- What one paid invoice earned an affiliate. -/
structure Commission where
  affiliate : ℕ
  referral : ℕ
  invoice : ℕ
  status : CommissionStatus
  currency : String
  baseAmount : ℤ
  kind : CommissionKind
  rate : Decimal
  /-- What it was when the invoice was paid. -/
  originalAmount : ℤ
  /-- What it is now. -/
  amount : ℤ
  /-- When the hold ends. -/
  eligibleAt : ℕ
  decidedAt : Option Moment := none
  note : String := ""
  needsReview : Bool := false
  payout : Option ℕ := none
  deriving DecidableEq

/-- Every record of the programme. -/
structure Store where
  settings : AffiliateSettings := {}
  affiliates : Table Affiliate := {}
  referrals : Table Referral := {}
  commissions : Table Commission := {}
  payouts : Table Payout := {}
  deriving DecidableEq

end WPanel.Affiliates
