import WPanel.Affiliates.Models
import WPanel.Lib.Decimals
import WPanel.Renewals.Services

namespace WPanel.Affiliates

open WPanel.Lib WPanel.Billing

/-!
# Earning, reviewing and paying commissions

`affiliates/services.py`: attribution, the commission a paid invoice earns, what a refund does
to it, the review, and payouts.

* `attributeSignup`, `attributeClient` — which affiliate a client came from;
* `earned`, `onInvoicePaid` — what a paid invoice earns, and earning it;
* `onInvoiceRefunded` — refunds follow the money;
* `approveCommission`, `rejectCommission`, `approveDue` — the review;
* `recordPayout` — the approved commissions are paid.
-/

/-! ### Attribution -/

/-- `_is_own_client(affiliate, client)`; `contacts` are the users who are contacts of the
    client. -/
def isOwnClient (contacts : ℕ → List ℕ) (affiliate : Affiliate) (client : ℕ) : Bool :=
  affiliate.user ∈ contacts client

/-- `Referral.objects.filter(client_id=client).first()`. -/
def Store.referralOf (s : Store) (client : ℕ) : Option (ℕ × Referral) :=
  s.referrals.entries.find? fun entry => entry.2.client = client

def Store.addReferral (s : Store) (referral : Referral) : Store :=
  { s with referrals := s.referrals.insert referral }

/-- A new client came in with a referral code.  Anything wrong with the code is ignored. -/
def attributeSignup (now : Moment) (contacts : ℕ → List ℕ) (client : ℕ) (code : String)
    (s : Store) : Store :=
  let code := (strip code).map Char.toLower
  if code = "" ∨ s.settings.enabled = false then s
  else
    match s.affiliates.entries.find? fun entry => entry.2.code = code ∧ entry.2.isActive with
    | none => s
    | some (pk, affiliate) =>
      if isOwnClient contacts affiliate client ∨ (s.referralOf client).isSome then s
      else s.addReferral { affiliate := pk, client, source := .link, createdAt := now }

/-- `Affiliate.objects.get(pk=pk)`. -/
def getAffiliate (s : Store) (pk : ℕ) : Except Err Affiliate :=
  match s.affiliates.get? pk with
  | some affiliate => .ok affiliate
  | none => .error (.doesNotExist "Affiliate")

/-- Staff: an existing client was referred.  One affiliate per client, ever. -/
def attributeClient (now : Moment) (actor : Actor) (contacts : ℕ → List ℕ) (client pk : ℕ)
    (s : Store) : Except Err Store := do
  requirePerm actor .manageAffiliates
  let affiliate ← getAffiliate s pk
  ensure (affiliate.isActive = true)
    (serviceError "Only an active affiliate can be credited with a client." "affiliate_inactive")
  ensure (isOwnClient contacts affiliate client = false)
    (serviceError "An affiliate cannot be credited with their own account." "self_referral")
  ensure (s.referralOf client = none)
    (serviceError "This client already has a referring affiliate." "already_referred")
  return s.addReferral { affiliate := pk, client, source := .staff, createdAt := now }

/-! ### The commission rule -/

/-- The affiliate's own rule if they have one, else the programme's. -/
def ruleFor (affiliate : Affiliate) (config : AffiliateSettings) : CommissionKind × Decimal :=
  affiliate.rule.getD (config.commissionKind, config.commissionValue)

/-- The commission on `base`: a percentage of it, or a fixed amount, never more than the base. -/
def commissionFor (kind : CommissionKind) (value : Decimal) (base : ℤ) : ℤ :=
  match kind with
  | .percentage => money (dec base * value / 100)
  | .fixed => money (min value (dec base))

/-- What an operation on `Decimal`s makes of its exact result: 28 digits, halves to the even one.
    It matters only here, where a quotient is multiplied before it is rounded to cents. -/
def inContext (exact : Decimal) : Decimal := toPrecision 28 exact

/-- `_net_factor(invoice)`: how much of what was paid is still kept. -/
def netFactor (invoice : Invoice) : Decimal :=
  if invoice.amountPaid ≤ 0 then 0
  else max 0 (min 1 (inContext
    (dec (invoice.amountPaid - invoice.amountRefunded) / dec invoice.amountPaid)))

/-! ### Earning -/

/-- The commissions a referral has earned. -/
def Store.hasEarned (s : Store) (referral : ℕ) : Bool :=
  s.commissions.entries.any fun entry => entry.2.referral = referral

/-- The commission of an invoice. -/
def Store.commissionOn (s : Store) (invoice : ℕ) : Option (ℕ × Commission) :=
  s.commissions.entries.find? fun entry => entry.2.invoice = invoice

/-- An invoice paid by now may still earn: within the months of a recurring programme, or as
    the first of its referral. -/
def withinTerm (now : Moment) (s : Store) (referralPk : ℕ) (referral : Referral)
    (invoice : Invoice) : Except Err Bool :=
  if s.settings.recurringMonths ≠ 0 then do
    let last ← Renewals.monthsLater referral.createdAt s.settings.recurringMonths
    return ¬last < invoice.paidAt.getD now
  else .ok (¬s.hasEarned referralPk)

/-- The commission `on_invoice_paid` creates for an invoice, if it qualifies. -/
def earned (now : Moment) (pk : ℕ) (invoice : Invoice) (s : Store) :
    Except Err (Option Commission) :=
  match s.referralOf invoice.client with
  | none => .ok none
  | some (referralPk, referral) => do
    let affiliate ← getAffiliate s referral.affiliate
    if s.settings.enabled = false ∨ affiliate.isActive = false then return none
    else if (s.commissionOn pk).isSome then return none
    else
      let within ← withinTerm now s referralPk referral invoice
      if within = false then return none
      else
        let base := invoice.subtotal - invoice.discountTotal
        let (kind, value) := ruleFor affiliate s.settings
        let amount := commissionFor kind value base
        if base ≤ 0 ∨ amount ≤ 0 then return none
        else
          let holdOver := s.settings.holdDays = 0
          return some {
            affiliate := referral.affiliate, referral := referralPk, invoice := pk
            currency := invoice.currency, baseAmount := base, kind, rate := value
            originalAmount := amount, amount
            eligibleAt := now.instant + s.settings.holdDays * microsPerDay
            status := if holdOver then .approved else .pending
            decidedAt := if holdOver then some now else none }

/-- `Commission.objects.create(…)`; an invoice has one commission at most. -/
def Store.addCommission (s : Store) (commission : Commission) : Store :=
  if (s.commissionOn commission.invoice).isSome then s
  else { s with commissions := s.commissions.insert commission }

/-- An invoice was paid in full: earn the referring affiliate their commission. -/
def onInvoicePaid (now : Moment) (pk : ℕ) (invoice : Invoice) (s : Store) : Except Err Store := do
  match ← earned now pk invoice s with
  | none => return s
  | some commission => return s.addCommission commission

/-! ### Refunds -/

/-- What a refund on its invoice makes of a commission. -/
def Commission.refunded (now : Moment) (invoice : Invoice) (commission : Commission) :
    Commission :=
  if commission.status = .rejected then commission
  else if commission.status = .paid then { commission with needsReview := true }
  else
    let amount := money (inContext (dec commission.originalAmount * netFactor invoice))
    if amount = commission.amount then commission
    else if amount ≤ 0 then
      { commission with
        amount, status := .rejected, note := "The invoice was refunded.", decidedAt := some now }
    else { commission with amount }

/-- Money was refunded on an invoice: lower or void an unpaid commission; flag one that was
    already paid out. -/
def onInvoiceRefunded (now : Moment) (pk : ℕ) (invoice : Invoice) (s : Store) : Store :=
  match s.commissionOn pk with
  | none => s
  | some (k, commission) =>
    { s with commissions := s.commissions.put k (commission.refunded now invoice) }

/-! ### Review -/

/-- `Commission.objects.select_for_update().get(pk=pk)`. -/
def lockCommission (s : Store) (pk : ℕ) : Except Err Commission :=
  match s.commissions.get? pk with
  | some commission => .ok commission
  | none => .error (.doesNotExist "Commission")

def Store.putCommission (s : Store) (pk : ℕ) (commission : Commission) : Store :=
  { s with commissions := s.commissions.put pk commission }

/-- Staff: approve a pending commission now. -/
def approveCommission (now : Moment) (actor : Actor) (pk : ℕ) (s : Store) : Except Err Store := do
  requirePerm actor .manageAffiliates
  let commission ← lockCommission s pk
  ensure (commission.status = .pending)
    (serviceError "Only a pending commission can be approved." "invalid_status")
  ensure (0 < commission.amount)
    (serviceError "Nothing is left to pay on this commission." "nothing_due")
  return s.putCommission pk { commission with status := .approved, decidedAt := some now }

/-- Staff: reject a commission that is not paid yet. -/
def rejectCommission (now : Moment) (actor : Actor) (pk : ℕ) (note : String) (s : Store) :
    Except Err Store := do
  requirePerm actor .manageAffiliates
  let note := strip note
  ensure (note ≠ "") (serviceError "Give a reason for rejecting the commission." "note_required")
  let commission ← lockCommission s pk
  ensure (commission.status = .pending ∨ commission.status = .approved)
    (serviceError "Only a pending or approved commission can be rejected." "invalid_status")
  return s.putCommission pk
    { commission with status := .rejected, note := clip 500 note, decidedAt := some now }

/-- The commissions `run_approvals` goes through: pending, their hold over, their affiliate
    active. -/
def Store.due (s : Store) (now : Moment) : List ℕ :=
  (s.commissions.entries.filter fun entry => entry.2.status = .pending
    ∧ entry.2.eligibleAt ≤ now.instant
    ∧ ((s.affiliates.get? entry.2.affiliate).map Affiliate.isActive) = some true).map Prod.fst

/-- One round of `run_approvals`: the commission is locked and looked at again. -/
def approveDue (now : Moment) (pk : ℕ) (s : Store) : Store :=
  match s.commissions.get? pk with
  | none => s
  | some locked =>
    if locked.status ≠ .pending ∨ locked.amount ≤ 0 then s
    else s.putCommission pk { locked with status := .approved, decidedAt := some now }

/-- Approve every pending commission whose hold has ended. -/
def runApprovals (now : Moment) (s : Store) : Store :=
  (s.due now).foldl (fun s pk => approveDue now pk s) s

/-! ### Payouts -/

/-- `payable_commissions(affiliate)`, restricted to the chosen ones. -/
def Store.payable (s : Store) (affiliate : ℕ) (chosen : Option (List ℕ)) :
    List (ℕ × Commission) :=
  s.commissions.entries.filter fun (pk, commission) => commission.affiliate = affiliate
    ∧ commission.status = .approved ∧ commission.payout = none ∧ ∀ pks ∈ chosen, pk ∈ pks

/-- The currency of the commissions of one payout. -/
def oneCurrency (commissions : List (ℕ × Commission)) : Except Err String :=
  match (commissions.map fun (_, commission) => commission.currency).dedup with
  | [currency] => .ok currency
  | _ => .error (serviceError
      "These commissions are in different currencies; pay them separately." "mixed_currency")

/-- What a payout makes of a commission. -/
def Commission.paidBy (payout : ℕ) (commission : Commission) : Commission :=
  { commission with status := .paid, payout := some payout }

/-- Staff: record that an affiliate was paid the approved commissions, all of them or those
    listed. -/
def recordPayout (today : ℕ) (actor : Actor) (affiliatePk : ℕ) (method reference : String)
    (paidOn : Option ℕ) (chosen : Option (List ℕ)) (s : Store) : Except Err (ℕ × Store) := do
  requirePerm actor .manageAffiliates
  let method := strip method
  ensure (method ≠ "")
    (serviceError "Say how the affiliate was paid (for example bank transfer)." "method_required")
  let paidOn := paidOn.getD today
  ensure (paidOn ≤ today)
    (serviceError "The payment date cannot be in the future." "payout_date_invalid")
  let affiliate ← getAffiliate s affiliatePk
  ensure (affiliate.status = .active)
    (serviceError "Only an active affiliate can be paid." "affiliate_inactive")
  let commissions := s.payable affiliatePk chosen
  ensure (commissions ≠ []) (serviceError "There is nothing approved to pay." "nothing_to_pay")
  ensure (∀ pks ∈ chosen, commissions.length = pks.dedup.length)
    (serviceError "Some of those commissions cannot be paid out (already paid, or not approved)."
      "commission_invalid")
  let total := (commissions.map fun (_, commission) => commission.amount).sum
  ensure (s.settings.minimumPayout ≤ total)
    (serviceError ("The minimum payout is " ++ amountText s.settings.minimumPayout
      ++ "; this comes to " ++ amountText total ++ ".") "below_minimum")
  let currency ← oneCurrency commissions
  -- the check constraint of the payout
  ensure (0 < total) (.unexpected "payout_amount_positive")
  let payout := {
    affiliate := affiliatePk, amount := total, currency, method := clip 100 method
    reference := clip 200 (strip reference), paidOn }
  let pk := s.payouts.nextPk
  return (pk, { s with
    payouts := s.payouts.insert payout
    commissions := s.commissions.updateKeys (commissions.map Prod.fst) (Commission.paidBy pk) })

end WPanel.Affiliates
