import WPanel.Affiliates.Services
import WPanel.Site.Effects

namespace WPanel.Affiliates

open WPanel.Lib WPanel.Billing WPanel.Site

/-!
# The affiliate programme beside the panel

The programme hears of money through the signals of billing (`affiliates/signals.py`) and
otherwise runs on its own.  Panel and programme together are one machine: a call of the panel
is followed by the receivers of the signals it sent, in the same transaction.

What becomes of affiliates and of the settings is part of a run: people join, are reviewed and
suspended, and the rules of the programme change at any time.
-/

/-- The panel and the programme. -/
structure State where
  panel : Panel := {}
  program : Store := {}
  deriving DecidableEq

/-- The receivers of one signal; `billing` holds the invoices as they were saved. -/
def hear (now : Moment) (billing : Billing.Store) (signal : Signal) (s : Store) :
    Except Err Store :=
  match signal with
  | .invoicePaid pk => do
    let l ← Billing.lockInvoice billing pk
    onInvoicePaid now pk l.invoice s
  | .invoiceRefunded pk => do
    let l ← Billing.lockInvoice billing pk
    return onInvoiceRefunded now pk l.invoice s
  | .invoiceCancelled _ => .ok s

/-- The receivers of each signal in turn. -/
def hearAll (now : Moment) (billing : Billing.Store) : List Signal → Store → Except Err Store
  | [], s => .ok s
  | signal :: rest, s => do
    let s ← hear now billing signal s
    hearAll now billing rest s

/-- When a call of the panel that can send signals runs. -/
def moment : Site.Act → Option Moment
  | .billing w _ => some w.env.now
  | .checkout w .. => some w.env.now
  | .cancelOrder w .. => some w.env.now
  | .createHostingRenewal w .. => some w.env.now
  | .createDomainRenewal w .. => some w.env.now
  | .createUpgrade w .. => some w.env.now
  | .buyAddon w .. => some w.env.now
  | .retryChange w .. => some w.env.now
  | .shop .. => none
  | .order _ => none
  | .service _ => none

/-- A call of the panel, and the programme's receivers after it. -/
def siteCall (act : Site.Act) (s : State) : Except Err (State × List Event) := do
  let (panel, events) ← Site.exec act s.panel
  match moment act with
  | none => return ({ s with panel }, events)
  | some now =>
    let program ← hearAll now panel.billing (signalsOf events) s.program
    return ({ panel, program }, events)

/-- The calls of the programme itself. -/
inductive ProgramCall where
  | attributeSignup (now : Moment) (contacts : ℕ → List ℕ) (client : ℕ) (code : String)
  | attributeClient (now : Moment) (actor : Actor) (contacts : ℕ → List ℕ) (client pk : ℕ)
  /-- Someone joins. -/
  | join (affiliate : Affiliate)
  /-- An affiliate is reviewed, edited or suspended. -/
  | placeAffiliate (pk : ℕ) (affiliate : Affiliate)
  | configure (settings : AffiliateSettings)
  | approveCommission (now : Moment) (actor : Actor) (pk : ℕ)
  | rejectCommission (now : Moment) (actor : Actor) (pk : ℕ) (note : String)
  /-- One round of `run_approvals`, for a commission of its list. -/
  | approveDue (now : Moment) (pk : ℕ)
  | recordPayout (today : ℕ) (actor : Actor) (affiliate : ℕ) (method reference : String)
      (paidOn : Option ℕ) (chosen : Option (List ℕ))

/-- What a call of the programme does to it. -/
def ProgramCall.exec (call : ProgramCall) (s : Store) : Except Err Store :=
  match call with
  | .attributeSignup now contacts client code =>
    .ok (Affiliates.attributeSignup now contacts client code s)
  | .attributeClient now actor contacts client pk =>
    Affiliates.attributeClient now actor contacts client pk s
  | .join affiliate => .ok { s with affiliates := s.affiliates.insert affiliate }
  | .placeAffiliate pk affiliate =>
    (getAffiliate s pk).map fun _ => { s with affiliates := s.affiliates.put pk affiliate }
  | .configure settings => .ok { s with settings }
  | .approveCommission now actor pk => Affiliates.approveCommission now actor pk s
  | .rejectCommission now actor pk note => Affiliates.rejectCommission now actor pk note s
  | .approveDue now pk => .ok (Affiliates.approveDue now pk s)
  | .recordPayout today actor affiliate method reference paidOn chosen =>
    (Affiliates.recordPayout today actor affiliate method reference paidOn chosen s).map Prod.snd

/-- Every call. -/
inductive Act where
  | site (act : Site.Act)
  | program (call : ProgramCall)

def exec : Act → State → Except Err (State × List Event)
  | .site act, s => siteCall act s
  | .program call, s => (call.exec s.program).map fun program => ({ s with program }, [])

/-- The panel with its affiliate programme. -/
def machine : Machine State Act Event Err := ⟨exec⟩

/-! ### Reading a call back -/

section

variable {s s' : State} {events : List Event}

/-- What a call of the panel does to the programme: the receivers hear every signal. -/
theorem siteCall_eq_ok {act : Site.Act} (h : siteCall act s = .ok (s', events)) :
    Site.exec act s.panel = .ok (s'.panel, events)
      ∧ ((moment act = none ∧ s'.program = s.program) ∨ ∃ now, moment act = some now ∧
        hearAll now s'.panel.billing (signalsOf events) s.program = .ok s'.program) := by
  unfold siteCall at h
  simp only [bind_eq_ok, Prod.exists] at h
  obtain ⟨panel, events', hexec, h⟩ := h
  split at h
  · next hmoment =>
    cases h
    exact ⟨hexec, .inl ⟨hmoment, rfl⟩⟩
  · next now hmoment =>
    simp only [bind_eq_ok, pure_eq_ok, Prod.mk.injEq] at h
    obtain ⟨program, hheard, rfl, rfl⟩ := h
    exact ⟨hexec, .inr ⟨now, hmoment, hheard⟩⟩

/-- A call of the programme leaves the panel alone. -/
theorem programCall_eq_ok {call : ProgramCall}
    (h : exec (.program call) s = .ok (s', events)) :
    call.exec s.program = .ok s'.program ∧ s'.panel = s.panel ∧ events = [] := by
  obtain ⟨program, hcall, heq⟩ := map_eq_ok.mp h
  cases heq
  exact ⟨hcall, rfl, rfl⟩

theorem getAffiliate_eq_ok {p : Store} {affiliate : Affiliate} {pk : ℕ} :
    getAffiliate p pk = .ok affiliate ↔ p.affiliates.get? pk = some affiliate := by
  unfold getAffiliate
  cases p.affiliates.get? pk <;> simp

/-- What has to be there for an invoice to earn, and what it earns. -/
theorem earned_eq_some {now : Moment} {pk : ℕ} {invoice : Invoice} {p : Store} {c : Commission}
    (h : earned now pk invoice p = .ok (some c)) :
    ∃ referral affiliate, p.referralOf invoice.client = some (c.referral, referral)
      ∧ p.affiliates.get? referral.affiliate = some affiliate ∧ p.settings.enabled = true
      ∧ affiliate.isActive = true ∧ p.commissionOn pk = none
      ∧ withinTerm now p c.referral referral invoice = .ok true
      ∧ 0 < invoice.subtotal - invoice.discountTotal
      ∧ c.invoice = pk ∧ c.amount = c.originalAmount ∧ 0 < c.originalAmount := by
  unfold earned at h
  split at h
  · cases h
  · next referralPk referral hreferral =>
    simp only [bind_eq_ok, getAffiliate_eq_ok] at h
    obtain ⟨affiliate, haffiliate, h⟩ := h
    split at h
    · cases h
    · next hon =>
      split at h
      · cases h
      · next hnew =>
        simp only [bind_eq_ok] at h
        obtain ⟨within, hwithin, h⟩ := h
        split at h
        · cases h
        · next hterm =>
          split at h
          · cases h
          · next hpositive =>
            cases h
            push Not at hon hpositive
            rw [Bool.not_eq_false] at hterm
            subst hterm
            exact ⟨referral, affiliate, hreferral, haffiliate, by simpa using hon.1,
              by simpa using hon.2, by simpa using hnew, hwithin, hpositive.1, rfl, rfl,
              hpositive.2⟩

/-- What every receiver keeps, a call of the panel keeps. -/
theorem hearAll_invariant {now : Moment} {billing : Billing.Store} {I : Store → Prop}
    (hstep : ∀ signal p p', I p → hear now billing signal p = .ok p' → I p')
    {signals : List Signal} {p p' : Store} (hp : I p)
    (h : hearAll now billing signals p = .ok p') : I p' := by
  induction signals generalizing p with
  | nil => cases h; exact hp
  | cons signal rest ih =>
    simp only [hearAll, bind_eq_ok] at h
    obtain ⟨p₁, hfirst, hrest⟩ := h
    exact ih (hstep signal p p₁ hp hfirst) hrest

end

end WPanel.Affiliates
