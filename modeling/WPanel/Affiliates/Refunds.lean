import WPanel.Affiliates.Cents
import WPanel.Affiliates.Payouts
import WPanel.Site.Paying

namespace WPanel.Affiliates

open WPanel.Lib WPanel.Billing WPanel.Site

/-!
# Refunds follow the money

A commission is earned when its invoice is paid in full, and lowered when money is given back.
What it should be at any time is its original amount times the part of the money that was
kept.

* `RefundsFollowed` — every unpaid commission is just that;
* `keptPart_eq` — the part, read off the amounts on the invoice;
* `Scaled` — what keeps it so;
* `PaysAfterRefund` — the payment that breaks it: it comes after money was given back, and
  either earns a commission or adds to an invoice that has one;
* `LosesCent` — the refund that breaks it: it leaves half a cent, and the part is rounded down;
* `refunds_followed` — a run with neither keeps it.
-/

/-- A commission that is neither paid out nor rejected. -/
def Commission.Unpaid (commission : Commission) : Prop :=
  commission.status = .pending ∨ commission.status = .approved

instance (commission : Commission) : Decidable commission.Unpaid := by
  unfold Commission.Unpaid
  infer_instance

/-- Every unpaid commission is its original amount times the part of the money on its invoice
    that was kept. -/
def RefundsFollowed (s : State) : Prop :=
  ∀ k c, s.program.commissions.get? k = some c → c.Unpaid →
    ∃ l, s.panel.billing.invoices.get? c.invoice = some l ∧ c.amount
      = money (dec c.originalAmount * (dec (l.paidTotal - l.refundedTotal) / dec l.paidTotal))

/-! ### The part that is kept -/

section

variable {l : Ledger}

/-- The part of the money that was kept, read off the amounts on the invoice. -/
theorem keptPart_eq (hs : Sound l) :
    keptPart l.invoice = dec (l.paidTotal - l.refundedTotal) / dec l.paidTotal := by
  rw [hs.paid, hs.refunded, keptPart]

/-- Where nothing was given back all of it was kept. -/
theorem keptPart_one {invoice : Invoice} (hpaid : 0 < invoice.amountPaid)
    (hrefunded : invoice.amountRefunded = 0) : keptPart invoice = 1 := by
  rw [keptPart, hrefunded, sub_zero, div_self (dec_pos.mpr hpaid).ne']

/-- The part is read off the amounts paid and given back. -/
theorem keptPart_congr {invoice invoice' : Invoice}
    (hpaid : invoice'.amountPaid = invoice.amountPaid)
    (hrefunded : invoice'.amountRefunded = invoice.amountRefunded) :
    keptPart invoice' = keptPart invoice := by
  rw [keptPart, keptPart, hpaid, hrefunded]

/-- Tax is never negative, so a commission is earned on no more than the total. -/
theorem base_le_total (hs : Sound l) (htax : 0 ≤ l.invoice.taxTotal) :
    l.invoice.subtotal - l.invoice.discountTotal ≤ l.invoice.total := by
  have hfigures : l.invoice.subtotal - l.invoice.discountTotal + l.invoice.taxTotal
      = l.invoice.total := hs.lines.figures
  omega

/-- No step makes the tax of an invoice negative. -/
theorem step_taxed {pk : ℕ} {act : Billing.Act} {l' : Ledger} {out : List Signal}
    (h : Step pk act l l' out) (htax : 0 ≤ l.invoice.taxTotal) : 0 ≤ l'.invoice.taxTotal := by
  cases h with
  | edit _ _ _ hnew => exact hnew
  | issue _ _ _ _ hnew => exact hnew
  | _ => exact htax

end

/-! ### What earns -/

/-- A payment that completes the invoice now would earn: its client was referred by an active
    affiliate, the programme runs, and it is the first invoice, or within the months, that
    counts. -/
def Qualifies (now : Moment) (s : Store) (pk : ℕ) (invoice : Invoice) : Prop :=
  s.settings.enabled = true ∧ s.commissionOn pk = none
    ∧ 0 < invoice.subtotal - invoice.discountTotal
    ∧ ∃ referralPk referral affiliate, s.referralOf invoice.client = some (referralPk, referral)
      ∧ s.affiliates.get? referral.affiliate = some affiliate ∧ affiliate.isActive = true
      ∧ withinTerm now s referralPk referral invoice = .ok true

section

variable {now : Moment} {pk : ℕ} {invoice : Invoice} {s s' : Store} {c : Commission}

/-- An invoice that earns qualifies, and the commission on it starts at its original amount. -/
theorem earned_qualifies (h : earned now pk invoice s = .ok (some c)) :
    Qualifies now s pk invoice ∧ c.invoice = pk ∧ c.amount = c.originalAmount
      ∧ 0 < c.originalAmount := by
  obtain ⟨referral, affiliate, hreferral, haffiliate, henabled, hactive, hnew, hwithin, hbase,
    hinvoice, horiginal⟩ := earned_eq_some h
  exact ⟨⟨henabled, hnew, hbase, c.referral, referral, affiliate, hreferral, haffiliate, hactive,
    hwithin⟩, hinvoice, horiginal⟩

/-- What qualifies is read off the client, the figures and the date the invoice was paid. -/
theorem Qualifies.congr {invoice' : Invoice} (hclient : invoice'.client = invoice.client)
    (hfigures : invoice'.figures = invoice.figures)
    (hpaidAt : invoice'.paidAt.getD now = invoice.paidAt.getD now)
    (h : Qualifies now s pk invoice') : Qualifies now s pk invoice := by
  obtain ⟨henabled, hnew, hbase, referralPk, referral, affiliate, hreferral, haffiliate, hactive,
    hwithin⟩ := h
  have hsubtotal : invoice'.subtotal = invoice.subtotal := congrArg Figures.subtotal hfigures
  have hdiscount : invoice'.discountTotal = invoice.discountTotal :=
    congrArg Figures.discountTotal hfigures
  rw [hsubtotal, hdiscount] at hbase
  rw [hclient] at hreferral
  rw [withinTerm, hpaidAt] at hwithin
  exact ⟨henabled, hnew, hbase, referralPk, referral, affiliate, hreferral, haffiliate, hactive,
    hwithin⟩

/-- What `on_invoice_paid` does: nothing, or it adds the commission. -/
theorem onInvoicePaid_cases (h : onInvoicePaid now pk invoice s = .ok s') : s' = s ∨
    ∃ c, earned now pk invoice s = .ok (some c)
      ∧ s' = { s with commissions := s.commissions.insert c } := by
  unfold onInvoicePaid at h
  simp only [bind_eq_ok] at h
  obtain ⟨found, hearned, h⟩ := h
  split at h
  · cases h
    exact .inl rfl
  · next c =>
    cases h
    obtain ⟨⟨_, hnew, _⟩, hinvoice, _⟩ := earned_qualifies hearned
    refine .inr ⟨c, hearned, ?_⟩
    rw [Store.addCommission, hinvoice, hnew]
    rfl

end

/-! ### Commissions and what was kept -/

/-- An invoice has one commission at most. -/
def OneEach (commissions : Table Commission) : Prop :=
  ∀ k k' c c', commissions.get? k = some c → commissions.get? k' = some c' →
    c.invoice = c'.invoice → k = k'

/-- An unpaid commission is scaled to what was kept of the money on its invoice. -/
def ScaledOn (l : Ledger) (c : Commission) : Prop :=
  l.invoice.status ≠ .draft ∧ 0 < l.invoice.amountPaid
    ∧ (c.Unpaid → 0 < c.originalAmount
      ∧ c.amount = money (dec c.originalAmount * keptPart l.invoice))

/-- Every commission is on an invoice that was paid, and scaled to what was kept. -/
structure Scaled (invoices : Table Ledger) (commissions : Table Commission) : Prop where
  one : OneEach commissions
  scaled : commissions.Forall fun _ c => ∃ l, invoices.get? c.invoice = some l ∧ ScaledOn l c

/-- Commissions that are reviewed or paid out: none is added, none becomes unpaid again, and
    an unpaid one keeps its amounts. -/
def Reviewed (commissions commissions' : Table Commission) : Prop :=
  ∀ k c', commissions'.get? k = some c' → ∃ c, commissions.get? k = some c
    ∧ c'.invoice = c.invoice ∧ c'.referral = c.referral
    ∧ (c'.Unpaid → c.Unpaid ∧ c'.originalAmount = c.originalAmount ∧ c'.amount = c.amount)

section

variable {invoices invoices' : Table Ledger} {commissions commissions' : Table Commission}
  {s s' : Store} {now : Moment} {pk k : ℕ} {l l' : Ledger} {c : Commission}

theorem Scaled.empty : Scaled {} {} := by
  refine ⟨fun k k' c c' h => ?_, .empty⟩
  rw [Table.get?_empty] at h
  cases h

theorem ScaledOn.congr (h : ScaledOn l c) (hissued : l'.invoice.status ≠ .draft)
    (hpaid : l'.invoice.amountPaid = l.invoice.amountPaid)
    (hrefunded : l'.invoice.amountRefunded = l.invoice.amountRefunded) : ScaledOn l' c := by
  obtain ⟨_, hpos, hamount⟩ := h
  refine ⟨hissued, by omega, fun hunpaid => ?_⟩
  rw [keptPart_congr hpaid hrefunded]
  exact hamount hunpaid

theorem Scaled.reviewed (h : Scaled invoices commissions)
    (hreviewed : Reviewed commissions commissions') : Scaled invoices commissions' := by
  refine ⟨fun k k' c c' hc hc' hinvoice => ?_, fun k c hc => ?_⟩
  · obtain ⟨b, hb, hsame, _⟩ := hreviewed k c hc
    obtain ⟨b', hb', hsame', _⟩ := hreviewed k' c' hc'
    exact h.one k k' b b' hb hb' (hsame.symm.trans (hinvoice.trans hsame'))
  · obtain ⟨b, hb, hsame, _, hunpaid⟩ := hreviewed k c hc
    obtain ⟨l, hl, hissued, hpos, hamount⟩ := h.scaled k b hb
    refine ⟨l, hsame ▸ hl, hissued, hpos, fun hc => ?_⟩
    obtain ⟨hb, horiginal, hsameAmount⟩ := hunpaid hc
    rw [hsameAmount, horiginal]
    exact hamount hb

/-- The invoices of the commissions may change, as long as each stays scaled. -/
theorem Scaled.invoices_changed (h : Scaled invoices commissions)
    (hinvoices : ∀ k c l, commissions.get? k = some c → invoices.get? c.invoice = some l →
      ScaledOn l c → ∃ l', invoices'.get? c.invoice = some l' ∧ ScaledOn l' c) :
    Scaled invoices' commissions := by
  refine ⟨h.one, fun k c hc => ?_⟩
  obtain ⟨l, hl, hscaled⟩ := h.scaled k c hc
  exact hinvoices k c l hc hl hscaled

/-- Where no money moves every commission stays scaled. -/
theorem Scaled.unmoved {out : List Signal} (h : Scaled invoices commissions)
    (hm : Moves NoMoney invoices invoices' out) : Scaled invoices' commissions := by
  refine h.invoices_changed fun k c l _ hl hscaled => ?_
  obtain ⟨l', hl', hissued, hpaid, hrefunded⟩ := moves_unmoved hm hl hscaled.1
  exact ⟨l', hl', hscaled.congr hissued hpaid hrefunded⟩

theorem commissionOn_eq_some (h : s.commissionOn pk = some (k, c)) :
    s.commissions.get? k = some c ∧ c.invoice = pk := by
  have hmem := List.mem_of_find?_eq_some h
  have hpk := List.find?_some h
  exact ⟨Table.mem_entries.mp hmem, by simpa using hpk⟩

theorem commissionOn_eq_none (h : s.commissionOn pk = none) (hc : s.commissions.get? k = some c) :
    c.invoice ≠ pk := by
  have hnot := List.find?_eq_none.mp h (k, c) (Table.mem_entries.mpr hc)
  simpa using hnot

/-- A new commission, scaled to what was kept, on an invoice that had none. -/
theorem Scaled.insert (h : Scaled invoices s.commissions) (hnew : s.commissionOn c.invoice = none)
    (hl : invoices.get? c.invoice = some l) (hscaled : ScaledOn l c) :
    Scaled invoices (s.commissions.insert c) := by
  have hne : ∀ k b, s.commissions.get? k = some b → b.invoice ≠ c.invoice :=
    fun k b hb => commissionOn_eq_none hnew hb
  refine ⟨fun k k' b b' hb hb' hinvoice => ?_, h.scaled.insert ⟨l, hl, hscaled⟩⟩
  rw [Table.get?_insert] at hb hb'
  split at hb
  · next hk =>
    split at hb'
    · next hk' => exact hk.trans hk'.symm
    · cases hb
      exact absurd hinvoice.symm (hne k' b' hb')
  · split at hb'
    · cases hb'
      exact absurd hinvoice (hne k b hb)
    · exact h.one k k' b b' hb hb' hinvoice

/-! ### A refund -/

/-- What a refund leaves of an unpaid commission. -/
theorem refunded_unpaid (invoice : Invoice) :
    (c.refunded now invoice).invoice = c.invoice
      ∧ ((c.refunded now invoice).Unpaid → c.Unpaid
        ∧ (c.refunded now invoice).originalAmount = c.originalAmount
        ∧ (c.refunded now invoice).amount = money (adjusted c.originalAmount invoice)) := by
  unfold Commission.refunded
  dsimp only
  split
  · next hrejected =>
    refine ⟨rfl, fun hunpaid => ?_⟩
    rcases hunpaid with h | h <;> rw [hrejected] at h <;> cases h
  · next hnot =>
    split
    · next hpaid =>
      refine ⟨rfl, fun hunpaid => ?_⟩
      rcases hunpaid with h | h <;> rw [show c.status = .paid from hpaid] at h <;> cases h
    · next hdue =>
      have hunpaid : c.Unpaid := by
        unfold Commission.Unpaid
        cases hstatus : c.status with
        | pending => exact .inl rfl
        | approved => exact .inr rfl
        | paid => exact absurd hstatus hdue
        | rejected => exact absurd hstatus hnot
      split
      · next hsame => exact ⟨rfl, fun _ => ⟨hunpaid, rfl, hsame.symm⟩⟩
      · split
        · refine ⟨rfl, fun hvoided => ?_⟩
          rcases hvoided with h | h <;> cases h
        · exact ⟨rfl, fun _ => ⟨hunpaid, rfl, rfl⟩⟩

/-- **A refund keeps every commission scaled**: the one on its invoice is lowered, to the right
    cent. -/
theorem Scaled.refund (h : Scaled invoices s.commissions) (hl : invoices.get? pk = some l)
    (hissued : l'.invoice.status ≠ .draft) (hpaid : l'.invoice.amountPaid = l.invoice.amountPaid)
    (hcent : ∀ k c, s.commissions.get? k = some c → c.invoice = pk → c.Unpaid →
      0 < c.originalAmount →
      money (adjusted c.originalAmount l'.invoice)
        = money (dec c.originalAmount * keptPart l'.invoice)) :
    Scaled (invoices.put pk l') (onInvoiceRefunded now pk l'.invoice s).commissions := by
  have hother : ∀ b : Commission, b.invoice ≠ pk →
      (∃ a, invoices.get? b.invoice = some a ∧ ScaledOn a b) →
      ∃ a, (invoices.put pk l').get? b.invoice = some a ∧ ScaledOn a b := by
    rintro b hne ⟨a, ha, hscaled⟩
    exact ⟨a, by rw [Table.get?_put_of_ne hne, ha], hscaled⟩
  unfold onInvoiceRefunded
  split
  · next hnone =>
    refine ⟨h.one, fun k b hb => ?_⟩
    exact hother b (commissionOn_eq_none hnone hb) (h.scaled k b hb)
  · next k c hfound =>
    obtain ⟨hc, rfl⟩ := commissionOn_eq_some hfound
    obtain ⟨hinvoice, hunpaid⟩ := @refunded_unpaid now c l'.invoice
    refine ⟨fun j j' b b' hb hb' hsame => ?_, fun j b hb => ?_⟩
    · rcases Table.get?_put_cases hc hb with ⟨rfl, rfl⟩ | ⟨_, hold⟩ <;>
        rcases Table.get?_put_cases hc hb' with ⟨rfl, rfl⟩ | ⟨_, hold'⟩
      · rfl
      · exact h.one _ _ c b' hc hold' (hinvoice.symm.trans hsame)
      · exact h.one _ _ b c hold hc (hsame.trans hinvoice)
      · exact h.one _ _ b b' hold hold' hsame
    · rcases Table.get?_put_cases hc hb with ⟨rfl, rfl⟩ | ⟨hj, hold⟩
      · obtain ⟨a, ha, _, hpos, hscaled⟩ := h.scaled j c hc
        cases hl.symm.trans ha
        refine ⟨l', by rw [hinvoice, Table.get?_put_self hl], hissued, by omega, fun hafter => ?_⟩
        obtain ⟨hbefore, horiginal, hamount⟩ := hunpaid hafter
        rw [horiginal, hamount]
        exact ⟨(hscaled hbefore).1, hcent j c hc rfl hbefore (hscaled hbefore).1⟩
      · refine hother b (fun hsame => hj ?_) (h.scaled j b hold)
        exact h.one j k b c hold hc hsame

end

/-! ### A payment -/

/-- A payment succeeds on an invoice part of whose money was given back before, and the
    invoice has an unpaid commission, or is completed now and qualifies for one. -/
def PaysAfterRefund (s : State) : Act → Prop
  | .site a => ∃ pk amount l, Pays s.panel.billing a pk amount
      ∧ s.panel.billing.invoices.get? pk = some l ∧ l.refundedTotal ≠ 0
      ∧ ((∃ k c, s.program.commissions.get? k = some c ∧ c.invoice = pk ∧ c.Unpaid) ∨
        (l.invoice.status ∈ openStatuses ∧ l.invoice.total ≤ l.paidTotal + amount
          ∧ ∃ now, moment a = some now ∧ Qualifies now s.program pk l.invoice))
  | .program _ => False

/-- A refund leaves an unpaid commission on its invoice at half a cent, and the part that is kept
    then is rounded down. -/
def LosesCent (s : State) : Act → Prop
  | .site (.billing _ (.refundPayment _ id amount _)) =>
    ∃ l ∈ s.panel.billing.invoices.get? id.invoice, ∃ payment ∈ l.transactions[id.index]?,
      ∃ refund ∈ (amountOr amount (refundableAmount l id.index payment)).toOption,
        ∃ entry ∈ s.program.commissions.entries, entry.2.invoice = id.invoice ∧ entry.2.Unpaid
          ∧ RoundedDown entry.2.originalAmount (l.paidTotal - (l.refundedTotal + refund))
            l.paidTotal
  | _ => False

instance (s : State) (a : Act) : Decidable (LosesCent s a) := by
  unfold LosesCent
  split <;> infer_instance

/-- The amounts on invoices and commissions fit their columns. -/
structure InColumns (s : State) : Prop where
  paid : s.panel.billing.invoices.Forall fun _ l => l.paidTotal < columnLimit
  original : s.program.commissions.Forall fun _ c => c.originalAmount < columnLimit

section

variable {panel panel' : Panel} {p p' : Store} {now : Moment} {signals : List Signal} {pk : ℕ}
  {amount : ℤ} {l : Ledger} {txs : List Transaction}

/-- A payment keeps every commission scaled, unless money was given back before. -/
theorem Scaled.booked (h : Scaled panel.billing.invoices p.commissions)
    (hbooked : Booked panel panel' now signals pk amount l txs)
    (hunpaid : l.invoice.amountRefunded ≠ 0 →
      ∀ k c, p.commissions.get? k = some c → c.invoice = pk → ¬c.Unpaid) :
    Scaled panel'.billing.invoices p.commissions := by
  refine h.invoices_changed fun k c a hc ha hscaled => ?_
  rw [hbooked.invoices]
  by_cases hpk : c.invoice = pk
  · rw [hpk, hbooked.invoice] at ha
    cases ha
    obtain ⟨hissued, hpos, hamount⟩ := hscaled
    have hpaid : 0 < (l.book now pk txs).1.invoice.amountPaid := by
      have := hbooked.pos
      rw [book_amountPaid, hbooked.paid]
      omega
    refine ⟨_, by rw [hpk, Table.get?_put_self hbooked.invoice], ?_, hpaid, fun hc' => ?_⟩
    · rw [Ne, book_status_draft]
      exact hissued
    · -- nothing was given back, so all of the money is kept before and after
      by_cases hrefunded : l.invoice.amountRefunded = 0
      · have hsame := hamount hc'
        rw [keptPart_one hpos hrefunded] at hsame
        rw [keptPart_one hpaid (by rw [book_amountRefunded, hbooked.refunded, hrefunded])]
        exact hsame
      · exact absurd hc' (hunpaid hrefunded k c hc hpk)
  · exact ⟨a, by rw [Table.get?_put_of_ne hpk, ha], hscaled⟩

/-- What a booked payment announces: its invoice as paid, when it completes it. -/
theorem booked_signals (hbooked : Booked panel panel' now signals pk amount l txs) :
    signals = [] ∨ signals = [.invoicePaid pk] ∧ l.invoice.status ∈ openStatuses
      ∧ (l.book now pk txs).1.invoice.status = .paid := by
  have hrefunded : ¬(l.book now pk txs).1.invoice.amountRefunded ≠ l.invoice.amountRefunded := by
    rw [book_amountRefunded, hbooked.refunded]
    exact not_not.mpr rfl
  rw [hbooked.signals, book_signals, if_neg hrefunded, List.append_nil]
  split
  · next h => exact .inr ⟨rfl, h.2, h.1⟩
  · exact .inl rfl

/-- Hearing of a single invoice that was paid. -/
theorem hearAll_paid (h : hearAll now panel'.billing [.invoicePaid pk] p = .ok p') :
    ∃ l', panel'.billing.invoices.get? pk = some l'
      ∧ onInvoicePaid now pk l'.invoice p = .ok p' := by
  simp only [hearAll, hear, bind_eq_ok, lockInvoice_eq_ok] at h
  obtain ⟨p₁, ⟨l', hl', hpaid⟩, hrest⟩ := h
  cases hrest
  exact ⟨l', hl', hpaid⟩

/-- **A payment and what is earned by it** keep every commission scaled, unless money was given
    back before. -/
theorem Scaled.paid (h : Scaled panel.billing.invoices p.commissions) (hs : Kept panel'.billing)
    (htaxed : ∀ q l, panel'.billing.invoices.get? q = some l → 0 ≤ l.invoice.taxTotal)
    (hbooked : Booked panel panel' now signals pk amount l txs)
    (hunpaid : l.invoice.amountRefunded ≠ 0 →
      ∀ k c, p.commissions.get? k = some c → c.invoice = pk → ¬c.Unpaid)
    (hearns : l.invoice.amountRefunded ≠ 0 → l.invoice.status ∈ openStatuses →
      l.invoice.total ≤ l.invoice.amountPaid + amount → ¬Qualifies now p pk l.invoice)
    (hheard : hearAll now panel'.billing signals p = .ok p') :
    Scaled panel'.billing.invoices p'.commissions := by
  have hkept := h.booked hbooked hunpaid
  rcases booked_signals hbooked with rfl | ⟨rfl, hopen, hstatus⟩
  · cases hheard
    exact hkept
  obtain ⟨l', hl', hpaid⟩ := hearAll_paid hheard
  have hget := hl'
  rw [hbooked.invoices, Table.get?_put_self hbooked.invoice] at hget
  cases hget
  rcases onInvoicePaid_cases hpaid with rfl | ⟨c, hearned, rfl⟩
  · exact hkept
  obtain ⟨hqualifies, rfl, hamount, horiginal⟩ := earned_qualifies hearned
  have hsound := hs.invoices _ _ hl'
  have hcovered := hsound.total_le_paid hstatus
  rw [book_total, book_amountPaid, hbooked.paid] at hcovered
  -- the invoice has something to pay, and its new commission the original amount
  have hbase := base_le_total hsound (htaxed _ _ hl')
  have hpos := hqualifies.2.2.1
  rw [book_total] at hbase
  have hrefunded : l.invoice.amountRefunded = 0 := by
    by_contra hne
    refine hearns hne hopen hcovered
      (hqualifies.congr (book_client _ _ _ _) (book_figures _ _ _ _) ?_)
    rw [book_paidAt, if_pos (.inl hstatus), Option.getD_some]
  have hpaidPos : 0 < (l.book now c.invoice txs).1.invoice.amountPaid := by
    rw [book_amountPaid, hbooked.paid]
    omega
  refine hkept.insert hqualifies.2.1 hl' ⟨by rw [hstatus]; nofun, hpaidPos, fun _ => ?_⟩
  rw [keptPart_one hpaidPos (by rw [book_amountRefunded, hbooked.refunded, hrefunded]), mul_one,
    money_dec, hamount]
  exact ⟨horiginal, rfl⟩

/-- Where no money moves nothing is earned and nothing is lowered. -/
theorem hearAll_unmoved {panel : Panel} (hs : Kept panel.billing)
    (htaxed : ∀ q l, panel.billing.invoices.get? q = some l → 0 ≤ l.invoice.taxTotal)
    (hrefunded : ∀ q, .invoiceRefunded q ∉ signals)
    (hpaid : ∀ q, .invoicePaid q ∈ signals →
      ∃ l, panel.billing.invoices.get? q = some l ∧ l.invoice.total = 0)
    (h : hearAll now panel.billing signals p = .ok p') : p' = p := by
  induction signals with
  | nil => cases h; rfl
  | cons signal rest ih =>
    simp only [hearAll, bind_eq_ok] at h
    obtain ⟨p₁, hfirst, hrest⟩ := h
    have hsame : p₁ = p := by
      cases signal with
      | invoiceCancelled q => cases hfirst; rfl
      | invoiceRefunded q => exact absurd List.mem_cons_self (hrefunded q)
      | invoicePaid q =>
        simp only [hear, bind_eq_ok, lockInvoice_eq_ok] at hfirst
        obtain ⟨l, hl, hearn⟩ := hfirst
        obtain ⟨l₁, hl₁, h0⟩ := hpaid q List.mem_cons_self
        cases hl.symm.trans hl₁
        rcases onInvoicePaid_cases hearn with hsame | ⟨c, hearned, _⟩
        · exact hsame
        · -- an invoice of zero does not qualify
          have hbase := base_le_total (hs.invoices q l hl) (htaxed q l hl)
          have hpos := (earned_qualifies hearned).1.2.2.1
          omega
    subst hsame
    exact ih (fun q hmem => hrefunded q (List.mem_cons_of_mem _ hmem))
      (fun q hmem => hpaid q (List.mem_cons_of_mem _ hmem)) hrest

end

/-! ### Review and payouts -/

section

variable {s s' : Store} {pk : ℕ} {c c' : Commission}

theorem Reviewed.refl (commissions : Table Commission) : Reviewed commissions commissions :=
  fun _ c hc => ⟨c, hc, rfl, rfl, fun h => ⟨h, rfl, rfl⟩⟩

/-- A commission that is reviewed. -/
theorem Reviewed.put (hc : s.commissions.get? pk = some c) (hinvoice : c'.invoice = c.invoice)
    (hreferral : c'.referral = c.referral)
    (hunpaid : c'.Unpaid →
      c.Unpaid ∧ c'.originalAmount = c.originalAmount ∧ c'.amount = c.amount) :
    Reviewed s.commissions (s.putCommission pk c').commissions := by
  intro k b hb
  replace hb : (s.commissions.put pk c').get? k = some b := hb
  rw [Table.get?_put hc] at hb
  split at hb
  · next hk =>
    subst hk
    cases hb
    exact ⟨c, hc, hinvoice, hreferral, hunpaid⟩
  · exact ⟨b, hb, rfl, rfl, fun h => ⟨h, rfl, rfl⟩⟩

/-- **The calls of the programme review and pay out**, and earn nothing. -/
theorem programCall_reviewed {call : ProgramCall} (h : call.exec s = .ok s') :
    Reviewed s.commissions s'.commissions := by
  cases call with
  | attributeSignup now contacts client code =>
    cases h
    rw [show (attributeSignup now contacts client code s).commissions = s.commissions by
      unfold attributeSignup
      dsimp only
      split
      · rfl
      · split
        · rfl
        · split <;> rfl]
    exact .refl _
  | attributeClient =>
    simp only [ProgramCall.exec, attributeClient, bind_eq_ok, pure_eq_ok] at h
    obtain ⟨_, _, _, _, _, _, _, _, _, _, rfl⟩ := h
    exact .refl _
  | join => cases h; exact .refl _
  | placeAffiliate =>
    obtain ⟨_, _, rfl⟩ := map_eq_ok.mp h
    exact .refl _
  | configure => cases h; exact .refl _
  | approveCommission now actor pk =>
    simp only [ProgramCall.exec, approveCommission, bind_eq_ok, requirePerm_eq_ok,
      lockCommission_eq_ok, ensure_eq_ok, exists_and_left, exists_const, pure_eq_ok] at h
    obtain ⟨_, c, hc, hpending, _, rfl⟩ := h
    exact .put hc rfl rfl fun _ => ⟨.inl hpending, rfl, rfl⟩
  | rejectCommission now actor pk note =>
    simp only [ProgramCall.exec, rejectCommission, bind_eq_ok, requirePerm_eq_ok,
      lockCommission_eq_ok, ensure_eq_ok, exists_and_left, exists_const, pure_eq_ok] at h
    obtain ⟨_, _, c, hc, hunpaid, rfl⟩ := h
    exact .put hc rfl rfl fun _ => ⟨hunpaid, rfl, rfl⟩
  | approveDue now pk =>
    cases h
    unfold approveDue
    split
    · exact .refl _
    · next c hc =>
      split
      · exact .refl _
      · next hdue =>
        push Not at hdue
        exact .put hc rfl rfl fun _ => ⟨.inl hdue.1, rfl, rfl⟩
  | recordPayout =>
    obtain ⟨⟨q, p⟩, hrecord, rfl⟩ := map_eq_ok.mp h
    simp only [recordPayout, bind_eq_ok, ensure_eq_ok, exists_and_left, exists_const, pure_eq_ok,
      Prod.mk.injEq] at hrecord
    obtain ⟨_, _, _, _, _, _, _, _, _, _, _, _, _, rfl, rfl⟩ := hrecord
    intro k b hb
    rw [Table.get?_updateKeys] at hb
    split at hb
    · -- a commission that was paid out is not unpaid any more
      obtain ⟨c, hc, rfl⟩ := Option.map_eq_some_iff.mp hb
      refine ⟨c, hc, rfl, rfl, fun hunpaid => ?_⟩
      rcases hunpaid with h | h <;> cases h
    · exact ⟨b, hb, rfl, rfl, fun h => ⟨h, rfl, rfl⟩⟩

end

/-! ### Runs -/

/-- What keeps unpaid commissions following the money. -/
structure Following (s : State) : Prop where
  kept : Kept s.panel.billing
  taxed : s.panel.billing.invoices.Forall fun _ l => 0 ≤ l.invoice.taxTotal
  scaled : Scaled s.panel.billing.invoices s.program.commissions

theorem Following.refundsFollowed {s : State} (h : Following s) : RefundsFollowed s := by
  intro k c hc hunpaid
  obtain ⟨l, hl, _, _, hamount⟩ := h.scaled.scaled k c hc
  refine ⟨l, hl, ?_⟩
  rw [← keptPart_eq (h.kept.invoices _ l hl)]
  exact (hamount hunpaid).2

/-- A call of the panel and what the programme hears of it. -/
theorem Following.site {s s' : State} {a : Site.Act} {events : List Event} (h : Following s)
    (hcall : siteCall a s = .ok (s', events)) (hfits : InColumns s)
    (hcond : ¬PaysAfterRefund s (.site a)) (hcent : ¬LosesCent s (.site a)) : Following s' := by
  obtain ⟨hexec, hprogram⟩ := siteCall_eq_ok hcall
  obtain ⟨hmoves, hkept⟩ := exec_moves h.kept hexec
  have htaxed : s'.panel.billing.invoices.Forall fun _ l => 0 ≤ l.invoice.taxTotal :=
    hmoves.preserve (fun _ _ _ hborn => hborn.tax)
      (fun _ _ _ _ _ _ hstep htax => step_taxed hstep htax) h.taxed
  refine ⟨hkept, htaxed, ?_⟩
  -- only a refund and a payment reach the commissions
  by_cases hrefund : a.isRefund = true
  · cases a with
    | billing w call =>
      cases call with
      | refundPayment actor id amount gateway =>
        obtain ⟨l, payment, tx, hl, hpayment, hamount, htype, hstatus, hstep, hinvoices,
          hsignals⟩ :=
          refund_cases hexec
        have hsound := h.kept.invoices _ l hl
        rcases hprogram with ⟨hnone, _⟩ | ⟨now, _, hheard⟩
        · cases hnone
        rw [hsignals, hstep.refund_signals hsound] at hheard
        simp only [hearAll, hear, bind_eq_ok, lockInvoice_eq_ok, pure_eq_ok] at hheard
        obtain ⟨p, ⟨l', hl', hheard⟩, hrest⟩ := hheard
        cases hrest
        rw [hinvoices, Table.get?_put_self hl] at hl'
        cases hl'
        rw [hinvoices, ← hheard]
        -- a refund leaves what was paid
        have hpaidSame : (l.book w.env.now id.invoice (l.transactions ++ [tx])).1.invoice.amountPaid
            = l.invoice.amountPaid := by
          rw [book_amountPaid, hsound.book_refund_paid htype]
        refine h.scaled.refund hl ?_ hpaidSame fun k c hc hon hunpaid horiginal => ?_
        · rw [Ne, book_status_draft]
          exact hsound.issued_of_transaction hpayment
        · -- the commission is on this invoice, which was paid
          obtain ⟨l', hl', _, hpos, _⟩ := h.scaled.scaled k c hc
          rw [hon, hl] at hl'
          cases hl'
          have hbooked := (hkept.invoices id.invoice _ (by
            rw [hinvoices, Table.get?_put_self hl]) : Sound _)
          have hpaid : Paid (l.book w.env.now id.invoice (l.transactions ++ [tx])).1.invoice :=
            ⟨by omega, hbooked.refunded_nonneg, hbooked.refunded_le_paid⟩
          refine hpaid.money_adjusted horiginal.le (hfits.original k c hc) ?_ fun hdown => hcent ?_
          · rw [hpaidSame, ← hsound.paid]
            exact hfits.paid _ l hl
          · refine ⟨l, hl, payment, hpayment, tx.amount, by rw [hamount]; rfl, (k, c),
              Table.mem_entries.mpr hc, hon, hunpaid, ?_⟩
            rw [hpaidSame, book_amountRefunded, hsound.book_refund_refunded htype hstatus] at hdown
            rwa [hsound.paid, hsound.refunded]
      | _ => cases hrefund
    | _ => cases hrefund
  rcases paying_cases h.kept hexec (Bool.not_eq_true _ ▸ hrefund) with hunmoved |
    ⟨w, call, pk, amount, l, txs, rfl, hpays, hbooked⟩
  · have hscaled := h.scaled.unmoved hunmoved
    rcases hprogram with ⟨_, hsame⟩ | ⟨now, _, hheard⟩
    · rw [hsame]
      exact hscaled
    · rw [hearAll_unmoved hkept htaxed (fun q => (moves_zero_signal hunmoved).1)
        (fun q hmem => ?_) hheard]
      · exact hscaled
      · obtain ⟨l, hl, _, h0⟩ := (moves_zero_signal hunmoved).2 hmem
        exact ⟨l, hl, h0⟩
  · rcases hprogram with ⟨hnone, _⟩ | ⟨now, hmoment, hheard⟩
    · cases hnone
    have hsound := h.kept.invoices pk l hbooked.invoice
    cases hmoment
    refine h.scaled.paid hkept htaxed hbooked (fun hne k c hc hpk hunpaid => hcond ?_)
      (fun hne hopen hcovered hqualifies => hcond ?_) hheard
    · refine ⟨pk, amount, l, hpays, hbooked.invoice, ?_, .inl ⟨k, c, hc, hpk, hunpaid⟩⟩
      rw [hsound.refunded]
      exact hne
    · refine ⟨pk, amount, l, hpays, hbooked.invoice, ?_,
        .inr ⟨hopen, ?_, _, rfl, hqualifies⟩⟩
      · rw [hsound.refunded]
        exact hne
      · rw [hsound.paid]
        exact hcovered

/-- **In a run without payments that succeed on an invoice part of whose money was given back
    before, and either add to an unpaid commission's invoice or complete one that qualifies, and
    without refunds that lose the half of a cent, every unpaid commission is its original amount
    times the part of the money that was kept**, in every state. -/
theorem refunds_followed (as : List Act)
    (h : machine.EachStep (fun s a _ => InColumns s ∧ ¬PaysAfterRefund s a ∧ ¬LosesCent s a)
      as {}) :
    machine.Always RefundsFollowed as {} := by
  refine Machine.always_of_eachStep (m := machine) (I := Following)
    (fun _ hI => hI.refundsFollowed) ?_ as {} ⟨Kept.empty, .empty, Scaled.empty⟩ h
  rintro a s s' events hI hcommits hcond
  cases a with
  | site a => exact hI.site hcommits hcond.1 hcond.2.1 hcond.2.2
  | program call =>
    obtain ⟨hcall, hpanel, _⟩ := programCall_eq_ok hcommits
    refine ⟨by rw [hpanel]; exact hI.kept, by rw [hpanel]; exact hI.taxed, ?_⟩
    rw [hpanel]
    exact hI.scaled.reviewed (programCall_reviewed hcall)

/-- An affiliate joins and is credited with a client. -/
def creditClient : List Act := [
  .program (.join { user := 1, code := "friend", status := .active }),
  .program (.attributeClient smallEnv.now staff (fun _ => []) 0 0)]

/-- A referred client pays an invoice of 100.00, and gets 20.00 back. -/
def refundAfterEarned : List Act := creditClient ++ [
  Act.site draftInvoice, .site (.billing smallWorld (.issueInvoice staff 0)),
  .site (receive0 10000), .site (refund0 0 2000)]

/-- Before the refund nothing had been given back, and 80/100 is a decimal, so the commission
    follows it: 8.00. -/
theorem refunds_followed_after_earned : machine.Always RefundsFollowed refundAfterEarned {} := by
  refine refunds_followed _ (Machine.eachStep_of_trace fun p hp => ?_)
  have hall : ∀ p ∈ machine.trace refundAfterEarned {},
      (∀ entry ∈ p.1.panel.billing.invoices.entries,
        entry.2.refundedTotal = 0 ∧ entry.2.paidTotal < columnLimit)
      ∧ (∀ entry ∈ p.1.program.commissions.entries, entry.2.originalAmount < columnLimit)
      ∧ ¬LosesCent p.1 p.2 := by
    decide +kernel
  obtain ⟨hinvoices, hcommissions, hcent⟩ := hall p hp
  refine ⟨⟨fun pk l hl => (hinvoices (pk, l) (Table.mem_entries.mpr hl)).2,
    fun k c hc => hcommissions (k, c) (Table.mem_entries.mpr hc)⟩, fun hpays => ?_, hcent⟩
  obtain ⟨s, _ | _⟩ := p
  · obtain ⟨pk, amount, l, _, hl, hne, _⟩ := hpays
    exact hne (hinvoices (pk, l) (Table.mem_entries.mpr hl)).1
  · exact hpays

/-- An invoice of 100.00 gets 40.00, of which 20.00 are given back. -/
def invoicePartRefunded : List Act := [
  .site draftInvoice, .site (.billing smallWorld (.issueInvoice staff 0)),
  .site (receive0 4000), .site (refund0 0 2000)]

/-- The referred client pays the rest: another 60.00. -/
def earnedAfterRefund : List Act :=
  creditClient ++ invoicePartRefunded ++ [Act.site (receive0 6000)]

/-- The commission is 10.00, although of 100.00 only 80.00 were kept. -/
theorem earned_after_refund : ¬machine.Always RefundsFollowed earnedAfterRefund {} := by
  intro h
  have hrun : let s := machine.run earnedAfterRefund {}
      ∃ c ∈ s.program.commissions.get? 0, c.Unpaid ∧ c.invoice = 0
        ∧ ∀ l ∈ s.panel.billing.invoices.get? 0, c.amount ≠ money (dec c.originalAmount
          * (dec (l.paidTotal - l.refundedTotal) / dec l.paidTotal)) := by
    decide +kernel
  obtain ⟨c, hc, hunpaid, hinvoice, hne⟩ := hrun
  obtain ⟨l, hl, hamount⟩ := h.last 0 c hc hunpaid
  rw [hinvoice] at hl
  exact hne l hl hamount

end WPanel.Affiliates
