import WPanel.Site.Money
import WPanel.Site.OneLine

namespace WPanel.Site

open WPanel.Lib WPanel.Billing WPanel.Orders WPanel.Renewals

/-!
# What paid for a change, and what a term is worth

* `Invoiced` — every change has an issued invoice that charges its value, less the credit it
  shows; every committed call keeps it so (`Panel.Invoiced.exec`);
* `AppliesPaid` — a change becomes applied only when its invoice received its total;
* `applied_paid` — every run applies changes only so, although not all of that money need
  still be there (`applied_after_refund`);
* `termPaid_le_iff` — the stored value of every term stays within what was charged for it
  exactly as long as no credit was part of what paid for it.
-/

/-- Every change has an issued invoice that charges its value, less a credit. -/
def Invoiced (invoices : Table Ledger) (changes : Table ServiceChange) : Prop :=
  changes.Forall fun _ change => ∃ l, invoices.get? change.invoice = some l
    ∧ l.invoice.status ≠ .draft ∧ change.paidValue = charged l.invoice + l.invoice.discountTotal
    ∧ 0 ≤ l.invoice.discountTotal

/-- The same changes, whatever became of them. -/
def SameChanges : Table ServiceChange → Table ServiceChange → Prop :=
  Table.Related fun _ => ServiceChange.Same

theorem SameChanges.refl (t : Table ServiceChange) : SameChanges t t :=
  Table.Related.refl (fun _ => ServiceChange.Same.refl) t

section Invoiced

variable {invoices invoices' : Table Ledger} {changes changes' : Table ServiceChange}

/-- The invoices of changes stay as they are, whatever moves are made. -/
theorem Invoiced.moves {may : Policy} {out : List Signal} (h : Invoiced invoices changes)
    (hm : Moves may invoices invoices' out) : Invoiced invoices' changes := by
  intro pk change hchange
  obtain ⟨l, hl, hissued, hvalue, hdiscount⟩ := h pk change hchange
  obtain ⟨l', hl', hissued', _, hfigures⟩ := hm.issued_kept hl hissued
  have hsubtotal : l'.invoice.subtotal = l.invoice.subtotal := congrArg Figures.subtotal hfigures
  have htotal : l'.invoice.discountTotal = l.invoice.discountTotal :=
    congrArg Figures.discountTotal hfigures
  refine ⟨l', hl', hissued', ?_, by rw [htotal]; exact hdiscount⟩
  rw [hvalue, charged, charged, hsubtotal, htotal]

theorem Invoiced.same (h : Invoiced invoices changes) (hsame : SameChanges changes changes') :
    Invoiced invoices changes' := by
  intro pk change hchange
  obtain ⟨before, hbefore, hrow⟩ := hsame.some_of hchange
  rw [hrow.invoice, hrow.paidValue]
  exact h pk before hbefore

theorem Invoiced.insert (h : Invoiced invoices changes) {change : ServiceChange} {l : Ledger}
    (hl : invoices.get? change.invoice = some l) (hissued : l.invoice.status ≠ .draft)
    (hvalue : change.paidValue = charged l.invoice + l.invoice.discountTotal)
    (hdiscount : 0 ≤ l.invoice.discountTotal) : Invoiced invoices (changes.insert change) :=
  Table.Forall.insert h ⟨l, hl, hissued, hvalue, hdiscount⟩

/-- Whatever invoices are announced as paid, they charged what their changes are worth. -/
theorem Invoiced.charged {b : Billing.Store} (h : Invoiced b.invoices changes)
    (signals : List Signal) : Charged b signals changes := by
  intro pk change l hchange _ hl
  obtain ⟨l', hl', _, hvalue, hdiscount⟩ := h pk change hchange
  cases hl.symm.trans hl'
  exact ⟨hvalue, hdiscount⟩

end Invoiced

theorem advanced_same {paid : ℕ → Prop} {changes changes' : Table ServiceChange}
    (h : ChangesAdvanced paid changes changes') : SameChanges changes changes' :=
  Table.Related.mono (fun _ _ _ hrow => hrow.1) h

/-- The changes of a panel are invoiced. -/
abbrev Panel.Invoiced (panel : Panel) : Prop :=
  Site.Invoiced panel.billing.invoices panel.renewals.changes

/-! ### The services of accounts, domains and changes -/

/-- What a service of accounts, domains and changes does. -/
inductive Served (s : Renewals.Store) : Renewals.Store → List Renewals.Event → Prop
  | stay : Served s s []
  | requested {account : HostingAccount} (hterm : account.term = {}) :
      Served s { s with accounts := s.accounts.insert account } []
  | placed {pk : ℕ} {account account' : HostingAccount} (hget : s.accounts.get? pk = some account)
      (hterm : account'.term = account.term) : Served s (s.putAccount pk account') []
  | started {pk : ℕ} {account : HostingAccount} {term : Term} {paid : ℤ}
      (hget : s.accounts.get? pk = some account) (hpaid : term.termPaid = paid) :
      Served s (s.putAccount pk { account with term }) [.termStarted pk paid]
  | domains {domains : Table Domain} : Served s { s with domains } []
  | dismissed {pk : ℕ} {change : ServiceChange} (hget : s.changes.get? pk = some change)
      (hfailed : change.status = .failed) :
      Served s (s.putChange pk { change with status := .void }) []
  | done {pk : ℕ} {order order' : AddonOrder} (hget : s.addonOrders.get? pk = some order)
      (hpaid : order.status = .paid) (hdone : order'.status = .done) :
      Served s { s with addonOrders := s.addonOrders.put pk order' } []

theorem serviceCall_served {call : ServiceCall} {s s' : Renewals.Store}
    {events : List Renewals.Event} (h : call.exec s = .ok (s', events)) : Served s s' events := by
  cases call with
  | requestHosting =>
    cases h
    exact .requested rfl
  | placeHosting =>
    obtain ⟨account, hget, heq⟩ := map_eq_ok.mp h
    cases heq
    exact .placed (lockAccount_eq_ok.mp hget) rfl
  | requestDomain =>
    cases h
    exact .domains
  | placeDomain =>
    obtain ⟨domain, _, heq⟩ := map_eq_ok.mp h
    cases heq
    exact .domains
  | startHostingTerm =>
    simp only [ServiceCall.exec, startHostingTerm, bind_eq_ok, lockAccount_eq_ok] at h
    obtain ⟨_, _, account, hget, h⟩ := h
    split at h
    · cases h
      exact .stay
    · simp only [bind_eq_ok, pure_eq_ok, Prod.mk.injEq, freshTerm] at h
      obtain ⟨_, ⟨_, _, rfl⟩, rfl, rfl⟩ := h
      exact .started hget rfl
  | setHostingTerm =>
    simp only [ServiceCall.exec, setHostingTerm, bind_eq_ok, requirePerm_eq_ok, ensure_eq_ok,
      lockAccount_eq_ok, exists_and_left, exists_const, pure_eq_ok, Prod.exists,
      Prod.mk.injEq] at h
    obtain ⟨_, account, hget, _, _, _, _, _, _, _, _, rfl, rfl⟩ := h
    exact .started hget rfl
  | dismissChange =>
    obtain ⟨_, hrun, heq⟩ := map_eq_ok.mp h
    cases heq
    simp only [dismissChange, bind_eq_ok, requirePerm_eq_ok, lockChange_eq_ok, ensure_eq_ok,
      exists_and_left, exists_const, pure_eq_ok] at hrun
    obtain ⟨_, change, hget, hfailed, rfl⟩ := hrun
    exact .dismissed hget hfailed
  | markDone =>
    obtain ⟨_, hrun, heq⟩ := map_eq_ok.mp h
    cases heq
    simp only [markDone, bind_eq_ok, requirePerm_eq_ok, lockAddonOrder_eq_ok, ensure_eq_ok,
      exists_and_left, exists_const, pure_eq_ok] at hrun
    obtain ⟨_, order, hget, hpaid, rfl⟩ := hrun
    exact .done hget hpaid rfl

section Served

variable {s s' : Renewals.Store} {events : List Renewals.Event} {n : ℕ → Tally}

/-- No change becomes applied. -/
theorem Served.changes (h : Served s s' events) :
    ChangesAdvanced (fun _ => False) s.changes s'.changes := by
  cases h with
  | dismissed hget hfailed => exact ChangesAdvanced.put hget ⟨rfl, rfl, rfl, rfl⟩ nofun
  | _ => exact .refl _

/-- A started term is worth what was paid for it; no other term moves. -/
theorem Served.accounted (h : Served s s' events) (hterms : Accounted s.accounts n) :
    Accounted s'.accounts (counted n events) := by
  cases h with
  | requested hterm => exact hterms.insert (by rw [hterm])
  | @placed pk account account' hget hterm =>
    refine hterms.put hget (fun _ _ => rfl) ?_ (hterms.credited pk)
    rw [hterm]
    exact hterms.term pk account hget
  | started hget hpaid =>
    refine hterms.put hget (fun q hq => ?_) ?_ ?_
    · simp [counted, Tally.after, Ne.symm hq]
    · simp [counted, Tally.after, hpaid]
    · simp [counted, Tally.after]
  | _ => exact hterms

end Served

/-! ### What a call does to changes and terms -/

section

variable {panel panel₁ panel' : Panel} {a : Act} {events : List Event}

/-- A call that invoices a change. -/
theorem invoicesChange_cases (ha : a.InvoicesChange)
    (h : exec a panel = .ok (panel', events)) :
    ∃ w service, InvoicesOneLine w service panel panel' events := by
  cases ha with
  | hostingRenewal =>
    simp only [exec, createHostingRenewal, bind_eq_ok, ensure_eq_ok, exists_and_left,
      exists_const] at h
    obtain ⟨_, _, _, h⟩ := h
    exact ⟨_, _, hostingRenewal_cases h⟩
  | domainRenewal =>
    simp only [exec, createDomainRenewal, bind_eq_ok, ensure_eq_ok, exists_and_left,
      exists_const] at h
    obtain ⟨_, _, _, h⟩ := h
    exact ⟨_, _, domainRenewal_cases h⟩
  | upgrade => exact ⟨_, _, createUpgrade_cases h⟩

/-- What invoicing a change does to the invoices, and what follows: the changes are invoiced
    before any receiver hears of it. -/
theorem InvoicesOneLine.invoiced {w : World} {service : Service} (hs : Kept panel.billing)
    (hI : panel.Invoiced) (h : InvoicesOneLine w service panel panel' events) :
    (panel' = panel ∧ events = []) ∨ ∃ b signals change, change.status = .pending
      ∧ Invoiced b.invoices (panel.renewals.changes.insert change)
      ∧ Reacts signals { panel with
          billing := b
          renewals := { panel.renewals with
            changes := panel.renewals.changes.insert change } } panel' events := by
  rcases h with hsame | ⟨client, description, price, discount, change, hrun, hchange⟩
  · exact .inl hsame
  · obtain ⟨l, l', b, signals, lines, hborn, horder, hstep, hinvoices, _, hlines, hsum, hdiscount,
      hreacts⟩ := invoiceChange_steps hs hrun
    obtain ⟨hq, hpending, hvalue, _⟩ := hchange panel.billing.invoices.nextPk
    refine .inr ⟨b, signals, _, hpending, ?_, hreacts⟩
    have hmoves : Moves (fun _ _ _ => True) panel.billing.invoices b.invoices signals := by
      rw [hinvoices]
      exact (Moves.create hborn trivial).after (.step (Table.get?_insert_self _ _) hstep trivial)
    have hget : b.invoices.get? panel.billing.invoices.nextPk = some l' := by
      rw [hinvoices, Table.get?_put_self (Table.get?_insert_self _ _)]
    refine (hI.moves hmoves).insert (by rw [hq]; exact hget) ?_ ?_ hdiscount
    · cases hstep
      simp only [Invoice.opened]
      split <;> decide
    · -- the one line charges the value of the change
      obtain ⟨_, _, rfl⟩ := cleanLines_oneLine_iff.mp hlines
      rw [hvalue, charged, hsum, List.map_singleton, List.sum_singleton]
      dsimp only
      omega

/-- But for a new change, the changes are the same after what a call writes of its own. -/
theorem Own.same {own : List Renewals.Event} (h : Own panel a panel₁ own)
    (ha : ¬a.InvoicesChange) : SameChanges panel.renewals.changes panel₁.renewals.changes := by
  cases h with
  | service h => exact advanced_same (serviceCall_served h).changes
  | change hinvoices => exact absurd hinvoices ha
  | retry hchange =>
    refine advanced_same (?_ : Renewals.ChangesAdvanced (fun _ => True) _ _)
    exact apply_advanced hchange (.refl _) trivial
  | _ => exact .refl _

theorem Own.invoiced {own : List Renewals.Event} (h : Own panel a panel₁ own)
    (ha : ¬a.InvoicesChange) (hI : panel.Invoiced) : panel₁.Invoiced := by
  show Site.Invoiced panel₁.billing.invoices panel₁.renewals.changes
  rw [h.billing_eq]
  exact Site.Invoiced.same hI (h.same ha)

/-- **Every committed call keeps the changes invoiced.** -/
theorem Panel.Invoiced.exec (hI : panel.Invoiced) (hs : Kept panel.billing)
    (h : Site.exec a panel = .ok (panel', events)) : panel'.Invoiced := by
  by_cases ha : a.InvoicesChange
  · obtain ⟨w, _, hline⟩ := invoicesChange_cases ha h
    rcases hline.invoiced hs hI with ⟨rfl, _⟩ | ⟨b, signals, change, _, hb, hreacts⟩
    · exact hI
    · show Site.Invoiced panel'.billing.invoices panel'.renewals.changes
      rw [hreacts.billing]
      exact hb.same (advanced_same hreacts.changes)
  · obtain ⟨panel₁, own, rest, hown, heffect, _⟩ := exec_effect hs h
    exact (Site.Invoiced.moves (hown.invoiced ha hI) heffect.invoices).same
      (advanced_same heffect.changes)

/-- What a call writes of its own keeps the terms accounted for. -/
theorem Own.accounted {own : List Renewals.Event} {n : ℕ → Tally} (h : Own panel a panel₁ own)
    (hI : panel.Invoiced) (hterms : Accounted panel.renewals.accounts n) :
    Accounted panel₁.renewals.accounts (counted n own) := by
  cases h with
  | service h => exact (serviceCall_served h).accounted hterms
  | @retry w actor pk change l hchange hstatus hinvoice hpaid =>
    obtain ⟨l', hl', _, hvalue, hdiscount⟩ := hI pk change hchange
    cases hinvoice.symm.trans hl'
    exact apply_accounted hvalue hdiscount hterms
  | _ => exact hterms

/-- **Every committed call keeps the terms accounted for.** -/
theorem accounted_exec {n : ℕ → Tally} (hs : Kept panel.billing) (hI : panel.Invoiced)
    (hterms : Accounted panel.renewals.accounts n) (h : exec a panel = .ok (panel', events)) :
    Accounted panel'.renewals.accounts (counted n (renewalsOf events)) := by
  by_cases ha : a.InvoicesChange
  · obtain ⟨w, _, hline⟩ := invoicesChange_cases ha h
    rcases hline.invoiced hs hI with ⟨rfl, rfl⟩ | ⟨b, signals, change, _, hb, hreacts⟩
    · exact hterms
    · exact hreacts.terms n (hb.charged signals) hterms
  · obtain ⟨panel₁, own, rest, hown, heffect, rfl⟩ := exec_effect hs h
    rw [renewalsOf_append, renewalsOf_renewals, counted_append]
    refine heffect.terms _ (Site.Invoiced.charged ?_ _) (hown.accounted hI hterms)
    exact Site.Invoiced.moves (hown.invoiced ha hI) heffect.invoices

/-- What a call writes of its own applies a change only by trying a failed one again. -/
theorem Own.applied_before {own : List Renewals.Event} (h : Own panel a panel₁ own) {pk : ℕ}
    {change : ServiceChange} (hchange : panel₁.renewals.changes.get? pk = some change)
    (happlied : change.status = .applied) :
    (∃ before, panel.renewals.changes.get? pk = some before ∧ before.status = .applied) ∨
      (∃ w actor pk, a = .retryChange w actor pk) ∧ ∃ l,
        panel.billing.invoices.get? change.invoice = some l
          ∧ l.invoice.total ≤ l.invoice.amountPaid := by
  cases h with
  | service h =>
    obtain ⟨before, hbefore, hrow⟩ := (serviceCall_served h).changes.some_of hchange
    rcases hrow.2 happlied with hdone | hfalse
    · exact .inl ⟨before, hbefore, hdone⟩
    · exact hfalse.elim
  | change _ hpending =>
    simp only [Table.get?_insert] at hchange
    split at hchange
    · cases hchange
      rw [hpending] at happlied
      cases happlied
    · exact .inl ⟨change, hchange, happlied⟩
  | @retry w actor pk' failed l hget _ hinvoice hpaid =>
    have hadvanced : ChangesAdvanced (· = failed.invoice) panel.renewals.changes
        (apply w.env w.providers l.invoice pk' failed panel.renewals).1.changes :=
      apply_advanced hget (.refl _) rfl
    obtain ⟨before, hbefore, hrow⟩ := hadvanced.some_of hchange
    rcases hrow.2 happlied with hdone | hsame
    · exact .inl ⟨before, hbefore, hdone⟩
    · refine .inr ⟨⟨w, actor, pk', rfl⟩, l, ?_, hpaid⟩
      rw [hrow.1.invoice, hsame]
      exact hinvoice
  | _ => exact .inl ⟨change, hchange, happlied⟩

/-! ### What paid for an applied change -/

/-- Every change that is now applied, and was not before, has an invoice that received its
    total; but for a retry, that invoice is paid, so not everything was given back. -/
def AppliesPaid (panel : Panel) (a : Act) (panel' : Panel) : Prop :=
  ∀ pk change, panel'.renewals.changes.get? pk = some change → change.status = .applied →
    (∀ before, panel.renewals.changes.get? pk = some before → before.status ≠ .applied) →
    ∃ l, panel'.billing.invoices.get? change.invoice = some l ∧ l.invoice.total ≤ l.paidTotal
      ∧ ((∀ w actor pk, a ≠ .retryChange w actor pk) → l.invoice.status = .paid)

theorem appliesPaid_exec (hs : Kept panel.billing) (hI : panel.Invoiced)
    (h : exec a panel = .ok (panel', events)) : AppliesPaid panel a panel' := by
  obtain ⟨panel₁, own, rest, hown, heffect, rfl⟩ := exec_effect hs h
  intro pk change hchange happlied hbefore
  obtain ⟨before, hbefore₁, hrow⟩ := heffect.changes.some_of hchange
  rcases hrow.2 happlied with hdone | hpaid
  · -- applied before any receiver heard of anything: a retry
    rcases hown.applied_before hbefore₁ hdone with ⟨first, hfirst, happlied⟩ |
      ⟨⟨w, actor, pk', rfl⟩, l, hl, hle⟩
    · exact absurd happlied (hbefore first hfirst)
    · obtain ⟨l₁, hl₁, hissued, _⟩ := hown.invoiced (by nofun) hI pk before hbefore₁
      obtain ⟨l', hl', _, _, hfigures⟩ := heffect.invoices.issued_kept hl₁ hissued
      rw [hown.billing_eq] at hl₁
      cases hl.symm.trans hl₁
      have htotal : l'.invoice.total = l.invoice.total := congrArg Figures.total hfigures
      have hgrows := moves_paidGrows (exec_moves hs h).1 hs.invoices _ l l' hl hl'
      refine ⟨l', by rw [hrow.1.invoice]; exact hl', ?_, fun hnot => absurd rfl (hnot w actor pk')⟩
      rw [(heffect.kept.invoices _ l' hl').paid, htotal]
      exact hle.trans hgrows
  · -- its invoice was announced as paid, so it is
    obtain ⟨l, hl, hstatus⟩ := exec_paid_signal hs h (q := before.invoice) (by
      rw [signalsOf_append]
      exact List.mem_append_right _ hpaid)
    have hsound := heffect.kept.invoices _ l hl
    refine ⟨l, by rw [hrow.1.invoice]; exact hl, ?_, fun _ => hstatus⟩
    rw [hsound.paid]
    exact hsound.total_le_paid hstatus

end

/-- **In every run a change becomes applied only when its invoice received its total**, and,
    unless staff retry a failed change, only while the invoice is paid. -/
theorem applied_paid (as : List Act) : machine.EachStep AppliesPaid as {} := by
  refine Machine.eachStep_of_invariant
    (I := fun panel : Panel => Kept panel.billing ∧ panel.Invoiced)
    (fun _ _ _ _ hI h => ⟨kept_step hI.1 h, hI.2.exec hI.1 h⟩)
    (fun _ _ _ _ hI h => appliesPaid_exec hI.1 hI.2 h) as {} ⟨Kept.empty, .empty⟩

/-- Every change that is now applied, and was not before, has an invoice whose total is still
    kept, whatever was given back. -/
def AppliesKept (panel panel' : Panel) : Prop :=
  ∀ pk change, panel'.renewals.changes.get? pk = some change → change.status = .applied →
    (∀ before, panel.renewals.changes.get? pk = some before → before.status ≠ .applied) →
    ∃ l, panel'.billing.invoices.get? change.invoice = some l
      ∧ l.invoice.total ≤ l.paidTotal - l.refundedTotal

/-- A renewal of 100.00 gets 60.00, of which 30.00 are given back. -/
def renewalPartRefunded : List Act :=
  startTerm ++ [.createHostingRenewal smallWorld none 0, receive0 6000, refund0 0 3000]

/-- Another 40.00, and the renewal is applied with 70.00 kept. -/
theorem applied_after_refund :
    ¬machine.EachStep (fun panel _ panel' => AppliesKept panel panel')
      (renewalPartRefunded ++ [receive0 4000]) {} := by
  intro h
  have hrun : let panel := machine.run renewalPartRefunded {}
      let panel' := machine.next (receive0 4000) panel
      (machine.exec (receive0 4000) panel).isOk = true
        ∧ (∀ change ∈ panel.renewals.changes.get? 0, change.status ≠ .applied)
        ∧ (∃ change ∈ panel'.renewals.changes.get? 0, change.status = .applied
          ∧ change.invoice = 0)
        ∧ ∀ l ∈ panel'.billing.invoices.get? 0,
            l.paidTotal - l.refundedTotal < l.invoice.total := by
    decide +kernel
  obtain ⟨hok, hbefore, ⟨change, hchange, happlied, hinvoice⟩, hkept⟩ := hrun
  obtain ⟨l, hl, hle⟩ := h.last hok 0 change hchange happlied hbefore
  rw [hinvoice] at hl
  have hlt := hkept l hl
  omega

/-! ### What a term is worth -/

/-- No term is worth more than what was charged for it. -/
def WithinCharged (accounts : Table HostingAccount) (n : ℕ → Tally) : Prop :=
  accounts.Forall fun pk account => account.term.termPaid ≤ (n pk).charged

/-- No credit was part of what paid for the current term of any account. -/
def NoCredit (accounts : Table HostingAccount) (n : ℕ → Tally) : Prop :=
  accounts.Forall fun pk _ => (n pk).credited = 0

theorem withinCharged_iff {accounts : Table HostingAccount} {n : ℕ → Tally}
    (h : Accounted accounts n) : WithinCharged accounts n ↔ NoCredit accounts n := by
  constructor
  · intro hwithin pk account hget
    have hle := hwithin pk account hget
    have hterm := h.term pk account hget
    have hcredited := h.credited pk
    show (n pk).credited = 0
    omega
  · intro hnone pk account hget
    have hterm := h.term pk account hget
    have hzero := hnone pk account hget
    show account.term.termPaid ≤ (n pk).charged
    rw [hterm, hzero, add_zero]

/-- What was charged and credited for the current terms, read off the log of a run. -/
def tallies (log : List Event) : ℕ → Tally := counted (fun _ => {}) (renewalsOf log)

/-- **In every state of a run the stored value of every term stays within what was charged for
    it, exactly when in every state no credit was part of what paid for a current term.** -/
theorem termPaid_le_iff (as : List Act) :
    machine.recorded.Always (fun p => WithinCharged p.1.renewals.accounts (tallies p.2)) as ({}, [])
      ↔ machine.recorded.Always (fun p => NoCredit p.1.renewals.accounts (tallies p.2)) as
        ({}, []) := by
  have hinvariant := Machine.always_of_invariant (m := machine.recorded)
    (I := fun p => Kept p.1.billing ∧ p.1.Invoiced
      ∧ Accounted p.1.renewals.accounts (tallies p.2)) as ?_ ({}, []) ⟨Kept.empty, .empty, .empty⟩
  · exact Machine.Always.congr hinvariant fun p hI => withinCharged_iff hI.2.2
  rintro a _ ⟨panel, log⟩ ⟨panel', log'⟩ events ⟨hs, hI, hterms⟩ h
  obtain ⟨hexec, rfl⟩ := Machine.recorded_commits.mp h
  refine ⟨kept_step hs hexec, hI.exec hs hexec, ?_⟩
  show Accounted panel'.renewals.accounts (counted _ (renewalsOf (log ++ events)))
  rw [renewalsOf_append, counted_append]
  exact accounted_exec hs hI hterms hexec

/-- A term of 100.00 is upgraded on its first day to a plan of 200.00, for another 100.00. -/
def upgradedOnce : List Act := startTerm ++ [.createUpgrade smallWorld staff 0 1, receive0 10000]

/-- The 200.00 that were charged make a term worth 300.00. -/
theorem upgrade_worth_more :
    ¬machine.recorded.Always (fun p => WithinCharged p.1.renewals.accounts (tallies p.2))
      upgradedOnce ({}, []) := by
  intro h
  have hrun : let p := machine.recorded.run upgradedOnce ({}, [])
      ∃ account ∈ p.1.renewals.accounts.get? 0,
        (tallies p.2 0).charged < account.term.termPaid := by
    decide +kernel
  obtain ⟨account, hget, hlt⟩ := hrun
  have hle := h.last 0 account hget
  omega

end WPanel.Site
