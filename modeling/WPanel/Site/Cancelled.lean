import WPanel.Renewals.Upgrades
import WPanel.Site.PaidTerms

namespace WPanel.Site

open WPanel.Lib WPanel.Billing WPanel.Orders WPanel.Renewals

/-!
# Services that are being ended

Every entry point that invoices a change of a service, and whether it keeps off a service whose
cancellation was asked for (`renewals/services.py`).

* `generateRenewalInvoices` — the daily job;
* `Undisturbed` — the changes of a service and every invoice are left as they were;
* `Entry.KeepsOff` — asked for a service, an entry point refuses; the job leaves it undisturbed;
* `keepsOff_iff` — renewals always keep off, an upgrade only where something else refuses it.
-/

/-! ### The daily job -/

/-- What the daily job goes by: the time, the lead time in days, and the domains that renew by
    themselves. -/
structure Schedule where
  now : Moment
  leadDays : ℕ
  autoRenew : ℕ → Bool

/-- A paid period that ends within the lead time. -/
def Schedule.Due (schedule : Schedule) (expiresAt : Option Moment) : Prop :=
  ∃ moment ∈ expiresAt,
    moment.instant ≤ schedule.now.instant + schedule.leadDays * microsPerDay

instance (schedule : Schedule) (expiresAt : Option Moment) : Decidable (schedule.Due expiresAt) :=
  match expiresAt with
  | none => isFalse fun h => by
    obtain ⟨_, hmem, _⟩ := h
    cases hmem
  | some moment => decidable_of_iff
    (moment.instant ≤ schedule.now.instant + schedule.leadDays * microsPerDay)
    ⟨fun h => ⟨moment, rfl, h⟩, fun h => by
      obtain ⟨_, hmem, h⟩ := h
      cases hmem
      exact h⟩

/-- `order_by("expires_at")`. -/
def soonestFirst {α : Type} (expiresAt : α → Option Moment) (rows : List (ℕ × α)) : List ℕ :=
  let instant := fun row : ℕ × α => ((expiresAt row.2).map Moment.instant).getD 0
  (rows.mergeSort fun a b => decide (instant a ≤ instant b)).map Prod.fst

/-- `due_for_renewal`: the accounts and the domains whose paid period ends within the lead time
    and that have no open change. -/
def dueForRenewal (schedule : Schedule) (panel : Panel) : List ℕ × List ℕ :=
  let open? := fun service => (panel.renewals.pendingChange service).isSome
  let hosting := panel.renewals.accounts.entries.filter fun (pk, account) =>
    account.placement.status = .active ∧ schedule.Due account.term.expiresAt
      ∧ account.term.billingCycle ≠ "" ∧ open? (.hosting pk) = false
      ∧ account.placement.cancelling = false
  let domains := panel.renewals.domains.entries.filter fun (pk, domain) =>
    domain.registration.status = .active ∧ schedule.autoRenew pk = true
      ∧ schedule.Due domain.registration.expiresAt ∧ open? (.domain pk) = false
      ∧ domain.registration.cancelling = false
  (soonestFirst (·.term.expiresAt) hosting, soonestFirst (·.registration.expiresAt) domains)

/-- What the job reports: how many were invoiced, and what went wrong with which. -/
structure JobResult where
  hosting : ℕ := 0
  domains : ℕ := 0
  errors : List (Service × Err) := []

/-- Invoice each of these services.  One failure never stops the rest. -/
def renewEach (service : ℕ → Service) (create : ℕ → Panel → Except Err (Panel × List Event)) :
    List ℕ → Panel → Panel × ℕ × List (Service × Err)
  | [], panel => (panel, 0, [])
  | pk :: rest, panel =>
    match create pk panel with
    | .ok (panel, _) =>
      let (panel, invoiced, errors) := renewEach service create rest panel
      (panel, invoiced + 1, errors)
    | .error e =>
      let (panel, invoiced, errors) := renewEach service create rest panel
      (panel, invoiced, (service pk, e) :: errors)

/-- Create the renewal invoice for every service due within the lead time. -/
def generateRenewalInvoices (w : World) (schedule : Schedule) (panel : Panel) :
    Panel × JobResult :=
  let (hosting, domains) := dueForRenewal schedule panel
  let (panel, hosting, errors) := renewEach .hosting (hostingRenewal w) hosting panel
  let (panel, domains, errors') := renewEach .domain (domainRenewal w · 1) domains panel
  (panel, { hosting, domains, errors := errors ++ errors' })

/-! ### The entry points -/

/-- An entry point that invoices changes. -/
inductive Entry where
  | createHostingRenewal (actor : Actor) (pk : ℕ)
  | createDomainRenewal (actor : Actor) (pk years : ℕ)
  | createUpgrade (actor : Actor) (pk newPk : ℕ)
  | generateRenewalInvoices (schedule : Schedule)

/-- What is left of the records. -/
def Entry.exec (w : World) : Entry → Panel → Except Err Panel
  | .createHostingRenewal actor pk, panel =>
    (Site.createHostingRenewal w (some actor) pk panel).map Prod.fst
  | .createDomainRenewal actor pk years, panel =>
    (Site.createDomainRenewal w (some actor) pk years panel).map Prod.fst
  | .createUpgrade actor pk newPk, panel => (Site.createUpgrade w actor pk newPk panel).map Prod.fst
  | .generateRenewalInvoices schedule, panel =>
    .ok (Site.generateRenewalInvoices w schedule panel).1

/-- The service an entry point is asked for; the daily job goes through all of them. -/
def Entry.service : Entry → Option Service
  | .createHostingRenewal _ pk => some (.hosting pk)
  | .createDomainRenewal _ pk _ => some (.domain pk)
  | .createUpgrade _ pk _ => some (.hosting pk)
  | .generateRenewalInvoices _ => none

/-- A cancellation request for the service is pending or approved. -/
def Panel.Cancelling (panel : Panel) : Service → Prop
  | .hosting pk => ∃ account, panel.renewals.accounts.get? pk = some account
    ∧ account.placement.cancelling = true
  | .domain pk => ∃ domain, panel.renewals.domains.get? pk = some domain
    ∧ domain.registration.cancelling = true

/-- The changes of a service and every invoice are as they were, and what was invoiced is about
    other services. -/
structure Undisturbed (service : Service) (panel panel' : Panel) : Prop where
  changes : ∀ pk change, change.service = service →
    (panel'.renewals.changes.get? pk = some change ↔ panel.renewals.changes.get? pk = some change)
  invoices : ∀ q l, panel.billing.invoices.get? q = some l →
    panel'.billing.invoices.get? q = some l
  invoiced : ∀ q l, panel'.billing.invoices.get? q = some l →
    panel.billing.invoices.get? q = some l ∨ ∃ pk change,
      panel'.renewals.changes.get? pk = some change ∧ change.invoice = q ∧ change.service ≠ service
  /-- Every change is about the same service and invoice as before. -/
  same : ∀ pk change, panel.renewals.changes.get? pk = some change →
    ∃ change', panel'.renewals.changes.get? pk = some change' ∧ change.Same change'

/-- An entry point keeps off a service: asked for it, it refuses; the daily job leaves it
    undisturbed. -/
def Entry.KeepsOff (w : World) (panel : Panel) (service : Service) (entry : Entry) : Prop :=
  (entry.service = some service → ∃ e, entry.exec w panel = .error e) ∧
    (entry.service = none → ∃ panel', entry.exec w panel = .ok panel'
      ∧ Undisturbed service panel panel')

/-- Another change is open, the plan is not on offer, or its price, the total with the tax, the
    client's currency, the next invoice number or the months of the term do not fit. -/
def Impeded (w : World) (panel : Panel) (pk newPk : ℕ) (account : HostingAccount) : Prop :=
  match panel.renewals.pendingChange (.hosting pk) with
  | some (_, pending) => ¬(pending.kind = .upgrade ∧ pending.toProduct = some newPk)
  | none => ∀ preview, previewUpgrade w.env w.providers account newPk = .ok preview →
    ¬(Billable w.env account.client preview.newPrice preview.appliedCredit panel.billing
      ∧ preview.months ≤ 32767)

/-- Something other than the cancellation is in the way of an upgrade: the actor may not ask for
    it, or it is impeded. -/
def UpgradeBlocked (w : World) (panel : Panel) (actor : Actor) (pk newPk : ℕ) : Prop :=
  ∀ account, panel.renewals.accounts.get? pk = some account →
    canSelfService actor .manageHosting account.client = true → Impeded w panel pk newPk account

/-- An upgrade of this service is blocked. -/
def Entry.Blocked (w : World) (panel : Panel) (service : Service) : Entry → Prop
  | .createUpgrade actor pk newPk => service = .hosting pk → UpgradeBlocked w panel actor pk newPk
  | _ => True

/-! ### What hearing of other invoices leaves alone -/

section

variable {w : World} {panel panel' : Panel} {events : List Event}

/-- Applying changes writes those changes only.  The induction is on the changes still to be
    applied. -/
theorem applyAll_other {env : Env} {providers : Providers} {invoice : Invoice} {k : ℕ}
    (entries : List (ℕ × ServiceChange)) (s : Renewals.Store)
    (hk : ∀ entry ∈ entries, entry.1 ≠ k) :
    (applyAll env providers invoice entries s).1.changes.get? k = s.changes.get? k := by
  induction entries generalizing s with
  | nil => rfl
  | cons entry entries ih =>
    have hne : k ≠ entry.1 := (hk entry List.mem_cons_self).symm
    have hfirst : (Renewals.apply env providers invoice entry.1 entry.2 s).1.changes.get? k
        = s.changes.get? k := by
      unfold Renewals.apply
      split
      · next happly =>
        simp only [Store.putChange, (applyToService_cases happly).1]
        exact Table.get?_put_of_ne hne _
      · exact Table.get?_put_of_ne hne _
    simp only [applyAll]
    rw [ih _ fun e he => hk e (List.mem_cons_of_mem _ he), hfirst]

theorem receive_other {signal : Signal} {k : ℕ}
    (hk : ∀ change, panel.renewals.changes.get? k = some change →
      signal ≠ .invoicePaid change.invoice ∧ signal ≠ .invoiceCancelled change.invoice)
    (h : receive w panel signal = .ok (panel', events)) :
    panel'.renewals.changes.get? k = panel.renewals.changes.get? k := by
  cases signal with
  | invoicePaid q =>
    simp only [receive, bind_eq_ok, pure_eq_ok, Prod.mk.injEq] at h
    obtain ⟨l, _, orders, _, rfl, _⟩ := h
    refine applyAll_other _ _ fun entry hmem hkey => ?_
    simp only [Store.pendingChanges, List.mem_filter, decide_eq_true_eq] at hmem
    obtain ⟨hentry, hq, _⟩ := hmem
    rw [← hq] at hk
    exact (hk _ (hkey ▸ Table.mem_entries.mp hentry)).1 rfl
  | invoiceCancelled q =>
    simp only [receive, bind_eq_ok, pure_eq_ok, Prod.mk.injEq] at h
    obtain ⟨l, _, orders, _, rfl, _⟩ := h
    show ((panel.renewals.changes.updateWhere _ _).get? k) = _
    rw [Table.get?_updateWhere]
    cases hget : panel.renewals.changes.get? k with
    | none => rfl
    | some change =>
      rw [Option.map_some, if_neg]
      intro hq
      rw [decide_eq_true_eq] at hq
      exact (hk change hget).2 (hq.1 ▸ rfl)
  | invoiceRefunded q =>
    cases h
    rfl

/-- **Signals about other invoices leave a change as it is.** -/
theorem dispatch_other {signals : List Signal} {k : ℕ}
    (hk : ∀ change, panel.renewals.changes.get? k = some change → ¬Closes signals change.invoice)
    (h : dispatch w signals panel = .ok (panel', events)) :
    panel'.renewals.changes.get? k = panel.renewals.changes.get? k := by
  induction signals generalizing panel events with
  | nil =>
    cases h
    rfl
  | cons signal rest ih =>
    simp only [dispatch, bind_eq_ok, pure_eq_ok, Prod.exists, Prod.mk.injEq] at h
    obtain ⟨panel₁, events₁, hfirst, panel₂, events₂, hrest, rfl, rfl⟩ := h
    have hsame : panel₁.renewals.changes.get? k = panel.renewals.changes.get? k := by
      refine receive_other (fun change hget => ⟨?_, ?_⟩) hfirst
      · rintro rfl
        exact hk change hget (.inl List.mem_cons_self)
      · rintro rfl
        exact hk change hget (.inr List.mem_cons_self)
    rw [ih (fun change hget hclosed => ?_) hrest, hsame]
    rw [hsame] at hget
    exact hk change hget
      (hclosed.imp (List.mem_cons_of_mem _) (List.mem_cons_of_mem _))

end

/-! ### The daily job leaves them alone -/

theorem Undisturbed.refl (service : Service) (panel : Panel) : Undisturbed service panel panel :=
  ⟨fun _ _ _ => Iff.rfl, fun _ _ h => h, fun _ _ h => .inl h,
    fun _ change h => ⟨change, h, .refl _⟩⟩

theorem Undisturbed.trans {service : Service} {panel panel₁ panel' : Panel}
    (h : Undisturbed service panel panel₁) (h' : Undisturbed service panel₁ panel') :
    Undisturbed service panel panel' := by
  refine ⟨fun pk change hservice => (h'.changes pk change hservice).trans
    (h.changes pk change hservice), fun q l hl => h'.invoices q l (h.invoices q l hl),
    fun q l hl => ?_, fun pk change hget => ?_⟩
  · rcases h'.invoiced q l hl with hbefore | hnew
    · refine (h.invoiced q l hbefore).imp_right ?_
      rintro ⟨pk, change, hget, hq, hne⟩
      obtain ⟨change', hget', hsame⟩ := h'.same pk change hget
      exact ⟨pk, change', hget', hsame.invoice.trans hq, hsame.service ▸ hne⟩
    · exact .inr hnew
  · obtain ⟨change₁, hget₁, hsame₁⟩ := h.same pk change hget
    obtain ⟨change', hget', hsame'⟩ := h'.same pk change₁ hget₁
    exact ⟨change', hget', hsame₁.trans hsame'⟩

section

variable {w : World} {panel panel' : Panel} {events : List Event} {service : Service}

/-- Opening an invoice closes no other. -/
theorem issue_closes {pk q : ℕ} {l l' : Ledger} {signals : List Signal}
    (h : Step pk .issue l l' signals) (hclosed : Closes signals q) : q = pk := by
  cases h
  rcases hclosed with hclosed | hclosed
  · split at hclosed
    · cases List.mem_singleton.mp hclosed
      rfl
    · cases hclosed
  · split at hclosed
    · cases List.mem_singleton.mp hclosed
    · cases hclosed

/-- Invoicing a change of another service. -/
theorem invoiceChange_undisturbed {client : ℕ} {draft : Draft} {change : ℕ → ServiceChange}
    (hs : Kept panel.billing) (hI : panel.Invoiced)
    (hchange : ∀ q, (change q).invoice = q ∧ (change q).service ≠ service)
    (h : invoiceChange w client draft change panel = .ok (panel', events)) :
    Undisturbed service panel panel' := by
  obtain ⟨l, l', b, signals, lines, _, _, hstep, hinvoices, _, _, _, _, hreacts⟩ :=
    invoiceChange_steps hs h
  have hnew : ∃ change', panel'.renewals.changes.get? panel.renewals.changes.nextPk = some change'
      ∧ (change panel.billing.invoices.nextPk).Same change' := by
    obtain ⟨change', hget, hadvanced⟩ := hreacts.changes.of_some (Table.get?_insert_self _ _)
    exact ⟨change', hget, hadvanced.1⟩
  -- only the new invoice is heard of, and no earlier change is about it
  have hold : ∀ k, k ≠ panel.renewals.changes.nextPk →
      panel'.renewals.changes.get? k = panel.renewals.changes.get? k := by
    intro k hk
    have hinsert : (panel.renewals.changes.insert
        (change panel.billing.invoices.nextPk)).get? k = panel.renewals.changes.get? k := by
      rw [Table.get?_insert, if_neg hk]
    unfold invoiceChange saveChange at h
    simp only [bind_eq_ok, Prod.exists, fullClean_eq_ok, exists_and_left, exists_const, pure_eq_ok,
      Prod.mk.injEq] at h
    obtain ⟨q, billing, hdraft, _, _, ⟨_, _, rfl⟩, hbill⟩ := h
    obtain ⟨_, _, rfl, _⟩ := createDraftInvoice_step hdraft
    simp only [bill, bind_eq_ok, Prod.exists] at hbill
    obtain ⟨b', signals', _, hdispatch⟩ := hbill
    have hsignals : signals' = signals := (dispatch_reacts hdispatch).sent.symm.trans hreacts.sent
    refine (dispatch_other (fun earlier hget hclosed => ?_) hdispatch).trans hinsert
    obtain ⟨ledger, hledger, _⟩ := hI k earlier (hinsert ▸ hget)
    have hq : earlier.invoice = panel.billing.invoices.nextPk := by
      rw [hsignals] at hclosed
      exact issue_closes hstep hclosed
    have hlt := Table.lt_nextPk hledger
    rw [hq] at hlt
    exact Nat.lt_irrefl _ hlt
  have hbilling : panel'.billing.invoices
      = (panel.billing.invoices.insert l).put panel.billing.invoices.nextPk l' := by
    rw [hreacts.billing]
    exact hinvoices
  have hinvoice : ∀ q, panel'.billing.invoices.get? q
      = if q = panel.billing.invoices.nextPk then some l' else panel.billing.invoices.get? q := by
    intro q
    rw [hbilling, Table.get?_put (Table.get?_insert_self _ _), Table.get?_insert]
    split <;> rfl
  obtain ⟨change', hget', hsame⟩ := hnew
  obtain ⟨hq, hother⟩ := hchange panel.billing.invoices.nextPk
  refine ⟨fun pk row hservice => ?_, fun q ledger hledger => ?_, fun q ledger hledger => ?_,
    fun pk row hget => ?_⟩
  · by_cases hk : pk = panel.renewals.changes.nextPk
    · subst hk
      rw [hget', Table.get?_nextPk]
      refine ⟨fun heq => ?_, fun heq => by cases heq⟩
      cases heq
      exact absurd (hsame.service.symm.trans hservice) hother
    · rw [hold pk hk]
  · rw [hinvoice, if_neg (Nat.ne_of_lt (Table.lt_nextPk hledger)), hledger]
  · rw [hinvoice] at hledger
    split at hledger
    · next hfresh =>
      exact .inr ⟨_, change', hget', hsame.invoice.trans (hq.trans hfresh.symm),
        hsame.service ▸ hother⟩
    · exact .inl hledger
  · exact ⟨row, by rw [hold pk (Nat.ne_of_lt (Table.lt_nextPk hget)), hget], .refl row⟩

/-- Asking for the change of another service. -/
theorem InvoicesOneLine.undisturbed {other : Service} (hs : Kept panel.billing)
    (hI : panel.Invoiced) (hne : other ≠ service)
    (h : InvoicesOneLine w other panel panel' events) : Undisturbed service panel panel' := by
  rcases h with ⟨rfl, -⟩ | ⟨client, description, price, discount, change, hrun, hchange⟩
  · exact .refl _ _
  · refine invoiceChange_undisturbed hs hI (fun q => ?_) hrun
    obtain ⟨hq, -, -, hservice⟩ := hchange q
    exact ⟨hq, hservice ▸ hne⟩

/-- Invoicing one service after the other, none of them this one.  The induction is on the
    services still to be invoiced. -/
theorem renewEach_undisturbed (about : ℕ → Service)
    (create : ℕ → Panel → Except Err (Panel × List Event))
    (hcreate : ∀ pk panel panel' events, Kept panel.billing → panel.Invoiced →
      about pk ≠ service → create pk panel = .ok (panel', events) →
      Undisturbed service panel panel' ∧ Kept panel'.billing ∧ panel'.Invoiced)
    (pks : List ℕ) (hpks : ∀ pk ∈ pks, about pk ≠ service) (hs : Kept panel.billing)
    (hI : panel.Invoiced) :
    Undisturbed service panel (renewEach about create pks panel).1
      ∧ Kept (renewEach about create pks panel).1.billing
      ∧ (renewEach about create pks panel).1.Invoiced := by
  induction pks generalizing panel with
  | nil => exact ⟨.refl _ _, hs, hI⟩
  | cons pk rest ih =>
    have hrest : ∀ q ∈ rest, about q ≠ service := fun q hq => hpks q (List.mem_cons_of_mem _ hq)
    simp only [renewEach]
    split
    · next panel₁ events hok =>
      obtain ⟨hfirst, hs₁, hI₁⟩ := hcreate pk panel panel₁ events hs hI
        (hpks pk List.mem_cons_self) hok
      obtain ⟨hundisturbed, hkept⟩ := ih hrest hs₁ hI₁
      exact ⟨hfirst.trans hundisturbed, hkept⟩
    · exact ih hrest hs hI

/-- The daily job asks for no service that is being ended. -/
theorem dueForRenewal_not_cancelling (schedule : Schedule)
    (hc : panel.Cancelling service) :
    (∀ pk ∈ (dueForRenewal schedule panel).1, Service.hosting pk ≠ service) ∧
      ∀ pk ∈ (dueForRenewal schedule panel).2, Service.domain pk ≠ service := by
  constructor
  · rintro pk hpk rfl
    obtain ⟨account, hget, hcancelling⟩ := hc
    simp only [dueForRenewal, soonestFirst, List.mem_map, List.mem_mergeSort, List.mem_filter,
      decide_eq_true_eq] at hpk
    obtain ⟨⟨pk', account'⟩, ⟨hget', _, _, _, _, hnot⟩, rfl⟩ := hpk
    cases hget.symm.trans (Table.mem_entries.mp hget')
    rw [hcancelling] at hnot
    cases hnot
  · rintro pk hpk rfl
    obtain ⟨domain, hget, hcancelling⟩ := hc
    simp only [dueForRenewal, soonestFirst, List.mem_map, List.mem_mergeSort, List.mem_filter,
      decide_eq_true_eq] at hpk
    obtain ⟨⟨pk', domain'⟩, ⟨hget', _, _, _, _, hnot⟩, rfl⟩ := hpk
    cases hget.symm.trans (Table.mem_entries.mp hget')
    rw [hcancelling] at hnot
    cases hnot

theorem exec_hostingRenewal {pk : ℕ} (h : hostingRenewal w pk panel = .ok (panel', events)) :
    exec (.createHostingRenewal w none pk) panel = .ok (panel', events) := by
  obtain ⟨account, hlock, _⟩ := bind_eq_ok.mp h
  show createHostingRenewal w none pk panel = _
  simp [createHostingRenewal, bind_eq_ok, hlock, h]

theorem exec_domainRenewal {pk years : ℕ}
    (h : domainRenewal w pk years panel = .ok (panel', events)) :
    exec (.createDomainRenewal w none pk years) panel = .ok (panel', events) := by
  obtain ⟨domain, hlock, _⟩ := bind_eq_ok.mp h
  show createDomainRenewal w none pk years panel = _
  simp [createDomainRenewal, bind_eq_ok, hlock, h]

/-- One account of the job. -/
theorem hostingRenewal_step {pk : ℕ} (hs : Kept panel.billing) (hI : panel.Invoiced)
    (hpk : Service.hosting pk ≠ service) (h : hostingRenewal w pk panel = .ok (panel', events)) :
    Undisturbed service panel panel' ∧ Kept panel'.billing ∧ panel'.Invoiced := by
  have hexec := exec_hostingRenewal h
  have hcommits : machine.Commits (.createHostingRenewal w none pk) panel panel' events := hexec
  exact ⟨(hostingRenewal_cases h).undisturbed hs hI hpk, kept_step hs hcommits, hI.exec hs hexec⟩

/-- One domain of the job. -/
theorem domainRenewal_step {pk years : ℕ} (hs : Kept panel.billing) (hI : panel.Invoiced)
    (hpk : Service.domain pk ≠ service)
    (h : domainRenewal w pk years panel = .ok (panel', events)) :
    Undisturbed service panel panel' ∧ Kept panel'.billing ∧ panel'.Invoiced := by
  have hexec := exec_domainRenewal h
  have hcommits : machine.Commits (.createDomainRenewal w none pk years) panel panel' events :=
    hexec
  exact ⟨(domainRenewal_cases h).undisturbed hs hI hpk, kept_step hs hcommits, hI.exec hs hexec⟩

/-- **The daily job leaves a service that is being ended as it is.** -/
theorem generateRenewalInvoices_undisturbed {schedule : Schedule} (hs : Kept panel.billing)
    (hI : panel.Invoiced) (hc : panel.Cancelling service) :
    Undisturbed service panel (generateRenewalInvoices w schedule panel).1 := by
  obtain ⟨hhosting, hdomains⟩ := dueForRenewal_not_cancelling schedule hc
  obtain ⟨hundisturbed, hs₁, hI₁⟩ := renewEach_undisturbed .hosting (hostingRenewal w)
    (fun _ _ _ _ => hostingRenewal_step) _ hhosting hs hI
  have hthen := renewEach_undisturbed .domain (domainRenewal w · 1)
    (fun _ _ _ _ => domainRenewal_step) _ hdomains hs₁ hI₁
  exact hundisturbed.trans hthen.1

end

/-! ### The other entry points -/

section

variable {w : World} {panel : Panel} {pk : ℕ}

/-- An account that is being ended is not renewed. -/
theorem hostingRenewal_refuses (hc : panel.Cancelling (.hosting pk)) :
    ∃ e, hostingRenewal w pk panel = .error e := by
  obtain ⟨account, hget, hcancelling⟩ := hc
  cases hrun : hostingRenewal w pk panel with
  | error e => exact ⟨e, rfl⟩
  | ok result =>
    unfold hostingRenewal at hrun
    obtain ⟨account', hlock, hrun⟩ := bind_eq_ok.mp hrun
    cases hget.symm.trans (lockAccount_eq_ok.mp hlock)
    simp only [bind_eq_ok, requireNotCancelling, hcancelling] at hrun
    obtain ⟨_, _, _, _, _, hopen, _⟩ := hrun
    cases hopen

/-- A domain that is being ended is not renewed. -/
theorem domainRenewal_refuses (years : ℕ) (hc : panel.Cancelling (.domain pk)) :
    ∃ e, domainRenewal w pk years panel = .error e := by
  obtain ⟨domain, hget, hcancelling⟩ := hc
  cases hrun : domainRenewal w pk years panel with
  | error e => exact ⟨e, rfl⟩
  | ok result =>
    unfold domainRenewal at hrun
    obtain ⟨domain', hlock, hrun⟩ := bind_eq_ok.mp hrun
    cases hget.symm.trans (lockDomain_eq_ok.mp hlock)
    simp only [bind_eq_ok, requireNotCancelling, hcancelling] at hrun
    obtain ⟨_, _, _, hopen, _⟩ := hrun
    cases hopen

theorem createHostingRenewal_refuses (actor : Actor) (hc : panel.Cancelling (.hosting pk)) :
    ∃ e, createHostingRenewal w (some actor) pk panel = .error e := by
  obtain ⟨e, he⟩ := hostingRenewal_refuses (w := w) hc
  cases hrun : createHostingRenewal w (some actor) pk panel with
  | error e' => exact ⟨e', rfl⟩
  | ok result =>
    unfold createHostingRenewal at hrun
    simp [bind_eq_ok, he] at hrun

theorem createDomainRenewal_refuses (actor : Actor) (years : ℕ)
    (hc : panel.Cancelling (.domain pk)) :
    ∃ e, createDomainRenewal w (some actor) pk years panel = .error e := by
  obtain ⟨e, he⟩ := domainRenewal_refuses (w := w) years hc
  cases hrun : createDomainRenewal w (some actor) pk years panel with
  | error e' => exact ⟨e', rfl⟩
  | ok result =>
    unfold createDomainRenewal at hrun
    simp [bind_eq_ok, he] at hrun

/-- The description of an upgrade is not blank, and it is clipped to what fits. -/
theorem strip_upgrade (rest : String) :
    strip (clip 255 ("Upgrade to " ++ rest)) ≠ ""
      ∧ (strip (clip 255 ("Upgrade to " ++ rest))).toList.length ≤ 255 := by
  have hclip : (clip 255 ("Upgrade to " ++ rest)).toList
      = ("Upgrade to " ++ rest).toList.take 255 := String.toList_ofList
  constructor
  · intro hblank
    have hspace := isSpace_of_strip hblank 'U' (by
      rw [hclip, String.toList_append]
      exact List.mem_cons_self)
    exact absurd hspace (by decide)
  · refine (length_strip_le _).trans ?_
    rw [hclip]
    exact List.length_take_le _ _

/-- A priced upgrade is invoiced exactly when billing accepts its price and its credit, and its
    months fit. -/
theorem upgrade_invoiced_iff {rest : String} {newPk : ℕ} {account : HostingAccount}
    {preview : UpgradePreview} {change : ℕ → ServiceChange}
    (h : previewUpgrade w.env w.providers account newPk = .ok preview)
    (hvalue : ∀ q, (change q).paidValue = preview.newPrice) :
    (∃ r, invoiceChange w account.client (oneLine (clip 255 ("Upgrade to " ++ rest))
        preview.newPrice (creditDiscount preview.appliedCredit)) change panel = .ok r)
      ↔ Billable w.env account.client preview.newPrice preview.appliedCredit panel.billing
        ∧ (change panel.billing.invoices.nextPk).periodMonths ≤ 32767 := by
  obtain ⟨-, happlied, -⟩ := previewUpgrade_spec h
  exact invoiceChange_oneLine_iff (happlied.trans_le (min_le_right _ _)) (strip_upgrade _) hvalue

/-- **An upgrade is refused exactly when something other than a cancellation is in its way.** -/
theorem createUpgrade_refuses_iff {actor : Actor} {newPk : ℕ} :
    (∃ e, createUpgrade w actor pk newPk panel = .error e)
      ↔ UpgradeBlocked w panel actor pk newPk := by
  unfold createUpgrade UpgradeBlocked
  cases hlock : lockAccount panel.renewals pk with
  | error e =>
    refine ⟨fun _ account hget => ?_, fun _ => ⟨e, rfl⟩⟩
    cases hlock.symm.trans (lockAccount_eq_ok.mpr hget)
  | ok account =>
    rw [ok_bind]
    by_cases hallowed : canSelfService actor .manageHosting account.client = true
    · have hget := lockAccount_eq_ok.mp hlock
      have hone : (∀ other, panel.renewals.accounts.get? pk = some other →
          canSelfService actor .manageHosting other.client = true →
          Impeded w panel pk newPk other) ↔ Impeded w panel pk newPk account := by
        refine ⟨fun h => h account hget hallowed, fun h other hother _ => ?_⟩
        cases hget.symm.trans hother
        exact h
      rw [ensure, if_pos hallowed, ok_bind, hone, Impeded]
      cases panel.renewals.pendingChange (.hosting pk) with
      | some entry =>
        dsimp only
        split
        · next hsame =>
          refine iff_of_false ?_ (not_not_intro hsame)
          rintro ⟨_, h⟩
          cases h
        · next hother => exact ⟨fun _ => hother, fun _ => ⟨_, rfl⟩⟩
      | none =>
        dsimp only
        cases hpreview : previewUpgrade w.env w.providers account newPk with
        | error e => exact ⟨fun _ preview h => (by cases h), fun _ => ⟨e, rfl⟩⟩
        | ok preview =>
          rw [ok_bind]
          simp only [String.append_assoc]
          rw [exists_error_iff, upgrade_invoiced_iff hpreview]
          · refine ⟨fun h other heq => ?_, fun h => h preview rfl⟩
            cases heq
            exact h
          · exact fun _ => rfl
    · rw [ensure, if_neg hallowed]
      refine ⟨fun _ other hget hallowed' => ?_, fun _ => ⟨denied, rfl⟩⟩
      cases hlock.symm.trans (lockAccount_eq_ok.mpr hget)
      exact absurd hallowed' hallowed

end

/-- **Every entry point keeps off a service that is being ended, but for an upgrade that nothing
    else refuses**, in every state of every run. -/
theorem keepsOff_iff (as : List Act) (w : World) (service : Service) (entry : Entry)
    (hc : (machine.run as {}).Cancelling service) :
    entry.KeepsOff w (machine.run as {}) service
      ↔ entry.Blocked w (machine.run as {}) service := by
  have hI := Machine.run_invariant (m := machine)
    (I := fun panel : Panel => Kept panel.billing ∧ panel.Invoiced)
    (fun _ _ _ _ hI h => ⟨kept_step hI.1 h, hI.2.exec hI.1 h⟩) as {} ⟨Kept.empty, .empty⟩
  obtain ⟨hs, hinvoiced⟩ := hI
  generalize machine.run as {} = panel at hc hs hinvoiced ⊢
  -- a person asks for one service
  have hasked : ∀ pk' : Service, entry.service = some pk' →
      (entry.KeepsOff w panel service
        ↔ (pk' = service → ∃ e, entry.exec w panel = .error e)) := by
    intro asked hservice
    unfold Entry.KeepsOff
    rw [hservice]
    simp
  cases entry with
  | createHostingRenewal actor pk =>
    refine ⟨fun _ => trivial, fun _ => (hasked (.hosting pk) rfl).mpr ?_⟩
    rintro rfl
    obtain ⟨e, he⟩ := createHostingRenewal_refuses (w := w) actor hc
    exact ⟨e, by rw [Entry.exec, he, Except.map]⟩
  | createDomainRenewal actor pk years =>
    refine ⟨fun _ => trivial, fun _ => (hasked (.domain pk) rfl).mpr ?_⟩
    rintro rfl
    obtain ⟨e, he⟩ := createDomainRenewal_refuses (w := w) actor years hc
    exact ⟨e, by rw [Entry.exec, he, Except.map]⟩
  | createUpgrade actor pk newPk =>
    rw [hasked (.hosting pk) rfl]
    show _ ↔ (service = .hosting pk → _)
    rw [← createUpgrade_refuses_iff, eq_comm]
    refine imp_congr_right fun _ => exists_congr fun e => ?_
    rw [Entry.exec]
    cases createUpgrade w actor pk newPk panel <;> simp [Except.map]
  | generateRenewalInvoices schedule =>
    refine ⟨fun _ => trivial, fun _ => ⟨fun h => absurd h (by simp [Entry.service]),
      fun _ => ⟨_, rfl, ?_⟩⟩⟩
    exact generateRenewalInvoices_undisturbed hs hinvoiced hc

/-! ### A service that is being ended -/

/-- An account with a paid term, for which a cancellation is asked. -/
def endingPlan : List Act := startTerm ++ [Act.service (.placeHosting 0
  { product := 0, server := none, status := .active, cancelling := true })]

private theorem endingPlan_cancelling : (machine.run endingPlan {}).Cancelling (.hosting 0) := by
  have hrun : ∃ account ∈ (machine.run endingPlan {}).renewals.accounts.get? 0,
      account.placement.cancelling = true := by decide +kernel
  obtain ⟨account, hget, hcancelling⟩ := hrun
  exact ⟨account, hget, hcancelling⟩

/-- It is not renewed. -/
theorem endingPlan_not_renewed :
    (Entry.createHostingRenewal staff 0).KeepsOff smallWorld (machine.run endingPlan {})
      (.hosting 0) :=
  (keepsOff_iff endingPlan smallWorld (.hosting 0) (.createHostingRenewal staff 0)
    endingPlan_cancelling).mpr trivial

/-- **It is upgraded**: the new plan is invoiced. -/
theorem endingPlan_upgraded :
    (machine.run endingPlan {}).Cancelling (.hosting 0) ∧
      ¬(Entry.createUpgrade staff 0 1).KeepsOff smallWorld (machine.run endingPlan {})
        (.hosting 0) := by
  refine ⟨endingPlan_cancelling, fun h => ?_⟩
  obtain ⟨e, he⟩ := h.1 rfl
  have hrun : ((createUpgrade smallWorld staff 0 1 (machine.run endingPlan {})).map
      fun result => result.1.billing.invoices.nextPk).toOption = some 1 := by decide +kernel
  rw [Entry.exec] at he
  cases hupgrade : createUpgrade smallWorld staff 0 1 (machine.run endingPlan {}) with
  | error e' =>
    rw [hupgrade] at hrun
    cases hrun
  | ok result =>
    rw [hupgrade] at he
    cases he

end WPanel.Site
