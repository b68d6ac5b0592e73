import WPanel.Renewals.Services

namespace WPanel.Renewals

open WPanel.Lib WPanel.Billing

/-!
# What was paid for a term

How applying changes moves the stored value of a paid term, against what was charged for it.

* `ServiceChange.Advanced` — what may become of a change, and when it becomes applied;
* `Tally`, `counted` — what was charged for the current term of each account, and the
  credits that lowered it, read off the recorded events;
* `Accounted` — the stored value of every term is the sum of the two;
* `applyAll_accounted` — applying the changes of a paid invoice keeps it so.
-/

/-! ### Changes -/

/-- What is frozen in a change. -/
structure ServiceChange.Same (c c' : ServiceChange) : Prop where
  invoice : c'.invoice = c.invoice
  kind : c'.kind = c.kind
  service : c'.service = c.service
  paidValue : c'.paidValue = c.paidValue

theorem ServiceChange.Same.refl (c : ServiceChange) : c.Same c := ⟨rfl, rfl, rfl, rfl⟩

theorem ServiceChange.Same.trans {c c' c'' : ServiceChange} (h : c.Same c') (h' : c'.Same c'') :
    c.Same c'' :=
  ⟨h'.invoice.trans h.invoice, h'.kind.trans h.kind, h'.service.trans h.service,
    h'.paidValue.trans h.paidValue⟩

theorem ServiceChange.Same.symm {c c' : ServiceChange} (h : c.Same c') : c'.Same c :=
  ⟨h.invoice.symm, h.kind.symm, h.service.symm, h.paidValue.symm⟩

/-- What may become of a change while the invoices `paid` are announced as paid: it becomes
    applied only if its invoice is one of them. -/
def ServiceChange.Advanced (paid : ℕ → Prop) (c c' : ServiceChange) : Prop :=
  c.Same c' ∧ (c'.status = .applied → c.status = .applied ∨ paid c.invoice)

/-- Every change of the table advanced. -/
def ChangesAdvanced (paid : ℕ → Prop) : Table ServiceChange → Table ServiceChange → Prop :=
  Table.Related fun _ => ServiceChange.Advanced paid

section Changes

variable {paid paid' : ℕ → Prop} {t t' t'' : Table ServiceChange}

theorem ServiceChange.Advanced.refl (c : ServiceChange) : c.Advanced paid c :=
  ⟨.refl c, .inl⟩

theorem ChangesAdvanced.refl (t : Table ServiceChange) : ChangesAdvanced paid t t :=
  Table.Related.refl (fun _ => ServiceChange.Advanced.refl) t

theorem ChangesAdvanced.trans (h : ChangesAdvanced paid t t') (h' : ChangesAdvanced paid t' t'') :
    ChangesAdvanced paid t t'' := by
  refine Table.Related.trans ?_ h h'
  rintro _ a b c ⟨hab, happlied⟩ ⟨hbc, happlied'⟩
  refine ⟨hab.trans hbc, fun hc => ?_⟩
  rcases happlied' hc with hb | hpaid
  · exact happlied hb
  · exact .inr (hab.invoice ▸ hpaid)

theorem ChangesAdvanced.mono (hpaid : ∀ q, paid q → paid' q) (h : ChangesAdvanced paid t t') :
    ChangesAdvanced paid' t t' :=
  Table.Related.mono (fun _ _ _ hrow => ⟨hrow.1, fun hc => (hrow.2 hc).imp_right (hpaid _)⟩) h

/-- Writing back a change with another status. -/
theorem ChangesAdvanced.put {pk : ℕ} {c c' : ServiceChange} (hc : t.get? pk = some c)
    (hsame : c.Same c') (happlied : c'.status = .applied → paid c.invoice) :
    ChangesAdvanced paid t (t.put pk c') :=
  Table.Related.put (fun _ => ServiceChange.Advanced.refl) hc ⟨hsame, fun h => .inr (happlied h)⟩

end Changes

/-! ### Tallies -/

/-- What was charged for the current term of an account, and the credits that lowered it. -/
structure Tally where
  charged : ℤ := 0
  credited : ℤ := 0
  deriving DecidableEq, Repr

/-- The tally of the account `pk` after one more event. -/
def Tally.after (pk : ℕ) (t : Tally) : Event → Tally
  | .termStarted account paid => if account = pk then ⟨paid, 0⟩ else t
  | .applied _ service fresh charged credit =>
    if service = .hosting pk then
      if fresh then ⟨charged, credit⟩ else ⟨t.charged + charged, t.credited + credit⟩
    else t

/-- The tallies of all accounts after some more events. -/
def counted (n : ℕ → Tally) (events : List Event) : ℕ → Tally :=
  fun pk => events.foldl (Tally.after pk) (n pk)

@[simp] theorem counted_nil (n : ℕ → Tally) : counted n [] = n := rfl

theorem counted_append (n : ℕ → Tally) (events events' : List Event) :
    counted n (events ++ events') = counted (counted n events) events' := by
  funext pk
  exact List.foldl_append

/-- The stored value of every term is what was charged for it and the credits that lowered
    that, none of them negative. -/
structure Accounted (accounts : Table HostingAccount) (n : ℕ → Tally) : Prop where
  term : accounts.Forall fun pk account =>
    account.term.termPaid = (n pk).charged + (n pk).credited
  credited : ∀ pk, 0 ≤ (n pk).credited
  absent : ∀ pk, accounts.get? pk = none → n pk = {}

section Accounted

variable {accounts : Table HostingAccount} {n : ℕ → Tally}

theorem Accounted.empty : Accounted {} fun _ => {} := ⟨.empty, fun _ => le_refl _, fun _ _ => rfl⟩

/-- A new account has no paid term. -/
theorem Accounted.insert (h : Accounted accounts n) {account : HostingAccount}
    (hterm : account.term.termPaid = 0) : Accounted (accounts.insert account) n := by
  refine ⟨h.term.insert ?_, h.credited, fun pk hnone => ?_⟩
  · rw [hterm, h.absent _ (Table.get?_nextPk _)]
    rfl
  · rw [Table.get?_insert] at hnone
    split at hnone
    · cases hnone
    · exact h.absent pk hnone

/-- Writing an account together with the event that says what its term is worth now. -/
theorem Accounted.put (h : Accounted accounts n) {pk : ℕ} {account account' : HostingAccount}
    (hget : accounts.get? pk = some account) {events : List Event}
    (hother : ∀ q, q ≠ pk → counted n events q = n q)
    (hterm : account'.term.termPaid
      = (counted n events pk).charged + (counted n events pk).credited)
    (hcredited : 0 ≤ (counted n events pk).credited) :
    Accounted (accounts.put pk account') (counted n events) := by
  refine ⟨?_, fun q => ?_, ?_⟩
  · intro q a ha
    by_cases hq : q = pk
    · subst hq
      cases (Table.get?_put_self hget account').symm.trans ha
      exact hterm
    · rw [Table.get?_put_of_ne hq] at ha
      rw [hother q hq]
      exact h.term q a ha
  · by_cases hq : q = pk
    · exact hq ▸ hcredited
    · rw [hother q hq]
      exact h.credited q
  · intro q hnone
    have hq : q ≠ pk := by
      rintro rfl
      rw [Table.get?_put_self hget] at hnone
      cases hnone
    rw [Table.get?_put_of_ne hq] at hnone
    rw [hother q hq]
    exact h.absent q hnone

end Accounted

/-! ### Terms -/

section Terms

variable {env : Env} {providers : Providers} {s s' : Store} {n : ℕ → Tally}

/-- A term that begins anew is worth what was paid for it now; one that goes on is worth that
    much more. -/
theorem Term.paidOn_termPaid {term term' : Term} {months : ℕ} {paidValue : ℤ}
    {running : Moment → Except Err Term} {fresh : Bool}
    (hrunning : ∀ expiresAt t, running expiresAt = .ok t → t.termPaid = term.termPaid + paidValue)
    (h : term.paidOn env months paidValue running = .ok (term', fresh)) :
    term'.termPaid = if fresh then paidValue else term.termPaid + paidValue := by
  have hfresh : ∀ {t : Term}, freshTerm env term.billingCycle term.customMonths months paidValue
      = .ok t → t.termPaid = paidValue := by
    intro t ht
    unfold freshTerm at ht
    simp only [bind_eq_ok, pure_eq_ok] at ht
    obtain ⟨_, _, rfl⟩ := ht
    rfl
  unfold Term.paidOn at h
  split at h
  · next expiresAt _ =>
    split at h
    · obtain ⟨t, ht, heq⟩ := map_eq_ok.mp h
      cases heq
      exact hrunning expiresAt _ ht
    · obtain ⟨t, ht, heq⟩ := map_eq_ok.mp h
      cases heq
      exact hfresh ht
  · obtain ⟨t, ht, heq⟩ := map_eq_ok.mp h
    cases heq
    exact hfresh ht

theorem Term.renewed_termPaid {term term' : Term} {months : ℕ} {paidValue : ℤ} {fresh : Bool}
    (h : term.renewed env months paidValue = .ok (term', fresh)) :
    term'.termPaid = if fresh then paidValue else term.termPaid + paidValue := by
  refine Term.paidOn_termPaid (fun expiresAt t ht => ?_) h
  simp only [bind_eq_ok, pure_eq_ok] at ht
  obtain ⟨_, _, rfl⟩ := ht
  rfl

theorem Term.upgraded_termPaid {term term' : Term} {months : ℕ} {paidValue : ℤ} {fresh : Bool}
    (h : term.upgraded env months paidValue = .ok (term', fresh)) :
    term'.termPaid = if fresh then paidValue else term.termPaid + paidValue := by
  refine Term.paidOn_termPaid (fun expiresAt t ht => ?_) h
  cases ht
  rfl

/-- The new package leaves the term alone. -/
theorem changePackageAsSystem_term {pk newPk : ℕ} {account account' : HostingAccount}
    (h : changePackageAsSystem providers pk account newPk = .ok account') :
    account'.term = account.term := by
  unfold changePackageAsSystem at h
  simp only [bind_eq_ok, ensure_eq_ok, exists_and_left, exists_const, pure_eq_ok] at h
  obtain ⟨_, _, _, _, _, _, rfl⟩ := h
  rfl

/-- **What applying a change does to an account**: the value it paid for joins the term, or is
    the new term's. -/
theorem applyHosting_term {change : ServiceChange} {pk : ℕ} {fresh : Bool}
    (h : applyHosting env providers change pk s = .ok (s', fresh)) :
    ∃ account account', s.accounts.get? pk = some account ∧ s' = s.putAccount pk account'
      ∧ account'.term.termPaid
        = if fresh then change.paidValue else account.term.termPaid + change.paidValue := by
  unfold applyHosting at h
  simp only [bind_eq_ok, lockAccount_eq_ok] at h
  obtain ⟨account, haccount, h⟩ := h
  cases hkind : change.kind with
  | renewal =>
    simp only [hkind, bind_eq_ok, ensure_eq_ok, exists_and_left, exists_const, pure_eq_ok,
      Prod.exists, Prod.mk.injEq] at h
    obtain ⟨_, term, fresh', hterm, rfl, rfl⟩ := h
    exact ⟨account, _, haccount, rfl, Term.renewed_termPaid hterm⟩
  | upgrade =>
    simp only [hkind, bind_eq_ok, ensure_eq_ok, exists_and_left, exists_const, pure_eq_ok,
      Prod.exists, Prod.mk.injEq] at h
    obtain ⟨_, newPk, _, account', hpackage, term, fresh', hterm, rfl, rfl⟩ := h
    have hvalue := Term.upgraded_termPaid hterm
    rw [changePackageAsSystem_term hpackage] at hvalue
    exact ⟨account, _, haccount, rfl, hvalue⟩

theorem applyDomain_accounts {change : ServiceChange} {pk : ℕ} {fresh : Bool}
    (h : applyDomain providers change pk s = .ok (s', fresh)) :
    s'.accounts = s.accounts ∧ s'.changes = s.changes ∧ s'.addonOrders = s.addonOrders := by
  unfold applyDomain at h
  simp only [bind_eq_ok, ensure_eq_ok, exists_and_left, exists_const, pure_eq_ok,
    Prod.mk.injEq] at h
  obtain ⟨_, _, _, _, _, _, _, _, rfl, _⟩ := h
  exact ⟨rfl, rfl, rfl⟩

/-- A hosting account and its event, or nothing any account has to do with. -/
theorem applyToService_cases {change : ServiceChange} {fresh : Bool}
    (h : applyToService env providers change s = .ok (s', fresh)) :
    s'.changes = s.changes ∧ s'.addonOrders = s.addonOrders ∧
      ((∃ pk account account', change.service = .hosting pk ∧ s.accounts.get? pk = some account
        ∧ s'.accounts = s.accounts.put pk account' ∧ account'.term.termPaid
          = if fresh then change.paidValue else account.term.termPaid + change.paidValue) ∨
      ((∃ pk, change.service = .domain pk) ∧ s'.accounts = s.accounts)) := by
  unfold applyToService at h
  cases hservice : change.service with
  | hosting pk =>
    rw [hservice] at h
    obtain ⟨account, account', hget, rfl, hvalue⟩ := applyHosting_term h
    exact ⟨rfl, rfl, .inl ⟨pk, account, account', rfl, hget, rfl, hvalue⟩⟩
  | domain pk =>
    rw [hservice] at h
    obtain ⟨haccounts, hchanges, haddons⟩ := applyDomain_accounts h
    exact ⟨hchanges, haddons, .inr ⟨⟨pk, rfl⟩, haccounts⟩⟩

/-- Applying one change of an invoice that is paid advances the changes. -/
theorem apply_advanced {paid : ℕ → Prop} {invoice : Invoice} {pk : ℕ} {row change : ServiceChange}
    (hrow : s.changes.get? pk = some row) (hsame : row.Same change) (hpaid : paid change.invoice) :
    ChangesAdvanced paid s.changes (apply env providers invoice pk change s).1.changes := by
  unfold apply
  have hpaid' : paid row.invoice := hsame.invoice ▸ hpaid
  split
  · next s₁ fresh happly =>
    simp only [Store.putChange, (applyToService_cases happly).1]
    exact .put hrow ⟨hsame.invoice, hsame.kind, hsame.service, hsame.paidValue⟩ fun _ => hpaid'
  · exact .put hrow ⟨hsame.invoice, hsame.kind, hsame.service, hsame.paidValue⟩ fun _ => hpaid'

/-- **Applying one change keeps the terms accounted for**, where its invoice charged the value
    it adds, less the credit shown. -/
theorem apply_accounted {invoice : Invoice} {pk : ℕ} {change : ServiceChange}
    (hvalue : change.paidValue = charged invoice + invoice.discountTotal)
    (hdiscount : 0 ≤ invoice.discountTotal) (h : Accounted s.accounts n) :
    Accounted (apply env providers invoice pk change s).1.accounts
      (counted n (apply env providers invoice pk change s).2) := by
  unfold apply
  split
  · next s₁ fresh happly =>
    rcases (applyToService_cases happly).2.2 with
      ⟨account, a, a', hservice, hget, haccounts, hterm⟩ | ⟨⟨domain, hservice⟩, haccounts⟩
    · -- the account of the change: its tally moves as its term does
      simp only [Store.putChange, haccounts]
      refine h.put hget (fun q hq => ?_) ?_ ?_
      · simp [counted, Tally.after, hservice, Ne.symm hq]
      · have hbefore := h.term account a hget
        rw [hterm, hvalue]
        cases fresh with
        | true => simp [counted, Tally.after, hservice]
        | false =>
          simp only [counted, Tally.after, hservice, List.foldl_cons, List.foldl_nil,
            Bool.false_eq_true, if_false, if_true]
          omega
      · have hbefore := h.credited account
        cases fresh with
        | true =>
          simp only [counted, Tally.after, hservice, List.foldl_cons, List.foldl_nil, if_true]
          exact hdiscount
        | false =>
          simp only [counted, Tally.after, hservice, List.foldl_cons, List.foldl_nil,
            Bool.false_eq_true, if_false, if_true]
          omega
    · have hn : counted n [.applied pk change.service fresh (charged invoice)
          invoice.discountTotal] = n := by
        funext q
        simp [counted, Tally.after, hservice]
      simp only [Store.putChange, haccounts]
      rw [hn]
      exact h
  · exact h

/-- These are changes of the invoice `q`, as stored but for their status. -/
def ChangesOf (s : Store) (q : ℕ) (entries : List (ℕ × ServiceChange)) : Prop :=
  ∀ entry ∈ entries, entry.2.invoice = q ∧ ∃ row, s.changes.get? entry.1 = some row
    ∧ row.Same entry.2

theorem pendingChanges_changesOf (s : Store) (q : ℕ) : ChangesOf s q (s.pendingChanges q) := by
  rintro ⟨pk, change⟩ hmem
  simp only [Store.pendingChanges, List.mem_filter, Table.mem_entries, decide_eq_true_eq] at hmem
  exact ⟨hmem.2.1, change, hmem.1, .refl change⟩

/-- Advancing keeps what is frozen. -/
theorem ChangesOf.advanced {paid : ℕ → Prop} {q : ℕ} {entries : List (ℕ × ServiceChange)}
    (h : ChangesOf s q entries) (hadv : ChangesAdvanced paid s.changes s'.changes) :
    ChangesOf s' q entries := by
  intro entry hmem
  obtain ⟨hq, row, hrow, hsame⟩ := h entry hmem
  obtain ⟨row', hrow', hrel⟩ := hadv.of_some hrow
  exact ⟨hq, row', hrow', hrel.1.symm.trans hsame⟩

/-- The rest of the changes to be applied, after the first. -/
theorem ChangesOf.tail (env : Env) (providers : Providers) (invoice : Invoice) {q pk : ℕ}
    {change : ServiceChange} {entries : List (ℕ × ServiceChange)}
    (h : ChangesOf s q ((pk, change) :: entries)) :
    ChangesAdvanced (· = q) s.changes (apply env providers invoice pk change s).1.changes
      ∧ ChangesOf (apply env providers invoice pk change s).1 q entries := by
  obtain ⟨hq, row, hrow, hsame⟩ := h _ List.mem_cons_self
  have hadv : ChangesAdvanced (· = q) s.changes
      (apply env providers invoice pk change s).1.changes := apply_advanced hrow hsame hq
  have hrest : ChangesOf s q entries := fun e he => h e (List.mem_cons_of_mem _ he)
  exact ⟨hadv, hrest.advanced hadv⟩

/-- Applying the changes of an invoice applies no others. -/
theorem applyAll_advanced {invoice : Invoice} {q : ℕ} (entries : List (ℕ × ServiceChange))
    (h : ChangesOf s q entries) :
    ChangesAdvanced (· = q) s.changes (applyAll env providers invoice entries s).1.changes := by
  induction entries generalizing s with
  | nil => exact .refl _
  | cons entry entries ih =>
    obtain ⟨hadv, hrest⟩ := ChangesOf.tail env providers invoice h
    exact hadv.trans (ih hrest)

/-- **Applying the changes of an invoice keeps the terms accounted for.**  The induction is on
    the changes still to be applied, which stay those of the invoice. -/
theorem applyAll_accounted {invoice : Invoice} {q : ℕ}
    (hvalue : ∀ pk row, s.changes.get? pk = some row → row.invoice = q →
      row.paidValue = charged invoice + invoice.discountTotal ∧ 0 ≤ invoice.discountTotal)
    (entries : List (ℕ × ServiceChange)) (hentries : ChangesOf s q entries)
    (h : Accounted s.accounts n) :
    Accounted (applyAll env providers invoice entries s).1.accounts
      (counted n (applyAll env providers invoice entries s).2) := by
  induction entries generalizing s n with
  | nil => exact h
  | cons entry entries ih =>
    obtain ⟨pk, change⟩ := entry
    obtain ⟨hadv, hrest⟩ := ChangesOf.tail env providers invoice hentries
    obtain ⟨hq, row, hrow, hsame⟩ := hentries _ List.mem_cons_self
    have hchange : change.paidValue = charged invoice + invoice.discountTotal
        ∧ 0 ≤ invoice.discountTotal := by
      rw [hsame.paidValue]
      exact hvalue pk row hrow (hsame.invoice ▸ hq)
    have hvalue' : ∀ p r, (apply env providers invoice pk change s).1.changes.get? p = some r →
        r.invoice = q → r.paidValue = charged invoice + invoice.discountTotal
          ∧ 0 ≤ invoice.discountTotal := by
      intro p r hr hrq
      obtain ⟨r₀, hr₀, hrel⟩ := hadv.some_of hr
      rw [hrel.1.paidValue]
      exact hvalue p r₀ hr₀ (hrel.1.invoice ▸ hrq)
    show Accounted _ (counted n (_ ++ _))
    rw [counted_append]
    exact ih hvalue' hrest (apply_accounted hchange.1 hchange.2 h)

/-- Voiding the pending changes of an invoice applies none. -/
theorem voidChanges_advanced (q : ℕ) (paid : ℕ → Prop) :
    ChangesAdvanced paid s.changes (voidChanges q s).changes := by
  refine Table.Related.updateWhere fun pk change => ?_
  split
  · exact ⟨⟨rfl, rfl, rfl, rfl⟩, nofun⟩
  · exact .refl change

end Terms

end WPanel.Renewals
