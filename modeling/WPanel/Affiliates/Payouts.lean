import WPanel.Affiliates.Program

namespace WPanel.Affiliates

open WPanel.Lib WPanel.Billing WPanel.Site

/-!
# Payouts and their commissions

A payout is recorded once, for the amount of the commissions it covers; afterwards refunds
still come in.  This file shows that they never reach a commission that was paid out.

* `Change` — the few ways in which any operation changes commissions and payouts;
* `Settled` — every payout is the sum of its commissions, all paid and in its currency;
* `Change.settled`, `Change.frozen` — a change keeps that, and leaves paid commissions alone;
* `payouts_settled` — so does every run.
-/

/-! ### What can happen to commissions -/

/-- A commission written over: it stays in its payout, and paid for the same amount if it was. -/
structure Rewrites (c c' : Commission) : Prop where
  payout : c'.payout = c.payout
  paid : c'.status = .paid ↔ c.status = .paid
  amount : c.status = .paid → c'.amount = c.amount
  currency : c'.currency = c.currency

/-- What an operation does to the commissions and payouts. -/
inductive Change (s : Store) : Store → Prop
  /-- Nothing. -/
  | keep {s' : Store} (hcommissions : s'.commissions = s.commissions)
      (hpayouts : s'.payouts = s.payouts) : Change s s'
  /-- A commission is earned. -/
  | earn {s' : Store} {c : Commission} (hpayout : c.payout = none) (hstatus : c.status ≠ .paid)
      (hcommissions : s'.commissions = s.commissions.insert c) (hpayouts : s'.payouts = s.payouts) :
      Change s s'
  /-- A commission is reviewed, or follows a refund. -/
  | rewrite {s' : Store} {pk : ℕ} {c c' : Commission} (hc : s.commissions.get? pk = some c)
      (hrewrites : Rewrites c c')
      (hcommissions : s'.commissions = s.commissions.put pk c')
      (hpayouts : s'.payouts = s.payouts) :
      Change s s'
  /-- The commissions a test picks, none of them in a payout, are paid out together. -/
  | pay {s' : Store} {payout : Payout} {pick : ℕ × Commission → Bool}
      (hopen : ∀ pk c, pick (pk, c) = true → c.payout = none ∧ c.status ≠ .paid)
      (hcurrency : ∀ pk c, s.commissions.get? pk = some c → pick (pk, c) = true →
        c.currency = payout.currency)
      (hamount : payout.amount
        = ((s.commissions.entries.filter pick).map fun entry => entry.2.amount).sum)
      (hcommissions : s'.commissions = s.commissions.updateKeys
        ((s.commissions.entries.filter pick).map Prod.fst) (Commission.paidBy s.payouts.nextPk))
      (hpayouts : s'.payouts = s.payouts.insert payout) : Change s s'

/-- The commissions in a payout. -/
def Store.commissionsIn (s : Store) (payout : ℕ) : List (ℕ × Commission) :=
  s.commissions.entries.filter fun entry => entry.2.payout = some payout

/-- **Every payout is the sum of its commissions**, all of them paid and in its currency. -/
structure Settled (s : Store) : Prop where
  amount : ∀ q payout, s.payouts.get? q = some payout →
    payout.amount = ((s.commissionsIn q).map fun entry => entry.2.amount).sum
  inPayout : ∀ pk c q, s.commissions.get? pk = some c → c.payout = some q →
    c.status = .paid ∧ ∃ payout, s.payouts.get? q = some payout ∧ c.currency = payout.currency
  paid : ∀ pk c, s.commissions.get? pk = some c → c.status = .paid → c.payout ≠ none

/-- A paid commission stays paid, for the same amount and in the same payout. -/
def PaidFrozen (s s' : Store) : Prop :=
  ∀ pk c, s.commissions.get? pk = some c → c.status = .paid →
    ∃ c', s'.commissions.get? pk = some c' ∧ c'.status = .paid ∧ c'.amount = c.amount
      ∧ c'.payout = c.payout

/-! ### A change keeps payouts settled -/

section

variable {s s' : Store}

theorem Settled.empty : Settled {} := by
  refine ⟨fun q payout h => ?_, fun pk c q h => ?_, fun pk c h => ?_⟩
  all_goals rw [Table.get?_empty] at h; cases h

/-- A payout that is not there has no commissions. -/
theorem Settled.payout_ne (hs : Settled s) {pk : ℕ} {c : Commission}
    (hc : s.commissions.get? pk = some c) : c.payout ≠ some s.payouts.nextPk := by
  intro hpayout
  obtain ⟨_, payout, hq, _⟩ := hs.inPayout pk c _ hc hpayout
  rw [Table.get?_nextPk] at hq
  cases hq

/-- The entries a test picks are those whose key it picks. -/
theorem mem_picked {pick : ℕ × Commission → Bool} {entry : ℕ × Commission}
    (hentry : entry ∈ s.commissions.entries) :
    entry.1 ∈ (s.commissions.entries.filter pick).map Prod.fst ↔ pick entry = true := by
  constructor
  · intro hmem
    obtain ⟨other, hother, hkey⟩ := List.mem_map.mp hmem
    obtain ⟨hin, hpick⟩ := List.mem_filter.mp hother
    have h1 := Table.mem_entries.mp (show (entry.1, entry.2) ∈ s.commissions.entries from hentry)
    have h2 := Table.mem_entries.mp (show (other.1, other.2) ∈ s.commissions.entries from hin)
    rw [hkey, h1] at h2
    rwa [show entry = other from Prod.ext hkey.symm (Option.some.inj h2)]
  · intro hpick
    exact List.mem_map_of_mem (List.mem_filter.mpr ⟨hentry, hpick⟩)

/-- **A change keeps every payout settled.** -/
theorem Change.settled (h : Change s s') (hs : Settled s) : Settled s' := by
  cases h with
  | keep hcommissions hpayouts =>
    refine ⟨?_, ?_, ?_⟩
    · unfold Store.commissionsIn
      rw [hcommissions, hpayouts]
      exact hs.amount
    · rw [hcommissions, hpayouts]
      exact hs.inPayout
    · rw [hcommissions]
      exact hs.paid
  | @earn c hpayout hstatus hcommissions hpayouts =>
    refine ⟨fun q payout hq => ?_, fun pk c' q hc' hq => ?_, fun pk c' hc' hpaid => ?_⟩
    · -- the new commission is in no payout
      rw [hpayouts] at hq
      have hfilter : s'.commissionsIn q = s.commissionsIn q := by
        unfold Store.commissionsIn
        rw [hcommissions, Table.entries_insert, List.filter_append,
          List.filter_cons_of_neg (by simp [hpayout]), List.filter_nil, List.append_nil]
      rw [hfilter]
      exact hs.amount q payout hq
    · rw [hcommissions, Table.get?_insert] at hc'
      split at hc'
      · cases hc'
        rw [hpayout] at hq
        cases hq
      · rw [hpayouts]
        exact hs.inPayout pk c' q hc' hq
    · rw [hcommissions, Table.get?_insert] at hc'
      split at hc'
      · cases hc'
        exact absurd hpaid hstatus
      · exact hs.paid pk c' hc' hpaid
  | @rewrite k c c' hc hrewrites hcommissions hpayouts =>
    refine ⟨fun q payout hq => ?_, fun pk d q hd hq => ?_, fun pk d hd hpaid => ?_⟩
    · rw [hpayouts] at hq
      rw [hs.amount q payout hq, Store.commissionsIn, Store.commissionsIn, hcommissions]
      refine (congrArg List.sum (Table.map_filter_entries_put hc ?_ fun hpick => ?_)).symm
      · simp [hrewrites.payout]
      · -- what is in a payout is paid, and keeps its amount
        have hpayout : c.payout = some q := by simpa using hpick
        exact hrewrites.amount (hs.inPayout k c q hc hpayout).1
    · rw [hcommissions, Table.get?_put hc] at hd
      rw [hpayouts]
      split at hd
      · cases hd
        obtain ⟨hstatus, payout, hpayout, hcurrency⟩ :=
          hs.inPayout k c q hc (hrewrites.payout ▸ hq)
        exact ⟨hrewrites.paid.mpr hstatus, payout, hpayout, hrewrites.currency.trans hcurrency⟩
      · exact hs.inPayout pk d q hd hq
    · rw [hcommissions, Table.get?_put hc] at hd
      split at hd
      · cases hd
        rw [hrewrites.payout]
        exact hs.paid k c hc (hrewrites.paid.mp hpaid)
      · exact hs.paid pk d hd hpaid
  | @pay payout pick hopen hcurrency hamount hcommissions hpayouts =>
    have hget : ∀ pk, s'.commissions.get? pk
        = if pk ∈ (s.commissions.entries.filter pick).map Prod.fst then
            (s.commissions.get? pk).map (Commission.paidBy s.payouts.nextPk)
          else s.commissions.get? pk := by
      intro pk
      rw [hcommissions, Table.get?_updateKeys]
    -- the commissions of a payout, read before the change
    have hin : ∀ q, (s'.commissionsIn q).map (fun entry => entry.2.amount)
        = (s.commissions.entries.filter fun entry =>
            if pick entry then decide (q = s.payouts.nextPk)
            else decide (entry.2.payout = some q)).map fun entry => entry.2.amount := by
      intro q
      unfold Store.commissionsIn
      rw [hcommissions, Table.entries_updateKeys, List.filter_map, List.map_map]
      have hpicked : ∀ entry ∈ s.commissions.entries,
          ((fun entry : ℕ × Commission => decide (entry.2.payout = some q)) ∘ fun entry =>
            (entry.1, if entry.1 ∈ (s.commissions.entries.filter pick).map Prod.fst
              then entry.2.paidBy s.payouts.nextPk else entry.2)) entry
          = if pick entry then decide (q = s.payouts.nextPk)
            else decide (entry.2.payout = some q) := by
        intro entry hentry
        have hmem : entry.1 ∈ (s.commissions.entries.filter pick).map Prod.fst
            ↔ pick entry = true := mem_picked hentry
        simp only [Function.comp_apply]
        by_cases hpick : pick entry = true
        · rw [if_pos (hmem.mpr hpick), if_pos hpick]
          apply decide_eq_decide.mpr
          exact ⟨fun h => (Option.some.inj h).symm, fun h => congrArg some h.symm⟩
        · rw [if_neg fun h => hpick (hmem.mp h), if_neg hpick]
      rw [List.filter_congr hpicked]
      refine List.map_congr_left fun entry _ => ?_
      simp only [Function.comp_apply]
      split <;> rfl
    refine ⟨fun q payout' hq => ?_, fun pk c q hc hq => ?_, fun pk c hc hpaid => ?_⟩
    · rw [hpayouts, Table.get?_insert] at hq
      rw [hin]
      split at hq
      · next hnew =>
        -- the new payout has the commissions it picked
        cases hq
        rw [hamount]
        congr 2
        apply List.filter_congr
        intro entry hentry
        have hne := hs.payout_ne (Table.mem_entries.mp
          (show (entry.1, entry.2) ∈ s.commissions.entries from hentry))
        by_cases hpick : pick entry = true
        · simp [hpick, hnew]
        · simp [hpick, hnew, hne]
      · next hold =>
        -- no commission of an old payout was picked
        rw [hs.amount q payout' hq, Store.commissionsIn]
        congr 2
        apply List.filter_congr
        intro entry _
        by_cases hpick : pick entry = true
        · simp [hpick, hold, (hopen entry.1 entry.2 hpick).1]
        · simp [hpick]
    · rw [hget] at hc
      rw [hpayouts]
      split at hc
      · next hpicked =>
        obtain ⟨c₀, hc₀, rfl⟩ := Option.map_eq_some_iff.mp hc
        cases hq
        have hpick := (mem_picked (Table.mem_entries.mpr hc₀)).mp hpicked
        exact ⟨rfl, payout, Table.get?_insert_self _ _, hcurrency pk c₀ hc₀ hpick⟩
      · obtain ⟨hstatus, payout', hpayout', heq⟩ := hs.inPayout pk c q hc hq
        exact ⟨hstatus, payout', Table.get?_insert_of_some hpayout', heq⟩
    · rw [hget] at hc
      split at hc
      · obtain ⟨c₀, hc₀, rfl⟩ := Option.map_eq_some_iff.mp hc
        intro hnone
        cases hnone
      · exact hs.paid pk c hc hpaid

/-- **A change leaves paid commissions alone.** -/
theorem Change.frozen (h : Change s s') : PaidFrozen s s' := by
  intro pk c hc hpaid
  cases h with
  | keep hcommissions => exact ⟨c, by rw [hcommissions, hc], hpaid, rfl, rfl⟩
  | earn _ _ hcommissions =>
    exact ⟨c, by rw [hcommissions, Table.get?_insert_of_some hc], hpaid, rfl, rfl⟩
  | @rewrite k d d' hd hrewrites hcommissions =>
    rw [hcommissions, Table.get?_put hd]
    by_cases hk : pk = k
    · subst hk
      cases hc.symm.trans hd
      exact ⟨d', if_pos rfl, hrewrites.paid.mpr hpaid, hrewrites.amount hpaid, hrewrites.payout⟩
    · exact ⟨c, by rw [if_neg hk, hc], hpaid, rfl, rfl⟩
  | @pay payout pick hopen _ _ hcommissions =>
    -- a paid commission is not picked again
    refine ⟨c, ?_, hpaid, rfl, rfl⟩
    rw [hcommissions, Table.get?_updateKeys, if_neg, hc]
    intro hpicked
    exact (hopen pk c ((mem_picked (Table.mem_entries.mpr hc)).mp hpicked)).2 hpaid

end

/-! ### What each operation changes -/

section

variable {s s' : Store} {now : Moment} {actor : Actor}

theorem lockCommission_eq_ok {pk : ℕ} {c : Commission} :
    lockCommission s pk = .ok c ↔ s.commissions.get? pk = some c := by
  unfold lockCommission
  cases s.commissions.get? pk <;> simp

/-- A commission is earned unpaid. -/
theorem earned_unpaid {pk : ℕ} {invoice : Invoice} {c : Commission}
    (h : earned now pk invoice s = .ok (some c)) : c.payout = none ∧ c.status ≠ .paid := by
  unfold earned at h
  split at h
  · cases h
  · simp only [bind_eq_ok] at h
    obtain ⟨affiliate, _, h⟩ := h
    split at h
    · cases h
    · split at h
      · cases h
      · simp only [bind_eq_ok] at h
        obtain ⟨within, _, h⟩ := h
        split at h
        · cases h
        · split at h
          · cases h
          · simp only [pure_eq_ok, Option.some.injEq] at h
            subst h
            refine ⟨rfl, ?_⟩
            show (if s.settings.holdDays = 0 then CommissionStatus.approved else .pending) ≠ .paid
            split <;> decide

theorem onInvoicePaid_change {pk : ℕ} {invoice : Invoice}
    (h : onInvoicePaid now pk invoice s = .ok s') : Change s s' := by
  simp only [onInvoicePaid, bind_eq_ok] at h
  obtain ⟨commission, hearned, h⟩ := h
  cases commission with
  | none =>
    cases h
    exact .keep rfl rfl
  | some commission =>
    cases h
    unfold Store.addCommission
    split
    · exact .keep rfl rfl
    · obtain ⟨hpayout, hstatus⟩ := earned_unpaid hearned
      exact .earn hpayout hstatus rfl rfl

/-- A refund neither pays a commission nor takes one out of its payout. -/
theorem Commission.refunded_rewrites (invoice : Invoice) (c : Commission) :
    Rewrites c (c.refunded now invoice) := by
  unfold Commission.refunded
  split
  · exact ⟨rfl, .rfl, fun _ => rfl, rfl⟩
  · next hrejected =>
    split
    · exact ⟨rfl, .rfl, fun _ => rfl, rfl⟩
    · next hpaid =>
      dsimp only
      split
      · exact ⟨rfl, .rfl, fun _ => rfl, rfl⟩
      · split
        · exact ⟨rfl, ⟨nofun, fun h => absurd h hpaid⟩, fun h => absurd h hpaid, rfl⟩
        · exact ⟨rfl, .rfl, fun h => absurd h hpaid, rfl⟩

theorem onInvoiceRefunded_change {pk : ℕ} {invoice : Invoice} :
    Change s (onInvoiceRefunded now pk invoice s) := by
  unfold onInvoiceRefunded
  split
  · exact .keep rfl rfl
  · next k c hfind =>
    have hmem : (k, c) ∈ s.commissions.entries := List.mem_of_find?_eq_some hfind
    exact .rewrite (Table.mem_entries.mp hmem) (c.refunded_rewrites invoice) rfl rfl

theorem hear_change {billing : Billing.Store} {signal : Signal}
    (h : hear now billing signal s = .ok s') : Change s s' := by
  cases signal with
  | invoicePaid pk =>
    simp only [hear, bind_eq_ok] at h
    obtain ⟨l, _, h⟩ := h
    exact onInvoicePaid_change h
  | invoiceRefunded pk =>
    simp only [hear, bind_eq_ok, pure_eq_ok] at h
    obtain ⟨l, _, rfl⟩ := h
    exact onInvoiceRefunded_change
  | invoiceCancelled pk =>
    cases h
    exact .keep rfl rfl

/-- A review of a commission that is not paid, and does not pay it. -/
private theorem review_change {pk : ℕ} {c c' : Commission} (hc : s.commissions.get? pk = some c)
    (hstatus : c.status ≠ .paid) (hstatus' : c'.status ≠ .paid) (hpayout : c'.payout = c.payout)
    (hcurrency : c'.currency = c.currency) : Change s (s.putCommission pk c') :=
  .rewrite hc ⟨hpayout, ⟨fun h => absurd h hstatus', fun h => absurd h hstatus⟩,
    fun h => absurd h hstatus, hcurrency⟩ rfl rfl

theorem approveCommission_change {pk : ℕ} (h : approveCommission now actor pk s = .ok s') :
    Change s s' := by
  simp only [approveCommission, bind_eq_ok, requirePerm_eq_ok, lockCommission_eq_ok, ensure_eq_ok,
    exists_and_left, exists_const, pure_eq_ok] at h
  obtain ⟨_, c, hc, hpending, _, rfl⟩ := h
  exact review_change hc (by rw [hpending]; decide) (fun h => by cases h) rfl rfl

theorem rejectCommission_change {pk : ℕ} {note : String}
    (h : rejectCommission now actor pk note s = .ok s') : Change s s' := by
  simp only [rejectCommission, bind_eq_ok, requirePerm_eq_ok, lockCommission_eq_ok, ensure_eq_ok,
    exists_and_left, exists_const, pure_eq_ok] at h
  obtain ⟨_, _, c, hc, hstatus, rfl⟩ := h
  refine review_change hc ?_ (fun h => by cases h) rfl rfl
  rintro hpaid
  rw [hpaid] at hstatus
  rcases hstatus with h | h <;> cases h

theorem approveDue_change {pk : ℕ} : Change s (approveDue now pk s) := by
  unfold approveDue
  split
  · exact .keep rfl rfl
  · next c hc =>
    split
    · exact .keep rfl rfl
    · next hdue =>
      push Not at hdue
      exact review_change hc (by rw [hdue.1]; decide) nofun rfl rfl

theorem oneCurrency_eq_ok {commissions : List (ℕ × Commission)} {currency : String}
    (h : oneCurrency commissions = .ok currency) :
    ∀ entry ∈ commissions, entry.2.currency = currency := by
  unfold oneCurrency at h
  split at h
  · next found hfound =>
    cases h
    intro entry hentry
    have hmem : entry.2.currency ∈ (commissions.map fun entry => entry.2.currency).dedup :=
      List.mem_dedup.mpr (List.mem_map_of_mem hentry)
    rw [hfound] at hmem
    exact List.mem_singleton.mp hmem
  · cases h

theorem recordPayout_change {today affiliate q : ℕ} {method reference : String} {paidOn : Option ℕ}
    {chosen : Option (List ℕ)}
    (h : recordPayout today actor affiliate method reference paidOn chosen s = .ok (q, s')) :
    Change s s' := by
  simp only [recordPayout, bind_eq_ok, ensure_eq_ok, exists_and_left, exists_const, pure_eq_ok,
    Prod.mk.injEq] at h
  obtain ⟨_, _, _, _, _, _, _, _, _, _, currency, hcurrency, _, rfl, rfl⟩ := h
  refine .pay (fun pk c hpick => ?_) (fun pk c hc hpick => ?_) rfl rfl rfl
  · have hpick := of_decide_eq_true hpick
    exact ⟨hpick.2.2.1, by rw [hpick.2.1]; decide⟩
  · exact oneCurrency_eq_ok hcurrency (pk, c)
      (List.mem_filter.mpr ⟨Table.mem_entries.mpr hc, hpick⟩)

theorem attributeSignup_change {contacts : ℕ → List ℕ} {client : ℕ} {code : String} :
    Change s (attributeSignup now contacts client code s) := by
  unfold attributeSignup
  dsimp only
  split
  · exact .keep rfl rfl
  · split
    · exact .keep rfl rfl
    · split
      · exact .keep rfl rfl
      · exact .keep rfl rfl

theorem attributeClient_change {contacts : ℕ → List ℕ} {client pk : ℕ}
    (h : attributeClient now actor contacts client pk s = .ok s') : Change s s' := by
  simp only [attributeClient, bind_eq_ok, pure_eq_ok] at h
  obtain ⟨_, _, _, _, _, _, _, _, _, _, rfl⟩ := h
  exact .keep rfl rfl

theorem ProgramCall.exec_change {call : ProgramCall} (h : call.exec s = .ok s') : Change s s' := by
  cases call with
  | attributeSignup => cases h; exact attributeSignup_change
  | attributeClient => exact attributeClient_change h
  | join => cases h; exact .keep rfl rfl
  | placeAffiliate pk affiliate =>
    obtain ⟨_, _, rfl⟩ := map_eq_ok.mp h
    exact .keep rfl rfl
  | configure => cases h; exact .keep rfl rfl
  | approveCommission => exact approveCommission_change h
  | rejectCommission => exact rejectCommission_change h
  | approveDue => cases h; exact approveDue_change
  | recordPayout =>
    obtain ⟨⟨q, p⟩, hrecord, rfl⟩ := map_eq_ok.mp h
    exact recordPayout_change hrecord

end

/-! ### Runs -/

section

variable {s s' : State} {a : Act} {events : List Event}

/-- What the changes of commissions keep, a call keeps. -/
theorem exec_invariant {I : Store → Prop} (hstep : ∀ p p', Change p p' → I p → I p')
    (hs : I s.program) (h : machine.Commits a s s' events) : I s'.program := by
  cases a with
  | site act =>
    obtain ⟨_, ⟨_, hprogram⟩ | ⟨now, _, hheard⟩⟩ := siteCall_eq_ok h
    · rw [hprogram]
      exact hs
    · exact hearAll_invariant (fun signal p p' hp hp' => hstep p p' (hear_change hp') hp) hs hheard
  | program call =>
    obtain ⟨hcall, _, _⟩ := programCall_eq_ok h
    exact hstep _ _ (ProgramCall.exec_change hcall) hs

theorem PaidFrozen.refl (p : Store) : PaidFrozen p p :=
  fun _ c hc hpaid => ⟨c, hc, hpaid, rfl, rfl⟩

theorem PaidFrozen.trans {p p' p'' : Store} (h : PaidFrozen p p') (h' : PaidFrozen p' p'') :
    PaidFrozen p p'' := by
  intro pk c hc hpaid
  obtain ⟨c', hc', hpaid', hamount, hpayout⟩ := h pk c hc hpaid
  obtain ⟨c'', hc'', hpaid'', hamount', hpayout'⟩ := h' pk c' hc' hpaid'
  exact ⟨c'', hc'', hpaid'', hamount'.trans hamount, hpayout'.trans hpayout⟩

theorem settled_step (hs : Settled s.program) (h : machine.Commits a s s' events) :
    Settled s'.program := exec_invariant (fun _ _ hchange hp => hchange.settled hp) hs h

theorem frozen_step (h : machine.Commits a s s' events) : PaidFrozen s.program s'.program :=
  exec_invariant (fun _ _ hchange hp => hp.trans hchange.frozen) (.refl _) h

end

/-- **Payouts and commissions agree.**  In every state of every run each payout is the sum of its
    commissions, all of them paid and in its currency; and no operation changes the amount or the
    payout of a paid commission, so that no commission ever gets into a second payout. -/
theorem payouts_settled (as : List Act) :
    machine.Always (fun s => Settled s.program) as {}
      ∧ machine.EachStep (fun s _ s' => PaidFrozen s.program s'.program) as {} := by
  constructor
  · exact Machine.always_of_invariant (m := machine) (I := fun s => Settled s.program) as
      (fun _ _ _ _ _ hs h => settled_step hs h) {} Settled.empty
  · exact Machine.eachStep_of_invariant (I := fun s : State => Settled s.program)
      (fun _ _ _ _ hs h => settled_step hs h) (fun _ _ _ _ _ h => frozen_step h) as {}
      Settled.empty

end WPanel.Affiliates
