import WPanel.Billing.Calls
import WPanel.Billing.Numbering
import WPanel.Lib.Interleaving
import WPanel.Lifecycle.Sweep

namespace WPanel.Lifecycle.Refunding

open WPanel.Lib WPanel.Billing

/-!
# Cancellations that are carried out by several workers

`execute` of `lifecycle/services.py` on one approved request: it claims the request, ends the
service, gives the refund and completes the request, each in a transaction of its own.  A claim that
is older than `CLAIM_TIMEOUT` is taken over, and the refund is recorded on the request only when it
is completed.

* `Office` — the request and what it is about, and the refunds given for it;
* `Phase`, `step` — how far a worker has come, and what its next transaction does;
* `executions` — every interleaving of workers, which may stop anywhere, with what else goes on;
* `Orderly` — a claim is taken over only from a worker that has died, and not between the refund and
  the completion;
* `refunded_once` — in a run that keeps to this one refund is given at most, of the amount decided.
-/

/-- `CancellationRequest`, with what was decided about a refund. -/
structure Cancellation extends Request where
  refundAmount : ℤ := 0
  refundPayment : Option TxId := none
  refundTransaction : Option TxId := none
  refundError : String := ""

/-- The request, the services and the documents; and the refunds that were given for it, with their
    amounts. -/
structure Office where
  clock : ℤ
  cancellation : Cancellation
  panel : Panel
  billing : Store
  given : List (TxId × ℤ) := []

/-- How far a worker has come, with its copy of the request. -/
inductive Phase where
  | begun
  | claimed
  /-- The request was read again. -/
  | loaded (cr : Cancellation)
  /-- The service has ended. -/
  | ended (cr : Cancellation)
  /-- The refund was given, or was not to be given. -/
  | settled (cr : Cancellation)
  | closed
  /-- The worker died, with the refund it has in hand. -/
  | dead (refund : Option TxId)

/-- What a worker's next step meets: whether it is killed before, the time, who it works for, and
    what the server and the gateway answer. -/
structure Advance where
  killed : Bool := false
  env : Env
  actor : Actor
  server : Except Err Unit
  gateway : Except String String

/-- A refund is to be given, and was not recorded. -/
def Cancellation.Owed (cr : Cancellation) : Prop :=
  0 < cr.refundAmount ∧ cr.refundTransaction = none

instance (cr : Cancellation) : Decidable cr.Owed := inferInstanceAs (Decidable (_ ∧ _))

/-- `_claim` gets the request: it is approved, and no one is carrying it out, or not for
    `CLAIM_TIMEOUT`. -/
def Office.Free (s : Office) : Prop :=
  s.cancellation.status = .approved
    ∧ ∀ claimed ∈ s.cancellation.claimedAt, claimed < s.clock - claimTimeout

instance (s : Office) : Decidable s.Free := inferInstanceAs (Decidable (_ ∧ _))

/-- The message of a failure that is noted; the fields that are wrong stand for their messages. -/
def refundErrorOf : Err → Option String
  | .service message _ _ => some message
  | .validation message => some message
  | .field _ message => some message
  | .invalid _ fields => some ("; ".intercalate fields)
  | _ => none

/-- The amount of a stored transaction. -/
def amountAt (s : Store) (id : TxId) : ℤ :=
  (((s.invoices.get? id.invoice).bind (·.transactions[id.index]?)).map (·.amount)).getD 0

/-- `_give_refund`. -/
def giveRefund (a : Advance) (cr : Cancellation) (s : Office) : Office × Phase :=
  if cr.Owed then
    match cr.refundPayment with
    | none => (s, .closed)
    | some payment =>
      match refundPayment a.env a.actor payment (some (.number (dec cr.refundAmount))) a.gateway
        s.billing with
      | .ok (billing, _) =>
        let index := ((s.billing.invoices.get? payment.invoice).map (·.transactions.length)).getD 0
        let refund : TxId := ⟨payment.invoice, index⟩
        ({ s with billing, given := s.given ++ [(refund, amountAt billing refund)] },
          .settled { cr with refundTransaction := some refund, refundError := "" })
      | .error e =>
        match refundErrorOf e with
        | some message => (s, .settled { cr with refundError := clip 500 message })
        -- any other exception ends the call
        | none => (s, .closed)
  else (s, .settled cr)

/-- The refund a worker has given and not recorded yet. -/
def Phase.inHand : Phase → Option TxId
  | .settled cr => cr.refundTransaction
  | .dead refund => refund
  | _ => none

/-- The amount a worker's copy of the request says, where it may still give the refund. -/
def Phase.amount : Phase → Option ℤ
  | .loaded cr => some cr.refundAmount
  | .ended cr => some cr.refundAmount
  | _ => none

/-- The next transaction of `execute`. -/
def advance (a : Advance) (s : Office) : Phase → Except Err (Office × Phase)
  | .begun =>
    if s.Free then
      .ok ({ s with cancellation := { s.cancellation with claimedAt := some s.clock } }, .claimed)
    else .ok (s, .closed)
  | .claimed => .ok (s, .loaded s.cancellation)
  | .loaded cr =>
    match a.server.bind fun _ => endService cr.service s.panel with
    | .ok panel => .ok ({ s with panel }, .ended cr)
    | .error e =>
      -- `_release`, whoever holds the claim by now
      .ok ({ s with cancellation := { s.cancellation with
        claimedAt := none
        lastError := clip 500 (noteOf "An unexpected error occurred." e) } }, .closed)
  | .ended cr => .ok (giveRefund a cr s)
  | .settled cr =>
    if s.cancellation.status = .approved then
      .ok ({ s with cancellation := { s.cancellation with
        status := .completed
        completedAt := some s.clock
        claimedAt := none
        lastError := ""
        refundTransaction := cr.refundTransaction
        refundError := cr.refundError } }, .closed)
    else .ok (s, .closed)
  | .closed => .error (.unexpected "the call is over")
  | .dead _ => .error (.unexpected "the worker has died")

/-- The next step of a worker, which may be killed instead. -/
def step (a : Advance) (s : Office) (t : Phase) : Except Err (Office × Phase) :=
  if a.killed then .ok (s, .dead t.inHand) else advance a s t

/-- What else goes on. -/
inductive Change where
  | wait (micros : ℕ)
  | withdraw
  /-- Any other billing service. -/
  | billing (env : Env) (call : Call)
  /-- Accounts and domains change. -/
  | panel (p : Panel)

def CancellationStatus.label : CancellationStatus → String
  | .pending => "Awaiting review"
  | .approved => "Approved"
  | .completed => "Completed"
  | .rejected => "Rejected"
  | .withdrawn => "Withdrawn"

def change : Change → Office → Except Err Office
  | .wait micros, s => .ok { s with clock := s.clock + micros }
  | .withdraw, s => do
    ensure (¬(s.cancellation.status = .approved
        ∧ ∃ claimed ∈ s.cancellation.claimedAt, s.clock - claimTimeout < claimed))
      (serviceError "This is being carried out right now, so it can no longer be withdrawn."
        "in_progress")
    ensure (s.cancellation.status = .pending ∨ s.cancellation.status = .approved)
      (serviceError ("A cancellation request that is "
        ++ (CancellationStatus.label s.cancellation.status).map Char.toLower
        ++ " cannot be withdrawn.") "invalid_status")
    return { s with cancellation := { s.cancellation with status := .withdrawn } }
  | .billing env call, s => do
    let (billing, _) ← call.exec env s.billing
    return { s with billing }
  | .panel panel, s => .ok { s with panel }

/-- The request is carried out by any number of workers. -/
def executions : Interleaving Office Phase Unit Advance Change Err where
  start _ s := .ok (s, .begun)
  step := step
  outside := change
  absent := .unexpected "there is no such call"

/-! ### Claims -/

/-- A worker that holds a claim it has not come to the end of; or that has a refund in hand, be it
    that it died with it. -/
def Phase.Busy : Phase → Prop
  | .claimed => True
  | .loaded _ => True
  | .ended _ => True
  | t => t.inHand.isSome = true

instance (t : Phase) : Decidable t.Busy :=
  match t with
  | .claimed => isTrue trivial
  | .loaded _ => isTrue trivial
  | .ended _ => isTrue trivial
  | .begun => inferInstanceAs (Decidable (_ = true))
  | .settled _ => inferInstanceAs (Decidable (_ = true))
  | .closed => inferInstanceAs (Decidable (_ = true))
  | .dead _ => inferInstanceAs (Decidable (_ = true))

/-- The worker takes over a claim that is older than `CLAIM_TIMEOUT`. -/
def TakesOver (s : Office) (t : Phase) : Prop :=
  match t with
  | .begun => s.cancellation.status = .approved
      ∧ ∃ claimed ∈ s.cancellation.claimedAt, claimed < s.clock - claimTimeout
  | _ => False

instance (s : Office) (t : Phase) : Decidable (TakesOver s t) :=
  match t with
  | .begun => inferInstanceAs (Decidable (_ ∧ _))
  | .claimed | .loaded _ | .ended _ => inferInstanceAs (Decidable False)
  | .settled _ | .closed | .dead _ => inferInstanceAs (Decidable False)

/-- A claim is taken over only where no worker still goes on with an earlier one, and none died
    between the refund and the completion. -/
def Orderly (x : System Office Phase) : Turn Unit Advance Change → Prop
  | .step i _ => ∀ t ∈ x.workers.get? i, TakesOver x.shared t →
      x.workers.Forall fun _ other => ¬other.Busy
  | _ => True

instance (x : System Office Phase) (turn : Turn Unit Advance Change) :
    Decidable (Orderly x turn) :=
  match turn with
  | .start _ => isTrue trivial
  | .step i _ => inferInstanceAs (Decidable (∀ t ∈ x.workers.get? i, TakesOver x.shared t →
      x.workers.Forall fun _ other => ¬other.Busy))
  | .outside _ => isTrue trivial

/-- At most one worker is busy, and the request is claimed for it; one that has not given the refund
    yet finds none given; and a refund that was given is in someone's hand, or the request is no
    longer approved. -/
structure Kept (x : System Office Phase) : Prop where
  once : x.shared.given.length ≤ 1
  alone : ∀ i j w w', x.workers.get? i = some w → x.workers.get? j = some w' → w.Busy → w'.Busy →
    i = j
  held : x.shared.cancellation.status = .approved → ∀ i w, x.workers.get? i = some w → w.Busy →
    x.shared.cancellation.claimedAt ≠ none
  unspent : ∀ i w, x.workers.get? i = some w → w.Busy → w.inHand = none → x.shared.given = []
  spent : x.shared.given ≠ [] → x.shared.cancellation.status = .approved →
    ∃ i w, x.workers.get? i = some w ∧ w.Busy

section

variable {x x' : System Office Phase} {s' : Office} {i : ℕ} {w w' : Phase}

/-- A refund in hand keeps a worker busy, whatever it does with it. -/
theorem Phase.busy_of_inHand (h : w.inHand.isSome = true) : w.Busy := by
  cases w with
  | begun => cases h
  | claimed => exact trivial
  | loaded _ => exact trivial
  | ended _ => exact trivial
  | settled _ => exact h
  | closed => cases h
  | dead _ => exact h

/-- A step of a worker that stays as busy as it was, gives no refund and leaves the request as it
    was, or no longer approved. -/
theorem Kept.put (hx : Kept x) (hw : x.workers.get? i = some w) (hbusy : w'.Busy ↔ w.Busy)
    (hhand : w'.inHand = none → w.inHand = none ∨ x.shared.given = [])
    (hgiven : s'.given = x.shared.given)
    (hstatus : s'.cancellation.status = .approved → x.shared.cancellation.status = .approved
      ∧ s'.cancellation.claimedAt = x.shared.cancellation.claimedAt) :
    Kept ⟨s', x.workers.put i w'⟩ := by
  -- each worker is as busy as it was
  have hold : ∀ q v, (x.workers.put i w').get? q = some v → v.Busy →
      ∃ u, x.workers.get? q = some u ∧ u.Busy := by
    intro q v hv hb
    rcases Table.get?_put_cases hw hv with ⟨rfl, rfl⟩ | ⟨-, hv'⟩
    · exact ⟨w, hw, hbusy.mp hb⟩
    · exact ⟨v, hv', hb⟩
  refine ⟨hgiven ▸ hx.once, fun q r v v' hv hv' hb hb' => ?_, fun happroved q v hv hb => ?_,
    fun q v hv hb hnone => ?_, fun hspent happroved => ?_⟩
  · obtain ⟨u, hu, hub⟩ := hold q v hv hb
    obtain ⟨u', hu', hub'⟩ := hold r v' hv' hb'
    exact hx.alone q r u u' hu hu' hub hub'
  · obtain ⟨u, hu, hub⟩ := hold q v hv hb
    obtain ⟨hbefore, hclaimed⟩ := hstatus happroved
    exact hclaimed ▸ hx.held hbefore q u hu hub
  · refine hgiven.trans ?_
    rcases Table.get?_put_cases hw hv with ⟨rfl, rfl⟩ | ⟨-, hv'⟩
    · rcases hhand hnone with hnone' | hgiven'
      · exact hx.unspent q w hw (hbusy.mp hb) hnone'
      · exact hgiven'
    · exact hx.unspent q v hv' hb hnone
  · obtain ⟨q, u, hu, hub⟩ := hx.spent (hgiven ▸ hspent) (hstatus happroved).1
    by_cases hq : q = i
    · subst hq
      cases hw.symm.trans hu
      exact ⟨q, w', Table.get?_put_self hw w', hbusy.mpr hub⟩
    · exact ⟨q, u, (Table.get?_put_of_ne hq w').trans hu, hub⟩

/-- A worker that comes to its end: no refund was given, or the request is no longer approved. -/
theorem Kept.close (hx : Kept x) (hw : x.workers.get? i = some w) (hidle : ¬w'.Busy)
    (hgiven : s'.given = x.shared.given)
    (hspent : s'.given ≠ [] → s'.cancellation.status ≠ .approved)
    (hheld : s'.cancellation.status = .approved → (∀ q v, q ≠ i → x.workers.get? q = some v →
      v.Busy → s'.cancellation.claimedAt ≠ none)) :
    Kept ⟨s', x.workers.put i w'⟩ := by
  have hold : ∀ q v, (x.workers.put i w').get? q = some v → v.Busy →
      q ≠ i ∧ x.workers.get? q = some v := by
    intro q v hv hb
    rcases Table.get?_put_cases hw hv with ⟨rfl, rfl⟩ | hv'
    · exact absurd hb hidle
    · exact hv'
  refine ⟨hgiven ▸ hx.once, fun q r v v' hv hv' hb hb' => ?_, fun happroved q v hv hb => ?_,
    fun q v hv hb hnone => ?_, fun hsp happroved => absurd happroved (hspent hsp)⟩
  · exact hx.alone q r v v' (hold q v hv hb).2 (hold r v' hv' hb').2 hb hb'
  · exact hheld happroved q v (hold q v hv hb).1 (hold q v hv hb).2 hb
  · exact hgiven.trans (hx.unspent q v (hold q v hv hb).2 hb hnone)

/-- A worker claims the request while no other is busy. -/
theorem Kept.claim (hx : Kept x) (hw : x.workers.get? i = some w)
    (hfree : x.workers.Forall fun _ other => ¬other.Busy)
    (happroved : x.shared.cancellation.status = .approved)
    (hgiven : s'.given = x.shared.given) (hclaimed : s'.cancellation.claimedAt ≠ none) :
    Kept ⟨s', x.workers.put i .claimed⟩ := by
  have hnone : x.shared.given = [] := by
    by_contra hspent
    obtain ⟨q, v, hv, hb⟩ := hx.spent hspent happroved
    exact hfree q v hv hb
  have hself : ∀ q v, (x.workers.put i .claimed).get? q = some v → v.Busy → q = i := by
    intro q v hv hb
    rcases Table.get?_put_cases hw hv with ⟨rfl, -⟩ | ⟨-, hv'⟩
    · rfl
    · exact absurd hb (hfree q v hv')
  exact ⟨hgiven ▸ hx.once, fun q r v v' hv hv' hb hb' =>
    (hself q v hv hb).trans (hself r v' hv' hb').symm, fun _ _ _ _ _ => hclaimed,
    fun _ _ _ _ _ => hgiven.trans hnone, fun hspent => absurd (hgiven.trans hnone) hspent⟩

/-- The worker that holds the claim gives the refund. -/
theorem Kept.give (hx : Kept x) (hw : x.workers.get? i = some w) (hbusy : w.Busy)
    (hnone : w.inHand = none) (hhand : w'.inHand.isSome = true) (hbusy' : w'.Busy)
    {refund : TxId × ℤ} (hgiven : s'.given = x.shared.given ++ [refund])
    (hsame : s'.cancellation = x.shared.cancellation) :
    Kept ⟨s', x.workers.put i w'⟩ := by
  have hempty : x.shared.given = [] := hx.unspent i w hw hbusy hnone
  have hself : ∀ q v, (x.workers.put i w').get? q = some v → v.Busy → q = i ∧ v = w' := by
    intro q v hv hb
    rcases Table.get?_put_cases hw hv with hv' | ⟨hq, hv'⟩
    · exact hv'
    · exact absurd (hx.alone q i v w hv' hw hb hbusy) hq
  refine ⟨?_, fun q r v v' hv hv' hb hb' =>
    (hself q v hv hb).1.trans (hself r v' hv' hb').1.symm, fun happroved _ _ _ _ => ?_,
    fun q v hv hb hv' => ?_, fun _ _ => ⟨i, w', Table.get?_put_self hw w', hbusy'⟩⟩
  · dsimp only
    rw [hgiven, hempty]
    exact le_refl 1
  · exact hsame ▸ hx.held (hsame ▸ happroved) i w hw hbusy
  · rw [(hself q v hv hb).2] at hv'
    rw [hv'] at hhand
    cases hhand

/-- The amount that is asked for in whole cents is the amount of the refund. -/
theorem amountAt_refundPayment {env : Env} {actor : Actor} {payment : TxId} {cents : ℤ}
    {gateway : Except String String} {b b' : Store} {out : List Signal}
    (h : refundPayment env actor payment (some (.number (dec cents))) gateway b = .ok (b', out)) :
    amountAt b' ⟨payment.invoice,
      ((b.invoices.get? payment.invoice).map (·.transactions.length)).getD 0⟩ = cents := by
  obtain ⟨l, paid, tx, hl, -, hamount, -, -, -, rfl, -⟩ := refundPayment_step h
  have hcents : tx.amount = cents := by
    unfold amountOr amountOf at hamount
    dsimp only at hamount
    split at hamount
    · cases hamount
    · split at hamount
      · cases hamount
      · rw [money_dec] at hamount
        exact (Except.ok.inj hamount).symm
  unfold amountAt Store.putInvoice
  dsimp only
  rw [hl, Table.get?_put_self hl, Option.bind_some, book_transactions, Option.map_some,
    Option.getD_some, List.getElem?_concat_length, Option.map_some, Option.getD_some, hcents]

/-- What the refund does to the office: nothing, or it is given as it was decided and the worker has
    it in hand. -/
theorem giveRefund_cases {a : Advance} {cr : Cancellation} {s s' : Office} {t : Phase}
    (h : giveRefund a cr s = (s', t)) : t.amount = none ∧ s'.cancellation = s.cancellation
      ∧ (s'.given = s.given ∨ t.inHand.isSome = true
        ∧ ∃ refund, s'.given = s.given ++ [(refund, cr.refundAmount)]) := by
  unfold giveRefund at h
  split at h
  · split at h
    · cases h
      exact ⟨rfl, rfl, .inl rfl⟩
    · split at h
      · next hrefund =>
        cases h
        rw [amountAt_refundPayment hrefund]
        exact ⟨rfl, rfl, .inr ⟨rfl, _, rfl⟩⟩
      · split at h
        · cases h
          exact ⟨rfl, rfl, .inl rfl⟩
        · cases h
          exact ⟨rfl, rfl, .inl rfl⟩
  · cases h
    exact ⟨rfl, rfl, .inl rfl⟩

/-- A worker that holds the claim comes to its end, or goes on, without a refund. -/
theorem Kept.pass (hx : Kept x) (hw : x.workers.get? i = some w) (hbusy : w.Busy)
    (hnone : w.inHand = none) (hgiven : s'.given = x.shared.given)
    (hsame : s'.cancellation = x.shared.cancellation ∨ ¬w'.Busy) :
    Kept ⟨s', x.workers.put i w'⟩ := by
  have hempty : x.shared.given = [] := hx.unspent i w hw hbusy hnone
  by_cases hbusy' : w'.Busy
  · have hcancellation := hsame.resolve_right (not_not_intro hbusy')
    exact hx.put hw (iff_of_true hbusy' hbusy) (fun _ => .inl hnone) hgiven
      fun happroved => ⟨hcancellation ▸ happroved, by rw [hcancellation]⟩
  · -- the claim may have been let go: no one else holds one
    exact hx.close hw hbusy' hgiven (fun hspent => absurd (hgiven.trans hempty) hspent)
      fun _ q v hq hv hb => absurd (hx.alone q i v w hv hw hb hbusy) hq

/-- **One step of a worker.** -/
theorem Kept.step {a : Advance} (hx : Kept x) (hw : x.workers.get? i = some w)
    (h : Refunding.step a x.shared w = .ok (s', w'))
    (horderly : TakesOver x.shared w → x.workers.Forall fun _ other => ¬other.Busy) :
    Kept ⟨s', x.workers.put i w'⟩ := by
  unfold Refunding.step at h
  split at h
  · -- the worker is killed, and what it has given stays with it
    cases h
    by_cases hbusy : w.Busy
    · by_cases hhand : w.inHand.isSome = true
      · exact hx.put hw (iff_of_true hhand hbusy) .inl rfl fun happroved => ⟨happroved, rfl⟩
      · exact hx.pass hw hbusy (Option.not_isSome_iff_eq_none.mp hhand) rfl (.inl rfl)
    · have hhand : ¬w.inHand.isSome = true := fun hsome => hbusy (Phase.busy_of_inHand hsome)
      exact hx.put hw (iff_of_false hhand hbusy) .inl rfl fun happroved => ⟨happroved, rfl⟩
  · cases w with
    | begun =>
      unfold advance at h
      dsimp only at h
      split at h
      · next hfree =>
        cases h
        -- a request that is not claimed has no worker, and a takeover is orderly
        refine hx.claim hw ?_ hfree.1 rfl (Option.some_ne_none _)
        by_cases hnone : x.shared.cancellation.claimedAt = none
        · exact fun q v hv hb => hx.held hfree.1 q v hv hb hnone
        · obtain ⟨claimed, hclaimed⟩ := Option.ne_none_iff_exists'.mp hnone
          exact horderly ⟨hfree.1, claimed, hclaimed, hfree.2 claimed hclaimed⟩
      · cases h
        exact hx.put hw Iff.rfl .inl rfl fun happroved => ⟨happroved, rfl⟩
    | claimed =>
      cases h
      exact hx.put hw Iff.rfl .inl rfl fun happroved => ⟨happroved, rfl⟩
    | loaded cr =>
      unfold advance at h
      dsimp only at h
      split at h
      · cases h
        exact hx.pass hw trivial rfl rfl (.inl rfl)
      · cases h
        exact hx.pass hw trivial rfl rfl (.inr (by decide))
    | ended cr =>
      obtain ⟨-, hsame, hgiven | ⟨hhand, refund, hgiven⟩⟩ := giveRefund_cases (Except.ok.inj h)
      · exact hx.pass hw trivial rfl hgiven (.inl hsame)
      · exact hx.give hw trivial rfl hhand (Phase.busy_of_inHand hhand) hgiven hsame
    | settled cr =>
      unfold advance at h
      dsimp only at h
      split at h
      · cases h
        -- the request is completed: it can not be claimed again
        exact hx.close hw (by decide) rfl (fun _ happroved => by cases happroved)
          fun happroved => by cases happroved
      · next happroved =>
        cases h
        exact hx.close hw (by decide) rfl (fun _ => happroved) fun happroved' =>
          absurd happroved' happroved
    | closed => cases h
    | dead refund => cases h

/-- What else goes on gives no refund, and an approved request stays as it was claimed. -/
theorem change_eq_ok {c : Change} {s s' : Office} (h : change c s = .ok s') :
    s'.given = s.given
      ∧ s'.cancellation.refundAmount = s.cancellation.refundAmount
      ∧ (s'.cancellation.status = .approved → s.cancellation.status = .approved
        ∧ s'.cancellation.claimedAt = s.cancellation.claimedAt) := by
  cases c with
  | wait micros =>
    cases h
    exact ⟨rfl, rfl, fun happroved => ⟨happroved, rfl⟩⟩
  | withdraw =>
    simp only [change, bind_eq_ok, pure_eq_ok] at h
    obtain ⟨_, -, _, -, rfl⟩ := h
    exact ⟨rfl, rfl, fun happroved => by cases happroved⟩
  | billing env call =>
    simp only [change, bind_eq_ok, pure_eq_ok] at h
    obtain ⟨_, -, rfl⟩ := h
    exact ⟨rfl, rfl, fun happroved => ⟨happroved, rfl⟩⟩
  | panel p =>
    cases h
    exact ⟨rfl, rfl, fun happroved => ⟨happroved, rfl⟩⟩

/-- **One turn of a run.** -/
theorem Kept.turn {turn : Turn Unit Advance Change} {out : List PUnit} (hx : Kept x)
    (h : executions.machine.Commits turn x x' out) (horderly : Orderly x turn) : Kept x' := by
  obtain ⟨shared', workers'⟩ := x'
  cases turn with
  | start b =>
    obtain ⟨w, hstart, hworkers⟩ := Interleaving.start_eq_ok h
    cases hstart
    dsimp only at hworkers
    subst hworkers
    -- a worker that only begins is not busy
    have hold : ∀ q v, (x.workers.insert Phase.begun).get? q = some v → v.Busy →
        x.workers.get? q = some v := by
      intro q v hv hb
      rw [Table.get?_insert] at hv
      split at hv
      · cases hv
        cases hb
      · exact hv
    refine ⟨hx.once, fun q r v v' hv hv' hb hb' => ?_, fun happroved q v hv hb => ?_,
      fun q v hv hb => ?_, fun hspent happroved => ?_⟩
    · exact hx.alone q r v v' (hold q v hv hb) (hold r v' hv' hb') hb hb'
    · exact hx.held happroved q v (hold q v hv hb) hb
    · exact hx.unspent q v (hold q v hv hb) hb
    · obtain ⟨q, v, hv, hb⟩ := hx.spent hspent happroved
      exact ⟨q, v, Table.get?_insert_of_some hv, hb⟩
  | step i a =>
    obtain ⟨w, w', hw, hstep, hworkers⟩ := Interleaving.step_eq_ok h
    dsimp only at hworkers
    subst hworkers
    exact hx.step hw hstep (horderly w hw)
  | outside c =>
    obtain ⟨houtside, hworkers⟩ := Interleaving.outside_eq_ok h
    dsimp only at hworkers
    subst hworkers
    obtain ⟨hgiven, -, hstatus⟩ := change_eq_ok houtside
    refine ⟨hgiven ▸ hx.once, hx.alone, fun happroved q v hv hb => ?_, fun q v hv hb hnone => ?_,
      fun hspent happroved => hx.spent (hgiven ▸ hspent) (hstatus happroved).1⟩
    · exact (hstatus happroved).2 ▸ hx.held (hstatus happroved).1 q v hv hb
    · exact hgiven.trans (hx.unspent q v hv hb hnone)

end

/-! ### Amounts -/

/-- The request, every copy of it and every refund given have the amount that was decided. -/
structure Decided (amount : ℤ) (x : System Office Phase) : Prop where
  request : x.shared.cancellation.refundAmount = amount
  copies : x.workers.Forall fun _ w => ∀ cents ∈ w.amount, cents = amount
  refunds : ∀ refund ∈ x.shared.given, refund.2 = amount

theorem Decided.step {amount : ℤ} {x : System Office Phase} {s' : Office} {i : ℕ} {w w' : Phase}
    {a : Advance} (hx : Decided amount x) (hw : x.workers.get? i = some w)
    (h : Refunding.step a x.shared w = .ok (s', w')) :
    Decided amount ⟨s', x.workers.put i w'⟩ := by
  have hcopy := hx.copies i w hw
  have hnone : ∀ v : Phase, v.amount = none → ∀ cents ∈ v.amount, cents = amount := by
    intro v hv cents hcents
    rw [hv] at hcents
    cases hcents
  unfold Refunding.step at h
  split at h
  · cases h
    exact ⟨hx.request, hx.copies.put (hnone _ rfl), hx.refunds⟩
  · cases w with
    | begun =>
      unfold advance at h
      dsimp only at h
      split at h
      · cases h
        exact ⟨hx.request, hx.copies.put (hnone _ rfl), hx.refunds⟩
      · cases h
        exact ⟨hx.request, hx.copies.put (hnone _ rfl), hx.refunds⟩
    | claimed =>
      cases h
      -- the copy is the request as it stands
      refine ⟨hx.request, hx.copies.put fun cents hcents => ?_, hx.refunds⟩
      exact (Option.some.inj hcents).symm.trans hx.request
    | loaded cr =>
      unfold advance at h
      dsimp only at h
      split at h
      · cases h
        exact ⟨hx.request, hx.copies.put hcopy, hx.refunds⟩
      · cases h
        exact ⟨hx.request, hx.copies.put (hnone _ rfl), hx.refunds⟩
    | ended cr =>
      obtain ⟨hamount, hsame, hgiven⟩ := giveRefund_cases (Except.ok.inj h)
      refine ⟨hsame ▸ hx.request, hx.copies.put (hnone _ hamount), fun refund hrefund => ?_⟩
      dsimp only at hrefund
      rcases hgiven with hgiven | ⟨-, id, hgiven⟩
      · rw [hgiven] at hrefund
        exact hx.refunds refund hrefund
      · rw [hgiven] at hrefund
        rcases List.mem_append.mp hrefund with hold | hnew
        · exact hx.refunds refund hold
        · cases List.mem_singleton.mp hnew
          exact hcopy _ rfl
    | settled cr =>
      unfold advance at h
      dsimp only at h
      split at h
      · cases h
        exact ⟨hx.request, hx.copies.put (hnone _ rfl), hx.refunds⟩
      · cases h
        exact ⟨hx.request, hx.copies.put (hnone _ rfl), hx.refunds⟩
    | closed => cases h
    | dead refund => cases h

theorem Decided.turn {amount : ℤ} {x x' : System Office Phase} {turn : Turn Unit Advance Change}
    {out : List PUnit} (hx : Decided amount x) (h : executions.machine.Commits turn x x' out) :
    Decided amount x' := by
  obtain ⟨shared', workers'⟩ := x'
  cases turn with
  | start b =>
    obtain ⟨w, hstart, hworkers⟩ := Interleaving.start_eq_ok h
    cases hstart
    dsimp only at hworkers
    subst hworkers
    exact ⟨hx.request, hx.copies.insert fun cents hcents => (by cases hcents), hx.refunds⟩
  | step i a =>
    obtain ⟨w, w', hw, hstep, hworkers⟩ := Interleaving.step_eq_ok h
    dsimp only at hworkers
    subst hworkers
    exact hx.step hw hstep
  | outside c =>
    obtain ⟨houtside, hworkers⟩ := Interleaving.outside_eq_ok h
    dsimp only at hworkers
    subst hworkers
    obtain ⟨hgiven, hamount, -⟩ := change_eq_ok houtside
    exact ⟨hamount.trans hx.request, hx.copies, fun refund hrefund =>
      hx.refunds refund (hgiven ▸ hrefund)⟩

/-- At most one refund was given for the request, of the amount that was decided. -/
def RefundedOnce (amount : ℤ) (s : Office) : Prop :=
  s.given.length ≤ 1 ∧ ∀ refund ∈ s.given, refund.2 = amount

instance (amount : ℤ) (s : Office) : Decidable (RefundedOnce amount s) :=
  inferInstanceAs (Decidable (_ ∧ _))

/-- A request before anyone has claimed it. -/
def unclaimed (clock : ℤ) (cancellation : Cancellation) (panel : Panel) (billing : Store) :
    System Office Phase :=
  ⟨{ clock, cancellation, panel, billing }, {}⟩

/-- **At most one refund is given for a request, of the amount decided**, in every state of every
    run of any number of workers in which each takeover is orderly. -/
theorem refunded_once (clock : ℤ) (cancellation : Cancellation) (panel : Panel) (billing : Store)
    (turns : List (Turn Unit Advance Change))
    (h : executions.machine.EachStep (fun x turn _ => Orderly x turn) turns
      (unclaimed clock cancellation panel billing)) :
    executions.machine.Always (fun x => RefundedOnce cancellation.refundAmount x.shared) turns
      (unclaimed clock cancellation panel billing) := by
  refine Machine.always_of_eachStep (I := fun x => Kept x ∧ Decided cancellation.refundAmount x)
    (fun _ hx => ⟨hx.1.once, hx.2.refunds⟩)
    (fun _ _ _ _ hx hc horderly => ⟨hx.1.turn hc horderly, hx.2.turn hc⟩) turns _ ?_ h
  have hnone : ∀ i w, ({} : Table Phase).get? i = some w → False := by
    intro i w hw
    rw [Table.get?_empty] at hw
    cases hw
  exact ⟨⟨Nat.zero_le 1, fun i _ w _ hw => (hnone i w hw).elim,
    fun _ i w hw => (hnone i w hw).elim, fun i w hw => (hnone i w hw).elim,
    fun hspent => absurd rfl hspent⟩, rfl, .empty, fun refund hrefund => by cases hrefund⟩

/-! ### A claim that is taken over -/

/-- A payment of 100.00. -/
def paidInvoice : Store where
  invoices := Table.insert {} {
    invoice := { client := 0, currency := "USD", status := .paid, number := "INV-000001"
                 subtotal := 10000, total := 10000, amountPaid := 10000 }
    items := [{ description := "Hosting", unitPrice := 10000, amount := 10000, total := 10000 }]
    transactions := [{ type := .payment, status := .succeeded, amount := 10000, currency := "USD"
                       occurredAt := Numbering.newYear.now }] }

def plan : Panel where
  accounts := Table.insert {}
    { status := .active, server := some 0, billingCycle := "monthly", expiresAt := none }

/-- 40.00 of it are to be given back. -/
def partRefund : Cancellation where
  service := .hosting 0
  status := .approved
  effectiveAt := some 0
  refundAmount := 4000
  refundPayment := some ⟨0, 0⟩

/-- The server and the gateway answer. -/
def answered : Advance where
  env := Numbering.newYear
  actor := Numbering.accountant
  server := .ok ()
  gateway := .ok ""

/-- A worker, so many steps of it. -/
def worker (i steps : ℕ) : List (Turn Unit Advance Change) :=
  .start () :: List.replicate steps (.step i answered)

/-- A worker that is killed after so many steps, and another that takes the claim over. -/
def killedAfter (steps : ℕ) : List (Turn Unit Advance Change) :=
  worker 0 steps ++ [.step 0 { answered with killed := true },
    .outside (.wait (11 * 60 * microsPerSecond))] ++ worker 1 5

/-- The worker is killed once the service has ended. -/
def stopped : List (Turn Unit Advance Change) := killedAfter 3

/-- The worker is killed once the refund was given. -/
def stoppedLate : List (Turn Unit Advance Change) := killedAfter 4

theorem refunded_once_stopped :
    (executions.machine.run stopped (unclaimed 0 partRefund plan paidInvoice)).shared.given
        = [(⟨0, 1⟩, 4000)]
      ∧ executions.machine.Always (fun x => RefundedOnce partRefund.refundAmount x.shared) stopped
        (unclaimed 0 partRefund plan paidInvoice) :=
  ⟨by decide +kernel, refunded_once 0 partRefund plan paidInvoice stopped
    (Machine.eachStep_of_trace (by decide +kernel))⟩

/-- **A worker that stops between the refund and its record leaves it to be given again.** -/
theorem not_refunded_once :
    ¬∀ (clock : ℤ) (cancellation : Cancellation) (panel : Panel) (billing : Store)
      (turns : List (Turn Unit Advance Change)),
      executions.machine.Always (fun x => RefundedOnce cancellation.refundAmount x.shared) turns
        (unclaimed clock cancellation panel billing) := by
  intro h
  have hlast := (h 0 partRefund plan paidInvoice stoppedLate).last
  exact absurd hlast (by decide +kernel)

end WPanel.Lifecycle.Refunding
