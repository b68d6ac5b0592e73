import WPanel.Locks.SingleFlight

namespace WPanel.Locks.Cancelling

open WPanel.Lib WPanel.Renewals

/-!
# Completing a request while it is cancelled

`complete_registration`, `complete_transfer`, `poll_transfer` and `cancel_domain_request` of
`domains/services.py`, and `complete_provisioning` and `cancel_request` of `hosting/services.py`, on
one record.  The calls that complete it wait for each other; the others work on the copy they loaded
and write without a lock.

* `Desk` — what the calls make of the record; `domainDesk`, `hostingDesk`;
* `Handling`, `handling` — the calls step by step and in any order, while transfers finish at the
  registrar;
* `Settled` — what the other side holds for the record, and has told a call, is `ACTIVE` here;
* `RightCancel` — a record is cancelled while it is neither active nor waiting for a transfer;
* `rightCancel_alone` — the check sees to that, but for the transfer, where nothing comes between
  the loading and the saving;
* `NotLost` — the other side does not answer with an error after it has created something;
* `OneKind` — a registration and a transfer of one domain are not completed at the same time;
* `always_settled` — in a run that keeps to these the record is settled at every moment;
* `not_always_settled` — a cancellation that was checked earlier, one of a transfer that is under
  way, a transfer next to a registration, and a lost answer each leave a domain that is paid for.
-/

/-! ### What the calls make of a record -/

/-- What the calls on a record `ρ` make of it, where `κ` are the ways of completing it. -/
structure Desk (ρ κ : Type) where
  job : κ → Job ρ
  isActive : ρ → Bool
  /-- The other side is at work on it, and is asked how far it is. -/
  isWaiting : ρ → Bool
  /-- A call that completes it asks how far the other side is. -/
  asksAgain : κ → ρ → Bool
  /-- The other side may answer that it takes days. -/
  mayWait : κ → Bool
  /-- What is saved of that. -/
  waiting : String → ρ → ρ
  /-- What is saved when it is done. -/
  found : ρ → ρ
  /-- What is saved when it is not. -/
  notYet : String → ρ → ρ
  /-- `cancel_domain_request`, `cancel_request`: the check of the copy, and what is saved. -/
  mayCancel : ρ → Except Err Unit
  cancelled : ρ → ρ
  active_created : ∀ k ref row, isActive ((job k).created ref row) = true
  active_found : ∀ row, isActive (found row) = true
  waiting_waiting : ∀ k ref row, mayWait k = true → ref ≠ "" → isWaiting (waiting ref row) = true
  active_notYet : ∀ message row, isActive (notYet message row) = isActive row
  waiting_notYet : ∀ message row, isWaiting (notYet message row) = isWaiting row
  active_prepare : ∀ k fresh row, isActive ((job k).prepare fresh row) = isActive row
  waiting_prepare : ∀ k fresh row, isWaiting ((job k).prepare fresh row) = isWaiting row
  waiting_of_asksAgain : ∀ k row, asksAgain k row = true → isWaiting row = true
  verdict_of_active : ∀ k row, isActive row = true → (job k).verdict row ≠ .ask
  verdict_of_waiting : ∀ k row, isWaiting row = true → (job k).verdict row = .ask →
    asksAgain k row = true
  active_cancelled : ∀ row, isActive (cancelled row) = false
  waiting_cancelled : ∀ row, isWaiting (cancelled row) = false

/-- The two ways of completing a request for a domain. -/
inductive DomainJob where
  | registration
  | transfer
  deriving DecidableEq, Repr

/-- `_complete_transfer`. -/
def domainTransfer : Job DomainRow where
  verdict row :=
    if row.status = .active then .done
    else if row.status ≠ .pendingTransferIn ∧ row.status ≠ .failed then
      .refuse (serviceError "This domain is not pending transfer." "invalid_status")
    else .ask
  prepare _ row := row
  created ref row := { row with status := .active, providerRef := ref, lastError := "" }
  failed error row := { row with status := .failed, lastError := error }
  created_verdict := fun _ _ => nofun

/-- A transfer that was sent to the registrar. -/
def isSent (row : DomainRow) : Bool := row.status = .pendingTransferIn && row.providerRef ≠ ""

private theorem isSent_of_same {row row' : DomainRow} (hstatus : row'.status = row.status)
    (href : row'.providerRef = row.providerRef) : isSent row' = isSent row := by
  unfold isSent
  rw [hstatus, href]

/-- What a request that may not be cancelled is told. -/
def notCancellable : Err :=
  serviceError "Only a pending or failed request can be cancelled." "invalid_status"

/-- The calls on a domain. -/
def domainDesk : Desk DomainRow DomainJob where
  job
    | .registration => domainRegistration
    | .transfer => domainTransfer
  isActive row := row.status = .active
  isWaiting := isSent
  asksAgain
    | .registration, _ => false
    | .transfer, row => isSent row
  mayWait
    | .registration => false
    | .transfer => true
  waiting ref row := { row with status := .pendingTransferIn, providerRef := ref, lastError := "" }
  found row := { row with status := .active, lastError := "" }
  notYet «where» row :=
    { row with lastError := clip 500 ("Transfer not finished yet. " ++ «where») }
  mayCancel row := ensure (row.status = .pendingRegistration ∨ row.status = .pendingTransferIn
    ∨ row.status = .failed) notCancellable
  cancelled row := { row with status := .cancelled }
  active_created k ref row := by cases k <;> rfl
  active_found _ := rfl
  waiting_waiting k ref row hk href := by
    simp only [isSent, ne_eq, href, not_false_eq_true, decide_true, Bool.and_self]
  active_notYet _ _ := rfl
  waiting_notYet _ _ := isSent_of_same rfl rfl
  active_prepare k fresh row := by cases k <;> rfl
  waiting_prepare k fresh row := by cases k <;> rfl
  waiting_of_asksAgain k row h := by
    cases k with
    | registration => cases h
    | transfer => exact h
  verdict_of_active k row h := by
    have hstatus : row.status = .active := of_decide_eq_true h
    cases k with
    | registration =>
      simp only [domainRegistration]
      rw [if_pos hstatus]
      exact fun h => by cases h
    | transfer =>
      simp only [domainTransfer]
      rw [if_pos hstatus]
      exact fun h => by cases h
  verdict_of_waiting k row h hask := by
    cases k with
    | registration =>
      have hstatus : row.status = .pendingTransferIn := by
        simp only [isSent, Bool.and_eq_true, decide_eq_true_eq] at h
        exact h.1
      simp only [domainRegistration, hstatus] at hask
      cases hask
    | transfer => exact h
  active_cancelled _ := rfl
  waiting_cancelled _ := rfl

/-- The calls on a hosting account, which is created at once or not at all. -/
def hostingDesk : Desk AccountRow Unit where
  job _ := hostingProvisioning
  isActive row := row.status = .active
  isWaiting _ := false
  asksAgain _ _ := false
  mayWait _ := false
  waiting _ row := row
  found row := { row with status := .active }
  notYet _ row := row
  mayCancel row := ensure (row.status = .pending ∨ row.status = .failed) notCancellable
  cancelled row := { row with status := .cancelled }
  active_created _ _ _ := rfl
  active_found _ := rfl
  waiting_waiting _ _ _ h := by cases h
  active_notYet _ _ := rfl
  waiting_notYet _ _ := rfl
  active_prepare _ fresh row := by
    simp only [hostingProvisioning]
    split <;> rfl
  waiting_prepare _ _ _ := rfl
  waiting_of_asksAgain _ _ h := by cases h
  verdict_of_active _ row h := by
    have hstatus : row.status = .active := of_decide_eq_true h
    simp only [hostingProvisioning]
    rw [if_pos hstatus]
    exact fun h => by cases h
  verdict_of_waiting _ _ h := by cases h
  active_cancelled _ := rfl
  waiting_cancelled _ := rfl

/-! ### The calls -/

/-- The record; whether the other side holds what it stands for, is at work on it, and has told a
    call that it holds it; and which ways of completing it are being run. -/
structure Store (ρ κ : Type) where
  row : ρ
  held : Bool := false
  begun : Bool := false
  told : Bool := false
  busy : List κ := []
  deriving DecidableEq, Repr

inductive Call.Kind (κ : Type) where
  | complete (k : κ)
  /-- `poll_transfer`. -/
  | poll
  | cancel
  deriving DecidableEq, Repr

/-- What the other side answers. -/
inductive Answer where
  | created (ref : String)
  /-- It has begun, and takes days. -/
  | pending (ref : String)
  | error (message : String)
  /-- An error, after it has created what was asked for. -/
  | lost (message : String)
  /-- To the question how far it is. -/
  | found
  | notYet («where» : String)
  deriving DecidableEq, Repr

/-- How far a call has come. -/
inductive Call.Phase (ρ : Type) where
  /-- `single_flight`, before it is its turn. -/
  | waiting
  | entered
  /-- It has loaded its copy. -/
  | loaded (copy : ρ)
  /-- The other side is asked to create it. -/
  | asking
  /-- The other side is asked how far it is. -/
  | polling
  | answered (a : Answer)
  /-- The block is left. -/
  | leaving
  | over
  deriving DecidableEq, Repr

structure Call (ρ κ : Type) where
  kind : Call.Kind κ
  phase : Call.Phase ρ
  deriving DecidableEq, Repr

/-- The steps of a call. -/
inductive Call.Step where
  | go
  /-- It acts on its copy, with a fresh name at hand. -/
  | act (fresh : String)
  /-- The other side answers. -/
  | answer (a : Answer)
  deriving DecidableEq, Repr

section

variable {ρ κ : Type} [DecidableEq κ] (desk : Desk ρ κ)

/-- Where a call goes when it has saved what it was to save. -/
def Call.after (w : Call ρ κ) : Call ρ κ :=
  { w with phase := match w.kind with
      | .complete _ => .leaving
      | _ => .over }

/-- What is saved of an answer. -/
def Desk.save (w : Call ρ κ) (row : ρ) : Answer → ρ
  | .created ref =>
    match w.kind with
    | .complete k => (desk.job k).created ref row
    | _ => row
  | .pending ref => desk.waiting ref row
  | .error message =>
    match w.kind with
    | .complete k => (desk.job k).failed message row
    | _ => row
  | .lost message =>
    match w.kind with
    | .complete k => (desk.job k).failed message row
    | _ => row
  | .found => desk.found row
  | .notYet «where» => desk.notYet «where» row

/-- A call acts on the copy it has loaded. -/
def Call.act (fresh : String) (copy : ρ) (s : Store ρ κ) (w : Call ρ κ) :
    Store ρ κ × Call ρ κ :=
  match w.kind with
  | .complete k =>
    if (desk.job k).verdict copy ≠ .ask then (s, { w with phase := .leaving })
    else if desk.asksAgain k copy then (s, { w with phase := .polling })
    else ({ s with row := (desk.job k).prepare fresh s.row }, { w with phase := .asking })
  | .poll =>
    if desk.isWaiting copy then (s, { w with phase := .polling })
    else (s, { w with phase := .over })
  | .cancel =>
    match desk.mayCancel copy with
    | .ok _ => ({ s with row := desk.cancelled s.row }, { w with phase := .over })
    | .error _ => (s, { w with phase := .over })

/-- The other side answers. -/
def Call.hears (a : Answer) (s : Store ρ κ) (w : Call ρ κ) : Except Err (Store ρ κ × Call ρ κ) :=
  match a, w.phase, w.kind with
  | .created _, .asking, .complete _ =>
    pure ({ s with held := true, told := true }, { w with phase := .answered a })
  | .pending ref, .asking, .complete k => do
    ensure (desk.mayWait k = true ∧ ref ≠ "") (.unexpected "it is created at once")
    return ({ s with begun := true }, { w with phase := .answered a })
  | .error _, .asking, .complete _ => pure (s, { w with phase := .answered a })
  | .lost _, .asking, .complete _ =>
    pure ({ s with held := true }, { w with phase := .answered a })
  | .found, .polling, _ => do
    ensure (s.held = true) (.unexpected "the registrar does not have it")
    return ({ s with told := true }, { w with phase := .answered a })
  | .notYet _, .polling, _ => pure (s, { w with phase := .answered a })
  | _, _, _ => throw (.unexpected "not an answer to what it asked")

/-- A step of a call. -/
def Call.next (a : Call.Step) (s : Store ρ κ) (w : Call ρ κ) :
    Except Err (Store ρ κ × Call ρ κ) :=
  match a, w.phase with
  | .go, .waiting =>
    match w.kind with
    | .complete k =>
      if k ∈ s.busy then pure (s, w)
      else pure ({ s with busy := k :: s.busy }, { w with phase := .entered })
    | _ => pure (s, { w with phase := .loaded s.row })
  | .go, .entered => pure (s, { w with phase := .loaded s.row })
  | .act fresh, .loaded copy => pure (w.act desk fresh copy s)
  | .answer answer, _ => w.hears desk answer s
  | .go, .answered answer => pure ({ s with row := desk.save w s.row answer }, w.after)
  | .go, .leaving =>
    pure (match w.kind with
      | .complete k => { s with busy := s.busy.erase k }
      | _ => s, { w with phase := .over })
  | _, _ => throw (.unexpected "not the next step")

/-- What happens at the registrar meanwhile. -/
inductive Meanwhile where
  /-- A transfer is done. -/
  | finished
  /-- It will not be done. -/
  | refused
  deriving DecidableEq, Repr

/-- The calls on one record, in any order. -/
def handling : Interleaving (Store ρ κ) (Call ρ κ) (Call.Kind κ) Call.Step Meanwhile Err where
  start kind s := pure (s, { kind, phase := .waiting })
  step a s w := w.next desk a s
  outside
    | .finished, s => do
      ensure (s.begun = true) (.unexpected "no transfer is under way")
      return { s with held := true }
    | .refused, s => pure { s with begun := false }
  absent := .unexpected "there is no such call"

end

/-! ### A settled record -/

section

variable {ρ κ : Type} (desk : Desk ρ κ)

/-- It has been told that the other side holds it, and has still to save this. -/
def Call.holdsNews (w : Call ρ κ) : Bool :=
  match w.phase with
  | .answered (.created _) => true
  | .answered .found => true
  | _ => false

/-- It has been told something of what the other side holds or has begun, and has still to save
    it. -/
def Call.owes (w : Call ρ κ) : Bool :=
  match w.phase with
  | .answered (.created _) => true
  | .answered (.pending _) => true
  | .answered .found => true
  | _ => false

/-- What the other side has told a call that it holds is active here, and what it holds or has begun
    is active, or waited for; unless a call has just been told, and has still to save it. -/
structure Settled (s : System (Store ρ κ) (Call ρ κ)) : Prop where
  told : s.shared.told = true → desk.isActive s.shared.row = true
    ∨ ∃ i w, s.workers.get? i = some w ∧ w.holdsNews = true
  held : s.shared.held = true ∨ s.shared.begun = true →
    (desk.isActive s.shared.row = true ∨ desk.isWaiting s.shared.row = true)
      ∨ ∃ i w, s.workers.get? i = some w ∧ w.owes = true

/-- Its next step cancels the record. -/
def Call.cancels (a : Call.Step) (w : Call ρ κ) : Bool :=
  match a, w.phase, w.kind with
  | .act _, .loaded copy, .cancel => (desk.mayCancel copy).isOk
  | _, _, _ => false

/-- A record is cancelled while it is neither active nor waiting for a transfer. -/
def RightCancel (s : Store ρ κ) (w : Call ρ κ) (a : Call.Step) : Prop :=
  w.cancels desk a = true → desk.isActive s.row = false ∧ desk.isWaiting s.row = false

/-- Its next step begins to complete the record. -/
def Call.enters [DecidableEq κ] (s : Store ρ κ) (w : Call ρ κ) (a : Call.Step) : Bool :=
  match a, w.phase, w.kind with
  | .go, .waiting, .complete k => k ∉ s.busy
  | _, _, _ => false

/-- A record is not completed in two ways at the same time. -/
def OneKind [DecidableEq κ] (s : Store ρ κ) (w : Call ρ κ) (a : Call.Step) : Prop :=
  w.enters s a = true → s.busy = []

/-- The other side does not answer with an error after it has created something. -/
def NotLost (a : Call.Step) : Prop :=
  match a with
  | .answer (.lost _) => False
  | _ => True

/-- The conditions on a step and its own call. -/
def Kept [DecidableEq κ] (s : Store ρ κ) (w : Call ρ κ) (a : Call.Step) : Prop :=
  RightCancel desk s w a ∧ OneKind s w a ∧ NotLost a

instance (a : Call.Step) : Decidable (NotLost a) := by
  unfold NotLost
  split <;> infer_instance

instance [DecidableEq κ] (s : Store ρ κ) (w : Call ρ κ) (a : Call.Step) :
    Decidable (Kept desk s w a) :=
  inferInstanceAs (Decidable ((_ → _ ∧ _) ∧ (_ → _) ∧ NotLost a))

end

/-! ### A cancellation that nothing comes between -/

/-- What may be cancelled is not active. -/
theorem isActive_of_mayCancel_domain {row : DomainRow}
    (h : (domainDesk.mayCancel row).isOk = true) : domainDesk.isActive row = false := by
  refine decide_eq_false fun hactive => ?_
  have hcan : row.status = .pendingRegistration ∨ row.status = .pendingTransferIn
      ∨ row.status = .failed := by
    cases hmay : domainDesk.mayCancel row with
    | error e =>
      rw [hmay] at h
      cases h
    | ok _ => exact ensure_eq_ok.mp hmay
  rcases hcan with hcan | hcan | hcan <;> rw [hactive] at hcan <;> cases hcan

theorem isActive_of_mayCancel_hosting {row : AccountRow}
    (h : (hostingDesk.mayCancel row).isOk = true) : hostingDesk.isActive row = false := by
  refine decide_eq_false fun hactive => ?_
  have hcan : row.status = .pending ∨ row.status = .failed := by
    cases hmay : hostingDesk.mayCancel row with
    | error e =>
      rw [hmay] at h
      cases h
    | ok _ => exact ensure_eq_ok.mp hmay
  rcases hcan with hcan | hcan <;> rw [hactive] at hcan <;> cases hcan

/-- **The check sees to it that an active record is not cancelled**, where a cancellation saves
    before anything else happens; of a transfer that is under way it knows nothing. -/
theorem rightCancel_alone {ρ κ : Type} [DecidableEq κ] {desk : Desk ρ κ}
    (hcan : ∀ row, (desk.mayCancel row).isOk = true → desk.isActive row = false)
    {s s₁ s₂ : System (Store ρ κ) (Call ρ κ)} {out out' : List PUnit}
    (hstart : (handling desk).machine.Commits (.start .cancel) s s₁ out)
    (hload : (handling desk).machine.Commits (.step s.workers.nextPk .go) s₁ s₂ out')
    (hsent : desk.isWaiting s.shared.row = false) {w : Call ρ κ}
    (hw : s₂.workers.get? s.workers.nextPk = some w) (fresh : String) :
    RightCancel desk s₂.shared w (.act fresh) := by
  obtain ⟨w₀, hbegins, hinsert⟩ := Interleaving.start_eq_ok hstart
  obtain ⟨hshared, rfl⟩ := Prod.mk.inj (Except.ok.inj hbegins)
  obtain ⟨w₁, w₂, hget, hnext, hput⟩ := Interleaving.step_eq_ok hload
  rw [hinsert, Table.get?_insert_self] at hget
  cases hget
  obtain ⟨hsame, rfl⟩ := Prod.mk.inj (Except.ok.inj hnext)
  rw [hput, hinsert, Table.get?_put_self (Table.get?_insert_self _ _)] at hw
  cases hw
  -- its copy is the record as it is
  rw [← hsame, ← hshared]
  exact fun hcancels => ⟨hcan _ (hshared ▸ hcancels), hsent⟩

/-! ### Why it is settled -/

section

variable {ρ κ : Type} (desk : Desk ρ κ)

/-- The record is active, or a transfer is waited for. -/
def Desk.Safe (row : ρ) : Prop := desk.isActive row = true ∨ desk.isWaiting row = true

/-- It is in the block of `single_flight`. -/
def Call.isInside (w : Call ρ κ) : Bool :=
  match w.kind, w.phase with
  | .complete _, .waiting => false
  | .complete _, .over => false
  | .complete _, _ => true
  | _, _ => false

/-- It has asked the other side to create the record. -/
def Call.isCreating (w : Call ρ κ) : Bool :=
  match w.phase with
  | .asking => true
  | .answered .found => false
  | .answered (.notYet _) => false
  | .answered _ => true
  | _ => false

/-- It has asked how far the other side is. -/
def Call.isPolling (w : Call ρ κ) : Bool :=
  match w.phase with
  | .polling => true
  | .answered .found => true
  | .answered (.notYet _) => true
  | _ => false

/-- What is known of a call: it has asked how far the other side is when that was at work or done,
    it has asked for the record to be created when it was not, and its copy is as old as that. -/
structure Own (row : ρ) (w : Call ρ κ) : Prop where
  polls : w.isPolling = true → desk.Safe row
  creates : w.isCreating = true → w.isInside = true ∧ ¬ desk.Safe row
  copy : ∀ copy, w.phase = .loaded copy →
    (desk.Safe copy → desk.Safe row) ∧ (w.isInside = true → desk.Safe row → desk.Safe copy)
  pending : ∀ ref, w.phase = .answered (.pending ref) → ref ≠ ""
    ∧ ∃ k, w.kind = .complete k ∧ desk.mayWait k = true

/-- **The calls are in order**: one is in the block at most, each knows what it knows, and the
    record is settled. -/
structure Orderly (s : System (Store ρ κ) (Call ρ κ)) : Prop where
  alone : s.workers.AtMostOne Call.isInside
  busy : s.workers.Forall fun _ w => w.isInside = true → ∀ k, w.kind = .complete k →
    s.shared.busy = [k]
  own : s.workers.Forall fun _ w => Own desk s.shared.row w
  settled : Settled desk s

variable {desk} {s s' : Store ρ κ} {w w' : Call ρ κ} {workers : Table (Call ρ κ)} {i : ℕ}
  {row row' : ρ}

/-- What is known of a call stays known, while the record does not get worse, and does not become
    active or waiting behind the back of one that is in the block. -/
theorem Own.mono (h : Own desk row w) (hmono : desk.Safe row → desk.Safe row')
    (hback : desk.Safe row' → desk.Safe row ∨ w.isInside = false) : Own desk row' w where
  polls := fun hpolling => hmono (h.polls hpolling)
  creates := fun hcreating => by
    obtain ⟨hinside, hnot⟩ := h.creates hcreating
    refine ⟨hinside, fun hsafe => ?_⟩
    rcases hback hsafe with hbefore | houtside
    · exact hnot hbefore
    · rw [hinside] at houtside
      cases houtside
  copy := fun copy hphase => by
    obtain ⟨hforth, hthere⟩ := h.copy copy hphase
    refine ⟨fun hcopy => hmono (hforth hcopy), fun hinside hsafe => ?_⟩
    rcases hback hsafe with hbefore | houtside
    · exact hthere hinside hbefore
    · rw [hinside] at houtside
      cases houtside
  pending := h.pending

/-- **A step of a call** keeps the order, when the record does not get worse, when it becomes active
    or waiting only while no other call is in the block, and when it stays settled. -/
theorem Orderly.put (h : Orderly desk ⟨s, workers⟩) (hget : workers.get? i = some w)
    (hmono : desk.Safe s.row → desk.Safe s'.row)
    (hback : desk.Safe s'.row → desk.Safe s.row ∨ w.isInside = true)
    (hinside : w'.isInside = true → w.isInside = true ∨ s.busy = [])
    (hbusyOwn : w'.isInside = true → ∀ k, w'.kind = .complete k → s'.busy = [k])
    (hbusy : s'.busy = s.busy ∨ w.isInside = true ∨ s.busy = [])
    (hown : Own desk s'.row w') (hsettled : Settled desk ⟨s', workers.put i w'⟩) :
    Orderly desk ⟨s', workers.put i w'⟩ := by
  have hnobody : s.busy = [] → ∀ j c, workers.get? j = some c → c.isInside = false := by
    intro hempty j c hc
    by_contra hc'
    have hin : c.isInside = true := by simpa using hc'
    have hkind : ∃ k, c.kind = .complete k := by
      unfold Call.isInside at hin
      cases hk : c.kind with
      | complete k => exact ⟨k, rfl⟩
      | poll => rw [hk] at hin; cases hin
      | cancel => rw [hk] at hin; cases hin
    obtain ⟨k, hk⟩ := hkind
    have hheld := h.busy j c hc hin k hk
    rw [show (System.shared (φ := Call ρ κ) ⟨s, workers⟩).busy = s.busy from rfl, hempty] at hheld
    cases hheld
  have hothers : w.isInside = true ∨ s.busy = [] →
      ∀ j c, j ≠ i → workers.get? j = some c → c.isInside = false := by
    rintro (hin | hempty) j c hj hc
    · exact h.alone.others hget hin j c hj hc
    · exact hnobody hempty j c hc
  refine ⟨?_, fun j c hc => ?_, fun j c hc => ?_, hsettled⟩
  · exact h.alone.put hget fun hin => (hinside hin).imp id fun hempty j c _ hc =>
      hnobody hempty j c hc
  · rcases Table.get?_put_cases hget hc with ⟨-, rfl⟩ | ⟨hj, hold⟩
    · exact hbusyOwn
    · intro hin k hk
      rcases hbusy with hsame | hfree
      · exact hsame.trans (h.busy j c hold hin k hk)
      · rw [hothers hfree j c hj hold] at hin
        cases hin
  · rcases Table.get?_put_cases hget hc with ⟨-, rfl⟩ | ⟨hj, hold⟩
    · exact hown
    · exact (h.own j c hold).mono hmono fun hsafe => (hback hsafe).imp id fun hin =>
        hothers (.inl hin) j c hj hold

/-- A call of some kind is still there after the step of one that stays of this kind. -/
private theorem exists_put {p : Call ρ κ → Bool} (hget : workers.get? i = some w)
    (hp : p w = true → p w' = true) :
    (∃ j c, workers.get? j = some c ∧ p c = true) →
      ∃ j c, (workers.put i w').get? j = some c ∧ p c = true := by
  rintro ⟨j, hj⟩
  exact ⟨j, Table.exists_put hget hp hj⟩

/-- **A step that saves no news** keeps the record settled, when the record is as active and as
    waited for as before, or was neither. -/
theorem Settled.put (h : Settled desk ⟨s, workers⟩) (hget : workers.get? i = some w)
    (hnews : w.holdsNews = true → w'.holdsNews = true) (howes : w.owes = true → w'.owes = true)
    (hactive : desk.isActive s.row = true → desk.isActive s'.row = true)
    (hsafe : desk.Safe s.row → desk.Safe s'.row)
    (htold : s'.told = true → s.told = true ∨ w'.holdsNews = true)
    (hheld : s'.held = true ∨ s'.begun = true → (s.held = true ∨ s.begun = true) ∨ w'.owes = true) :
    Settled desk ⟨s', workers.put i w'⟩ := by
  have hself : (workers.put i w').get? i = some w' := Table.get?_put_self hget w'
  constructor
  · intro hnow
    rcases htold hnow with hbefore | hown
    · exact (h.told hbefore).imp hactive (exists_put hget hnews)
    · exact .inr ⟨i, w', hself, hown⟩
  · intro hnow
    rcases hheld hnow with hbefore | hown
    · exact (h.held hbefore).imp hsafe (exists_put hget howes)
    · exact .inr ⟨i, w', hself, hown⟩

/-- **A call goes on** and writes nothing. -/
theorem Orderly.goes (h : Orderly desk ⟨s, workers⟩) (hget : workers.get? i = some w)
    {phase : Call.Phase ρ} (hinside : { w with phase }.isInside = true → w.isInside = true)
    (hown : Own desk s.row { w with phase }) (hnews : w.holdsNews = false)
    (howes : w.owes = false) :
    Orderly desk ⟨s, workers.put i { w with phase }⟩ := by
  refine h.put hget id .inl (fun hin => .inl (hinside hin))
    (fun hin k hk => h.busy i w hget (hinside hin) k hk) (.inl rfl) hown ?_
  refine h.settled.put hget (fun hn => ?_) (fun hn => ?_) id id .inl .inl
  · rw [hnews] at hn
    cases hn
  · rw [howes] at hn
    cases hn

/-- What is known of a call that has nothing to save and asks nothing. -/
theorem Own.plain {phase : Call.Phase ρ} (hpolling : { w with phase }.isPolling = false)
    (hcreating : { w with phase }.isCreating = false) (hcopy : ∀ copy, phase ≠ .loaded copy)
    (hpending : ∀ ref, phase ≠ .answered (.pending ref)) : Own desk row { w with phase } where
  polls := fun h => by rw [hpolling] at h; cases h
  creates := fun h => by rw [hcreating] at h; cases h
  copy := fun copy hphase => absurd hphase (hcopy copy)
  pending := fun ref hphase => absurd hphase (hpending ref)

/-- What is known of a call that has just loaded its copy. -/
theorem Own.loaded : Own desk row { w with phase := .loaded row } where
  polls := fun h => by cases h
  creates := fun h => by cases h
  copy := fun copy hphase => by
    cases hphase
    exact ⟨id, fun _ => id⟩
  pending := fun _ hphase => by cases hphase

/-- **A call acts on its copy**: it asks for the record to be created when that is neither active
    nor waited for, and cancels it only then. -/
theorem Orderly.acts (h : Orderly desk ⟨s, workers⟩) (hget : workers.get? i = some w) {copy : ρ}
    (hphase : w.phase = .loaded copy) (fresh : String)
    (hcancel : RightCancel desk s w (.act fresh)) :
    Orderly desk ⟨(w.act desk fresh copy s).1, workers.put i (w.act desk fresh copy s).2⟩ := by
  have hnews : w.holdsNews = false := by rw [Call.holdsNews, hphase]
  have howes : w.owes = false := by rw [Call.owes, hphase]
  obtain ⟨hforth, hthere⟩ := (h.own i w hget).copy copy hphase
  cases hkind : w.kind with
  | complete k =>
    have hinside : w.isInside = true := by rw [Call.isInside, hkind, hphase]
    by_cases hask : (desk.job k).verdict copy = .ask
    · by_cases hagain : desk.asksAgain k copy = true
      · have hact : w.act desk fresh copy s = (s, { w with phase := .polling }) := by
          rw [Call.act, hkind]
          dsimp only
          rw [if_neg (not_not.mpr hask), if_pos hagain]
        rw [hact]
        refine h.goes hget (fun _ => hinside) ?_ hnews howes
        exact {
          polls := fun _ => hforth (.inr (desk.waiting_of_asksAgain k copy hagain))
          creates := fun hc => by cases hc
          copy := fun _ hc => by cases hc
          pending := fun _ hc => by cases hc }
      · have hact : w.act desk fresh copy s
            = ({ s with row := (desk.job k).prepare fresh s.row },
              { w with phase := .asking }) := by
          rw [Call.act, hkind]
          dsimp only
          rw [if_neg (not_not.mpr hask), if_neg hagain]
        have hnot : ¬ desk.Safe copy := by
          rintro (hactive | hwaiting)
          · exact desk.verdict_of_active k copy hactive hask
          · exact hagain (desk.verdict_of_waiting k copy hwaiting hask)
        have hsame : desk.Safe ((desk.job k).prepare fresh s.row) ↔ desk.Safe s.row := by
          unfold Desk.Safe
          rw [desk.active_prepare, desk.waiting_prepare]
        have hin : ({ w with phase := .asking } : Call ρ κ).isInside = true := by
          rw [Call.isInside, hkind]
        rw [hact]
        refine h.put hget hsame.mpr (fun hsafe => .inl (hsame.mp hsafe)) (fun _ => .inl hinside)
          (fun _ k' hk' => h.busy i w hget hinside k' hk') (.inl rfl) ?_ ?_
        · exact {
            polls := fun hc => by cases hc
            creates := fun _ => ⟨hin, fun hsafe => hnot (hthere hinside (hsame.mp hsafe))⟩
            copy := fun _ hc => by cases hc
            pending := fun _ hc => by cases hc }
        · refine h.settled.put hget (fun hn => ?_) (fun hn => ?_) (fun hactive => ?_) hsame.mpr .inl
            .inl
          · rw [hnews] at hn
            cases hn
          · rw [howes] at hn
            cases hn
          · exact (desk.active_prepare k fresh s.row).trans hactive
    · have hact : w.act desk fresh copy s = (s, { w with phase := .leaving }) := by
        rw [Call.act, hkind]
        dsimp only
        rw [if_pos hask]
      rw [hact]
      exact h.goes hget (fun _ => hinside) (.plain rfl rfl (fun _ => nofun) fun _ => nofun) hnews
        howes
  | poll =>
    have hout : ∀ phase : Call.Phase ρ, { w with phase }.isInside = false := by
      intro phase
      rw [Call.isInside, hkind]
    have hin : ∀ phase : Call.Phase ρ, { w with phase }.isInside = true → w.isInside = true := by
      intro phase hc
      rw [hout] at hc
      cases hc
    by_cases hwaiting : desk.isWaiting copy = true
    · have hact : w.act desk fresh copy s = (s, { w with phase := .polling }) := by
        rw [Call.act, hkind]
        dsimp only
        rw [if_pos hwaiting]
      rw [hact]
      exact h.goes hget (hin _) {
        polls := fun _ => hforth (.inr hwaiting)
        creates := fun hc => by cases hc
        copy := fun _ hc => by cases hc
        pending := fun _ hc => by cases hc } hnews howes
    · have hact : w.act desk fresh copy s = (s, { w with phase := .over }) := by
        rw [Call.act, hkind]
        dsimp only
        rw [if_neg hwaiting]
      rw [hact]
      exact h.goes hget (hin _) (.plain rfl rfl (fun _ => nofun) fun _ => nofun) hnews howes
  | cancel =>
    have hout : ({ w with phase := .over } : Call ρ κ).isInside = false := by
      rw [Call.isInside, hkind]
    have hin : ({ w with phase := .over } : Call ρ κ).isInside = true → w.isInside = true := by
      intro hc
      rw [hout] at hc
      cases hc
    cases hmay : desk.mayCancel copy with
    | ok u =>
      have hact : w.act desk fresh copy s
          = ({ s with row := desk.cancelled s.row }, { w with phase := .over }) := by
        rw [Call.act, hkind]
        dsimp only
        rw [hmay]
      -- the record is neither active nor waited for, before and after
      have hnot : ¬ desk.Safe s.row := by
        have hcancels : w.cancels desk (.act fresh) = true := by
          unfold Call.cancels
          rw [hphase, hkind]
          dsimp only
          rw [hmay]
          rfl
        have hfree := hcancel hcancels
        rintro (hactive | hwaiting)
        · rw [hfree.1] at hactive
          cases hactive
        · rw [hfree.2] at hwaiting
          cases hwaiting
      have hnotAfter : ¬ desk.Safe (desk.cancelled s.row) := by
        rintro (hactive | hwaiting)
        · rw [desk.active_cancelled] at hactive
          cases hactive
        · rw [desk.waiting_cancelled] at hwaiting
          cases hwaiting
      rw [hact]
      refine h.put hget (fun hsafe => absurd hsafe hnot) (fun hsafe => absurd hsafe hnotAfter)
        (fun hc => .inl (hin hc)) (fun hc => by rw [hout] at hc; cases hc) (.inl rfl)
        (.plain rfl rfl (fun _ => nofun) fun _ => nofun) ?_
      refine h.settled.put hget (fun hn => ?_) (fun hn => ?_)
        (fun hactive => absurd (.inl hactive) hnot) (fun hsafe => absurd hsafe hnot) .inl .inl
      · rw [hnews] at hn
        cases hn
      · rw [howes] at hn
        cases hn
    | error e =>
      have hact : w.act desk fresh copy s = (s, { w with phase := .over }) := by
        rw [Call.act, hkind]
        dsimp only
        rw [hmay]
      rw [hact]
      exact h.goes hget hin (.plain rfl rfl (fun _ => nofun) fun _ => nofun) hnews howes

/-- A call that has asked for the record to be created is one that completes it. -/
private theorem exists_kind_of_isInside (h : w.isInside = true) : ∃ k, w.kind = .complete k := by
  unfold Call.isInside at h
  cases hk : w.kind with
  | complete k => exact ⟨k, rfl⟩
  | poll => rw [hk] at h; cases h
  | cancel => rw [hk] at h; cases h

/-- **The other side answers**: what it holds or has begun is what a call has still to save. -/
theorem Orderly.hears (h : Orderly desk ⟨s, workers⟩) (hget : workers.get? i = some w) {a : Answer}
    (hhears : w.hears desk a s = .ok (s', w')) (hnotLost : NotLost (.answer a)) :
    Orderly desk ⟨s', workers.put i w'⟩ := by
  have hown := h.own i w hget
  -- from asking to answered a call stays where it is, and knows what it knew
  have hasked : ∀ (held begun told : Bool), w.phase = .asking →
      ({ w with phase := .answered a } : Call ρ κ).isCreating = true →
      (∀ ref, a = .pending ref → ref ≠ "" ∧ ∃ k, w.kind = .complete k ∧ desk.mayWait k = true) →
      Settled desk ⟨{ s with held, begun, told }, workers.put i { w with phase := .answered a }⟩ →
      Orderly desk
        ⟨{ s with held, begun, told }, workers.put i { w with phase := .answered a }⟩ := by
    intro held begun told hphase hcreating hpending hsettled
    obtain ⟨hinside, hnot⟩ := hown.creates (by rw [Call.isCreating, hphase])
    obtain ⟨k, hkind⟩ := exists_kind_of_isInside hinside
    have hin : ({ w with phase := .answered a } : Call ρ κ).isInside = true := by
      rw [Call.isInside, hkind]
    refine h.put hget id .inl (fun _ => .inl hinside) (fun _ => h.busy i w hget hinside) (.inl rfl)
      ?_ hsettled
    exact {
      polls := fun hpolling => by
        unfold Call.isCreating at hcreating
        unfold Call.isPolling at hpolling
        cases a <;> simp_all
      creates := fun _ => ⟨hin, hnot⟩
      copy := fun _ hc => by cases hc
      pending := fun ref hc => by
        cases hc
        exact hpending ref rfl }
  have hpolled : ∀ told : Bool, w.phase = .polling →
      ({ w with phase := .answered a } : Call ρ κ).isCreating = false →
      (∀ ref, a ≠ .pending ref) →
      Settled desk ⟨{ s with told }, workers.put i { w with phase := .answered a }⟩ →
      Orderly desk ⟨{ s with told }, workers.put i { w with phase := .answered a }⟩ := by
    intro told hphase hcreating hpending hsettled
    have hsafe := hown.polls (by rw [Call.isPolling, hphase])
    have hin : ({ w with phase := .answered a } : Call ρ κ).isInside = true →
        w.isInside = true := by
      unfold Call.isInside
      rw [hphase]
      cases w.kind <;> exact id
    refine h.put hget id .inl (fun hc => .inl (hin hc)) (fun hc => h.busy i w hget (hin hc))
      (.inl rfl) ?_ hsettled
    exact {
      polls := fun _ => hsafe
      creates := fun hc => by rw [hcreating] at hc; cases hc
      copy := fun _ hc => by cases hc
      pending := fun ref hc => by
        cases hc
        exact absurd rfl (hpending ref) }
  have hquiet : w.phase = .asking ∨ w.phase = .polling → w.holdsNews = false ∧ w.owes = false := by
    rintro (hphase | hphase)
    · exact ⟨by rw [Call.holdsNews, hphase], by rw [Call.owes, hphase]⟩
    · exact ⟨by rw [Call.holdsNews, hphase], by rw [Call.owes, hphase]⟩
  have hsettled : ∀ (s' : Store ρ κ) (w' : Call ρ κ), s'.row = s.row →
      w.phase = .asking ∨ w.phase = .polling →
      (s'.told = true → s.told = true ∨ w'.holdsNews = true) →
      (s'.held = true ∨ s'.begun = true → (s.held = true ∨ s.begun = true) ∨ w'.owes = true) →
      Settled desk ⟨s', workers.put i w'⟩ := by
    intro s' w' hrow hphase htold hheld
    obtain ⟨hnews, howes⟩ := hquiet hphase
    refine h.settled.put hget (fun hn => ?_) (fun hn => ?_) (fun hactive => hrow ▸ hactive)
      (fun hsafe => hrow ▸ hsafe) htold hheld
    · rw [hnews] at hn
      cases hn
    · rw [howes] at hn
      cases hn
  unfold Call.hears at hhears
  split at hhears
  · next ref k hphase hkind =>
    cases hhears
    exact hasked true s.begun true hphase rfl (fun _ hc => by cases hc)
      (hsettled _ _ rfl (.inl hphase) (fun _ => .inr rfl) fun _ => .inr rfl)
  · next ref k hphase hkind =>
    simp only [bind_eq_ok, ensure_eq_ok, pure_eq_ok] at hhears
    obtain ⟨_, ⟨hwait, href⟩, hhears⟩ := hhears
    cases hhears
    refine hasked s.held true s.told hphase rfl (fun ref' hc => ?_)
      (hsettled _ _ rfl (.inl hphase) .inl fun _ => .inr rfl)
    cases hc
    exact ⟨href, k, hkind, hwait⟩
  · next message k hphase hkind =>
    cases hhears
    exact hasked s.held s.begun s.told hphase rfl (fun _ hc => by cases hc)
      (hsettled _ _ rfl (.inl hphase) .inl .inl)
  · next message k hphase hkind => exact absurd hnotLost id
  · next hphase =>
    simp only [bind_eq_ok, ensure_eq_ok, pure_eq_ok] at hhears
    obtain ⟨_, hheld, hhears⟩ := hhears
    cases hhears
    exact hpolled true hphase rfl (fun _ hc => by cases hc)
      (hsettled _ _ rfl (.inr hphase) (fun _ => .inr rfl) .inl)
  · next «where» hphase =>
    cases hhears
    exact hpolled s.told hphase rfl (fun _ hc => by cases hc)
      (hsettled _ _ rfl (.inr hphase) .inl .inl)
  · cases hhears

/-- **A call saves what it was told.** -/
theorem Orderly.saves (h : Orderly desk ⟨s, workers⟩) (hget : workers.get? i = some w) {a : Answer}
    (hphase : w.phase = .answered a) :
    Orderly desk ⟨{ s with row := desk.save w s.row a }, workers.put i w.after⟩ := by
  have hown := h.own i w hget
  have hafterInside : w.after.isInside = true → w.isInside = true := by
    unfold Call.after Call.isInside
    cases w.kind with
    | complete k =>
      dsimp only
      rw [hphase]
      exact fun _ => rfl
    | poll => exact id
    | cancel => exact id
  have hafterKind : w.after.kind = w.kind := rfl
  have hplain : Own desk (desk.save w s.row a) w.after := by
    have hends : w.after = { w with phase := .leaving } ∨ w.after = { w with phase := .over } := by
      unfold Call.after
      cases w.kind with
      | complete k => exact .inl rfl
      | poll => exact .inr rfl
      | cancel => exact .inr rfl
    rcases hends with hends | hends
    · rw [hends]
      exact .plain rfl rfl (fun _ => nofun) fun _ => nofun
    · rw [hends]
      exact .plain rfl rfl (fun _ => nofun) fun _ => nofun
  -- what becomes of the record decides what is left to show
  have hput : (desk.Safe s.row → desk.Safe (desk.save w s.row a)) →
      (desk.Safe (desk.save w s.row a) → desk.Safe s.row ∨ w.isInside = true) →
      Settled desk ⟨{ s with row := desk.save w s.row a }, workers.put i w.after⟩ →
      Orderly desk ⟨{ s with row := desk.save w s.row a }, workers.put i w.after⟩ :=
    fun hmono hback hsettled => h.put hget hmono hback (fun hc => .inl (hafterInside hc))
      (fun hc k hk => h.busy i w hget (hafterInside hc) k hk) (.inl rfl) hplain hsettled
  have hactive : desk.isActive (desk.save w s.row a) = true →
      Settled desk ⟨{ s with row := desk.save w s.row a }, workers.put i w.after⟩ :=
    fun hact => ⟨fun _ => .inl hact, fun _ => .inl (.inl hact)⟩
  have hnews : ¬ desk.Safe s.row → w.holdsNews = false → s.told = true →
      ∃ j c, (workers.put i w.after).get? j = some c ∧ c.holdsNews = true := by
    intro hnot hw htold
    rcases h.settled.told htold with hact | hsome
    · exact absurd (.inl hact) hnot
    · exact exists_put hget (fun hn => by rw [hw] at hn; cases hn) hsome
  have howes : ¬ desk.Safe s.row → w.owes = false → s.held = true ∨ s.begun = true →
      ∃ j c, (workers.put i w.after).get? j = some c ∧ c.owes = true := by
    intro hnot hw hheld
    rcases h.settled.held hheld with hsafe | hsome
    · exact absurd hsafe hnot
    · exact exists_put hget (fun hn => by rw [hw] at hn; cases hn) hsome
  cases a with
  | created ref =>
    obtain ⟨hinside, hnot⟩ := hown.creates (by rw [Call.isCreating, hphase])
    obtain ⟨k, hkind⟩ := exists_kind_of_isInside hinside
    have hact : desk.isActive (desk.save w s.row (.created ref)) = true := by
      unfold Desk.save
      rw [hkind]
      exact desk.active_created k ref s.row
    exact hput (fun hsafe => absurd hsafe hnot) (fun _ => .inr hinside) (hactive hact)
  | pending ref =>
    obtain ⟨hinside, hnot⟩ := hown.creates (by rw [Call.isCreating, hphase])
    obtain ⟨href, k, _, hwait⟩ := hown.pending ref hphase
    have hwaiting : desk.isWaiting (desk.save w s.row (.pending ref)) = true :=
      desk.waiting_waiting k ref s.row hwait href
    exact hput (fun hsafe => absurd hsafe hnot) (fun _ => .inr hinside)
      ⟨fun htold => .inr (hnews hnot (by rw [Call.holdsNews, hphase]) htold),
        fun _ => .inl (.inr hwaiting)⟩
  | error message | lost message =>
    obtain ⟨hinside, hnot⟩ := hown.creates (by rw [Call.isCreating, hphase])
    exact hput (fun hsafe => absurd hsafe hnot) (fun _ => .inr hinside)
      ⟨fun htold => .inr (hnews hnot (by rw [Call.holdsNews, hphase]) htold),
        fun hheld => .inr (howes hnot (by rw [Call.owes, hphase]) hheld)⟩
  | found =>
    have hsafe := hown.polls (by rw [Call.isPolling, hphase])
    have hact : desk.isActive (desk.save w s.row .found) = true := desk.active_found s.row
    exact hput (fun _ => .inl hact) (fun _ => .inl hsafe) (hactive hact)
  | notYet «where» =>
    have hsafe := hown.polls (by rw [Call.isPolling, hphase])
    have hsame : desk.Safe (desk.save w s.row (.notYet «where»)) := by
      unfold Desk.Safe Desk.save
      rw [desk.active_notYet, desk.waiting_notYet]
      exact hsafe
    refine hput (fun _ => hsame) (fun _ => .inl hsafe) ⟨fun htold => ?_, fun _ => .inl hsame⟩
    refine (h.settled.told htold).imp (fun hact => ?_)
      (exists_put hget fun hn => by rw [Call.holdsNews, hphase] at hn; cases hn)
    exact (desk.active_notYet «where» s.row).trans hact

/-- **A step of a call** keeps the order, within the conditions. -/
theorem Orderly.next [DecidableEq κ] (h : Orderly desk ⟨s, workers⟩)
    (hget : workers.get? i = some w) {a : Call.Step} (hnext : w.next desk a s = .ok (s', w'))
    (hkept : Kept desk s w a) : Orderly desk ⟨s', workers.put i w'⟩ := by
  obtain ⟨hcancel, hkind, hnotLost⟩ := hkept
  unfold Call.next at hnext
  split at hnext
  · next hphase =>
    have hnews : w.holdsNews = false := by rw [Call.holdsNews, hphase]
    have howes : w.owes = false := by rw [Call.owes, hphase]
    split at hnext
    · next k hcomplete =>
      split at hnext
      · cases hnext
        have hsame : w = { w with phase := w.phase } := rfl
        rw [hsame]
        exact h.goes hget id (h.own i w hget) hnews howes
      · next hfree =>
        cases hnext
        -- whoever enters finds nobody inside
        have hempty : s.busy = [] := by
          refine hkind ?_
          unfold Call.enters
          rw [hphase, hcomplete]
          exact decide_eq_true hfree
        refine h.put hget id .inl (fun _ => .inr hempty) (fun _ k' hk' => ?_) (.inr (.inr hempty))
          (.plain rfl rfl (fun _ => nofun) fun _ => nofun)
          (h.settled.put hget (fun hn => ?_) (fun hn => ?_) id id .inl .inl)
        · have hsame : k = k' := by
            rw [show w.kind = .complete k from hcomplete] at hk'
            exact Call.Kind.complete.inj hk'
          show k :: s.busy = [k']
          rw [hempty, hsame]
        · rw [hnews] at hn
          cases hn
        · rw [howes] at hn
          cases hn
    · next hother =>
      cases hnext
      refine h.goes hget (fun hin => ?_) .loaded hnews howes
      obtain ⟨k, hk⟩ := exists_kind_of_isInside hin
      exact absurd hk (hother k)
  · next hphase =>
    cases hnext
    have hnews : w.holdsNews = false := by rw [Call.holdsNews, hphase]
    have howes : w.owes = false := by rw [Call.owes, hphase]
    refine h.goes hget (fun hin => ?_) .loaded hnews howes
    obtain ⟨k, hk⟩ := exists_kind_of_isInside hin
    rw [Call.isInside, show w.kind = .complete k from hk, hphase]
  · next fresh copy hphase =>
    have hacts := h.acts hget hphase fresh hcancel
    rw [Except.ok.inj hnext] at hacts
    exact hacts
  · exact h.hears hget hnext hnotLost
  · next answer hphase =>
    cases hnext
    exact h.saves hget hphase
  · next hphase =>
    have hnews : w.holdsNews = false := by rw [Call.holdsNews, hphase]
    have howes : w.owes = false := by rw [Call.owes, hphase]
    have hout : ({ w with phase := .over } : Call ρ κ).isInside = false := by
      unfold Call.isInside
      cases w.kind <;> rfl
    -- what a call that is over leaves, whoever is inside
    have hover : ∀ busy, (busy = s.busy ∨ w.isInside = true ∨ s.busy = []) →
        Orderly desk ⟨{ s with busy }, workers.put i { w with phase := .over }⟩ := by
      intro busy hbusy
      refine h.put hget id .inl (fun hin => ?_) (fun hin => ?_) hbusy
        (.plain rfl rfl (fun _ => nofun) fun _ => nofun)
        (h.settled.put hget (fun hn => ?_) (fun hn => ?_) id id .inl .inl)
      · rw [hout] at hin
        cases hin
      · rw [hout] at hin
        cases hin
      · rw [hnews] at hn
        cases hn
      · rw [howes] at hn
        cases hn
    split at hnext
    · next k hcomplete =>
      cases hnext
      refine hover _ (.inr (.inl ?_))
      rw [Call.isInside, hcomplete, hphase]
    · cases hnext
      exact hover s.busy (.inl rfl)
  · cases hnext

/-- **A step within the conditions keeps the order.** -/
theorem Orderly.commits [DecidableEq κ] {s s' : System (Store ρ κ) (Call ρ κ)}
    {turn : Turn (Call.Kind κ) Call.Step Meanwhile} {out : List PUnit} (h : Orderly desk s)
    (hcommits : (handling desk).machine.Commits turn s s' out)
    (hkept : turn.Meets (Kept desk) s) : Orderly desk s' := by
  obtain ⟨shared, workers⟩ := s
  obtain ⟨shared', workers'⟩ := s'
  cases turn with
  | start kind =>
    obtain ⟨w, hstart, hworkers⟩ := Interleaving.start_eq_ok hcommits
    cases hstart
    cases hworkers
    have hnew : ({ kind, phase := .waiting } : Call ρ κ).isInside = false := by
      unfold Call.isInside
      cases kind <;> rfl
    have hsome : ∀ p : Call ρ κ → Bool, (∃ i w, workers.get? i = some w ∧ p w = true) →
        ∃ i w, (workers.insert { kind, phase := .waiting }).get? i = some w ∧ p w = true := by
      rintro p ⟨j, c, hc, hpc⟩
      exact ⟨j, c, Table.get?_insert_of_some hc, hpc⟩
    refine ⟨h.alone.insert hnew, Table.Forall.insert h.busy fun hin => ?_,
      Table.Forall.insert h.own ?_,
      fun htold => (h.settled.told htold).imp id (hsome _),
      fun hheld => (h.settled.held hheld).imp id (hsome _)⟩
    · rw [hnew] at hin
      cases hin
    · exact ⟨(by rintro ⟨⟩), (by rintro ⟨⟩), fun _ hc => (by cases hc), fun _ hc => (by cases hc)⟩
  | step i a =>
    obtain ⟨w, w', hget, hnext, hworkers⟩ := Interleaving.step_eq_ok hcommits
    cases hworkers
    exact h.next hget hnext (hkept w hget)
  | outside event =>
    obtain ⟨hevent, hworkers⟩ := Interleaving.outside_eq_ok hcommits
    cases hworkers
    cases event with
    | finished =>
      simp only [handling, bind_eq_ok, ensure_eq_ok, pure_eq_ok] at hevent
      obtain ⟨_, hbegun, hevent⟩ := hevent
      cases hevent
      exact ⟨h.alone, h.busy, h.own, h.settled.told, fun _ => h.settled.held (.inr hbegun)⟩
    | refused =>
      cases hevent
      refine ⟨h.alone, h.busy, h.own, h.settled.told, fun hheld => h.settled.held (.inl ?_)⟩
      exact hheld.resolve_right (by rintro ⟨⟩)

end

/-! ### The result -/

section

variable {ρ κ : Type} {desk : Desk ρ κ}

/-- When no call is under way, what a call was told is active. -/
theorem Settled.active {s : System (Store ρ κ) (Call ρ κ)} (h : Settled desk s)
    (hquiet : s.workers.Forall fun _ w => w.phase = .over) (htold : s.shared.told = true) :
    desk.isActive s.shared.row = true := by
  rcases h.told htold with hactive | ⟨i, w, hw, hnews⟩
  · exact hactive
  · rw [Call.holdsNews, hquiet i w hw] at hnews
    cases hnews

/-- When no call is under way, what the other side holds is active, or waited for. -/
theorem Settled.safe {s : System (Store ρ κ) (Call ρ κ)} (h : Settled desk s)
    (hquiet : s.workers.Forall fun _ w => w.phase = .over) (hheld : s.shared.held = true) :
    desk.Safe s.shared.row := by
  rcases h.held (.inl hheld) with hsafe | ⟨i, w, hw, howes⟩
  · exact hsafe
  · rw [Call.owes, hquiet i w hw] at howes
    cases howes

end

/-- A record as it stands before any call: the other side holds, or is at work on, what it says. -/
def Store.of {ρ κ : Type} (desk : Desk ρ κ) (row : ρ) : Store ρ κ where
  row
  held := desk.isActive row
  begun := desk.isWaiting row
  told := desk.isActive row

/-- **The record is settled at every moment** of a run in which it is cancelled only while it is
    neither active nor waiting for a transfer, is not completed in two ways at the same time, and
    the other side does not answer with an error after it has created something. -/
theorem always_settled {ρ κ : Type} [DecidableEq κ] (desk : Desk ρ κ)
    (turns : List (Turn (Call.Kind κ) Call.Step Meanwhile)) (row : ρ)
    (hkept : (handling desk).machine.EachStep (fun s turn _ => turn.Meets (Kept desk) s) turns
      ⟨.of desk row, {}⟩) :
    (handling desk).machine.Always (Settled desk) turns ⟨.of desk row, {}⟩ := by
  have hfirst : Orderly desk ⟨.of desk row, {}⟩ :=
    ⟨.empty, .empty, .empty, fun htold => .inl htold, fun hheld => .inl hheld⟩
  exact Machine.always_of_eachStep (fun _ h => h.settled)
    (fun _ _ _ _ h hcommits hstep => h.commits hcommits hstep) turns _ hfirst hkept

private def pendingDomain (status : DomainStatus) :
    System (Store DomainRow DomainJob) (Call DomainRow DomainJob) :=
  ⟨.of domainDesk { status }, {}⟩

private def pendingAccount : System (Store AccountRow Unit) (Call AccountRow Unit) :=
  ⟨.of hostingDesk { status := .pending, username := "acme", serverActive := some true }, {}⟩

private abbrev Turns (κ : Type) : Type := List (Turn (Call.Kind κ) Call.Step Meanwhile)

/-- A call completes the record, up to its answer. -/
private def asks {κ : Type} (i : ℕ) (k : κ) : List (Turn (Call.Kind κ) Call.Step Meanwhile) :=
  [.start (.complete k), .step i .go, .step i .go, .step i (.act "acmesite")]

/-- It is answered, and saves that. -/
private def hears {κ : Type} (i : ℕ) (a : Answer) :
    List (Turn (Call.Kind κ) Call.Step Meanwhile) :=
  [.step i (.answer a), .step i .go, .step i .go]

/-- A request is cancelled while the registrar is asked, and completed all the same; a transfer
    takes days, and is found done by the hourly job. -/
theorem always_settled_domain :
    (handling domainDesk).machine.Always (Settled domainDesk)
        (asks 0 DomainJob.registration
          ++ ([.start .cancel, .step 1 .go, .step 1 (.act "")] : Turns DomainJob)
          ++ hears 0 (.created "acme.com")) (pendingDomain .pendingRegistration)
      ∧ (handling domainDesk).machine.Always (Settled domainDesk)
        (asks 0 DomainJob.transfer ++ hears 0 (.pending "acme.com")
          ++ ([.outside .finished, .start .poll, .step 1 .go, .step 1 (.act "")] : Turns DomainJob)
          ++ hears 1 .found) (pendingDomain .pendingTransferIn)
      ∧ (handling hostingDesk).machine.Always (Settled hostingDesk)
        (asks 0 () ++ hears 0 (.error "out of space")
          ++ ([.start .cancel, .step 1 .go, .step 1 (.act "")] : Turns Unit)) pendingAccount :=
  ⟨always_settled domainDesk _ _ (Machine.eachStep_of_trace (by decide +kernel)),
    always_settled domainDesk _ _ (Machine.eachStep_of_trace (by decide +kernel)),
    always_settled hostingDesk _ _ (Machine.eachStep_of_trace (by decide +kernel))⟩

/-- **A record that is paid for and not active**: a cancellation that was checked before the domain,
    or the account, was created; a transfer cancelled while it is under way; a failed domain whose
    registration succeeds while a transfer of it fails; and an error in place of the answer that it
    was created. -/
theorem not_always_settled :
    ¬ (handling domainDesk).machine.Always (Settled domainDesk)
        (.start .cancel :: .step 0 .go :: (asks 1 DomainJob.registration
          ++ hears 1 (.created "acme.com") ++ ([.step 0 (.act "")] : Turns DomainJob)))
        (pendingDomain .pendingRegistration)
      ∧ ¬ (handling hostingDesk).machine.Always (Settled hostingDesk)
        (.start .cancel :: .step 0 .go :: (asks 1 () ++ hears 1 (.created "acme")
          ++ ([.step 0 (.act "")] : Turns Unit))) pendingAccount
      ∧ ¬ (handling domainDesk).machine.Always (Settled domainDesk)
        (asks 0 DomainJob.transfer ++ hears 0 (.pending "acme.com")
          ++ ([.start .cancel, .step 1 .go, .step 1 (.act ""), .outside .finished] :
            Turns DomainJob)) (pendingDomain .pendingTransferIn)
      ∧ ¬ (handling domainDesk).machine.Always (Settled domainDesk)
        (asks 0 DomainJob.transfer ++ asks 1 DomainJob.registration ++ hears 1 (.created "acme.com")
          ++ hears 0 (.error "refused")) (pendingDomain .failed)
      ∧ ¬ (handling domainDesk).machine.Always (Settled domainDesk)
        (asks 0 DomainJob.registration ++ hears 0 (.lost "Could not reach the registrar."))
        (pendingDomain .pendingRegistration) := by
  refine ⟨fun h => ?_, fun h => ?_, fun h => ?_, fun h => ?_, fun h => ?_⟩
  · exact absurd (h.last.active (by decide +kernel) (by decide +kernel)) (by decide +kernel)
  · exact absurd (h.last.active (by decide +kernel) (by decide +kernel)) (by decide +kernel)
  · have hsafe := h.last.safe (by decide +kernel) (by decide +kernel)
    unfold Desk.Safe at hsafe
    revert hsafe
    decide +kernel
  · exact absurd (h.last.active (by decide +kernel) (by decide +kernel)) (by decide +kernel)
  · have hsafe := h.last.safe (by decide +kernel) (by decide +kernel)
    unfold Desk.Safe at hsafe
    revert hsafe
    decide +kernel

end WPanel.Locks.Cancelling
