import WPanel.Core
import WPanel.Lib.Interleaving

namespace WPanel.Notifications

open WPanel.Lib

/-!
# Delivering one email

`deliver`, `resend` and `sweep_stuck` of `notifications/services.py`, for one recorded email.  A
delivery counts its attempt under the row lock; the mail server is asked afterwards, and the status
is written last, from the copy.

* `Delivery`, `delivering` — the delivery task step by step, any number of them in any order, while
  time passes, staff press resend, the sweep looks for stuck emails and tasks are retried or
  redelivered;
* `Serial` — no delivery counts its attempt while another one is between its attempt and its
  status;
* `delivered_once` — in a run that keeps to this the mail server accepts the email at most once, and
  what is sent stays sent;
* `not_delivered_once` — a delivery and the one that the sweep started send it twice, and a refused
  one undoes the status of one that was accepted.
-/

/-! ### The email -/

inductive Status where
  | queued
  | sent
  | failed
  deriving DecidableEq, Repr

/-- `EmailMessage`: what its delivery reads and writes.  The secret content of a sensitive email is
    wiped once it is delivered, or not delivered for a day. -/
structure EmailMessage where
  status : Status := .queued
  attempts : ℕ := 0
  lastAttemptAt : Option ℕ := none
  lastError : String := ""
  sentAt : Option ℕ := none
  isSensitive : Bool := false
  sensitiveBody : String := ""
  createdAt : ℕ
  updatedAt : ℕ
  deriving DecidableEq, Repr

/-- The clock, the email, the tasks that wait to be run, each with its retries so far, and how often
    the mail server has accepted the email. -/
structure Outbox where
  now : ℕ
  message : EmailMessage
  tasks : List ℕ := [0]
  accepted : ℕ := 0
  deriving DecidableEq, Repr

/-- `SWEEP_AFTER`, in seconds. -/
def SWEEP_AFTER : ℕ := 10 * 60

def SWEEP_MAX_ATTEMPTS : ℕ := 8

/-- `SENSITIVE_KEEP_FAILED`, in seconds. -/
def SENSITIVE_KEEP_FAILED : ℕ := 24 * 60 * 60

/-- `max_retries` of the task. -/
def MAX_RETRIES : ℕ := 5

/-- Its secret content has been removed. -/
def EmailMessage.isWiped (message : EmailMessage) : Bool :=
  message.isSensitive && message.sensitiveBody = ""

def removedMessage : String :=
  "The secret content of this email has been removed, so it cannot be sent again."

/-- What `_content` raises then. -/
def contentRemoved : Err := .service removedMessage "content_removed" 409

/-! ### A delivery -/

/-- How far `deliver` has come, with its copy. -/
inductive Delivery.Phase where
  | begun
  /-- The attempt is counted. -/
  | attempting (message : EmailMessage)
  /-- The mail server has taken the email. -/
  | accepted (message : EmailMessage)
  /-- It was not sent. -/
  | failed (message : EmailMessage) (error : String) (retry : Bool)
  | over
  deriving DecidableEq, Repr

/-- A run of the task, with its retries so far. -/
structure Delivery where
  retries : ℕ
  phase : Delivery.Phase := .begun
  deriving DecidableEq, Repr

/-- The steps of a delivery. -/
inductive Delivery.Step where
  /-- The row is locked, and the attempt counted and committed. -/
  | attempt
  /-- `mail.send()` returns, or raises: an error that is retried or is not. -/
  | send (refusal : Option (String × Bool))
  /-- The status is written. -/
  | save
  deriving DecidableEq, Repr

/-- One more attempt. -/
def EmailMessage.attempted (now : ℕ) (message : EmailMessage) : EmailMessage :=
  { message with
    attempts := message.attempts + 1
    lastAttemptAt := some now
    updatedAt := now }

/-- What the save of a delivered email writes over the row, `copy` being what was delivered. -/
def EmailMessage.delivered (now : ℕ) (copy message : EmailMessage) : EmailMessage :=
  { message with
    status := .sent
    sentAt := some now
    lastError := ""
    sensitiveBody := if copy.isSensitive then "" else message.sensitiveBody
    updatedAt := now }

/-- What the save of one that was not delivered writes. -/
def EmailMessage.refused (now : ℕ) (error : String) (message : EmailMessage) : EmailMessage :=
  { message with
    status := .failed
    lastError := clip 2000 error
    updatedAt := now }

/-- A step of `deliver`. -/
def Delivery.next (a : Delivery.Step) (s : Outbox) (d : Delivery) :
    Except Err (Outbox × Delivery) :=
  match a, d.phase with
  | .attempt, .begun =>
    if s.message.status = .sent then pure (s, { d with phase := .over })
    else
      pure ({ s with message := s.message.attempted s.now },
        { d with phase := .attempting (s.message.attempted s.now) })
  | .send refusal, .attempting copy =>
    if copy.isWiped then
      pure (s, { d with phase := .failed copy ("ServiceError: " ++ removedMessage) true })
    else match refusal with
      | none => pure ({ s with accepted := s.accepted + 1 }, { d with phase := .accepted copy })
      | some (error, retry) => pure (s, { d with phase := .failed copy error retry })
  | .save, .accepted copy =>
    pure ({ s with message := copy.delivered s.now s.message }, { d with phase := .over })
  | .save, .failed _ error retry =>
    pure ({ s with
      message := s.message.refused s.now error
      tasks := if retry && d.retries < MAX_RETRIES then (d.retries + 1) :: s.tasks else s.tasks },
      { d with phase := .over })
  | _, _ => throw (.unexpected "not the next step")

/-! ### Around it -/

/-- What happens around the deliveries. -/
inductive Surroundings where
  | tick (now : ℕ)
  /-- Staff press resend. -/
  | resend (maySettings : Bool)
  /-- `sweep_stuck` looks at the email. -/
  | sweep
  /-- `purge_sensitive` looks at it. -/
  | purge
  /-- The broker hands a task out again: its worker was lost. -/
  | redeliver (retries : ℕ)
  deriving DecidableEq, Repr

/-- `resend`, in its transaction. -/
def resend (maySettings : Bool) (s : Outbox) : Except Err Outbox := do
  ensure (maySettings = true) denied
  ensure (s.message.status ≠ .sent)
    (serviceError "This email was already delivered." "invalid_status")
  ensure (s.message.isWiped = false) contentRemoved
  return { s with
    message := { s.message with status := .queued, updatedAt := s.now }
    tasks := 0 :: s.tasks }

/-- `sweep_stuck`, on this email. -/
def sweepStuck (s : Outbox) : Outbox :=
  if s.message.status ≠ .sent ∧ s.message.updatedAt + SWEEP_AFTER < s.now
      ∧ s.message.attempts < SWEEP_MAX_ATTEMPTS ∧ s.message.isWiped = false then
    { s with tasks := 0 :: s.tasks }
  else s

/-- `purge_sensitive`, on this email. -/
def purgeSensitive (s : Outbox) : Outbox :=
  if s.message.isSensitive = true ∧ s.message.status ≠ .sent
      ∧ s.message.createdAt + SENSITIVE_KEEP_FAILED < s.now then
    { s with message := { s.message with sensitiveBody := "" } }
  else s

def Surroundings.apply (s : Outbox) : Surroundings → Except Err Outbox
  | .tick now => do
    ensure (s.now ≤ now) (.unexpected "time does not go back")
    return { s with now }
  | .resend maySettings => Notifications.resend maySettings s
  | .sweep => pure (sweepStuck s)
  | .purge => pure (purgeSensitive s)
  | .redeliver retries => pure { s with tasks := retries :: s.tasks }

/-- The deliveries of one email, in any order. -/
def delivering : Interleaving Outbox Delivery ℕ Delivery.Step Surroundings Err where
  start retries s := do
    ensure (retries ∈ s.tasks) (.unexpected "no such task waits")
    return ({ s with tasks := s.tasks.erase retries }, { retries })
  step a s d := d.next a s
  outside c s := c.apply s
  absent := .unexpected "there is no such delivery"

/-! ### Once -/

/-- It has counted its attempt, and not written the status yet. -/
def Delivery.inFlight (d : Delivery) : Bool :=
  match d.phase with
  | .attempting _ => true
  | .accepted _ => true
  | .failed _ _ _ => true
  | _ => false

/-- No delivery counts its attempt while another one is between its attempt and its status. -/
def Serial : Discipline Outbox Delivery Delivery.Step Surroundings where
  step _ _ a other := a = .attempt → other.inFlight = false
  outside _ _ _ := True

instance (s : Outbox) (d : Delivery) (a : Delivery.Step) (other : Delivery) :
    Decidable (Serial.step s d a other) :=
  inferInstanceAs (Decidable (_ → _))

instance (s : Outbox) (c : Surroundings) (other : Delivery) :
    Decidable (Serial.outside s c other) := isTrue trivial

/-- The mail server has accepted the email, and that is not written yet. -/
def Delivery.isAccepted (d : Delivery) : Bool :=
  match d.phase with
  | .accepted _ => true
  | _ => false

/-- Where the email is: sent, with nobody about it; or with one delivery at most, and accepted if
    that says so. -/
structure Whereabouts (s : System Outbox Delivery) : Prop where
  once : s.shared.accepted ≤ 1
  sent : s.shared.message.status = .sent → s.shared.accepted = 1
    ∧ s.workers.Forall fun _ d => d.inFlight = false
  alone : s.workers.AtMostOne Delivery.inFlight
  flying : s.workers.Forall fun _ d => d.inFlight = true →
    s.shared.accepted = if d.isAccepted then 1 else 0
  owed : s.shared.accepted ≠ 0 → s.shared.message.status = .sent
    ∨ ∃ i d, s.workers.get? i = some d ∧ d.isAccepted = true

/-- What a step of a delivery does. -/
inductive Delivery.Did : Delivery.Step → Outbox → Delivery → Outbox → Delivery → Prop
  /-- The email is sent already. -/
  | stopped {s : Outbox} {d : Delivery} : d.phase = .begun → s.message.status = .sent →
      Did .attempt s d s { d with phase := .over }
  | attempted {s : Outbox} {d : Delivery} : d.phase = .begun → s.message.status ≠ .sent →
      Did .attempt s d { s with message := s.message.attempted s.now }
        { d with phase := .attempting (s.message.attempted s.now) }
  | accepted {s : Outbox} {d : Delivery} {copy : EmailMessage} : d.phase = .attempting copy →
      Did (.send none) s d { s with accepted := s.accepted + 1 } { d with phase := .accepted copy }
  | refused {s : Outbox} {d : Delivery} {copy : EmailMessage} {error : String} {retry : Bool}
      {refusal : Option (String × Bool)} : d.phase = .attempting copy →
      Did (.send refusal) s d s { d with phase := .failed copy error retry }
  | saved {s : Outbox} {d : Delivery} {copy : EmailMessage} : d.phase = .accepted copy →
      Did .save s d { s with message := copy.delivered s.now s.message } { d with phase := .over }
  | gaveUp {s : Outbox} {d : Delivery} {copy : EmailMessage} {error : String} {retry : Bool}
      {tasks : List ℕ} : d.phase = .failed copy error retry →
      Did .save s d { s with message := s.message.refused s.now error, tasks }
        { d with phase := .over }

section

variable {s s' : Outbox} {d d' : Delivery} {a : Delivery.Step}

theorem Delivery.did (h : d.next a s = .ok (s', d')) : Delivery.Did a s d s' d' := by
  unfold Delivery.next at h
  split at h
  · next hphase =>
    split at h
    · next hsent =>
      cases (pure_eq_ok _ _).mp h
      exact .stopped hphase hsent
    · next hunsent =>
      cases (pure_eq_ok _ _).mp h
      exact .attempted hphase hunsent
  · next hphase =>
    split at h
    · cases (pure_eq_ok _ _).mp h
      exact .refused hphase
    · split at h
      · cases (pure_eq_ok _ _).mp h
        exact .accepted hphase
      · cases (pure_eq_ok _ _).mp h
        exact .refused hphase
  · next hphase =>
    cases (pure_eq_ok _ _).mp h
    exact .saved hphase
  · next hphase =>
    cases (pure_eq_ok _ _).mp h
    exact .gaveUp hphase
  · cases h

/-- What is accepted is in flight. -/
private theorem inFlight_of_isAccepted (h : d.isAccepted = true) : d.inFlight = true := by
  unfold Delivery.isAccepted at h
  unfold Delivery.inFlight
  split at h
  · next hphase => rw [hphase]
  · cases h

variable {workers : Table Delivery} {i : ℕ}

/-- Nobody has been accepted, where all that are in flight are this one and it has not. -/
private theorem not_accepted (h : Whereabouts ⟨s, workers⟩) (hget : workers.get? i = some d)
    (hunsent : s.message.status ≠ .sent) (hd : d.isAccepted = false)
    (hothers : ∀ j c, j ≠ i → workers.get? j = some c → c.inFlight = false) : s.accepted = 0 := by
  cases hzero : s.accepted with
  | zero => rfl
  | succ n =>
    rcases h.owed (by rw [hzero]; exact nofun) with hsent | ⟨j, c, hc, haccepted⟩
    · exact absurd hsent hunsent
    · by_cases hj : j = i
      · rw [hj, hget] at hc
        cases hc
        rw [hd] at haccepted
        cases haccepted
      · have hidle := hothers j c hj hc
        rw [inFlight_of_isAccepted haccepted] at hidle
        cases hidle

/-- An email that is in flight is not sent. -/
private theorem unsent_of_inFlight (h : Whereabouts ⟨s, workers⟩) (hget : workers.get? i = some d)
    (hd : d.inFlight = true) : s.message.status ≠ .sent := by
  intro hsent
  have hidle : d.inFlight = false := (h.sent hsent).2 i d hget
  rw [hd] at hidle
  cases hidle

/-- **One step keeps the email's whereabouts**, where it is about it alone. -/
theorem Whereabouts.did (h : Whereabouts ⟨s, workers⟩) (hget : workers.get? i = some d)
    (hserial : a = .attempt → ∀ j c, j ≠ i → workers.get? j = some c → c.inFlight = false)
    (hdid : Delivery.Did a s d s' d') : Whereabouts ⟨s', workers.put i d'⟩ := by
  cases hdid with
  | stopped hphase hsent =>
    refine ⟨h.once, fun _ => ⟨(h.sent hsent).1, (h.sent hsent).2.put rfl⟩, h.alone.put hget nofun,
      h.flying.put nofun, fun _ => .inl hsent⟩
  | attempted hphase hunsent =>
    have hothers := hserial rfl
    have hzero := not_accepted h hget hunsent (by rw [Delivery.isAccepted, hphase]) hothers
    refine ⟨h.once, fun hsent => absurd hsent hunsent, h.alone.put hget fun _ => .inr hothers,
      h.flying.put fun _ => hzero, fun hne => absurd hzero hne⟩
  | @accepted _ _ copy hphase =>
    have hflying : d.inFlight = true := by rw [Delivery.inFlight, hphase]
    have hunsent := unsent_of_inFlight h hget hflying
    have hothers := h.alone.others hget hflying
    have hzero : s.accepted = 0 := by
      have hcount := h.flying i d hget hflying
      rwa [Delivery.isAccepted, hphase] at hcount
    -- nobody had accepted it before
    have hone : s.accepted + 1 = 1 := by rw [hzero]
    refine ⟨Nat.le_of_eq hone, fun hsent => absurd hsent hunsent,
      h.alone.put hget fun _ => .inr hothers, ?_,
      fun _ => .inr ⟨i, _, Table.get?_put_self hget _, rfl⟩⟩
    intro j c hc hfly
    rw [Table.get?_put hget] at hc
    split at hc
    · cases hc
      exact hone
    · next hj =>
      rw [hothers j c hj hc] at hfly
      cases hfly
  | refused hphase =>
    have hflying : d.inFlight = true := by rw [Delivery.inFlight, hphase]
    have hunsent := unsent_of_inFlight h hget hflying
    have hothers := h.alone.others hget hflying
    have hzero := not_accepted h hget hunsent (by rw [Delivery.isAccepted, hphase]) hothers
    refine ⟨h.once, fun hsent => absurd hsent hunsent, h.alone.put hget fun _ => .inr hothers,
      h.flying.put fun _ => hzero, fun hne => absurd hzero hne⟩
  | saved hphase =>
    have hflying : d.inFlight = true := by rw [Delivery.inFlight, hphase]
    have hone : s.accepted = 1 := by
      have hcount := h.flying i d hget hflying
      rwa [Delivery.isAccepted, hphase] at hcount
    refine ⟨h.once, fun _ => ⟨hone, ?_⟩, h.alone.put hget nofun, h.flying.put nofun,
      fun _ => .inl rfl⟩
    intro j c hc
    rw [Table.get?_put hget] at hc
    split at hc
    · cases hc
      rfl
    · next hj => exact h.alone.others hget hflying j c hj hc
  | gaveUp hphase =>
    have hflying : d.inFlight = true := by rw [Delivery.inFlight, hphase]
    have hunsent := unsent_of_inFlight h hget hflying
    have hzero := not_accepted h hget hunsent (by rw [Delivery.isAccepted, hphase])
      (h.alone.others hget hflying)
    exact ⟨h.once, nofun, h.alone.put hget nofun, h.flying.put nofun,
      fun hne => absurd hzero hne⟩

/-- What is sent stays sent. -/
theorem sent_of_did (h : Whereabouts ⟨s, workers⟩) (hget : workers.get? i = some d)
    (hdid : Delivery.Did a s d s' d') (hsent : s.message.status = .sent) :
    s'.message.status = .sent := by
  cases hdid with
  | stopped _ _ => exact hsent
  | attempted _ hunsent => exact absurd hsent hunsent
  | accepted _ => exact hsent
  | refused _ => exact hsent
  | saved _ => rfl
  | gaveUp hphase =>
    exact absurd hsent (unsent_of_inFlight h hget (by rw [Delivery.inFlight, hphase]))

/-- The whereabouts are about two things of the email. -/
private theorem Whereabouts.of_eq (h : Whereabouts ⟨s, workers⟩)
    (haccepted : s'.accepted = s.accepted)
    (hstatus : s'.message.status = .sent ↔ s.message.status = .sent) :
    Whereabouts ⟨s', workers⟩ where
  once := haccepted ▸ h.once
  sent := fun hsent => ⟨haccepted.trans (h.sent (hstatus.mp hsent)).1,
    (h.sent (hstatus.mp hsent)).2⟩
  alone := h.alone
  flying := fun j c hc hfly => haccepted.trans (h.flying j c hc hfly)
  owed := fun hne => (h.owed fun hzero => hne (haccepted.trans hzero)).imp hstatus.mpr id

/-- What happens around the deliveries neither sends the email nor undoes it. -/
theorem Surroundings.apply_eq_ok {c : Surroundings} (h : c.apply s = .ok s') :
    s'.accepted = s.accepted ∧ (s'.message.status = .sent ↔ s.message.status = .sent) := by
  cases c with
  | tick now =>
    obtain ⟨_, _, h⟩ := bind_eq_ok.mp h
    cases (pure_eq_ok _ _).mp h
    exact ⟨rfl, .rfl⟩
  | resend maySettings =>
    obtain ⟨_, _, h⟩ := bind_eq_ok.mp h
    obtain ⟨_, hunsent, h⟩ := bind_eq_ok.mp h
    obtain ⟨_, _, h⟩ := bind_eq_ok.mp h
    cases (pure_eq_ok _ _).mp h
    exact ⟨rfl, iff_of_false nofun (ensure_eq_ok.mp hunsent)⟩
  | sweep =>
    cases (pure_eq_ok _ _).mp h
    unfold sweepStuck
    split <;> exact ⟨rfl, .rfl⟩
  | purge =>
    cases (pure_eq_ok _ _).mp h
    unfold purgeSensitive
    split <;> exact ⟨rfl, .rfl⟩
  | redeliver retries =>
    cases (pure_eq_ok _ _).mp h
    exact ⟨rfl, .rfl⟩

end

section

variable {s s' : System Outbox Delivery} {turn : Turn ℕ Delivery.Step Surroundings}
  {out : List PUnit}

/-- **One step of a run** that keeps to the discipline keeps the email's whereabouts. -/
theorem Whereabouts.step (h : Whereabouts s) (hcommits : delivering.machine.Commits turn s s' out)
    (hserial : Serial.Respected s turn) : Whereabouts s' := by
  obtain ⟨outbox, workers⟩ := s
  obtain ⟨outbox', workers'⟩ := s'
  cases turn with
  | start retries =>
    obtain ⟨d, hstart, hworkers⟩ := Interleaving.start_eq_ok hcommits
    obtain ⟨_, _, hstart⟩ := bind_eq_ok.mp hstart
    obtain ⟨hshared, rfl⟩ := Prod.mk.inj ((pure_eq_ok _ _).mp hstart)
    dsimp only at hshared hworkers
    subst hshared hworkers
    refine ⟨h.once, fun hsent => ⟨(h.sent hsent).1, (h.sent hsent).2.insert rfl⟩,
      h.alone.insert rfl, h.flying.insert nofun, fun hne => (h.owed hne).imp id ?_⟩
    rintro ⟨i, d, hget, haccepted⟩
    exact ⟨i, d, Table.get?_insert_of_some hget, haccepted⟩
  | step i a =>
    obtain ⟨d, d', hget, hstep, hworkers⟩ := Interleaving.step_eq_ok hcommits
    dsimp only at hget hstep hworkers
    subst hworkers
    exact h.did hget (fun hattempt j c hj hc => hserial d hget j c hj hc hattempt)
      (Delivery.did hstep)
  | outside c =>
    obtain ⟨houtside, hworkers⟩ := Interleaving.outside_eq_ok hcommits
    dsimp only at houtside hworkers
    subst hworkers
    obtain ⟨haccepted, hstatus⟩ := Surroundings.apply_eq_ok houtside
    exact h.of_eq haccepted hstatus

/-- The email stays sent in each of its steps. -/
theorem Whereabouts.stays_sent (h : Whereabouts s)
    (hcommits : delivering.machine.Commits turn s s' out)
    (hsent : s.shared.message.status = .sent) :
    s'.shared.message.status = .sent := by
  cases turn with
  | start retries =>
    obtain ⟨d, hstart, -⟩ := Interleaving.start_eq_ok hcommits
    obtain ⟨_, _, hstart⟩ := bind_eq_ok.mp hstart
    obtain ⟨hshared, -⟩ := Prod.mk.inj ((pure_eq_ok _ _).mp hstart)
    rw [← hshared]
    exact hsent
  | step i a =>
    obtain ⟨d, d', hget, hstep, -⟩ := Interleaving.step_eq_ok hcommits
    exact sent_of_did h hget (Delivery.did hstep) hsent
  | outside c =>
    obtain ⟨houtside, -⟩ := Interleaving.outside_eq_ok hcommits
    exact (Surroundings.apply_eq_ok houtside).2.mpr hsent

end

/-- The email in each state of a run, and what is sent in each step. -/
def DeliveredOnce (turns : List (Turn ℕ Delivery.Step Surroundings))
    (s : System Outbox Delivery) : Prop :=
  delivering.machine.Always (fun s => s.shared.accepted ≤ 1) turns s
    ∧ delivering.machine.EachStep
      (fun s _ s' => s.shared.message.status = .sent → s'.shared.message.status = .sent) turns s

/-- **An email is delivered once**: in a run in which deliveries do not overlap, the mail server
    accepts it at most once, and once it is sent it stays sent. -/
theorem delivered_once (turns : List (Turn ℕ Delivery.Step Surroundings)) (outbox : Outbox)
    (hunsent : outbox.message.status ≠ .sent) (hfresh : outbox.accepted = 0)
    (hserial : delivering.machine.EachStep (fun s turn _ => Serial.Respected s turn) turns
      ⟨outbox, {}⟩) : DeliveredOnce turns ⟨outbox, {}⟩ := by
  have hstart : Whereabouts ⟨outbox, {}⟩ :=
    ⟨by rw [hfresh]; exact Nat.zero_le 1, fun hsent => absurd hsent hunsent, .empty, .empty,
      fun hne => absurd hfresh hne⟩
  refine ⟨?_, ?_⟩
  · exact Machine.always_of_eachStep (m := delivering.machine) (I := Whereabouts)
      (fun _ h => h.once) (fun _ _ _ _ h hcommits hstep => h.step hcommits hstep) turns _ hstart
      hserial
  · exact Machine.eachStep_of_eachStep (m := delivering.machine) (I := Whereabouts)
      (fun _ _ _ _ h hcommits hstep => h.step hcommits hstep)
      (fun _ _ _ _ h hcommits _ => h.stays_sent hcommits) turns _ hstart hserial

/-- An email that was just recorded. -/
def recorded : Outbox := { now := 0, message := { createdAt := 0, updatedAt := 0 } }

/-- The server refuses it, the task is retried, and the server accepts it. -/
theorem delivered_once_retried : DeliveredOnce
    [.start 0, .step 0 .attempt, .step 0 (.send (some ("SMTPServerDisconnected: ", true))),
      .step 0 .save, .start 1, .step 1 .attempt, .step 1 (.send none), .step 1 .save]
    ⟨recorded, {}⟩ :=
  delivered_once _ recorded (by decide) rfl (Machine.eachStep_of_trace (by decide +kernel))

/-- An email that waited more than ten minutes for a worker: its task and the one that the sweep has
    added run at once. -/
def sweptWhileQueued (refusal : Option (String × Bool)) :
    List (Turn ℕ Delivery.Step Surroundings) :=
  [.outside (.tick 601), .outside .sweep, .start 0, .start 0, .step 0 .attempt, .step 1 .attempt,
    .step 0 (.send none), .step 1 (.send refusal), .step 0 .save]

/-- **A delivery and the one that the sweep started send the email twice**; and the one that is
    refused writes `FAILED` over `SENT`. -/
theorem not_delivered_once :
    ¬DeliveredOnce (sweptWhileQueued none) ⟨recorded, {}⟩
    ∧ ¬DeliveredOnce (sweptWhileQueued (some ("SMTPServerDisconnected: ", true)) ++
      [Turn.step 1 Delivery.Step.save])
      ⟨recorded, {}⟩ := by
  constructor
  · intro h
    have htwice : ¬(delivering.machine.run (sweptWhileQueued none)
        ⟨recorded, {}⟩).shared.accepted ≤ 1 := by decide +kernel
    exact htwice h.1.last
  · intro h
    have hsent : (delivering.machine.run
        (sweptWhileQueued (some ("SMTPServerDisconnected: ", true)))
        ⟨recorded, {}⟩).shared.message.status
          = .sent := by decide +kernel
    have hfailed : (delivering.machine.next (.step 1 .save) (delivering.machine.run
        (sweptWhileQueued (some ("SMTPServerDisconnected: ", true)))
        ⟨recorded, {}⟩)).shared.message.status
          = .failed := by decide +kernel
    have hstays := h.2.last (by decide +kernel) hsent
    rw [hfailed] at hstays
    cases hstays

end WPanel.Notifications
