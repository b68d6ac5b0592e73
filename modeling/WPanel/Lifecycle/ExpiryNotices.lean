import WPanel.Lib.Interleaving
import WPanel.Renewals.Models

namespace WPanel.Lifecycle.ExpiryNotices

open WPanel.Lib WPanel.Renewals

/-!
# Warnings that something runs out

`send_expiry_notices` of `lifecycle/expiry_notices.py`: before a domain, a hosting plan or a
certificate ends, its customer is told, once for each step of days that is left.  The record that
keeps a second run from repeating a warning is written before the warning is sent.

Runs interleave, each at its own time, and can end at any point; staff and renewals change the
services in between.  Instants are in microseconds, and `date` writes a day as the subject of a
record names it.  The texts of the warnings are left out.

* `Run.next` — what a run does next: one query, one question to a server, one record or one
  sending;
* `warning` — the runs, in any order;
* `Sound` — the steps of each warning go down, what is recorded was sent, and a failure keeps
  nobody else from being warned;
* `Careful` — no sending fails or is cut short, and of each thing a run records fewer days than
  were recorded before, while no other run is still sending;
* `warned_once` — every careful run is sound.
-/

/-- `STEPS`. -/
def steps : List ℕ := [30, 14, 7, 1]

/-- `SSL_STEPS`. -/
def sslSteps : List ℕ := [14, 7]

/-- `SSL_ACCOUNTS_PER_RUN`. -/
def sslAccountsPerRun : ℕ := 200

/-- `_step`: the smallest step that was reached. -/
def step (daysLeft : ℤ) (steps : List ℕ) : Option ℕ :=
  (steps.filter fun (s : ℕ) => daysLeft ≤ s).min?

/-- `Domain` and `HostingAccount`, as far as a run reads them. -/
structure ServiceRow where
  pk : ℕ
  isActive : Bool
  expiresAt : Option ℤ
  deriving DecidableEq, Repr

/-- What a server says about a certificate. -/
structure Certificate where
  domain : String
  status : String
  daysLeft : Option ℤ
  expiresAt : Option String
  deriving DecidableEq, Repr

/-- What a warning is about: something, and the day it ends on. -/
inductive Thing where
  | domain (pk : ℕ) (day : ℤ)
  | hosting (pk : ℕ) (day : ℤ)
  | certificate (account : ℕ) (name ends : String)
  deriving DecidableEq, Repr

/-- The steps at which it is warned of. -/
def Thing.steps : Thing → List ℕ
  | .domain _ _ => ExpiryNotices.steps
  | .hosting _ _ => ExpiryNotices.steps
  | .certificate _ _ _ => sslSteps

/-- `ExpiryNotice`; how many days were left is noted for the record only. -/
structure Notice where
  subject : String
  step : ℕ
  days : ℤ
  deriving DecidableEq, Repr

/-- A warning that went out. -/
structure Warning where
  thing : Thing
  step : ℕ
  deriving DecidableEq, Repr

/-- The services there are: the domains by name, and the hosting accounts, newest first. -/
structure Services where
  domains : List ServiceRow := []
  accounts : List ServiceRow := []
  deriving DecidableEq, Repr

/-- The records, the warnings that went out, and when the latest run started. -/
structure Panel where
  services : Services := {}
  clock : ℤ := 0
  notices : List Notice := []
  sent : List Warning := []
  deriving DecidableEq, Repr

/-- What a run still has to do. -/
inductive Task where
  | domains
  | hosting
  | certificates
  /-- Ask the server of an account about its certificates. -/
  | ask (account : ℕ)
  | visit (thing : Thing) (days : ℤ)
  deriving DecidableEq, Repr

inductive RunState where
  | going
  | raised
  | killed
  deriving DecidableEq, Repr

/-- A run: the time it is for, the warning it is sending, and what comes after that. -/
structure Run where
  now : ℤ
  todo : List Task := [.domains, .hosting, .certificates]
  sending : Option (Thing × ℕ) := none
  state : RunState := .going
  deriving DecidableEq, Repr

/-- What happens next in a run. -/
inductive Act where
  | go
  /-- The server answers. -/
  | rows (rows : List Certificate)
  /-- The server cannot report certificates, or does not answer. -/
  | silent
  | sent
  | failed
  | kill
  deriving DecidableEq, Repr

/-! ### One run -/

/-- The days that are left, where it ends within the longest step. -/
def daysLeft (now : ℤ) (expiresAt : ℤ) : Option ℤ :=
  if now < expiresAt ∧ expiresAt ≤ now + steps.max?.getD 0 * microsPerDay then
    some (max ((expiresAt - now) / microsPerDay) 0)
  else none

/-- The services that end soon. -/
def visits (thing : ℕ → ℤ → Thing) (now : ℤ) (rows : List ServiceRow) : List Task :=
  (rows.filter (·.isActive)).filterMap fun row => row.expiresAt.bind fun expiresAt =>
    (daysLeft now expiresAt).map (.visit (thing row.pk (expiresAt / microsPerDay)))

def domainVisits : ℤ → List ServiceRow → List Task := visits .domain

def hostingVisits : ℤ → List ServiceRow → List Task := visits .hosting

/-- The accounts whose servers are asked. -/
def questions (rows : List ServiceRow) : List Task :=
  ((rows.filter (·.isActive)).take sslAccountsPerRun).map fun row => .ask row.pk

/-- The certificates that end soon. -/
def certificateVisits (account : ℕ) (rows : List Certificate) : List Task :=
  (rows.filter fun row => row.status = "expiring" ∨ row.status = "expired").filterMap fun row =>
    (row.daysLeft.filter (0 ≤ ·)).map
      (.visit (.certificate account row.domain (clip 10 (row.expiresAt.getD ""))))

variable (date : ℤ → String)

/-- The subject under which a warning is recorded. -/
def Thing.subject : Thing → String
  | .domain pk day => "domain:" ++ toString pk ++ ":" ++ date day
  | .hosting pk day => "hosting:" ++ toString pk ++ ":" ++ date day
  | .certificate account name ends => "ssl:" ++ toString account ++ ":" ++ name ++ ":" ++ ends

/-- The length of `ExpiryNotice.subject`. -/
def subjectLength : ℕ := 200

/-- The warning is recorded. -/
def Panel.Recorded (panel : Panel) (subject : String) (reached : ℕ) : Prop :=
  ∃ notice ∈ panel.notices, notice.subject = subject ∧ notice.step = reached

instance (panel : Panel) (subject : String) (reached : ℕ) :
    Decidable (panel.Recorded subject reached) :=
  inferInstanceAs (Decidable (∃ notice ∈ panel.notices, _))

/-- `_once`: a subject that is too long for its column raises; a warning that is recorded is not
    recorded again. -/
def once (subject : String) (reached : ℕ) (days : ℤ) (panel : Panel) :
    Except Err (Option Panel) := do
  ensure (subject.length ≤ subjectLength)
    (.unexpected "value too long for type character varying(200)")
  if panel.Recorded subject reached then return none
  return some { panel with notices := panel.notices ++ [⟨subject, reached, days⟩] }

/-- A run comes to a thing. -/
def Run.visit (thing : Thing) (days : ℤ) (panel : Panel) (run : Run) : Panel × Run :=
  match step days thing.steps with
  | none => (panel, run)
  | some reached =>
    match once (thing.subject date) reached days panel with
    | .error _ => (panel, { run with state := .raised })
    | .ok none => (panel, run)
    | .ok (some panel) => (panel, { run with sending := some (thing, reached) })

/-- A run takes its next task. -/
def Run.go (panel : Panel) (run : Run) (rest : List Task) : Task → Except Err (Panel × Run)
  | .domains =>
    .ok (panel, { run with todo := domainVisits run.now panel.services.domains ++ rest })
  | .hosting =>
    .ok (panel, { run with todo := hostingVisits run.now panel.services.accounts ++ rest })
  | .certificates => .ok (panel, { run with todo := questions panel.services.accounts ++ rest })
  | .ask _ => .error (.unexpected "the server has not answered")
  | .visit thing days => .ok ({ run with todo := rest }.visit date thing days panel)

/-- What the server of an account says. -/
def Run.told (run : Run) (rest : List Task) (rows : List Certificate) : Task → Except Err Run
  | .ask account => .ok { run with todo := certificateVisits account rows ++ rest }
  | _ => .error (.unexpected "no server was asked")

def Run.next (a : Act) (panel : Panel) (run : Run) : Except Err (Panel × Run) := do
  ensure (run.state = .going) (.unexpected "the run is over")
  match a, run.sending, run.todo with
  | .kill, _, _ => return (panel, { run with state := .killed })
  | .sent, some (thing, reached), _ =>
    return ({ panel with sent := panel.sent ++ [⟨thing, reached⟩] }, { run with sending := none })
  | .failed, some _, _ => return (panel, { run with sending := none, state := .raised })
  | .go, none, task :: rest => run.go date panel rest task
  | .rows rows, none, task :: rest => return (panel, ← run.told rest rows task)
  | .silent, none, task :: rest => return (panel, ← run.told rest [] task)
  | _, _, _ => .error (.unexpected "the run is elsewhere")

/-- The runs, at times that do not go back, while the services change. -/
def warning : Interleaving Panel Run ℤ Act Services Err where
  start now panel := do
    ensure (panel.clock ≤ now) (.unexpected "time does not go back")
    return ({ panel with clock := now }, { now })
  step a panel run := run.next date a panel
  outside services panel := .ok { panel with services }
  absent := .unexpected "there is no such run"

/-! ### What is promised -/

/-- The run is sending a warning that is recorded under the subject. -/
def Run.sends (subject : String) (run : Run) : Option ℕ :=
  if run.state = .going then
    (run.sending.filter fun warning => warning.1.subject date = subject).map Prod.snd
  else none

/-- **The steps of the warnings of each thing go down; what is recorded was sent, or is being sent;
    and a run that failed has left nobody out.** -/
structure Sound (s : System Panel Run) : Prop where
  decreasing : ∀ thing, ((s.shared.sent.filter (·.thing = thing)).map (·.step)).Pairwise (· > ·)
  recorded : ∀ notice ∈ s.shared.notices,
    (∃ warning ∈ s.shared.sent,
      warning.thing.subject date = notice.subject ∧ warning.step = notice.step)
    ∨ ∃ i run, s.workers.get? i = some run ∧ run.sends date notice.subject = some notice.step
  others : ∀ i run, s.workers.get? i = some run → run.state = .raised → run.todo = []

/-- A thing can be visited: its subject fits; and where its step is not recorded, no more days are
    left than at its other steps, and no run is still sending a warning about it. -/
def MayVisit (s : System Panel Run) (thing : Thing) (days : ℤ) : Prop :=
  ∀ reached ∈ step days thing.steps, (thing.subject date).length ≤ subjectLength
    ∧ (s.shared.Recorded (thing.subject date) reached
      ∨ (∀ notice ∈ s.shared.notices, notice.subject = thing.subject date → days ≤ notice.days)
        ∧ ∀ entry ∈ s.workers.entries, entry.2.sends date (thing.subject date) = none)

instance (s : System Panel Run) (thing : Thing) (days : ℤ) :
    Decidable (MayVisit date s thing days) :=
  inferInstanceAs (Decidable (∀ reached ∈ step days thing.steps, _))

def Task.Careful (s : System Panel Run) : Task → Prop
  | .visit thing days => MayVisit date s thing days
  | _ => True

instance (s : System Panel Run) (task : Task) : Decidable (task.Careful date s) :=
  match task with
  | .visit thing days => inferInstanceAs (Decidable (MayVisit date s thing days))
  | .domains => isTrue trivial
  | .hosting => isTrue trivial
  | .certificates => isTrue trivial
  | .ask _ => isTrue trivial

/-- No sending fails, and none is cut short. -/
def Act.Careful (s : System Panel Run) (run : Run) : Act → Prop
  | .go => ∀ task ∈ run.todo.head?, task.Careful date s
  | .failed => False
  | .kill => run.sending = none
  | _ => True

instance (s : System Panel Run) (run : Run) (a : Act) : Decidable (a.Careful date s run) :=
  match a with
  | .go => inferInstanceAs (Decidable (∀ task ∈ run.todo.head?, task.Careful date s))
  | .failed => isFalse id
  | .kill => inferInstanceAs (Decidable (run.sending = none))
  | .rows _ => isTrue trivial
  | .silent => isTrue trivial
  | .sent => isTrue trivial

/-- **No sending fails or is cut short; and of each thing a run records fewer days than were
    recorded before, while no other run is still sending.** -/
def Careful (s : System Panel Run) : Turn ℤ Act Services → Prop
  | .step i a => ∀ run ∈ s.workers.get? i, a.Careful date s run
  | _ => True

instance (s : System Panel Run) (turn : Turn ℤ Act Services) : Decidable (Careful date s turn) :=
  match turn with
  | .start _ => isTrue trivial
  | .step i a => inferInstanceAs (Decidable (∀ run ∈ s.workers.get? i, a.Careful date s run))
  | .outside _ => isTrue trivial

section

variable {date} {panel panel' : Panel} {run run' : Run} {a : Act} {thing thing' : Thing}
  {days days' : ℤ} {reached reached' i : ℕ} {subject : String} {workers : Table Run}
  {s s' : System Panel Run}

/-! ### The steps -/

theorem step_eq_some {list : List ℕ} (h : step days list = some reached) :
    (reached ∈ list ∧ days ≤ reached) ∧ ∀ other ∈ list, days ≤ other → reached ≤ other := by
  obtain ⟨hmem, hleast⟩ := List.min?_eq_some_iff.mp h
  refine ⟨by simpa using hmem, fun other hother hdays => ?_⟩
  exact hleast other (by simpa using ⟨hother, hdays⟩)

/-- Where fewer days are left, the step is no larger. -/
theorem step_mono {list : List ℕ} (h : step days list = some reached)
    (h' : step days' list = some reached') (hdays : days ≤ days') : reached ≤ reached' := by
  obtain ⟨⟨hmem, hle⟩, -⟩ := step_eq_some h'
  exact (step_eq_some h).2 reached' hmem (hdays.trans hle)

/-- The subject says which steps there are. -/
theorem steps_eq_of_subject (h : thing.subject date = thing'.subject date) :
    thing.steps = thing'.steps := by
  have hhead := congrArg (fun s : String => s.toList.head?) h
  cases thing <;> cases thing' <;> first | rfl | skip
  all_goals
    revert hhead
    simp [Thing.subject, String.toList_append]

/-! ### What a step of a run does -/

/-- What the next step of a run does: nothing that counts, a subject that is too long, a record, a
    warning, or a warning that is lost. -/
inductive Run.Did (date : ℤ → String) : Act → Panel → Run → Panel → Run → Prop
  | quiet {a : Act} {panel : Panel} {run run' : Run} : run.sending = none → run'.sending = none →
      run'.state ≠ .raised → Did date a panel run panel run'
  | overlong {panel : Panel} {run run' : Run} {thing : Thing} {days : ℤ} {reached : ℕ}
      {rest : List Task} : run.todo = .visit thing days :: rest →
      step days thing.steps = some reached → ¬(thing.subject date).length ≤ subjectLength →
      Did date .go panel run panel run'
  | recorded {panel : Panel} {run : Run} {thing : Thing} {days : ℤ} {reached : ℕ}
      {rest : List Task} : run.state = .going → run.sending = none →
      run.todo = .visit thing days :: rest → step days thing.steps = some reached →
      ¬panel.Recorded (thing.subject date) reached →
      Did date .go panel run
        { panel with notices := panel.notices ++ [⟨thing.subject date, reached, days⟩] }
        { run with todo := rest, sending := some (thing, reached) }
  | sent {panel : Panel} {run : Run} {thing : Thing} {reached : ℕ} : run.state = .going →
      run.sending = some (thing, reached) →
      Did date .sent panel run { panel with sent := panel.sent ++ [⟨thing, reached⟩] }
        { run with sending := none }
  | lost {a : Act} {panel : Panel} {run run' : Run} {thing : Thing} {reached : ℕ} :
      run.state = .going → run.sending = some (thing, reached) → (a = .failed ∨ a = .kill) →
      run'.state ≠ .going → Did date a panel run panel run'

/-- A run that comes to a thing. -/
theorem Run.did_visit {rest : List Task} (hstate : run.state = .going)
    (hsending : run.sending = none) (htodo : run.todo = .visit thing days :: rest)
    (h : Run.visit date thing days panel { run with todo := rest } = (panel', run')) :
    Run.Did date .go panel run panel' run' := by
  unfold Run.visit once at h
  have hgoing : run.state ≠ .raised := by rw [hstate]; decide
  cases hstep : step days thing.steps with
  | none =>
    rw [hstep] at h
    obtain ⟨rfl, rfl⟩ := Prod.mk.inj h
    exact .quiet hsending hsending hgoing
  | some reached =>
    rw [hstep] at h
    dsimp only at h
    by_cases hlength : (thing.subject date).length ≤ subjectLength
    · by_cases hrecorded : panel.Recorded (thing.subject date) reached
      · simp only [ensure, if_pos hlength, if_pos hrecorded, ok_bind] at h
        obtain ⟨rfl, rfl⟩ := Prod.mk.inj h
        exact .quiet hsending hsending hgoing
      · simp only [ensure, if_pos hlength, if_neg hrecorded, ok_bind] at h
        obtain ⟨rfl, rfl⟩ := Prod.mk.inj h
        exact .recorded hstate hsending htodo hstep hrecorded
    · simp only [ensure, if_neg hlength, error_bind] at h
      obtain ⟨rfl, rfl⟩ := Prod.mk.inj h
      exact .overlong htodo hstep hlength

theorem Run.told_quiet {rest : List Task} {rows : List Certificate} {task : Task}
    (h : run.told rest rows task = .ok run') :
    run'.sending = run.sending ∧ run'.state = run.state := by
  unfold Run.told at h
  split at h
  · cases h
    exact ⟨rfl, rfl⟩
  · cases h

theorem Run.did (h : run.next date a panel = .ok (panel', run')) :
    Run.Did date a panel run panel' run' := by
  unfold Run.next at h
  simp only [bind_eq_ok, ensure_eq_ok, exists_and_left, exists_const] at h
  obtain ⟨hstate, h⟩ := h
  have hgoing : run.state ≠ .raised := by rw [hstate]; decide
  split at h
  · -- killed: nothing is lost unless a warning was being sent
    cases h
    cases hsending : run.sending with
    | none => exact .quiet hsending rfl (show RunState.killed ≠ .raised by decide)
    | some warning =>
      exact .lost hstate hsending (.inr rfl) (show RunState.killed ≠ .going by decide)
  · next hsending =>
    cases h
    exact .sent hstate hsending
  · next warning hsending =>
    cases h
    exact .lost hstate hsending (.inl rfl) (show RunState.raised ≠ .going by decide)
  · next task rest hsending htodo =>
    unfold Run.go at h
    cases task with
    | domains => cases h; exact .quiet hsending hsending hgoing
    | hosting => cases h; exact .quiet hsending hsending hgoing
    | certificates => cases h; exact .quiet hsending hsending hgoing
    | ask account => cases h
    | visit thing days => exact Run.did_visit hstate hsending htodo (Except.ok.inj h)
  · next rows task rest hsending htodo =>
    simp only [bind_eq_ok, pure_eq_ok] at h
    obtain ⟨told, htold, h⟩ := h
    cases h
    obtain ⟨hsending', hstate'⟩ := Run.told_quiet htold
    exact .quiet hsending (hsending'.trans hsending) (hstate' ▸ hgoing)
  · next task rest hsending htodo =>
    simp only [bind_eq_ok, pure_eq_ok] at h
    obtain ⟨told, htold, h⟩ := h
    cases h
    obtain ⟨hsending', hstate'⟩ := Run.told_quiet htold
    exact .quiet hsending (hsending'.trans hsending) (hstate' ▸ hgoing)
  · cases h

/-! ### What is recorded, and what was sent -/

/-- The steps recorded under a subject, in order. -/
def Panel.recordedSteps (panel : Panel) (subject : String) : List ℕ :=
  (panel.notices.filter (·.subject = subject)).map (·.step)

/-- The steps of the warnings sent under a subject, in order. -/
def Panel.sentSteps (date : ℤ → String) (panel : Panel) (subject : String) : List ℕ :=
  (panel.sent.filter (·.thing.subject date = subject)).map (·.step)

/-- What is recorded under a subject was sent, but for the last step where a run is sending it. -/
def Settled (date : ℤ → String) (s : System Panel Run) (subject : String) : Prop :=
  (s.shared.recordedSteps subject = s.shared.sentSteps date subject
    ∧ s.workers.Forall fun _ run => run.sends date subject = none)
  ∨ ∃ i run reached, s.workers.get? i = some run ∧ run.sends date subject = some reached
    ∧ s.shared.recordedSteps subject = s.shared.sentSteps date subject ++ [reached]
    ∧ ∀ j other, j ≠ i → s.workers.get? j = some other → other.sends date subject = none

theorem mem_recordedSteps : reached ∈ panel.recordedSteps subject ↔
    panel.Recorded subject reached := by
  simp [Panel.recordedSteps, Panel.Recorded, and_assoc]

theorem mem_sentSteps : reached ∈ panel.sentSteps date subject ↔
    ∃ warning ∈ panel.sent, warning.thing.subject date = subject ∧ warning.step = reached := by
  simp [Panel.sentSteps, and_assoc]

theorem recordedSteps_append (notice : Notice)
    (h : panel'.notices = panel.notices ++ [notice]) :
    panel'.recordedSteps subject = panel.recordedSteps subject
      ++ if notice.subject = subject then [notice.step] else [] := by
  unfold Panel.recordedSteps
  rw [h, List.filter_append, List.map_append]
  by_cases hsubject : notice.subject = subject <;> simp [hsubject]

theorem sentSteps_append (warning : Warning) (h : panel'.sent = panel.sent ++ [warning]) :
    panel'.sentSteps date subject = panel.sentSteps date subject
      ++ if warning.thing.subject date = subject then [warning.step] else [] := by
  unfold Panel.sentSteps
  rw [h, List.filter_append, List.map_append]
  by_cases hsubject : warning.thing.subject date = subject <;> simp [hsubject]

@[simp] theorem sends_of_idle (h : run.sending = none) : run.sends date subject = none := by
  unfold Run.sends
  rw [h]
  split <;> rfl

theorem sends_of_over (h : run.state ≠ .going) : run.sends date subject = none := if_neg h

theorem sends_of_sending (hstate : run.state = .going) (h : run.sending = some (thing, reached)) :
    run.sends date subject = if thing.subject date = subject then some reached else none := by
  unfold Run.sends
  rw [if_pos hstate, h]
  by_cases hsubject : thing.subject date = subject <;> simp [hsubject, Option.filter]

/-- A step that changes nothing about a subject leaves it settled. -/
theorem Settled.put (h : Settled date ⟨panel, workers⟩ subject)
    (hget : workers.get? i = some run) (hsends : run'.sends date subject = run.sends date subject)
    (hrecorded : panel'.recordedSteps subject = panel.recordedSteps subject)
    (hsent : panel'.sentSteps date subject = panel.sentSteps date subject) :
    Settled date ⟨panel', workers.put i run'⟩ subject := by
  rcases h with ⟨heq, hnone⟩ | ⟨k, sender, reached, hk, hsending, heq, hothers⟩
  · exact .inl ⟨hrecorded.trans (heq.trans hsent.symm), hnone.put (hsends.trans (hnone i run hget))⟩
  · have heq' : panel'.recordedSteps subject = panel'.sentSteps date subject ++ [reached] := by
      rw [hrecorded, hsent]
      exact heq
    right
    by_cases hki : k = i
    · subst hki
      obtain rfl : run = sender := Option.some.inj (hget.symm.trans hk)
      refine ⟨k, run', reached, Table.get?_put_self hget run', hsends.trans hsending, heq',
        fun j other hj hother => ?_⟩
      rw [Table.get?_put_of_ne hj] at hother
      exact hothers j other hj hother
    · refine ⟨k, sender, reached, (Table.get?_put_of_ne hki run').trans hk, hsending, heq',
        fun j other hj hother => ?_⟩
      rw [Table.get?_put hget] at hother
      split at hother
      · cases hother
        rw [hsends]
        exact hothers i run (Ne.symm hki) hget
      · exact hothers j other hj hother

/-- The run that is sending under a subject is the one. -/
theorem Settled.of_sends (h : Settled date ⟨panel, workers⟩ subject)
    (hget : workers.get? i = some run) (hsends : run.sends date subject = some reached) :
    panel.recordedSteps subject = panel.sentSteps date subject ++ [reached]
      ∧ ∀ j other, j ≠ i → workers.get? j = some other → other.sends date subject = none := by
  rcases h with ⟨-, hnone⟩ | ⟨k, sender, reached', hk, hsending, heq, hothers⟩
  · rw [hnone i run hget] at hsends
    cases hsends
  · by_cases hik : i = k
    · subst hik
      obtain rfl : run = sender := Option.some.inj (hget.symm.trans hk)
      obtain rfl := Option.some.inj (hsends.symm.trans hsending)
      exact ⟨heq, hothers⟩
    · rw [hothers i run hik hget] at hsends
      cases hsends

/-! ### What careful runs keep -/

/-- Every record is of a step that was reached; the steps under a subject go down; what is recorded
    was sent, or is being sent; and no run has failed. -/
structure Kept (date : ℤ → String) (s : System Panel Run) : Prop where
  named : ∀ notice ∈ s.shared.notices, ∃ thing : Thing, thing.subject date = notice.subject
    ∧ step notice.days thing.steps = some notice.step
  decreasing : ∀ subject, (s.shared.recordedSteps subject).Pairwise (· > ·)
  settled : ∀ subject, Settled date s subject
  unraised : s.workers.Forall fun _ run => run.state ≠ .raised

/-- A new step of a thing is recorded. -/
theorem Kept.recorded {rest : List Task} (h : Kept date ⟨panel, workers⟩)
    (hget : workers.get? i = some run) (hstate : run.state = .going) (hsending : run.sending = none)
    (hstep : step days thing.steps = some reached)
    (hnew : ¬panel.Recorded (thing.subject date) reached)
    (hdays : ∀ notice ∈ panel.notices, notice.subject = thing.subject date → days ≤ notice.days)
    (hidle : ∀ entry ∈ workers.entries, entry.2.sends date (thing.subject date) = none) :
    Kept date ⟨{ panel with notices := panel.notices ++ [⟨thing.subject date, reached, days⟩] },
      workers.put i { run with todo := rest, sending := some (thing, reached) }⟩ := by
  have hsends : ∀ subject, Run.sends date subject
      { run with todo := rest, sending := some (thing, reached) }
        = if thing.subject date = subject then some reached else none :=
    fun subject => sends_of_sending hstate rfl
  have hrecorded := fun subject => @recordedSteps_append panel
    { panel with notices := panel.notices ++ [⟨thing.subject date, reached, days⟩] } subject
    ⟨thing.subject date, reached, days⟩ rfl
  refine ⟨fun notice hnotice => ?_, fun subject => ?_, fun subject => ?_,
    h.unraised.put (by rw [hstate]; decide)⟩
  · rcases List.mem_append.mp hnotice with hnotice | hnotice
    · exact h.named notice hnotice
    · obtain rfl := List.mem_singleton.mp hnotice
      exact ⟨thing, rfl, hstep⟩
  · show Panel.recordedSteps _ subject |>.Pairwise _
    rw [hrecorded]
    refine List.pairwise_append.mpr ⟨h.decreasing subject, ?_, ?_⟩
    · split
      · exact List.pairwise_singleton _ _
      · exact .nil
    · intro earlier hearlier last hlast
      split at hlast
      · next hsubject =>
        obtain rfl : reached = last := (List.mem_singleton.mp hlast).symm
        -- fewer days are left than at the earlier step, and that step is another one
        obtain ⟨notice, hnotice, hnamed, rfl⟩ := mem_recordedSteps.mp hearlier
        have hsame : notice.subject = thing.subject date := hnamed.trans hsubject.symm
        obtain ⟨thing', hthing', hstep'⟩ := h.named notice hnotice
        rw [steps_eq_of_subject (hthing'.trans hsame)] at hstep'
        have hle := step_mono hstep hstep' (hdays notice hnotice hsame)
        have hne : notice.step ≠ reached := fun heq => hnew ⟨notice, hnotice, hsame, heq⟩
        show reached < notice.step
        omega
      · cases hlast
  · by_cases hsubject : thing.subject date = subject
    · subst hsubject
      have hnone : ∀ j other, workers.get? j = some other →
          other.sends date (thing.subject date) = none :=
        fun j other hother => hidle (j, other) (Table.mem_entries.mpr hother)
      have heq : panel.recordedSteps (thing.subject date)
          = panel.sentSteps date (thing.subject date) := by
        rcases h.settled (thing.subject date) with ⟨heq, -⟩ | ⟨k, sender, _, hk, hsender, -⟩
        · exact heq
        · rw [hnone k sender hk] at hsender
          cases hsender
      refine .inr ⟨i, _, reached, Table.get?_put_self hget _, (hsends _).trans (if_pos rfl), ?_,
        fun j other hj hother => ?_⟩
      · rw [hrecorded, if_pos rfl, heq]
        rfl
      · rw [Table.get?_put_of_ne hj] at hother
        exact hnone j other hother
    · refine (h.settled subject).put hget ?_ ?_ rfl
      · rw [hsends, if_neg hsubject, sends_of_idle hsending]
      · rw [hrecorded, if_neg hsubject, List.append_nil]

/-- A warning goes out. -/
theorem Kept.sent (h : Kept date ⟨panel, workers⟩) (hget : workers.get? i = some run)
    (hstate : run.state = .going) (hsending : run.sending = some (thing, reached)) :
    Kept date ⟨{ panel with sent := panel.sent ++ [⟨thing, reached⟩] },
      workers.put i { run with sending := none }⟩ := by
  have hsent := fun subject => @sentSteps_append date panel
    { panel with sent := panel.sent ++ [⟨thing, reached⟩] } subject ⟨thing, reached⟩ rfl
  refine ⟨h.named, h.decreasing, fun subject => ?_, h.unraised.put (by rw [hstate]; decide)⟩
  by_cases hsubject : thing.subject date = subject
  · have hsends : run.sends date subject = some reached := by
      rw [sends_of_sending hstate hsending, if_pos hsubject]
    obtain ⟨heq, hothers⟩ := (h.settled subject).of_sends hget hsends
    refine .inl ⟨?_, fun j other hother => ?_⟩
    · rw [hsent, if_pos hsubject]
      exact heq
    · rw [Table.get?_put hget] at hother
      split at hother
      · cases hother
        exact sends_of_idle rfl
      · next hj => exact hothers j other hj hother
  · refine (h.settled subject).put hget ?_ rfl ?_
    · rw [sends_of_idle rfl, sends_of_sending hstate hsending, if_neg hsubject]
    · rw [hsent, if_neg hsubject, List.append_nil]

theorem Act.mayVisit_of_careful {rest : List Task} (h : Act.Careful date s run .go)
    (htodo : run.todo = .visit thing days :: rest) : MayVisit date s thing days :=
  h (.visit thing days) (by rw [htodo]; rfl)

/-- **A careful step of a run keeps it all.** -/
theorem Kept.did (h : Kept date ⟨panel, workers⟩) (hget : workers.get? i = some run)
    (hdid : Run.Did date a panel run panel' run')
    (hcareful : a.Careful date ⟨panel, workers⟩ run) : Kept date ⟨panel', workers.put i run'⟩ := by
  cases hdid with
  | quiet hsending hsending' hstate =>
    refine ⟨h.named, h.decreasing, fun subject => ?_, h.unraised.put hstate⟩
    refine (h.settled subject).put hget ?_ rfl rfl
    rw [sends_of_idle hsending, sends_of_idle hsending']
  | overlong htodo hstep hlength =>
    have hmay := Act.mayVisit_of_careful hcareful htodo
    exact absurd (hmay _ hstep).1 hlength
  | recorded hstate hsending htodo hstep hnew =>
    have hmay := Act.mayVisit_of_careful hcareful htodo
    obtain ⟨hdays, hidle⟩ := (hmay _ hstep).2.resolve_left hnew
    exact h.recorded hget hstate hsending hstep hnew hdays hidle
  | sent hstate hsending => exact h.sent hget hstate hsending
  | lost hstate hsending hact _ =>
    rcases hact with rfl | rfl
    · exact hcareful.elim
    · cases hsending.symm.trans hcareful

theorem Kept.step {turn : Turn ℤ Act Services} {out : List PUnit} (h : Kept date s)
    (hcommits : (warning date).machine.Commits turn s s' out) (hcareful : Careful date s turn) :
    Kept date s' := by
  obtain ⟨panel, workers⟩ := s
  obtain ⟨panel', workers'⟩ := s'
  cases turn with
  | start now =>
    obtain ⟨run, hstart, hworkers⟩ := Interleaving.start_eq_ok hcommits
    obtain ⟨_, _, hstart⟩ := bind_eq_ok.mp hstart
    obtain ⟨hpanel, rfl⟩ := Prod.mk.inj ((pure_eq_ok _ _).mp hstart)
    dsimp only at hpanel hworkers
    subst hpanel hworkers
    refine ⟨h.named, h.decreasing, fun subject => ?_, h.unraised.insert nofun⟩
    have hidle : Run.sends date subject { now } = none := sends_of_idle rfl
    rcases h.settled subject with ⟨heq, hnone⟩ | ⟨k, sender, reached, hk, hsends, heq, hothers⟩
    · exact .inl ⟨heq, hnone.insert hidle⟩
    · refine .inr ⟨k, sender, reached, Table.get?_insert_of_some hk, hsends, heq,
        fun j other hj hother => ?_⟩
      rw [Table.get?_insert] at hother
      split at hother
      · cases hother
        exact hidle
      · exact hothers j other hj hother
  | step i a =>
    obtain ⟨run, run', hget, hstep, hworkers⟩ := Interleaving.step_eq_ok hcommits
    dsimp only at hget hstep hworkers
    subst hworkers
    exact h.did hget (Run.did hstep) (hcareful run hget)
  | outside services =>
    obtain ⟨houtside, hworkers⟩ := Interleaving.outside_eq_ok hcommits
    dsimp only at houtside hworkers
    obtain rfl := Except.ok.inj houtside
    subst hworkers
    exact ⟨h.named, h.decreasing, h.settled, h.unraised⟩

/-- What was sent under a subject is the beginning of what is recorded. -/
theorem Settled.sent_isPrefix (h : Settled date s subject) :
    s.shared.sentSteps date subject <+: s.shared.recordedSteps subject := by
  rcases h with ⟨heq, -⟩ | ⟨_, _, reached, -, -, heq, -⟩
  · rw [heq]
  · rw [heq]
    exact List.prefix_append _ _

theorem Kept.sound (h : Kept date s) : Sound date s where
  decreasing thing := by
    have hsent : (s.shared.sentSteps date (thing.subject date)).Pairwise (· > ·) :=
      (h.decreasing _).sublist (h.settled _).sent_isPrefix.sublist
    refine hsent.sublist (List.Sublist.map _ ?_)
    refine List.monotone_filter_right _ fun warning hthing => ?_
    rw [decide_eq_true_eq] at hthing ⊢
    rw [hthing]
  recorded notice hnotice := by
    have hmem : notice.step ∈ s.shared.recordedSteps notice.subject :=
      mem_recordedSteps.mpr ⟨notice, hnotice, rfl, rfl⟩
    rcases h.settled notice.subject with ⟨heq, -⟩ | ⟨i, run, reached, hget, hsends, heq, -⟩
    · rw [heq] at hmem
      exact .inl (mem_sentSteps.mp hmem)
    · rw [heq] at hmem
      rcases List.mem_append.mp hmem with hmem | hmem
      · exact .inl (mem_sentSteps.mp hmem)
      · rw [List.mem_singleton.mp hmem]
        exact .inr ⟨i, run, hget, hsends⟩
  others i run hget hraised := absurd hraised (h.unraised i run hget)

/-- **A warning that is lost stays lost**: after careful runs, a sending that fails or is cut short
    always breaks the promise. -/
theorem Kept.not_sound_of_lost (h : Kept date ⟨panel, workers⟩) (hget : workers.get? i = some run)
    (hstate : run.state = .going) (hsending : run.sending = some (thing, reached))
    (hover : run'.state ≠ .going) : ¬Sound date ⟨panel, workers.put i run'⟩ := by
  intro hsound
  have hsends : run.sends date (thing.subject date) = some reached := by
    rw [sends_of_sending hstate hsending, if_pos rfl]
  obtain ⟨heq, hothers⟩ := (h.settled (thing.subject date)).of_sends hget hsends
  have hmem : reached ∈ panel.recordedSteps (thing.subject date) := by
    rw [heq]
    exact List.mem_append_right _ (List.mem_singleton_self reached)
  obtain ⟨notice, hnotice, hsubject, hreached⟩ := mem_recordedSteps.mp hmem
  rcases hsound.recorded notice hnotice with hsent | ⟨j, other, hother, hsending'⟩
  · -- it would be among the steps that were sent before it
    rw [hsubject, hreached] at hsent
    have hdecreasing := h.decreasing (thing.subject date)
    rw [show (System.mk panel workers).shared = panel from rfl, heq] at hdecreasing
    have hlt := (List.pairwise_append.mp hdecreasing).2.2 reached (mem_sentSteps.mpr hsent) reached
      (List.mem_singleton_self reached)
    exact absurd hlt (lt_irrefl reached)
  · rw [hsubject] at hsending'
    have hnone : other.sends date (thing.subject date) = none := by
      rw [Table.get?_put hget] at hother
      split at hother
      · cases hother
        exact sends_of_over hover
      · next hj => exact hothers j other hj hother
    rw [hnone] at hsending'
    cases hsending'

end

/-- **Careful runs warn once at each step, and lose no warning.** -/
theorem warned_once (services : Services) (clock : ℤ) (turns : List (Turn ℤ Act Services))
    (hcareful : (warning date).machine.EachStep (fun s turn _ => Careful date s turn) turns
      ⟨{ services, clock }, {}⟩) :
    (warning date).machine.Always (Sound date) turns ⟨{ services, clock }, {}⟩ := by
  have hstart : Kept date ⟨{ services, clock }, {}⟩ :=
    ⟨nofun, fun _ => .nil, fun _ => .inl ⟨rfl, .empty⟩, .empty⟩
  exact Machine.always_of_eachStep (m := (warning date).machine) (I := Kept date)
    (fun _ h => h.sound) (fun _ _ _ _ h hcommits hstep => h.step hcommits hstep) turns _ hstart
    hcareful

/-- A day by its number. -/
def plainDate (day : ℤ) : String := toString day.toNat

/-- A domain that ends after so many days. -/
def endingIn (days : ℕ) : Services := { domains := [⟨1, true, some (days * microsPerDay)⟩] }

/-- Two runs warn of a domain when it has 20 and 10 days left; a third one in between finds nothing
    to do. -/
theorem warned_once_daily : (warning plainDate).machine.Always (Sound plainDate)
    [.start 0, .step 0 .go, .step 0 .go, .step 0 .sent, .start microsPerDay, .step 1 .go,
      .step 1 .go, .start (10 * microsPerDay), .step 2 .go, .step 2 .go, .step 2 .sent]
    ⟨{ services := endingIn 20, clock := 0 }, {}⟩ :=
  warned_once plainDate (endingIn 20) 0 _ (Machine.eachStep_of_trace (by decide +kernel))

/-- **A warning that could not be sent is recorded all the same, and ends the run.** -/
theorem not_sound_failed : ¬Sound plainDate ((warning plainDate).machine.run
    [.start 0, .step 0 .go, .step 0 .go, .step 0 .failed]
    ⟨{ services := endingIn 20, clock := 0 }, {}⟩) := by
  intro h
  have hleft := h.others 0 { now := 0, todo := [.hosting, .certificates], state := .raised }
    (by decide +kernel) rfl
  cases hleft

end WPanel.Lifecycle.ExpiryNotices
