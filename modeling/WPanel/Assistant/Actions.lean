import WPanel.Core
import WPanel.Lib.Interleaving
import WPanel.Lib.Numerals

namespace WPanel.Assistant

open WPanel.Lib

/-!
# Changes the Agent proposes

`assistant/actions.py`: a change is proposed and stored, and the customer's approval, or the
security code sent by email, carries it out.  Every query, save and conditional update is a step;
what a change does on the server, and whether that fails, is the answer of its run.

* `Call`, `acting` — the calls `propose`, `approve`, `verify`, `resend_code` and `cancel` step by
  step and in any order, while time passes and staff switch changes on and off;
* `Rightful` — a change was carried out by its owner, while it was pending, in time, while changes
  were on, and, where it needs a code, with its latest code in time;
* `SwitchedOn` — a code is checked only while changes are on;
* `Settled` — what a call has checked stays so until it takes the action: changes are not switched
  off, its time does not run out, and no other code is issued;
* `carriedOutRightly` — a run that keeps to both carries out every change rightfully and once;
* `not_carriedOutRightly` — a code is accepted after changes were switched off.
-/

/-! ### The records -/

/-- `LIFETIME`, in seconds. -/
def LIFETIME : ℕ := 30 * 60

def CODE_LIFETIME : ℕ := 5 * 60

def RESEND_AFTER : ℕ := 30

def MAX_ATTEMPTS : ℕ := 3

/-- What the customer must do first. -/
inductive Needs where
  | approve
  | code
  deriving DecidableEq, Repr

inductive ActionState where
  | pending
  | running
  | done
  | failed
  | cancelled
  | expired
  | locked
  deriving DecidableEq, Repr

/-- `PendingAction`. -/
structure PendingAction where
  user : ℕ
  tool : String
  summary : String
  needs : Needs
  status : ActionState := .pending
  result : String := ""
  createdAt : ℕ
  executedAt : Option ℕ := none
  deriving DecidableEq, Repr

/-- `VerificationCode`. -/
structure VerificationCode where
  codeHash : String
  expiresAt : ℕ
  attempts : ℕ := 0
  lastSentAt : ℕ
  deriving DecidableEq, Repr

/-- `REGISTRY`: the changes, and what each needs. -/
def registry : List (String × Needs) :=
  [("renew_ssl", .approve), ("force_https", .approve), ("set_mailbox_quota", .approve),
    ("set_php_setting", .approve), ("scan_website", .approve), ("create_backup", .approve),
    ("add_dns_record", .code), ("delete_dns_record", .code), ("restore_backup", .code),
    ("delete_mailbox", .code)]

/-- What was the case when a change was carried out: who called, with which code, when, and what
    the database held. -/
structure Carried where
  action : ℕ
  caller : ℕ
  entered : Option String
  time : ℕ
  found : PendingAction
  changesOn : Bool
  code : Option VerificationCode
  deriving DecidableEq, Repr

/-- The clock, the switch, the actions and their codes, and what was carried out. -/
structure ActionStore where
  now : ℕ
  changesOn : Bool
  actions : Table PendingAction := {}
  codes : ℕ → Option VerificationCode := fun _ => none
  carriedOut : List Carried := []

/-! ### The calls -/

/-- What is asked for. -/
inductive Asked where
  | propose (tool : String)
  | approve (pk : ℕ)
  | verify (pk : ℕ) (entered : String)
  | resend (pk : ℕ)
  | cancel (pk : ℕ)
  deriving DecidableEq, Repr

/-- How far a call has come, with its copies. -/
inductive Call.Phase where
  | begun
  /-- Changes are on, and this one is known. -/
  | permitted (needs : Needs)
  /-- The action is stored, and its code is to be issued. -/
  | stored (pk : ℕ)
  | loaded (action : PendingAction)
  /-- It is not too old to be approved. -/
  | fresh (action : PendingAction)
  /-- Its code was read. -/
  | holding (action : PendingAction) (code : VerificationCode)
  /-- Every check is passed. -/
  | cleared (action : PendingAction) (code : Option VerificationCode)
  /-- It was taken, and is carried out. -/
  | running
  | finished
  | raised (error : Err)
  deriving DecidableEq, Repr

/-- A call of one user. -/
structure Call where
  user : ℕ
  asked : Asked
  phase : Call.Phase := .begun
  deriving DecidableEq, Repr

/-- The steps of the calls. -/
inductive Call.Step where
  /-- The next query, check or conditional update. -/
  | go
  /-- The check of a proposed change refuses it. -/
  | refuse (error : Err)
  /-- It describes the change, which is stored. -/
  | describe (summary : String)
  /-- `issue_code`, with the hash of the new code. -/
  | issue (hash : String)
  /-- The change has run, and this is what it says. -/
  | ran (ok : Bool) (result : String)
  deriving DecidableEq, Repr

def changesOff : Err :=
  serviceError "Changes through the Agent are switched off for now." "changes_off"

def proposeOff : Err :=
  serviceError ("Changes through the Agent are switched off for now. I can tell you the steps to "
    ++ "do it in the panel, or ask our team.") "changes_off"

def notFound : Err := .service "That request was not found." "not_found" 404

def notActive : Err := serviceError "This request is no longer active." "not_active"

def handled : Err := serviceError "This request was already handled." "handled"

/-- `filter(pk=…, status="pending").update(status=…)`. -/
def ActionStore.conclude (s : ActionStore) (pk : ℕ) (status : ActionState) : ActionStore :=
  match s.actions.get? pk with
  | none => s
  | some row =>
    if row.status = .pending then { s with actions := s.actions.put pk { row with status } } else s

/-- `issue_code`. -/
def ActionStore.issueCode (s : ActionStore) (pk : ℕ) (hash : String) : ActionStore :=
  let code := { codeHash := hash, expiresAt := s.now + CODE_LIFETIME, lastSentAt := s.now }
  { s with codes := fun q => if q = pk then some code else s.codes q }

/-- A wrong try is saved. -/
def ActionStore.saveAttempts (s : ActionStore) (pk attempts : ℕ) : ActionStore :=
  { s with codes := fun q => if q = pk then (s.codes pk).map ({ · with attempts }) else s.codes q }

/-- `_own`. -/
def own (user pk : ℕ) (s : ActionStore) : Call.Phase :=
  match s.actions.get? pk with
  | none => .raised notFound
  | some row => if row.user = user then .loaded row else .raised notFound

/-- The first half of `_execute`: the action is taken if it is still pending. -/
def take (user pk : ℕ) (entered : Option String) (s : ActionStore) : ActionStore × Call.Phase :=
  match s.actions.get? pk with
  | none => (s, .raised handled)
  | some row =>
    if row.status = .pending then
      ({ s with
        actions := s.actions.put pk { row with status := .running }
        carriedOut := ⟨pk, user, entered, s.now, row, s.changesOn, s.codes pk⟩ :: s.carriedOut },
        .running)
    else (s, .raised handled)

/-- The second half: what came of it is saved. -/
def saveResult (pk : ℕ) (ok : Bool) (result : String) (s : ActionStore) : ActionStore :=
  match s.actions.get? pk with
  | none => s
  | some row =>
    { s with
      actions := s.actions.put pk { row with
        status := if ok then .done else .failed
        result := clip 500 result
        executedAt := some s.now } }

/-- A step of `propose`. -/
def propose (user : ℕ) (tool : String) (s : ActionStore) :
    Call.Step → Call.Phase → Except Err (ActionStore × Call.Phase)
  | .go, .begun =>
    if s.changesOn = false then pure (s, .raised proposeOff)
    else match registry.lookup tool with
      | none => pure (s, .raised (serviceError "That change is not available." "unknown_change"))
      | some needs => pure (s, .permitted needs)
  | .refuse error, .permitted _ => pure (s, .raised error)
  | .describe summary, .permitted needs =>
    pure ({ s with
        actions := s.actions.insert
          { user, tool, summary := clip 300 summary, needs, createdAt := s.now } },
      if needs = .code then .stored s.actions.nextPk else .finished)
  | .issue hash, .stored pk => pure (s.issueCode pk hash, .finished)
  | _, _ => throw (.unexpected "not the next step")

/-- A step of `approve`. -/
def approve (user pk : ℕ) (s : ActionStore) :
    Call.Step → Call.Phase → Except Err (ActionStore × Call.Phase)
  | .go, .begun => pure (s, own user pk s)
  | .go, .loaded action =>
    if action.needs = .code then
      pure (s, .raised (serviceError
        "This change needs your security code. Use the Verify link on the card." "needs_code"))
    else if action.createdAt + LIFETIME < s.now then
      pure (s.conclude pk .expired, .raised (serviceError
        "This request expired. Ask me again and I will prepare it." "expired"))
    else pure (s, .fresh action)
  | .go, .fresh action =>
    if s.changesOn = false then pure (s, .raised changesOff) else pure (s, .cleared action none)
  | .go, .cleared _ _ => pure (take user pk none s)
  | .ran ok result, .running => pure (saveResult pk ok result s, .finished)
  | _, _ => throw (.unexpected "not the next step")

/-- `resend_code`. -/
def resendCode (user pk : ℕ) (s : ActionStore) :
    Call.Step → Call.Phase → Except Err (ActionStore × Call.Phase)
  | .go, .begun => pure (s, own user pk s)
  | .go, .loaded action =>
    if action.needs ≠ .code ∨ action.status ≠ .pending then pure (s, .raised notActive)
    else match s.codes pk with
      | none => pure (s, .raised (.doesNotExist "VerificationCode"))
      | some code =>
        if s.now < code.lastSentAt + RESEND_AFTER then
          pure (s, .raised (serviceError ("Please wait "
            ++ toString (code.lastSentAt + RESEND_AFTER - s.now + 1)
            ++ " seconds before asking for another code.") "cooldown"))
        else pure (s, .holding action code)
  | .issue hash, .holding _ _ => pure (s.issueCode pk hash, .finished)
  | _, _ => throw (.unexpected "not the next step")

/-- A step of `cancel`. -/
def cancel (user pk : ℕ) (s : ActionStore) :
    Call.Step → Call.Phase → Except Err (ActionStore × Call.Phase)
  | .go, .begun => pure (s, own user pk s)
  | .go, .loaded _ =>
    if (s.actions.get? pk).any (·.status = .pending) then
      pure (s.conclude pk .cancelled, .finished)
    else pure (s, .raised handled)
  | _, _ => throw (.unexpected "not the next step")

/-- `re.fullmatch(r"\d{6}", …)`; the digits of every script count. -/
def isSixDigits (s : String) : Bool := s.toList.length = 6 && s.toList.all isDecimal

section

-- `check_password`, of the entered code against a stored hash
variable (checkPassword : String → String → Bool)

/-- The entered code is the one. -/
def codeMatches (entered : String) (code : VerificationCode) : Bool :=
  isSixDigits (strip entered) && checkPassword (strip entered) code.codeHash

/-- A wrong code: the try is saved, and the third locks the request. -/
def wrongCode (pk : ℕ) (code : VerificationCode) (s : ActionStore) : ActionStore × Call.Phase :=
  if MAX_ATTEMPTS ≤ code.attempts + 1 then
    ((s.saveAttempts pk (code.attempts + 1)).conclude pk .locked, .raised (serviceError
      "Too many wrong codes. This request is locked and nothing was changed." "locked"))
  else
    (s.saveAttempts pk (code.attempts + 1), .raised (serviceError ("Incorrect code. "
      ++ toString (MAX_ATTEMPTS - (code.attempts + 1)) ++ " attempt"
      ++ (if MAX_ATTEMPTS - (code.attempts + 1) = 1 then "" else "s") ++ " left.") "code_wrong"))

/-- A step of `verify`. -/
def verify (user pk : ℕ) (entered : String) (s : ActionStore) :
    Call.Step → Call.Phase → Except Err (ActionStore × Call.Phase)
  | .go, .begun => pure (s, own user pk s)
  | .go, .loaded action =>
    if action.needs ≠ .code then
      pure (s, .raised (serviceError "This request does not need a code." "no_code"))
    else if action.status ≠ .pending then pure (s, .raised notActive)
    else match s.codes pk with
      | none => pure (s, .raised (.doesNotExist "VerificationCode"))
      | some code => pure (s, .holding action code)
  | .go, .holding action code =>
    if code.expiresAt < s.now ∨ action.createdAt + LIFETIME < s.now then
      pure (s.conclude pk .expired,
        .raised (serviceError "The code expired. Request a new code." "code_expired"))
    else if MAX_ATTEMPTS ≤ code.attempts then
      pure (s, .raised (serviceError "Too many wrong codes." "locked"))
    else if codeMatches checkPassword entered code then pure (s, .cleared action (some code))
    else pure (wrongCode pk code s)
  | .go, .cleared _ _ => pure (take user pk (some entered) s)
  | .ran ok result, .running => pure (saveResult pk ok result s, .finished)
  | _, _ => throw (.unexpected "not the next step")

/-- A step of what was asked for. -/
def stepOf (user : ℕ) (s : ActionStore) (a : Call.Step) (phase : Call.Phase) :
    Asked → Except Err (ActionStore × Call.Phase)
  | .propose tool => propose user tool s a phase
  | .approve pk => approve user pk s a phase
  | .verify pk entered => verify checkPassword user pk entered s a phase
  | .resend pk => resendCode user pk s a phase
  | .cancel pk => cancel user pk s a phase

def Call.next (a : Call.Step) (s : ActionStore) (call : Call) :
    Except Err (ActionStore × Call) := do
  let (s', phase) ← stepOf checkPassword call.user s a call.phase call.asked
  return (s', { call with phase })

/-- What happens around the calls. -/
inductive Surroundings where
  | tick (now : ℕ)
  | switch (changesOn : Bool)
  deriving DecidableEq, Repr

def Surroundings.apply (s : ActionStore) : Surroundings → Except Err ActionStore
  | .tick now => do
    ensure (s.now ≤ now) (.unexpected "time does not go back")
    return { s with now }
  | .switch changesOn => pure { s with changesOn }

/-- The calls of all users, step by step and in any order, while time passes and staff switch
    changes on and off. -/
def acting : Interleaving ActionStore Call (ℕ × Asked) Call.Step Surroundings Err where
  start request s := pure (s, { user := request.1, asked := request.2 })
  step a s call := call.next checkPassword a s
  outside c s := c.apply s
  absent := .unexpected "there is no such call"

end

/-! ### What is rightful -/

/-- A change was carried out by its owner, while it was pending, within its lifetime, while changes
    were on, and, where it needs a code, with its latest code within the lifetime of that. -/
structure Carried.Rightful (checkPassword : String → String → Bool) (r : Carried) : Prop where
  owner : r.caller = r.found.user
  pending : r.found.status = .pending
  inTime : r.time ≤ r.found.createdAt + LIFETIME
  switchedOn : r.changesOn = true
  code : r.found.needs = .code → ∃ entered ∈ r.entered, ∃ code ∈ r.code,
    codeMatches checkPassword entered code = true ∧ r.time ≤ code.lastSentAt + CODE_LIFETIME

/-- Every change that was carried out was so rightfully, and once. -/
structure CarriedOutRightly (checkPassword : String → String → Bool) (s : System ActionStore Call) :
    Prop where
  once : (s.shared.carriedOut.map Carried.action).Nodup
  rightful : ∀ r ∈ s.shared.carriedOut, r.Rightful checkPassword

/-- The action a call is about to issue a code for. -/
def Call.issues (call : Call) : Option ℕ :=
  match call.asked, call.phase with
  | .propose _, .stored pk => some pk
  | .resend pk, .holding _ _ => some pk
  | _, _ => none

/-- The action and the code a call to verify has read, until it has taken the action. -/
def Call.relies (call : Call) : Option (ℕ × VerificationCode) :=
  match call.asked, call.phase with
  | .verify pk _, .holding _ code => some (pk, code)
  | .verify pk _, .cleared _ (some code) => some (pk, code)
  | _, _ => none

/-- Every check is passed, and the action is not taken yet. -/
def Call.isCleared (call : Call) : Bool :=
  match call.phase with
  | .cleared _ _ => true
  | _ => false

/-- The times by which a call found its action, and the code for it, to end. -/
def Call.deadlines (call : Call) : List ℕ :=
  match call.phase with
  | .fresh action => [action.createdAt + LIFETIME]
  | .cleared action code => (action.createdAt + LIFETIME) :: code.toList.map (·.expiresAt)
  | _ => []

/-- A code is checked only while changes are on. -/
def SwitchedOn (s : ActionStore) (call : Call) (_ : Call.Step) : Prop :=
  match call.asked, call.phase with
  | .verify _ _, .holding _ _ => s.changesOn = true
  | _, _ => True

instance (s : ActionStore) (call : Call) (a : Call.Step) : Decidable (SwitchedOn s call a) := by
  unfold SwitchedOn
  split <;> infer_instance

/-- What a call has checked stays so until it takes the action: no other code is issued, changes are
    not switched off, and its time does not run out. -/
def Settled : Discipline ActionStore Call Call.Step Surroundings where
  step _ call a other := match a with
    | .issue _ => ∀ pk ∈ call.issues, ∀ relied ∈ other.relies, relied.1 ≠ pk
    | _ => True
  outside _ c other := match c with
    | .tick now => ∀ deadline ∈ other.deadlines, now ≤ deadline
    | .switch changesOn => other.isCleared = true → changesOn = true

instance (s : ActionStore) (call : Call) (a : Call.Step) (other : Call) :
    Decidable (Settled.step s call a other) := by
  unfold Settled
  dsimp only
  split <;> infer_instance

instance (s : ActionStore) (c : Surroundings) (other : Call) :
    Decidable (Settled.outside s c other) := by
  unfold Settled
  dsimp only
  split <;> infer_instance

/-! ### Why it is -/

/-- The copy of the action a call works on. -/
def Call.Phase.copy : Call.Phase → Option PendingAction
  | .loaded action => some action
  | .fresh action => some action
  | .holding action _ => some action
  | .cleared action _ => some action
  | _ => none

def Asked.action : Asked → Option ℕ
  | .propose _ => none
  | .approve pk => some pk
  | .verify pk _ => some pk
  | .resend pk => some pk
  | .cancel pk => some pk

/-- An action keeps its owner, its time and what it needs, and is not pending again. -/
structure PendingAction.Kept (row row' : PendingAction) : Prop where
  user : row'.user = row.user
  createdAt : row'.createdAt = row.createdAt
  needs : row'.needs = row.needs
  status : row.status ≠ .pending → row'.status ≠ .pending

/-- What of a code does not change until another one is issued. -/
def VerificationCode.sent (code : VerificationCode) : String × ℕ × ℕ :=
  (code.codeHash, code.expiresAt, code.lastSentAt)

/-- The step keeps the actions there are, and the codes, and carries nothing out. -/
structure ActionStore.Frame (s s' : ActionStore) : Prop where
  now : s'.now = s.now
  changesOn : s'.changesOn = s.changesOn
  actions : ∀ pk row, s.actions.get? pk = some row →
    ∃ row', s'.actions.get? pk = some row' ∧ row.Kept row'
  codes : ∀ pk, (s'.codes pk).map VerificationCode.sent = (s.codes pk).map VerificationCode.sent
  carriedOut : s'.carriedOut = s.carriedOut

theorem PendingAction.Kept.refl (row : PendingAction) : row.Kept row := ⟨rfl, rfl, rfl, id⟩

theorem PendingAction.Kept.trans {row row' row'' : PendingAction} (h : row.Kept row')
    (h' : row'.Kept row'') : row.Kept row'' :=
  ⟨h'.user.trans h.user, h'.createdAt.trans h.createdAt, h'.needs.trans h.needs,
    fun hstatus => h'.status (h.status hstatus)⟩

/-- What a step of a call does. -/
inductive Call.Did (checkPassword : String → String → Bool) :
    Call.Step → ActionStore → Call → ActionStore → Call → Prop
  /-- It goes on with no copy. -/
  | moved {a : Call.Step} {s s' : ActionStore} {call : Call} {phase : Call.Phase} :
      s.Frame s' → phase.copy = none → Did checkPassword a s call s' { call with phase }
  | loaded {s : ActionStore} {call : Call} {pk : ℕ} {row : PendingAction} :
      call.asked.action = some pk → s.actions.get? pk = some row → row.user = call.user →
      Did checkPassword .go s call s { call with phase := .loaded row }
  | fresh {s : ActionStore} {call : Call} {pk : ℕ} {action : PendingAction} :
      call.asked = .approve pk → call.phase = .loaded action → action.needs ≠ .code →
      s.now ≤ action.createdAt + LIFETIME →
      Did checkPassword .go s call s { call with phase := .fresh action }
  | held {s : ActionStore} {call : Call} {pk : ℕ} {action : PendingAction}
      {code : VerificationCode} :
      call.asked.action = some pk → call.phase = .loaded action → s.codes pk = some code →
      Did checkPassword .go s call s { call with phase := .holding action code }
  | approved {s : ActionStore} {call : Call} {pk : ℕ} {action : PendingAction} :
      call.asked = .approve pk → call.phase = .fresh action → s.changesOn = true →
      Did checkPassword .go s call s { call with phase := .cleared action none }
  | verified {s : ActionStore} {call : Call} {pk : ℕ} {entered : String} {action : PendingAction}
      {code : VerificationCode} :
      call.asked = .verify pk entered → call.phase = .holding action code →
      s.now ≤ code.expiresAt → s.now ≤ action.createdAt + LIFETIME →
      codeMatches checkPassword entered code = true →
      Did checkPassword .go s call s { call with phase := .cleared action (some code) }
  | issued {s : ActionStore} {call : Call} {pk : ℕ} {hash : String} : call.issues = some pk →
      Did checkPassword (.issue hash) s call (s.issueCode pk hash) { call with phase := .finished }
  | taken {s : ActionStore} {call : Call} {pk : ℕ} {action row : PendingAction}
      {code : Option VerificationCode} {entered : Option String} :
      call.phase = .cleared action code → s.actions.get? pk = some row → row.status = .pending →
      call.asked = .approve pk ∧ entered = none
        ∨ (∃ typed, call.asked = .verify pk typed ∧ entered = some typed) →
      Did checkPassword .go s call
        { s with
          actions := s.actions.put pk { row with status := .running }
          carriedOut := ⟨pk, call.user, entered, s.now, row, s.changesOn, s.codes pk⟩
            :: s.carriedOut } { call with phase := .running }

section

variable {checkPassword : String → String → Bool} {s s' : ActionStore} {call call' other : Call}
  {a : Call.Step} {user pk : ℕ}

theorem ActionStore.Frame.refl (s : ActionStore) : s.Frame s :=
  ⟨rfl, rfl, fun _ row hrow => ⟨row, hrow, .refl row⟩, fun _ => rfl, rfl⟩

theorem ActionStore.Frame.trans {s'' : ActionStore} (h : s.Frame s') (h' : s'.Frame s'') :
    s.Frame s'' where
  now := h'.now.trans h.now
  changesOn := h'.changesOn.trans h.changesOn
  actions := fun q row hrow => by
    obtain ⟨row', hrow', hkept⟩ := h.actions q row hrow
    obtain ⟨row'', hrow'', hkept'⟩ := h'.actions q row' hrow'
    exact ⟨row'', hrow'', hkept.trans hkept'⟩
  codes := fun q => (h'.codes q).trans (h.codes q)
  carriedOut := h'.carriedOut.trans h.carriedOut

/-- Writing one action in a way that keeps it. -/
theorem ActionStore.Frame.put {row row' : PendingAction} (hrow : s.actions.get? pk = some row)
    (hkept : row.Kept row') : s.Frame { s with actions := s.actions.put pk row' } where
  now := rfl
  changesOn := rfl
  actions := fun q old hold => by
    rw [Table.get?_put hrow]
    split
    · next hq =>
      rw [hq, hrow] at hold
      cases hold
      exact ⟨row', rfl, hkept⟩
    · exact ⟨old, hold, .refl old⟩
  codes := fun _ => rfl
  carriedOut := rfl

theorem ActionStore.frame_conclude {status : ActionState} (hstatus : status ≠ .pending) :
    s.Frame (s.conclude pk status) := by
  unfold ActionStore.conclude
  split
  · exact .refl s
  · next row hrow =>
    split
    · exact .put hrow ⟨rfl, rfl, rfl, fun _ => hstatus⟩
    · exact .refl s

theorem ActionStore.frame_saveAttempts {attempts : ℕ} : s.Frame (s.saveAttempts pk attempts) where
  now := rfl
  changesOn := rfl
  actions := fun _ row hrow => ⟨row, hrow, .refl row⟩
  codes := fun q => by
    unfold ActionStore.saveAttempts
    dsimp only
    split
    · next hq =>
      rw [hq]
      cases s.codes pk <;> rfl
    · rfl
  carriedOut := rfl

theorem frame_saveResult {ok : Bool} {result : String} : s.Frame (saveResult pk ok result s) := by
  unfold saveResult
  split
  · exact .refl s
  · next row hrow =>
    refine .put hrow ⟨rfl, rfl, rfl, fun _ => ?_⟩
    cases ok <;> nofun

private theorem own_did (haction : call.asked.action = some pk) :
    Call.Did checkPassword .go s call s { call with phase := own call.user pk s } := by
  unfold own
  split
  · exact .moved (.refl s) rfl
  · next row hrow =>
    split
    · next huser => exact .loaded haction hrow huser
    · exact .moved (.refl s) rfl

private theorem take_did {action : PendingAction} {code : Option VerificationCode}
    {entered : Option String} (hphase : call.phase = .cleared action code)
    (hasked : call.asked = .approve pk ∧ entered = none
      ∨ (∃ typed, call.asked = .verify pk typed ∧ entered = some typed)) :
    Call.Did checkPassword .go s call (take call.user pk entered s).1
      { call with phase := (take call.user pk entered s).2 } := by
  unfold take
  split
  · exact .moved (.refl s) rfl
  · next row hrow =>
    split
    · next hpending => exact .taken hphase hrow hpending hasked
    · exact .moved (.refl s) rfl

private theorem propose_did {tool : String} {phase : Call.Phase}
    (hasked : call.asked = .propose tool)
    (h : propose call.user tool s a call.phase = .ok (s', phase)) :
    Call.Did checkPassword a s call s' { call with phase } := by
  unfold propose at h
  split at h
  · split at h
    · cases (pure_eq_ok _ _).mp h
      exact .moved (.refl s) rfl
    · split at h
      · cases (pure_eq_ok _ _).mp h
        exact .moved (.refl s) rfl
      · cases (pure_eq_ok _ _).mp h
        exact .moved (.refl s) rfl
  · cases (pure_eq_ok _ _).mp h
    exact .moved (.refl s) rfl
  · cases (pure_eq_ok _ _).mp h
    refine .moved ⟨rfl, rfl, fun q row hrow => ?_, fun _ => rfl, rfl⟩ ?_
    · exact ⟨row, Table.get?_insert_of_some hrow, .refl row⟩
    · split <;> rfl
  · next q hphase =>
    cases (pure_eq_ok _ _).mp h
    exact .issued (by rw [Call.issues, hasked, hphase])
  · cases h

private theorem approve_did {phase : Call.Phase} (hasked : call.asked = .approve pk)
    (h : approve call.user pk s a call.phase = .ok (s', phase)) :
    Call.Did checkPassword a s call s' { call with phase } := by
  unfold approve at h
  split at h
  · cases (pure_eq_ok _ _).mp h
    exact own_did (by rw [hasked]; rfl)
  · next action hphase =>
    split at h
    · cases (pure_eq_ok _ _).mp h
      exact .moved (.refl s) rfl
    · next hneeds =>
      split at h
      · cases (pure_eq_ok _ _).mp h
        exact .moved (ActionStore.frame_conclude nofun) rfl
      · next hold =>
        cases (pure_eq_ok _ _).mp h
        exact .fresh hasked hphase hneeds (Nat.le_of_not_lt hold)
  · next action hphase =>
    split at h
    · cases (pure_eq_ok _ _).mp h
      exact .moved (.refl s) rfl
    · next hon =>
      cases (pure_eq_ok _ _).mp h
      exact .approved hasked hphase (by simpa using hon)
  · next action code hphase =>
    have h := (pure_eq_ok _ _).mp h
    have htaken : Call.Did checkPassword .go s call (take call.user pk none s).1 _ :=
      take_did hphase (.inl ⟨hasked, rfl⟩)
    rwa [h] at htaken
  · cases (pure_eq_ok _ _).mp h
    exact .moved frame_saveResult rfl
  · cases h

private theorem resendCode_did {phase : Call.Phase} (hasked : call.asked = .resend pk)
    (h : resendCode call.user pk s a call.phase = .ok (s', phase)) :
    Call.Did checkPassword a s call s' { call with phase } := by
  unfold resendCode at h
  split at h
  · cases (pure_eq_ok _ _).mp h
    exact own_did (by rw [hasked]; rfl)
  · next action hphase =>
    split at h
    · cases (pure_eq_ok _ _).mp h
      exact .moved (.refl s) rfl
    · split at h
      · cases (pure_eq_ok _ _).mp h
        exact .moved (.refl s) rfl
      · next code hcode =>
        split at h
        · cases (pure_eq_ok _ _).mp h
          exact .moved (.refl s) rfl
        · cases (pure_eq_ok _ _).mp h
          exact .held (by rw [hasked]; rfl) hphase hcode
  · next action code hphase =>
    cases (pure_eq_ok _ _).mp h
    exact .issued (by rw [Call.issues, hasked, hphase])
  · cases h

private theorem cancel_did {phase : Call.Phase} (hasked : call.asked = .cancel pk)
    (h : cancel call.user pk s a call.phase = .ok (s', phase)) :
    Call.Did checkPassword a s call s' { call with phase } := by
  unfold cancel at h
  split at h
  · cases (pure_eq_ok _ _).mp h
    exact own_did (by rw [hasked]; rfl)
  · split at h
    · cases (pure_eq_ok _ _).mp h
      exact .moved (ActionStore.frame_conclude nofun) rfl
    · cases (pure_eq_ok _ _).mp h
      exact .moved (.refl s) rfl
  · cases h

private theorem verify_did {entered : String} {phase : Call.Phase}
    (hasked : call.asked = .verify pk entered)
    (h : verify checkPassword call.user pk entered s a call.phase = .ok (s', phase)) :
    Call.Did checkPassword a s call s' { call with phase } := by
  unfold verify at h
  split at h
  · cases (pure_eq_ok _ _).mp h
    exact own_did (by rw [hasked]; rfl)
  · next action hphase =>
    split at h
    · cases (pure_eq_ok _ _).mp h
      exact .moved (.refl s) rfl
    · split at h
      · cases (pure_eq_ok _ _).mp h
        exact .moved (.refl s) rfl
      · split at h
        · cases (pure_eq_ok _ _).mp h
          exact .moved (.refl s) rfl
        · next code hcode =>
          cases (pure_eq_ok _ _).mp h
          exact .held (by rw [hasked]; rfl) hphase hcode
  · next action code hphase =>
    split at h
    · cases (pure_eq_ok _ _).mp h
      exact .moved (ActionStore.frame_conclude nofun) rfl
    · next htime =>
      split at h
      · cases (pure_eq_ok _ _).mp h
        exact .moved (.refl s) rfl
      · split at h
        · next hmatches =>
          cases (pure_eq_ok _ _).mp h
          exact .verified hasked hphase (by omega) (by omega) hmatches
        · have h := (pure_eq_ok _ _).mp h
          unfold wrongCode at h
          split at h
          · cases h
            exact .moved (ActionStore.frame_saveAttempts.trans
              (ActionStore.frame_conclude nofun)) rfl
          · cases h
            exact .moved ActionStore.frame_saveAttempts rfl
  · next action code hphase =>
    have h := (pure_eq_ok _ _).mp h
    have htaken : Call.Did checkPassword .go s call (take call.user pk (some entered) s).1 _ :=
      take_did hphase (.inr ⟨entered, hasked, rfl⟩)
    rwa [h] at htaken
  · cases (pure_eq_ok _ _).mp h
    exact .moved frame_saveResult rfl
  · cases h

theorem Call.did (h : call.next checkPassword a s = .ok (s', call')) :
    Call.Did checkPassword a s call s' call' := by
  obtain ⟨⟨_, phase⟩, hnext, h⟩ := bind_eq_ok.mp h
  cases (pure_eq_ok _ _).mp h
  unfold stepOf at hnext
  split at hnext
  · next hasked => exact propose_did hasked hnext
  · next hasked => exact approve_did hasked hnext
  · next hasked => exact verify_did hasked hnext
  · next hasked => exact resendCode_did hasked hnext
  · next hasked => exact cancel_did hasked hnext

end

/-- What is known of the store: what was carried out was so rightfully and is not pending, and a
    code ends when it says. -/
structure ActionStore.Sound (checkPassword : String → String → Bool) (s : ActionStore) : Prop where
  once : (s.carriedOut.map Carried.action).Nodup
  rightful : ∀ r ∈ s.carriedOut, r.Rightful checkPassword
  taken : ∀ r ∈ s.carriedOut, ∃ row, s.actions.get? r.action = some row ∧ row.status ≠ .pending
  lifetime : ∀ pk code, s.codes pk = some code → code.expiresAt = code.lastSentAt + CODE_LIFETIME

/-- What a call knows: its copy is of an action of its user, and what it has checked is so. -/
structure Call.Knows (checkPassword : String → String → Bool) (s : ActionStore) (call : Call) :
    Prop where
  copy : ∀ pk ∈ call.asked.action, ∀ action ∈ call.phase.copy, ∃ row,
    s.actions.get? pk = some row ∧ row.user = call.user ∧ row.createdAt = action.createdAt
      ∧ row.needs = action.needs
  fresh : ∀ action, call.phase = .fresh action → action.needs ≠ .code
  inTime : ∀ deadline ∈ call.deadlines, s.now ≤ deadline
  switchedOn : call.isCleared = true → s.changesOn = true
  code : ∀ relied ∈ call.relies, ∃ code, s.codes relied.1 = some code ∧ code.sent = relied.2.sent
  cleared : ∀ action code, call.phase = .cleared action code →
    (action.needs ≠ .code ∧ ∃ pk, call.asked = .approve pk)
      ∨ ∃ pk entered c, call.asked = .verify pk entered ∧ code = some c
        ∧ codeMatches checkPassword entered c = true

section

variable {checkPassword : String → String → Bool} {s s' : ActionStore} {call call' other : Call}
  {a : Call.Step}

/-- A call without a copy knows nothing. -/
private theorem Call.knows_of_idle (h : call.phase.copy = none) : call.Knows checkPassword s := by
  have hcopy : ∀ {phase : Call.Phase} {action : PendingAction}, call.phase = phase →
      phase.copy = some action → False := by
    intro phase action hphase hsome
    rw [← hphase, h] at hsome
    cases hsome
  refine ⟨fun _ _ action haction => ?_, fun action hphase => (hcopy hphase rfl).elim,
    fun deadline hdeadline => ?_, fun hcleared => ?_, fun relied hrelied => ?_,
    fun action code hphase => (hcopy hphase rfl).elim⟩
  · rw [h] at haction
    cases haction
  · unfold Call.deadlines at hdeadline
    split at hdeadline
    · next hphase => exact (hcopy hphase rfl).elim
    · next hphase => exact (hcopy hphase rfl).elim
    · cases hdeadline
  · unfold Call.isCleared at hcleared
    split at hcleared
    · next hphase => exact (hcopy hphase rfl).elim
    · cases hcleared
  · unfold Call.relies at hrelied
    split at hrelied
    · next hphase => exact (hcopy hphase rfl).elim
    · next hphase => exact (hcopy hphase rfl).elim
    · cases hrelied

/-- What a call knows stays so where its code does. -/
private theorem Call.Knows.of_kept (h : other.Knows checkPassword s) (hnow : s'.now = s.now)
    (hswitch : s'.changesOn = s.changesOn)
    (hactions : ∀ pk row, s.actions.get? pk = some row →
      ∃ row', s'.actions.get? pk = some row' ∧ row.Kept row')
    (hcodes : ∀ relied ∈ other.relies,
      (s'.codes relied.1).map VerificationCode.sent
      = (s.codes relied.1).map VerificationCode.sent) :
    other.Knows checkPassword s' where
  copy := fun pk hpk action haction => by
    obtain ⟨row, hrow, huser, hcreated, hneeds⟩ := h.copy pk hpk action haction
    obtain ⟨row', hrow', hkept⟩ := hactions pk row hrow
    exact ⟨row', hrow', hkept.user.trans huser, hkept.createdAt.trans hcreated,
      hkept.needs.trans hneeds⟩
  fresh := h.fresh
  inTime := fun deadline hdeadline => hnow ▸ h.inTime deadline hdeadline
  switchedOn := fun hcleared => hswitch ▸ h.switchedOn hcleared
  code := fun relied hrelied => by
    obtain ⟨code, hcode, hsent⟩ := h.code relied hrelied
    have hsame := hcodes relied hrelied
    rw [hcode] at hsame
    obtain ⟨code', hcode', hsent'⟩ := Option.map_eq_some_iff.mp hsame
    exact ⟨code', hcode', hsent'.trans hsent⟩
  cleared := h.cleared

/-- Taking an action keeps it. -/
private theorem kept_taken {pk : ℕ} {row : PendingAction} (hrow : s.actions.get? pk = some row) :
    ∀ q old, s.actions.get? q = some old → ∃ row',
      (s.actions.put pk { row with status := .running }).get? q = some row' ∧ old.Kept row' := by
  have hkept : row.Kept { row with status := .running } := ⟨rfl, rfl, rfl, fun _ => nofun⟩
  exact (ActionStore.Frame.put hrow hkept).actions

/-- **What a call knows after another one's step.** -/
theorem Call.Knows.of_did (h : other.Knows checkPassword s)
    (hsettled : Settled.step s call a other) (hdid : Call.Did checkPassword a s call s' call') :
    other.Knows checkPassword s' := by
  have hsame : other.Knows checkPassword s :=
    h.of_kept rfl rfl (fun _ row hrow => ⟨row, hrow, .refl row⟩) fun _ _ => rfl
  cases hdid with
  | moved hframe _ =>
    exact h.of_kept hframe.now hframe.changesOn hframe.actions fun relied _ => hframe.codes relied.1
  | issued hissues =>
    refine h.of_kept rfl rfl (fun _ row hrow => ⟨row, hrow, .refl row⟩) fun relied hrelied => ?_
    have hne := hsettled _ hissues relied hrelied
    show (if relied.1 = _ then _ else s.codes relied.1).map _ = _
    rw [if_neg hne]
  | taken _ hrow _ _ => exact h.of_kept rfl rfl (kept_taken hrow) fun _ _ => rfl
  | loaded _ _ _ => exact hsame
  | fresh _ _ _ _ => exact hsame
  | held _ _ _ => exact hsame
  | approved _ _ _ => exact hsame
  | verified _ _ _ _ _ => exact hsame

/-- **What a call knows after its own step.** -/
theorem Call.Knows.did (h : call.Knows checkPassword s) (hon : SwitchedOn s call a)
    (hdid : Call.Did checkPassword a s call s' call') : call'.Knows checkPassword s' := by
  cases hdid with
  | moved _ hidle => exact knows_of_idle hidle
  | @loaded _ _ pk row haction hrow huser =>
    refine ⟨?_, fun _ h => Call.Phase.noConfusion h, fun _ h => absurd h List.not_mem_nil,
      fun h => Bool.noConfusion h, fun relied hrelied => ?_, fun _ _ h => Call.Phase.noConfusion h⟩
    · intro q hq action hcopy
      obtain rfl : pk = q := Option.some.inj (haction.symm.trans hq)
      cases hcopy
      exact ⟨row, hrow, huser, rfl, rfl⟩
    · unfold Call.relies at hrelied
      split at hrelied
      · next hphase => cases hphase
      · next hphase => cases hphase
      · cases hrelied
  | @fresh _ _ pk action hasked hphase hneeds htime =>
    have hcopy := h.copy
    rw [hphase] at hcopy
    refine ⟨hcopy, ?_, ?_, fun h => Bool.noConfusion h, fun relied hrelied => ?_,
      fun _ _ h => Call.Phase.noConfusion h⟩
    · rintro _ ⟨⟩
      exact hneeds
    · intro deadline hdeadline
      rw [List.mem_singleton.mp hdeadline]
      exact htime
    · rw [Call.relies, hasked] at hrelied
      cases hrelied
  | @held _ _ pk action code haction hphase hcode =>
    have hcopy := h.copy
    rw [hphase] at hcopy
    refine ⟨hcopy, fun _ h => Call.Phase.noConfusion h, fun _ h => absurd h List.not_mem_nil,
      fun h => Bool.noConfusion h, fun relied hrelied => ?_, fun _ _ h => Call.Phase.noConfusion h⟩
    unfold Call.relies at hrelied
    split at hrelied
    · next q _ _ _ hasked hheld =>
      cases hheld
      cases hrelied
      dsimp only at hasked
      rw [hasked] at haction
      cases haction
      exact ⟨code, hcode, rfl⟩
    · next hheld => cases hheld
    · cases hrelied
  | @approved _ _ pk action hasked hphase hswitch =>
    have hcopy := h.copy
    have htime := h.inTime
    rw [hphase] at hcopy
    rw [Call.deadlines, hphase] at htime
    refine ⟨hcopy, fun _ h => Call.Phase.noConfusion h, htime, fun _ => hswitch,
      fun relied hrelied => ?_, ?_⟩
    · rw [Call.relies, hasked] at hrelied
      cases hrelied
    · rintro _ _ ⟨⟩
      exact .inl ⟨h.fresh action hphase, pk, hasked⟩
  | @verified _ _ pk entered action code hasked hphase hexpires htime hmatches =>
    have hcopy := h.copy
    have hcode := h.code (pk, code) (by rw [Call.relies, hasked, hphase]; rfl)
    rw [hphase] at hcopy
    -- the code is entered with the changes switched on
    have hswitch : s.changesOn = true := by
      rw [SwitchedOn, hasked, hphase] at hon
      exact hon
    refine ⟨hcopy, fun _ h => Call.Phase.noConfusion h, ?_, fun _ => hswitch,
      fun relied hrelied => ?_, ?_⟩
    · intro deadline hdeadline
      rcases List.mem_cons.mp hdeadline with rfl | hdeadline
      · exact htime
      · rw [List.mem_singleton.mp hdeadline]
        exact hexpires
    · rw [Call.relies, hasked] at hrelied
      cases hrelied
      exact hcode
    · rintro _ _ ⟨⟩
      exact .inr ⟨pk, entered, code, hasked, rfl, hmatches⟩
  | issued _ => exact knows_of_idle rfl
  | taken _ _ _ _ => exact knows_of_idle rfl

/-- The codes after a step that issues none end when they did. -/
private theorem lifetime_of_sent
    (h : ∀ pk code, s.codes pk = some code → code.expiresAt = code.lastSentAt + CODE_LIFETIME)
    (hsent : ∀ pk, (s'.codes pk).map VerificationCode.sent
      = (s.codes pk).map VerificationCode.sent) :
    ∀ pk code, s'.codes pk = some code → code.expiresAt = code.lastSentAt + CODE_LIFETIME := by
  intro pk code hcode
  have hsame := hsent pk
  rw [hcode] at hsame
  obtain ⟨old, hold, heq⟩ := Option.map_eq_some_iff.mp hsame.symm
  obtain ⟨-, hexpires, hlast⟩ : old.codeHash = code.codeHash ∧ old.expiresAt = code.expiresAt
      ∧ old.lastSentAt = code.lastSentAt := by
    simpa only [VerificationCode.sent, Prod.mk.injEq] using heq
  rw [← hexpires, ← hlast]
  exact h pk old hold

/-- **What a call carries out is rightful**, by what it knows. -/
private theorem Call.Knows.rightful {pk : ℕ} {action row : PendingAction}
    {code : Option VerificationCode} {entered : Option String} (h : call.Knows checkPassword s)
    (hs : s.Sound checkPassword) (hphase : call.phase = .cleared action code)
    (hrow : s.actions.get? pk = some row) (hpending : row.status = .pending)
    (hasked : call.asked = .approve pk ∧ entered = none
      ∨ (∃ typed, call.asked = .verify pk typed ∧ entered = some typed)) :
    Carried.Rightful checkPassword
      ⟨pk, call.user, entered, s.now, row, s.changesOn, s.codes pk⟩ := by
  have hpk : pk ∈ call.asked.action := by
    rcases hasked with ⟨hasked, -⟩ | ⟨_, hasked, -⟩ <;> rw [hasked] <;> rfl
  obtain ⟨row', hrow', huser, hcreated, hneeds⟩ := h.copy pk hpk action (by rw [hphase]; rfl)
  obtain rfl : row = row' := Option.some.inj (hrow.symm.trans hrow')
  have htime : s.now ≤ action.createdAt + LIFETIME :=
    h.inTime _ (by rw [Call.deadlines, hphase]; exact List.mem_cons_self)
  refine ⟨huser.symm, hpending, hcreated ▸ htime, ?_, fun hcode => ?_⟩
  · exact h.switchedOn (by rw [Call.isCleared, hphase])
  rcases h.cleared action code hphase with ⟨happrove, -⟩ | ⟨q, typed, c, hverify, rfl, hmatches⟩
  · exact absurd (hneeds.symm.trans hcode) happrove
  · -- the code it has read is still the latest, and its time is not over
    rcases hasked with ⟨hasked, -⟩ | ⟨typed', hasked, rfl⟩
    · rw [hverify] at hasked
      cases hasked
    · rw [hverify] at hasked
      cases hasked
      obtain ⟨latest, hlatest, hsent⟩ := h.code (pk, c)
        (by rw [Call.relies, hverify, hphase]; rfl)
      obtain ⟨hhash, hexpires, -⟩ : latest.codeHash = c.codeHash ∧ latest.expiresAt = c.expiresAt
          ∧ latest.lastSentAt = c.lastSentAt := by
        simpa only [VerificationCode.sent, Prod.mk.injEq] using hsent
      refine ⟨typed, rfl, latest, hlatest, ?_, ?_⟩
      · rw [codeMatches, hhash]
        exact hmatches
      · show s.now ≤ latest.lastSentAt + CODE_LIFETIME
        rw [← hs.lifetime pk latest hlatest, hexpires]
        refine h.inTime _ ?_
        rw [Call.deadlines, hphase]
        exact List.mem_cons_of_mem _ List.mem_cons_self

/-- **What a step keeps of the store.** -/
theorem ActionStore.Sound.did (h : s.Sound checkPassword) (hknows : call.Knows checkPassword s)
    (hdid : Call.Did checkPassword a s call s' call') : s'.Sound checkPassword := by
  cases hdid with
  | moved hframe _ =>
    refine ⟨?_, ?_, ?_, lifetime_of_sent h.lifetime hframe.codes⟩
    · rw [hframe.carriedOut]
      exact h.once
    · rw [hframe.carriedOut]
      exact h.rightful
    · rw [hframe.carriedOut]
      intro r hr
      obtain ⟨row, hrow, hstatus⟩ := h.taken r hr
      obtain ⟨row', hrow', hkept⟩ := hframe.actions r.action row hrow
      exact ⟨row', hrow', hkept.status hstatus⟩
  | issued _ =>
    refine ⟨h.once, h.rightful, h.taken, fun q code hcode => ?_⟩
    unfold ActionStore.issueCode at hcode
    dsimp only at hcode
    split at hcode
    · cases hcode
      rfl
    · exact h.lifetime q code hcode
  | @taken _ _ pk action row code entered hphase hrow hpending hasked =>
    refine ⟨?_, ?_, ?_, h.lifetime⟩
    · refine List.nodup_cons.mpr ⟨fun hmem => ?_, h.once⟩
      obtain ⟨r, hr, hsame⟩ := List.mem_map.mp hmem
      obtain ⟨old, hold, hstatus⟩ := h.taken r hr
      rw [hsame, hrow] at hold
      cases hold
      exact hstatus hpending
    · intro r hr
      rcases List.mem_cons.mp hr with rfl | hr
      · exact hknows.rightful h hphase hrow hpending hasked
      · exact h.rightful r hr
    · intro r hr
      rcases List.mem_cons.mp hr with rfl | hr
      · exact ⟨_, Table.get?_put_self hrow _, nofun⟩
      · obtain ⟨old, hold, hstatus⟩ := h.taken r hr
        obtain ⟨row', hrow', hkept⟩ := kept_taken hrow r.action old hold
        exact ⟨row', hrow', hkept.status hstatus⟩
  | loaded _ _ _ => exact h
  | fresh _ _ _ _ => exact h
  | held _ _ _ => exact h
  | approved _ _ _ => exact h
  | verified _ _ _ _ _ => exact h

end

/-- Why changes are carried out rightly. -/
def actionOutline (checkPassword : String → String → Bool) :
    Outline ((acting checkPassword).under SwitchedOn) Settled where
  shared := ActionStore.Sound checkPassword
  own s call := call.Knows checkPassword s
  pair _ _ := True
  pair_symm := fun _ _ _ => trivial
  start_own := by
    intro request s s' call h hs
    cases (pure_eq_ok _ _).mp h
    exact ⟨hs, Call.knows_of_idle rfl⟩
  start_other := by
    intro request s s' call other h _ hother
    cases (pure_eq_ok _ _).mp h
    exact ⟨hother, trivial⟩
  step_own := by
    intro a s s' call call' h hs hknows
    obtain ⟨hon, h⟩ := Interleaving.under_step_eq_ok.mp h
    have hdid := Call.did h
    exact ⟨hs.did hknows hdid, hknows.did hon hdid⟩
  step_other := by
    intro a s s' call call' other h _ _ hother _ hsettled
    obtain ⟨-, h⟩ := Interleaving.under_step_eq_ok.mp h
    exact ⟨hother.of_did hsettled (Call.did h), trivial⟩
  outside_shared := by
    intro c s s' h hs
    cases c with
    | tick now =>
      obtain ⟨_, _, h⟩ := bind_eq_ok.mp h
      cases (pure_eq_ok _ _).mp h
      exact ⟨hs.once, hs.rightful, hs.taken, hs.lifetime⟩
    | switch changesOn =>
      cases (pure_eq_ok _ _).mp h
      exact ⟨hs.once, hs.rightful, hs.taken, hs.lifetime⟩
  outside_other := by
    intro c s s' other h _ hother hsettled
    cases c with
    | tick now =>
      obtain ⟨_, _, h⟩ := bind_eq_ok.mp h
      cases (pure_eq_ok _ _).mp h
      exact ⟨hother.copy, hother.fresh, hsettled, hother.switchedOn, hother.code, hother.cleared⟩
    | switch changesOn =>
      cases (pure_eq_ok _ _).mp h
      exact ⟨hother.copy, hother.fresh, hother.inTime, hsettled, hother.code, hother.cleared⟩

/-- **Every change is carried out rightly**: once, by its owner, while it is pending, in time and
    while changes are on, and with its latest code where it needs one, in every run in which a
    code is checked only while changes are on and what a call has checked stays so until it takes
    the action. -/
theorem carriedOutRightly (checkPassword : String → String → Bool)
    (turns : List (Turn (ℕ × Asked) Call.Step Surroundings)) (now : ℕ) (changesOn : Bool)
    (hcondition : (acting checkPassword).machine.EachStep
      (fun s turn _ => turn.Meets SwitchedOn s ∧ Settled.Respected s turn) turns
      ⟨{ now, changesOn }, {}⟩) :
    (acting checkPassword).machine.Always (CarriedOutRightly checkPassword) turns
      ⟨{ now, changesOn }, {}⟩ := by
  refine (actionOutline checkPassword).always_under
    (fun s h => ⟨h.shared.once, h.shared.rightful⟩) turns _ (.start _ ?_) hcondition
  refine ⟨.nil, fun r hr => absurd hr List.not_mem_nil, fun r hr => absurd hr List.not_mem_nil,
    fun pk code hcode => ?_⟩
  cases hcode

/-- A change that needs a code is proposed, and its code is entered. -/
def entersCode (between : List (Turn (ℕ × Asked) Call.Step Surroundings)) :
    List (Turn (ℕ × Asked) Call.Step Surroundings) :=
  ([.start (7, .propose "add_dns_record"), .step 0 .go, .step 0 (.describe "Add an A record"),
    .step 0 (.issue "123456"), .start (7, .verify 0 "123456"), .step 1 .go] :
      List (Turn (ℕ × Asked) Call.Step Surroundings))
    ++ between
    ++ ([.step 1 .go, .step 1 .go, .step 1 .go] : List (Turn (ℕ × Asked) Call.Step Surroundings))

/-- The code is entered after a minute, and a second request with it comes too late. -/
theorem carriedOutRightly_entered : (acting (· == ·)).machine.Always (CarriedOutRightly (· == ·))
    (entersCode [.outside (.tick 60)] ++ ([.start (7, .verify 0 "123456"), .step 2 .go,
      .step 2 .go] : List (Turn (ℕ × Asked) Call.Step Surroundings)))
    ⟨{ now := 0, changesOn := true }, {}⟩ :=
  carriedOutRightly _ _ 0 true (Machine.eachStep_of_trace (by decide +kernel))

/-- **The code is accepted while changes are switched off**: only `approve` asks. -/
theorem not_carriedOutRightly :
    ¬(acting (· == ·)).machine.Always (CarriedOutRightly (· == ·))
      (.start (7, .propose "add_dns_record") :: .step 0 .go :: .step 0 (.describe "Add an A record")
        :: .step 0 (.issue "123456") :: .outside (.switch false)
        :: .start (7, .verify 0 "123456") :: List.replicate 4 (.step 1 .go))
      ⟨{ now := 0, changesOn := true }, {}⟩ := by
  intro h
  have hoff : ∃ r ∈ ((acting (· == ·)).machine.run
      (.start (7, .propose "add_dns_record") :: .step 0 .go :: .step 0 (.describe "Add an A record")
        :: .step 0 (.issue "123456") :: .outside (.switch false)
        :: .start (7, .verify 0 "123456") :: List.replicate 4 (.step 1 .go))
      ⟨{ now := 0, changesOn := true }, {}⟩).shared.carriedOut, r.changesOn = false := by
    decide +kernel
  obtain ⟨r, hr, hoff⟩ := hoff
  have hon := (h.last.rightful r hr).switchedOn
  rw [hoff] at hon
  cases hon

end WPanel.Assistant
