import WPanel.Core
import WPanel.Lib.Interleaving

namespace WPanel.Assistant.Live

open WPanel.Lib

/-!
# Live chat with a person

`assistant/live.py` and `send` of `assistant/agent.py`, on one conversation.  A request works on the
copy it loaded when it began.  `take` is one conditional update; the other requests check their copy
and write without looking again, and `send` writes the status back once the assistant has answered.

* `Request`, `chatting` — the requests step by step and in any order, while the customer may start
  a new chat;
* `Rightful` — no step opens a second ticket, opens a closed chat again, or moves a chat away from
  the member it is with, unless that member hands it back or passes it on;
* `Current` — a request writes the status, or opens a ticket, while the conversation is as its copy
  says;
* `AsksOpen` — the assistant does not ask for a person in a chat that it has closed with a ticket;
* `OneTicket` — no two requests are opening a ticket at the same time;
* `Kept` — all three;
* `stepsRightful` — every step of a run that keeps to them is rightful;
* `not_stepsRightful` — the answer of the assistant puts a chat that was taken back in the queue,
  and opens a closed one again; a chat gets two tickets.
-/

/-! ### The conversation -/

inductive ConversationStatus where
  | ai
  | waiting
  | withStaff
  | closed
  deriving DecidableEq, Repr

structure Conversation where
  status : ConversationStatus := .ai
  assignedTo : Option ℕ := none
  ticket : Option ℕ := none
  deriving DecidableEq, Repr

/-- The conversation, and how many tickets were opened for it. -/
structure ChatStore where
  conversation : Conversation := {}
  tickets : ℕ := 0
  deriving DecidableEq, Repr

/-- The conversation is with this member of the staff. -/
def Conversation.IsWith (c : Conversation) (staff : ℕ) : Prop :=
  c.status = .withStaff ∧ c.assignedTo = some staff

instance (c : Conversation) (staff : ℕ) : Decidable (c.IsWith staff) :=
  inferInstanceAs (Decidable (_ ∧ _))

/-- A person was asked for, or is there. -/
def Conversation.HasPerson (c : Conversation) : Prop := c.status = .waiting ∨ c.status = .withStaff

instance (c : Conversation) : Decidable c.HasPerson := inferInstanceAs (Decidable (_ ∨ _))

/-! ### The requests -/

/-- What is wanted, and by which member of the staff. -/
inductive Wanted where
  | send (text : String)
  | askPerson
  | take (staff : ℕ)
  | reply (staff : ℕ) (text : String)
  | handBack (staff : ℕ)
  | close (staff : ℕ)
  | transfer (staff toUser : ℕ)
  | toTicket (staff : ℕ)
  | ticketInstead
  deriving DecidableEq, Repr

/-- The customer's requests find the conversation while it is not closed. -/
def Wanted.byCustomer : Wanted → Bool
  | .send _ => true
  | .askPerson => true
  | .ticketInstead => true
  | _ => false

/-- How far a request has come, with its copy. -/
inductive Request.Phase where
  | loaded (copy : Conversation)
  /-- The assistant is asked, and may use its tools. -/
  | talking (copy : Conversation)
  /-- A ticket is open, and not yet saved in the conversation. -/
  | opened (copy : Conversation) (ticket : ℕ)
  | over
  | raised (error : Err)
  deriving DecidableEq, Repr

structure Request where
  wanted : Wanted
  phase : Request.Phase
  deriving DecidableEq, Repr

/-- What a request asks of the panel around it. -/
structure Answers where
  /-- `team_available`. -/
  teamAvailable : Bool := true
  /-- `available`. -/
  agentAvailable : Bool := true
  usedToday : ℕ := 0
  dailyLimit : ℕ := 30
  /-- `support.open_ticket` refuses. -/
  ticketRefused : Option Err := none

/-- The steps of a request. -/
inductive Request.Step where
  /-- What was asked for, on the copy. -/
  | act (answers : Answers)
  /-- The assistant asks for a person. -/
  | ask (answers : Answers)
  /-- The ticket is saved in the conversation. -/
  | file
  /-- The assistant has answered. -/
  | finish
  /-- The assistant cannot answer. -/
  | fail (error : Err)

def MAX_INPUT : ℕ := 2000

/-- `Ticket.reference`. -/
def reference (ticket : ℕ) : String := "T" ++ zeroPad 6 ticket

def denied : Err :=
  .service "You do not have permission to perform this action." "permission_denied" 403

def hasTicket : Err := serviceError "This chat already has a ticket." "has_ticket"

def emptyMessage : Err := serviceError "Write your message first." "empty"

/-- The first half of `_ticket`. -/
def openTicket (answers : Answers) (s : ChatStore) (copy : Conversation) :
    Except Err (ChatStore × Request.Phase) :=
  match answers.ticketRefused with
  | some error => throw error
  | none => pure ({ s with tickets := s.tickets + 1 }, .opened copy s.tickets)

/-- `ask_person`, and where the request goes on with its copy. -/
def askPerson (answers : Answers) (goOn : Conversation → Request.Phase) (s : ChatStore)
    (copy : Conversation) : Except Err (ChatStore × Request.Phase) :=
  if copy.HasPerson then pure (s, goOn copy)
  else if answers.teamAvailable = false then openTicket answers s copy
  else pure ({ s with conversation := { s.conversation with status := .waiting } },
    goOn { copy with status := .waiting })

/-- `send`, until the assistant is asked. -/
def send (answers : Answers) (text : String) (s : ChatStore) (copy : Conversation) :
    Except Err (ChatStore × Request.Phase) := do
  let tooLong := serviceError "Please keep a message under 2000 characters." "too_long"
  ensure (¬(copy.ticket.isSome ∧ copy.status = .closed)) (serviceError
    ("This chat became ticket " ++ reference (copy.ticket.getD 0) ++
      ". Reply to our team there, or start a new chat.") "with_staff")
  if copy.HasPerson then do
    ensure ((strip text).toList.length ≤ MAX_INPUT) tooLong
    ensure (strip text ≠ "") emptyMessage
    return (s, .over)
  else do
    ensure (answers.agentAvailable = true) (.service
      "The AI Agent is not switched on yet. Please open a ticket and our team will help."
      "assistant_off" 503)
    ensure (strip text ≠ "") emptyMessage
    ensure ((strip text).toList.length ≤ MAX_INPUT) tooLong
    ensure (answers.usedToday < answers.dailyLimit) (.service
      ("You have reached today's message limit for the AI Agent. Please open a ticket, " ++
        "or try again tomorrow.") "daily_limit" 429)
    return (s, .talking copy)

section

variable (canManage : ℕ → Bool)

/-- `take`: one conditional update of the conversation as it is. -/
def take (staff : ℕ) (s : ChatStore) : Except Err (ChatStore × Request.Phase) := do
  ensure (canManage staff = true) denied
  ensure (s.conversation.status = .waiting ∨ s.conversation.status = .ai)
    (serviceError "This chat is already with someone else or is closed." "taken")
  return ({ s with conversation :=
    { s.conversation with status := .withStaff, assignedTo := some staff } }, .over)

/-- `_mine`. -/
def mine (staff : ℕ) (copy : Conversation) : Except Err Unit := do
  ensure (canManage staff = true) denied
  ensure (copy.IsWith staff) (serviceError "This chat is not yours. Take it first." "not_yours")

def reply (staff : ℕ) (text : String) (s : ChatStore) (copy : Conversation) :
    Except Err (ChatStore × Request.Phase) := do
  mine canManage staff copy
  ensure (strip text ≠ "") emptyMessage
  ensure ((strip text).toList.length ≤ 4000)
    (serviceError "Please keep a message under 4000 characters." "too_long")
  return (s, .over)

def handBack (staff : ℕ) (s : ChatStore) (copy : Conversation) :
    Except Err (ChatStore × Request.Phase) := do
  mine canManage staff copy
  return ({ s with conversation :=
    { s.conversation with status := .ai, assignedTo := none } }, .over)

def close (staff : ℕ) (s : ChatStore) (copy : Conversation) :
    Except Err (ChatStore × Request.Phase) := do
  mine canManage staff copy
  return ({ s with conversation := { s.conversation with status := .closed } }, .over)

def transfer (staff toUser : ℕ) (s : ChatStore) (copy : Conversation) :
    Except Err (ChatStore × Request.Phase) := do
  mine canManage staff copy
  ensure (canManage toUser = true) (serviceError "Choose a member of the support team." "not_agent")
  return ({ s with conversation := { s.conversation with assignedTo := some toUser } }, .over)

def toTicket (answers : Answers) (staff : ℕ) (s : ChatStore) (copy : Conversation) :
    Except Err (ChatStore × Request.Phase) := do
  ensure (canManage staff = true) denied
  ensure (copy.ticket = none) hasTicket
  openTicket answers s copy

def ticketInstead (answers : Answers) (s : ChatStore) (copy : Conversation) :
    Except Err (ChatStore × Request.Phase) := do
  ensure (copy.ticket = none) hasTicket
  openTicket answers s copy

/-- What is done on the copy. -/
def Wanted.act (answers : Answers) (s : ChatStore) (copy : Conversation) :
    Wanted → Except Err (ChatStore × Request.Phase)
  | .send text => Live.send answers text s copy
  | .askPerson => Live.askPerson answers (fun _ => .over) s copy
  | .take staff => Live.take canManage staff s
  | .reply staff text => Live.reply canManage staff text s copy
  | .handBack staff => Live.handBack canManage staff s copy
  | .close staff => Live.close canManage staff s copy
  | .transfer staff toUser => Live.transfer canManage staff toUser s copy
  | .toTicket staff => Live.toTicket canManage answers staff s copy
  | .ticketInstead => Live.ticketInstead answers s copy

/-- Where a request is when its ticket is saved: the assistant goes on. -/
def Wanted.afterTicket (copy : Conversation) : Wanted → Request.Phase
  | .send _ => .talking copy
  | _ => .over

/-- A step of a request; one that is refused raises, but the assistant reads the refusal and goes
    on. -/
def Request.next (a : Request.Step) (s : ChatStore) (w : Request) :
    Except Err (ChatStore × Request) :=
  match a, w.phase with
  | .act answers, .loaded copy =>
    match w.wanted.act canManage answers s copy with
    | .ok (s', phase) => pure (s', { w with phase })
    | .error error => pure (s, { w with phase := .raised error })
  | .ask answers, .talking copy =>
    match askPerson answers .talking s copy with
    | .ok (s', phase) => pure (s', { w with phase })
    | .error _ => pure (s, w)
  | .file, .opened copy ticket =>
    pure ({ s with conversation :=
        { s.conversation with ticket := some ticket, status := .closed } },
      { w with phase :=
        w.wanted.afterTicket { copy with ticket := some ticket, status := .closed } })
  | .finish, .talking copy =>
    pure ({ s with conversation := { s.conversation with status := copy.status } },
      { w with phase := .over })
  | .fail error, .talking _ => pure (s, { w with phase := .raised error })
  | _, _ => throw (.unexpected "not the next step")

/-- The requests in any order.  The customer finds the conversation while it is not closed
    (`current_conversation`), and may close it by starting a new one (`new_chat`). -/
def chatting : Interleaving ChatStore Request Wanted Request.Step Unit Err where
  start wanted s := do
    ensure (wanted.byCustomer = true → s.conversation.status ≠ .closed)
      (.unexpected "the customer is in a new conversation")
    return (s, { wanted, phase := .loaded s.conversation })
  step a s w := w.next canManage a s
  outside _ s := pure { s with conversation := { s.conversation with status := .closed } }
  absent := .unexpected "there is no such request"

end

/-! ### What the requests may do to a conversation -/

/-- The member of the staff hands the conversation back, or passes it on. -/
def LetsGo (staff : ℕ) (s : System ChatStore Request) (turn : Turn Wanted Request.Step Unit) :
    Prop :=
  match turn with
  | .step i _ => ∃ w ∈ s.workers.get? i,
      w.wanted = .handBack staff ∨ ∃ toUser, w.wanted = .transfer staff toUser
  | _ => False

/-- A step opens no second ticket, leaves a closed chat closed, and leaves one that is with a member
    of the staff with that member, unless it closes it or the member lets it go. -/
structure Rightful (s : System ChatStore Request) (turn : Turn Wanted Request.Step Unit)
    (s' : System ChatStore Request) : Prop where
  ticket : s'.shared.tickets ≤ 1
  closed : s.shared.conversation.status = .closed → s'.shared.conversation.status = .closed
  kept : ∀ staff, s.shared.conversation.IsWith staff → s'.shared.conversation.IsWith staff
    ∨ s'.shared.conversation.status = .closed ∨ LetsGo staff s turn

/-- The copy that a step writes by. -/
def Request.relies (a : Request.Step) (w : Request) : Option Conversation :=
  match a, w.wanted, w.phase with
  | .act _, .askPerson, .loaded copy => if copy.HasPerson then none else some copy
  | .act _, .handBack staff, .loaded copy => if copy.IsWith staff then some copy else none
  | .act _, .transfer staff _, .loaded copy => if copy.IsWith staff then some copy else none
  | .act _, .toTicket _, .loaded copy => if copy.ticket = none then some copy else none
  | .act _, .ticketInstead, .loaded copy => if copy.ticket = none then some copy else none
  | .ask _, _, .talking copy => if copy.HasPerson then none else some copy
  | .finish, _, .talking copy => some copy
  | _, _, _ => none

/-- The copy that a request asks for a person by. -/
def Request.asks (a : Request.Step) (w : Request) : Option Conversation :=
  match a, w.wanted, w.phase with
  | .act _, .askPerson, .loaded copy => some copy
  | .ask _, _, .talking copy => some copy
  | _, _, _ => none

/-- The conversation still is as the copy says that the request writes by. -/
def Current (s : ChatStore) (w : Request) (a : Request.Step) : Prop :=
  ∀ copy ∈ w.relies a, s.conversation = copy

instance (s : ChatStore) (w : Request) (a : Request.Step) : Decidable (Current s w a) :=
  inferInstanceAs (Decidable (∀ copy ∈ w.relies a, s.conversation = copy))

/-- The assistant has not closed the chat that it asks for a person in. -/
def AsksOpen (w : Request) (a : Request.Step) : Prop :=
  match a, w.phase with
  | .ask _, .talking copy => copy.status ≠ .closed
  | _, _ => True

instance (w : Request) (a : Request.Step) : Decidable (AsksOpen w a) := by
  unfold AsksOpen
  split <;> infer_instance

/-- Its ticket is open, and not yet saved. -/
def Request.isOpened (w : Request) : Bool :=
  match w.phase with
  | .opened _ _ => true
  | _ => false

/-- The step opens a ticket, if it is not refused. -/
def Request.opens (a : Request.Step) (w : Request) : Bool :=
  match a, w.wanted, w.phase with
  | .act answers, .askPerson, .loaded copy => !answers.teamAvailable && !decide copy.HasPerson
  | .act _, .toTicket _, .loaded copy => copy.ticket.isNone
  | .act _, .ticketInstead, .loaded copy => copy.ticket.isNone
  | .ask answers, _, .talking copy => !answers.teamAvailable && !decide copy.HasPerson
  | _, _, _ => false

/-- No ticket is opened while another request has one to save. -/
def OneTicket : Discipline ChatStore Request Request.Step Unit where
  step _ w a other := w.opens a = true → other.isOpened = false
  outside _ _ _ := True

instance (s : ChatStore) (w : Request) (a : Request.Step) (other : Request) :
    Decidable (OneTicket.step s w a other) :=
  inferInstanceAs (Decidable (w.opens a = true → other.isOpened = false))

instance (s : ChatStore) (c : Unit) (other : Request) : Decidable (OneTicket.outside s c other) :=
  isTrue trivial

/-! ### What a step does -/

/-- The request has acted on its copy, and has no ticket to save. -/
def Request.Phase.Acted : Request.Phase → Prop
  | .loaded _ => False
  | .opened _ _ => False
  | _ => True

/-- What a step of a request does to the conversation, and where the request goes on. -/
inductive Request.Did (canManage : ℕ → Bool) :
    Request.Step → ChatStore → Request → ChatStore → Request.Phase → Prop where
  /-- Nothing. -/
  | quiet {a : Request.Step} {s : ChatStore} {w : Request} {phase : Request.Phase}
      (hfree : w.isOpened = false) (hphase : phase.Acted) :
      Did canManage a s w s phase
  | opened {a : Request.Step} {s : ChatStore} {w : Request} {copy : Conversation}
      (hfree : w.isOpened = false) (hrelies : w.relies a = some copy) (hopens : w.opens a = true)
      (hticket : copy.ticket = none ∨ w.asks a = some copy) :
      Did canManage a s w { s with tickets := s.tickets + 1 } (.opened copy s.tickets)
  | asked {a : Request.Step} {s : ChatStore} {w : Request} {copy : Conversation}
      {phase : Request.Phase} (hfree : w.isOpened = false) (hrelies : w.relies a = some copy)
      (hperson : ¬copy.HasPerson) (hasks : w.asks a = some copy)
      (hphase : phase.Acted) :
      Did canManage a s w
        { s with conversation := { s.conversation with status := .waiting } } phase
  | taken {a : Request.Step} {s : ChatStore} {w : Request} {staff : ℕ} (hfree : w.isOpened = false)
      (hstatus : s.conversation.status = .waiting ∨ s.conversation.status = .ai) :
      Did canManage a s w { s with conversation :=
        { s.conversation with status := .withStaff, assignedTo := some staff } } .over
  | handedBack {a : Request.Step} {s : ChatStore} {w : Request} {copy : Conversation} {staff : ℕ}
      (hfree : w.isOpened = false) (hrelies : w.relies a = some copy) (hmine : copy.IsWith staff)
      (hwanted : w.wanted = .handBack staff) :
      Did canManage a s w
        { s with conversation := { s.conversation with status := .ai, assignedTo := none } } .over
  | closed {a : Request.Step} {s : ChatStore} {w : Request} (hfree : w.isOpened = false) :
      Did canManage a s w { s with conversation := { s.conversation with status := .closed } } .over
  | passedOn {a : Request.Step} {s : ChatStore} {w : Request} {copy : Conversation}
      {staff toUser : ℕ} (hfree : w.isOpened = false) (hrelies : w.relies a = some copy)
      (hmine : copy.IsWith staff) (hwanted : w.wanted = .transfer staff toUser) :
      Did canManage a s w
        { s with conversation := { s.conversation with assignedTo := some toUser } } .over
  | filed {a : Request.Step} {s : ChatStore} {w : Request} {ticket : ℕ} {phase : Request.Phase}
      (hphase : phase.Acted) :
      Did canManage a s w { s with conversation :=
        { s.conversation with ticket := some ticket, status := .closed } } phase
  | finished {a : Request.Step} {s : ChatStore} {w : Request} {copy : Conversation}
      (hfree : w.isOpened = false) (hrelies : w.relies a = some copy) :
      Did canManage a s w
        { s with conversation := { s.conversation with status := copy.status } } .over

section

variable {canManage : ℕ → Bool} {a : Request.Step} {s s' : ChatStore} {w w' : Request}
  {copy : Conversation} {phase : Request.Phase} {answers : Answers}

private theorem askPerson_did (goOn : Conversation → Request.Phase) (hfree : w.isOpened = false)
    (hgoOn : ∀ c, (goOn c).Acted) (hasks : w.asks a = some copy)
    (hrelies : ¬copy.HasPerson → w.relies a = some copy)
    (hopens : ¬copy.HasPerson → answers.teamAvailable = false → w.opens a = true)
    (h : askPerson answers goOn s copy = .ok (s', phase)) :
    Request.Did canManage a s w s' phase := by
  unfold askPerson at h
  split at h
  · cases h
    exact .quiet hfree (hgoOn copy)
  · next hperson =>
    split at h
    · next haway =>
      unfold openTicket at h
      split at h
      · cases h
      · cases h
        exact .opened hfree (hrelies hperson) (hopens hperson haway) (.inr hasks)
    · cases h
      exact .asked hfree (hrelies hperson) hperson hasks (hgoOn _)

private theorem act_did (hphase : w.phase = .loaded copy)
    (h : w.wanted.act canManage answers s copy = .ok (s', phase)) :
    Request.Did canManage (.act answers) s w s' phase := by
  have hfree : w.isOpened = false := by rw [Request.isOpened, hphase]
  unfold Wanted.act at h
  split at h
  · next text hwanted =>
    unfold send at h
    simp only [bind_eq_ok, ensure_eq_ok] at h
    obtain ⟨_, _, h⟩ := h
    split at h
    · simp only [bind_eq_ok, ensure_eq_ok] at h
      obtain ⟨_, _, _, _, h⟩ := h
      cases h
      exact .quiet hfree trivial
    · simp only [bind_eq_ok, ensure_eq_ok] at h
      obtain ⟨_, _, _, _, _, _, _, _, h⟩ := h
      cases h
      exact .quiet hfree trivial
  · next hwanted =>
    -- the customer asks for a person
    refine askPerson_did (fun _ => .over) hfree (fun _ => trivial) ?_ (fun hperson => ?_)
      (fun hperson haway => ?_) h
    · unfold Request.asks
      rw [hwanted, hphase]
    · unfold Request.relies
      rw [hwanted, hphase]
      exact if_neg hperson
    · unfold Request.opens
      rw [hwanted, hphase]
      simp [haway, hperson]
  · unfold take at h
    simp only [bind_eq_ok, ensure_eq_ok] at h
    obtain ⟨_, _, _, hstatus, h⟩ := h
    cases h
    exact .taken hfree hstatus
  · unfold reply at h
    simp only [bind_eq_ok, ensure_eq_ok] at h
    obtain ⟨_, _, _, _, _, _, h⟩ := h
    cases h
    exact .quiet hfree trivial
  · next staff hwanted =>
    simp only [handBack, mine, bind_eq_ok, ensure_eq_ok] at h
    obtain ⟨_, ⟨_, _, hmine⟩, h⟩ := h
    cases h
    refine .handedBack hfree ?_ hmine hwanted
    unfold Request.relies
    rw [hwanted, hphase]
    exact if_pos hmine
  · simp only [close, mine, bind_eq_ok, ensure_eq_ok] at h
    obtain ⟨_, _, h⟩ := h
    cases h
    exact .closed hfree
  · next staff toUser hwanted =>
    simp only [transfer, mine, bind_eq_ok, ensure_eq_ok] at h
    obtain ⟨_, ⟨_, _, hmine⟩, _, _, h⟩ := h
    cases h
    refine .passedOn hfree ?_ hmine hwanted
    unfold Request.relies
    rw [hwanted, hphase]
    exact if_pos hmine
  · next staff hwanted =>
    simp only [toTicket, openTicket, bind_eq_ok, ensure_eq_ok] at h
    obtain ⟨_, _, _, hticket, h⟩ := h
    split at h
    · cases h
    · cases h
      -- a ticket is opened where the copy had none
      refine .opened hfree ?_ ?_ (.inl hticket)
      · unfold Request.relies
        rw [hwanted, hphase]
        exact if_pos hticket
      · unfold Request.opens
        rw [hwanted, hphase]
        exact Option.isNone_iff_eq_none.mpr hticket
  · next hwanted =>
    simp only [ticketInstead, openTicket, bind_eq_ok, ensure_eq_ok] at h
    obtain ⟨_, hticket, h⟩ := h
    split at h
    · cases h
    · cases h
      refine .opened hfree ?_ ?_ (.inl hticket)
      · unfold Request.relies
        rw [hwanted, hphase]
        exact if_pos hticket
      · unfold Request.opens
        rw [hwanted, hphase]
        exact Option.isNone_iff_eq_none.mpr hticket

/-- **Every step does one of these things**, and the request goes on from there. -/
theorem Request.did (h : w.next canManage a s = .ok (s', w')) :
    Request.Did canManage a s w s' w'.phase ∧ w' = { w with phase := w'.phase } := by
  unfold Request.next at h
  split at h
  · next answers copy hphase =>
    split at h
    · next hact =>
      cases h
      exact ⟨act_did hphase hact, rfl⟩
    · cases h
      exact ⟨.quiet (by rw [Request.isOpened, hphase]) trivial, rfl⟩
  · next answers copy hphase =>
    have hfree : w.isOpened = false := by rw [Request.isOpened, hphase]
    split at h
    · next hask =>
      cases h
      refine ⟨askPerson_did .talking hfree (fun _ => trivial) ?_ (fun hperson => ?_)
        (fun hperson haway => ?_) hask, rfl⟩
      · unfold Request.asks
        rw [hphase]
      · unfold Request.relies
        rw [hphase]
        exact if_neg hperson
      · unfold Request.opens
        rw [hphase]
        simp [haway, hperson]
    · cases h
      exact ⟨.quiet hfree (by rw [hphase]; trivial), rfl⟩
  · next copy ticket hphase =>
    cases h
    refine ⟨.filed ?_, rfl⟩
    show Request.Phase.Acted (w.wanted.afterTicket _)
    cases w.wanted <;> trivial
  · next copy hphase =>
    cases h
    refine ⟨.finished (by rw [Request.isOpened, hphase]) ?_, rfl⟩
    unfold Request.relies
    rw [hphase]
  · next error copy hphase =>
    cases h
    exact ⟨.quiet (by rw [Request.isOpened, hphase]) trivial, rfl⟩
  · cases h

/-- A request acts on its copy once. -/
private theorem Request.Did.phase_ne_loaded (h : Request.Did canManage a s w s' phase)
    (copy : Conversation) : phase ≠ .loaded copy := by
  rintro rfl
  cases h with
  | quiet _ hphase => exact hphase
  | asked _ _ _ _ hphase => exact hphase
  | filed hphase => exact hphase

/-! ### What is known between the steps -/

/-- Every ticket that was opened is saved in the conversation, which is closed then, or is still to
    be saved by the request that opened it; the customer's requests have found the conversation
    while it was not closed. -/
structure Sound (s : System ChatStore Request) : Prop where
  once : s.shared.tickets ≤ 1
  filed : s.shared.conversation.ticket ≠ none → s.shared.conversation.status = .closed
  owed : s.shared.tickets ≠ 0 → s.shared.conversation.ticket ≠ none
    ∨ ∃ i w, s.workers.get? i = some w ∧ w.isOpened = true
  found : s.workers.Forall fun _ w => ∀ copy, w.phase = .loaded copy →
    w.wanted.byCustomer = true → copy.status ≠ .closed

variable {workers : Table Request} {i : ℕ}

/-- A step that opens no ticket and saves none. -/
private theorem Sound.of_status (h : Sound ⟨s, workers⟩) (hget : workers.get? i = some w)
    (hfree : w.isOpened = false) (hphase : ∀ copy, phase ≠ .loaded copy)
    {conversation : Conversation} (hticket : conversation.ticket = s.conversation.ticket)
    (hfiled : s.conversation.ticket ≠ none → s.conversation.status = .closed →
      conversation.status = .closed) :
    Sound ⟨{ s with conversation }, workers.put i { w with phase }⟩ where
  once := h.once
  filed := fun hne => by
    have hne' : s.conversation.ticket ≠ none := hticket ▸ hne
    exact hfiled hne' (h.filed hne')
  owed := fun hne => (h.owed hne).imp (fun hne' => hticket ▸ hne') fun ⟨j, c, hc, hopened⟩ => by
    have hj : j ≠ i := by
      rintro rfl
      rw [show workers.get? j = some w from hget] at hc
      cases hc
      rw [hfree] at hopened
      cases hopened
    exact ⟨j, c, (Table.get?_put_of_ne hj _).trans hc, hopened⟩
  found := h.found.put fun copy hloaded => absurd hloaded (hphase copy)

/-- An open conversation has no ticket. -/
private theorem Sound.ticket_eq_none (h : Sound ⟨s, workers⟩)
    (hopen : s.conversation.status ≠ .closed) : s.conversation.ticket = none := by
  by_contra hne
  exact hopen (h.filed hne)

/-- A request asks for a person while its copy is not closed. -/
private theorem Sound.status_of_asks (h : Sound ⟨s, workers⟩) (hget : workers.get? i = some w)
    (hopen : AsksOpen w a) (hasks : w.asks a = some copy) : copy.status ≠ .closed := by
  unfold Request.asks at hasks
  split at hasks
  · next hwanted hphase =>
    cases hasks
    exact h.found i w hget copy hphase (by rw [hwanted]; rfl)
  · next hphase =>
    cases hasks
    unfold AsksOpen at hopen
    rw [hphase] at hopen
    exact hopen
  · cases hasks

/-- **A step within the conditions** keeps what is known. -/
private theorem Sound.did (h : Sound ⟨s, workers⟩) (hget : workers.get? i = some w)
    (hcurrent : Current s w a) (hopen : AsksOpen w a)
    (hone : ∀ j other, j ≠ i → workers.get? j = some other → w.opens a = true →
      other.isOpened = false)
    (hdid : Request.Did canManage a s w s' phase) :
    Sound ⟨s', workers.put i { w with phase }⟩ := by
  have hloaded := hdid.phase_ne_loaded
  cases hdid with
  | quiet hfree _ => exact h.of_status hget hfree hloaded rfl fun _ hclosed => hclosed
  | @opened copy hfree hrelies hopens hticket =>
    have hcopy : s.conversation = copy := hcurrent copy hrelies
    have hnone : s.conversation.ticket = none := by
      rcases hticket with hnone | hasks
      · rw [hcopy, hnone]
      · exact h.ticket_eq_none (hcopy ▸ h.status_of_asks hget hopen hasks)
    -- no ticket was opened before: it would be saved, or another request would have it to save
    have hzero : s.tickets = 0 := by
      by_contra hne
      rcases h.owed hne with hsome | ⟨j, c, hc, hopened⟩
      · exact hsome hnone
      · by_cases hj : j = i
        · subst hj
          rw [show workers.get? j = some w from hget] at hc
          cases hc
          rw [hfree] at hopened
          cases hopened
        · rw [hone j c hj hc hopens] at hopened
          cases hopened
    exact {
      once := by show s.tickets + 1 ≤ 1; omega
      filed := h.filed
      owed := fun _ => .inr ⟨i, _, Table.get?_put_self hget _, rfl⟩
      found := h.found.put fun copy hphase => absurd hphase (hloaded copy) }
  | @asked copy _ hfree hrelies _ hasks _ =>
    have hcopy : s.conversation = copy := hcurrent copy hrelies
    have hstatus : s.conversation.status ≠ .closed :=
      hcopy ▸ h.status_of_asks hget hopen hasks
    exact h.of_status hget hfree hloaded rfl fun _ hclosed => absurd hclosed hstatus
  | taken hfree hstatus =>
    refine h.of_status hget hfree hloaded rfl fun _ hclosed => ?_
    rw [hclosed] at hstatus
    simp at hstatus
  | @handedBack copy staff hfree hrelies hmine _ =>
    have hcopy : s.conversation = copy := hcurrent copy hrelies
    refine h.of_status hget hfree hloaded rfl fun _ hclosed => ?_
    rw [hcopy, hmine.1] at hclosed
    cases hclosed
  | closed hfree => exact h.of_status hget hfree hloaded rfl fun _ _ => rfl
  | passedOn hfree _ _ _ => exact h.of_status hget hfree hloaded rfl fun _ hclosed => hclosed
  | filed _ =>
    exact {
      once := h.once
      filed := fun _ => rfl
      owed := fun _ => .inl nofun
      found := h.found.put fun copy hphase => absurd hphase (hloaded copy) }
  | @finished copy hfree hrelies =>
    have hcopy : s.conversation = copy := hcurrent copy hrelies
    refine h.of_status hget hfree hloaded rfl fun _ hclosed => ?_
    show copy.status = .closed
    rw [← hcopy, hclosed]

/-- **What a step within the conditions does to the status.** -/
private theorem Sound.status_did (h : Sound ⟨s, workers⟩) (hget : workers.get? i = some w)
    (hcurrent : Current s w a) (hopen : AsksOpen w a)
    (hdid : Request.Did canManage a s w s' phase) :
    (s.conversation.status = .closed → s'.conversation.status = .closed)
      ∧ ∀ staff, s.conversation.IsWith staff → s'.conversation.IsWith staff
        ∨ s'.conversation.status = .closed
        ∨ w.wanted = .handBack staff ∨ ∃ toUser, w.wanted = .transfer staff toUser := by
  cases hdid with
  | quiet _ _ => exact ⟨id, fun _ hwith => .inl hwith⟩
  | opened _ _ _ _ => exact ⟨id, fun _ hwith => .inl hwith⟩
  | @asked copy _ _ hrelies hperson hasks _ =>
    have hcopy : s.conversation = copy := hcurrent copy hrelies
    refine ⟨fun hclosed => ?_, fun staff hwith => ?_⟩
    · rw [hcopy] at hclosed
      exact absurd hclosed (h.status_of_asks hget hopen hasks)
    · rw [hcopy] at hwith
      exact absurd (.inr hwith.1) hperson
  | taken _ hstatus =>
    refine ⟨fun hclosed => ?_, fun staff hwith => ?_⟩
    · rw [hclosed] at hstatus
      simp at hstatus
    · rw [hwith.1] at hstatus
      simp at hstatus
  | @handedBack copy member _ hrelies hmine hwanted =>
    have hcopy : s.conversation = copy := hcurrent copy hrelies
    rw [hcopy]
    refine ⟨fun hclosed => ?_, fun staff hwith => ?_⟩
    · rw [hmine.1] at hclosed
      cases hclosed
    · -- it is with the member that hands it back
      have hsame := hmine.2
      rw [hwith.2] at hsame
      cases hsame
      exact .inr (.inr (.inl hwanted))
  | closed _ => exact ⟨fun _ => rfl, fun _ _ => .inr (.inl rfl)⟩
  | @passedOn copy member toUser _ hrelies hmine hwanted =>
    have hcopy : s.conversation = copy := hcurrent copy hrelies
    refine ⟨id, fun staff hwith => ?_⟩
    rw [hcopy] at hwith
    have hsame := hmine.2
    rw [hwith.2] at hsame
    cases hsame
    exact .inr (.inr (.inr ⟨toUser, hwanted⟩))
  | filed _ => exact ⟨fun _ => rfl, fun _ _ => .inr (.inl rfl)⟩
  | @finished copy _ hrelies =>
    have hcopy : s.conversation = copy := hcurrent copy hrelies
    have hsame : copy.status = s.conversation.status := by rw [hcopy]
    show (_ → copy.status = .closed) ∧ _
    refine ⟨fun hclosed => hsame.trans hclosed, fun staff hwith => .inl ⟨?_, hwith.2⟩⟩
    exact hsame.trans hwith.1

/-- What the requests keep to. -/
def Kept (s : System ChatStore Request) (turn : Turn Wanted Request.Step Unit) : Prop :=
  turn.Meets (fun s w a => Current s w a ∧ AsksOpen w a) s ∧ OneTicket.Respected s turn

instance (s : System ChatStore Request) (turn : Turn Wanted Request.Step Unit) :
    Decidable (Kept s turn) := inferInstanceAs (Decidable (_ ∧ _))

/-- **A step of a run** keeps what is known, and is rightful. -/
theorem Sound.commits {s s' : System ChatStore Request} {turn : Turn Wanted Request.Step Unit}
    {out : List PUnit} (h : Sound s) (hcommits : (chatting canManage).machine.Commits turn s s' out)
    (hkept : Kept s turn) : Sound s' ∧ Rightful s turn s' := by
  obtain ⟨shared', workers'⟩ := s'
  cases turn with
  | start wanted =>
    obtain ⟨w, hstart, hworkers⟩ := Interleaving.start_eq_ok hcommits
    simp only [chatting, bind_eq_ok, ensure_eq_ok, pure_eq_ok] at hstart
    obtain ⟨_, hfound, hstart⟩ := hstart
    cases hstart
    cases hworkers
    refine ⟨⟨h.once, h.filed, fun hne => (h.owed hne).imp id fun howed => ?_,
      h.found.insert fun copy hphase => ?_⟩, ⟨h.once, id, fun _ hwith => .inl hwith⟩⟩
    · obtain ⟨j, c, hc, hopened⟩ := howed
      exact ⟨j, c, Table.get?_insert_of_some hc, hopened⟩
    · cases hphase
      exact hfound
  | step i a =>
    obtain ⟨w, w', hget, hnext, hworkers⟩ := Interleaving.step_eq_ok hcommits
    cases hworkers
    obtain ⟨hdid, hw'⟩ := Request.did hnext
    obtain ⟨hcurrent, hopen⟩ := hkept.1 w hget
    have hone := fun j other hj hother => hkept.2 w hget j other hj hother
    have hsound := h.did hget hcurrent hopen hone hdid
    rw [← hw'] at hsound
    obtain ⟨hclosed, hwith⟩ := h.status_did hget hcurrent hopen hdid
    refine ⟨hsound, hsound.once, hclosed, fun staff hstaff => ?_⟩
    exact (hwith staff hstaff).imp id (Or.imp id fun hgo => ⟨w, hget, hgo⟩)
  | outside c =>
    obtain ⟨hclose, hworkers⟩ := Interleaving.outside_eq_ok hcommits
    cases hworkers
    cases hclose
    exact ⟨⟨h.once, fun _ => rfl, h.owed, h.found⟩,
      ⟨h.once, fun _ => rfl, fun _ _ => .inr (.inl rfl)⟩⟩

end

/-- **Every step is rightful** when every request that writes the status, or opens a ticket, finds
    the conversation as its copy says, the assistant does not ask for a person in a chat it has
    closed, and no two requests are opening a ticket at the same time. -/
theorem stepsRightful (canManage : ℕ → Bool) (turns : List (Turn Wanted Request.Step Unit))
    (hkept : (chatting canManage).machine.EachStep (fun s turn _ => Kept s turn) turns ⟨{}, {}⟩) :
    (chatting canManage).machine.EachStep Rightful turns ⟨{}, {}⟩ := by
  have hfirst : Sound ⟨{}, {}⟩ := ⟨Nat.zero_le 1, fun hne => absurd rfl hne,
    fun hne => absurd rfl hne, .empty⟩
  exact Machine.eachStep_of_eachStep (fun _ _ _ _ h hcommits hstep => (h.commits hcommits hstep).1)
    (fun _ _ _ _ h hcommits hstep => (h.commits hcommits hstep).2) turns _ hfirst hkept

/-- A chat that is asked for, taken, passed on, handed back and turned into a ticket. -/
private def oneChat : List (Turn Wanted Request.Step Unit) :=
  [.start (.send "hello"), .step 0 (.act {}), .step 0 (.ask {}), .step 0 .finish,
    .start (.take 7), .step 1 (.act {}), .start (.reply 7 "hi"), .step 2 (.act {}),
    .start (.transfer 7 8), .step 3 (.act {}), .start (.handBack 8), .step 4 (.act {}),
    .start (.toTicket 8), .step 5 (.act {}), .step 5 .file]

theorem stepsRightful_oneChat :
    (chatting fun _ => true).machine.EachStep Rightful oneChat ⟨{}, {}⟩ :=
  stepsRightful (fun _ => true) oneChat (Machine.eachStep_of_trace (by decide +kernel))

/-- The assistant asks for a person, and one takes the chat before the assistant has answered. -/
private def takenMeanwhile : List (Turn Wanted Request.Step Unit) :=
  [.start (.send "a person please"), .step 0 (.act {}), .step 0 (.ask {}), .start (.take 7),
    .step 1 (.act {})]

/-- The chat is taken and closed before the assistant has answered. -/
private def closedMeanwhile : List (Turn Wanted Request.Step Unit) :=
  [.start (.send "hello"), .step 0 (.act {}), .start (.take 7), .step 1 (.act {}),
    .start (.close 7), .step 2 (.act {})]

/-- The customer and the staff open a ticket at the same time. -/
private def bothTickets : List (Turn Wanted Request.Step Unit) :=
  [.start .ticketInstead, .start (.toTicket 7), .step 0 (.act {}), .step 0 .file]

/-- **The answer of the assistant puts a chat that was taken back in the queue, and opens a closed
    one again; a chat gets two tickets.** -/
theorem not_stepsRightful :
    ¬ (chatting fun _ => true).machine.EachStep Rightful
        (takenMeanwhile ++ [Turn.step 0 Request.Step.finish]) ⟨{}, {}⟩
      ∧ ¬ (chatting fun _ => true).machine.EachStep Rightful
        (closedMeanwhile ++ [Turn.step 0 Request.Step.finish]) ⟨{}, {}⟩
      ∧ ¬ (chatting fun _ => true).machine.EachStep Rightful
        (bothTickets ++ [Turn.step 1 (Request.Step.act {})]) ⟨{}, {}⟩ := by
  refine ⟨fun h => ?_, fun h => ?_, fun h => ?_⟩
  · have hkept := (h.last (by decide +kernel)).kept 7 (by decide +kernel)
    rcases hkept with hwith | hclosed | ⟨w, hget, hgo⟩
    · exact absurd hwith (by decide +kernel)
    · exact absurd hclosed (by decide +kernel)
    · -- it is the customer's own message that is answered
      have hw : some (Request.mk (.send "a person please") (.talking { status := .waiting }))
          = some w := hget
      cases hw
      rcases hgo with hback | ⟨_, hpass⟩
      · cases hback
      · cases hpass
  · have hclosed := (h.last (by decide +kernel)).closed (by decide +kernel)
    exact absurd hclosed (by decide +kernel)
  · have hticket := (h.last (by decide +kernel)).ticket
    exact absurd hticket (by decide +kernel)

end WPanel.Assistant.Live
