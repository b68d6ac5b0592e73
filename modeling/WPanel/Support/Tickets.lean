import WPanel.Core
import WPanel.Lib.Machine
import WPanel.Lib.Noninterference

namespace WPanel.Support

open WPanel.Lib

/-!
# Support tickets

Opening, replying, internal notes, status and assignment (`support/services.py`,
`support/lifecycle.py`), on one ticket, and what a contact of the client sees of it.  Times are
microseconds.

* `TicketRow`, `Message`, `Ticket` — the ticket, and its messages, newest first;
* `transition` — the table of statuses;
* `openTicket`, `Reply.post`, `setStatus`, `assign`, … — the calls;
* `desk` — any of them, at any time;
* `messagesFor`, `canViewAttachment` — what a person may read;
* `customerSide` — what a contact sees of all this: a note of the staff that sets no status is
  hidden from it;
* `Reply.isParted` — what a note can change: it may stand between a reply and its twin, or be the
  twin of a note that sets a status;
* `notes_unseen_iff` — two histories that differ only in notes look alike exactly when they part the
  same replies;
* `not_notes_unseen` — a note between two clicks on "Send" makes two messages of one.
-/

/-! ### The ticket -/

/-- `TicketStatus`. -/
inductive TicketStatus where
  | «open»
  | agentReply
  | customerReply
  | pending
  | resolved
  | closed
  deriving DecidableEq, Repr

namespace TicketStatus

def value : TicketStatus → String
  | .open => "open"
  | .agentReply => "agent_reply"
  | .customerReply => "customer_reply"
  | .pending => "pending"
  | .resolved => "resolved"
  | .closed => "closed"

def label : TicketStatus → String
  | .open => "Open"
  | .agentReply => "Agent Reply"
  | .customerReply => "Customer Reply"
  | .pending => "Pending"
  | .resolved => "Resolved"
  | .closed => "Closed"

def all : List TicketStatus :=
  [.open, .agentReply, .customerReply, .pending, .resolved, .closed]

/-- The status of `TicketStatus.values` with this value. -/
def ofValue? (value : String) : Option TicketStatus := all.find? fun s => s.value = value

end TicketStatus

/-- `TicketPriority`. -/
inductive TicketPriority where
  | low
  | normal
  | high
  | urgent
  deriving DecidableEq, Repr

namespace TicketPriority

def value : TicketPriority → String
  | .low => "low"
  | .normal => "normal"
  | .high => "high"
  | .urgent => "urgent"

def ofValue? (value : String) : Option TicketPriority :=
  [low, normal, high, urgent].find? fun p => p.value = value

/-- `CUSTOMER_PRIORITIES`. -/
def forCustomers : List TicketPriority := [.low, .normal, .high]

end TicketPriority

structure Attachment where
  originalName : String
  contentType : String
  size : ℕ
  deriving DecidableEq, Repr

/-- `MessageKind`; no modelled call writes a message of the system. -/
inductive MessageKind where
  | customer
  | staff
  deriving DecidableEq, Repr

/-- A message with its attachments. -/
structure Message where
  author : ℕ
  authorName : String
  kind : MessageKind
  body : String
  isInternal : Bool
  createdAt : ℤ
  attachments : List Attachment
  deriving DecidableEq, Repr

/-- The row of a ticket. -/
structure TicketRow where
  reference : String
  openedBy : ℕ
  department : ℕ
  subject : String
  status : TicketStatus
  priority : TicketPriority
  assignedTo : Option ℕ
  lastActivityAt : ℤ
  lastCustomerReplyAt : Option ℤ := none
  lastStaffReplyAt : Option ℤ := none
  resolvedAt : Option ℤ := none
  closedAt : Option ℤ := none
  deriving DecidableEq, Repr

/-- A ticket, its messages in the order of their keys, newest first. -/
structure Ticket where
  row : TicketRow
  messages : List Message
  deriving DecidableEq, Repr

/-- Somebody who makes a call, as the checks find them at that moment. -/
structure Person where
  pk : ℕ
  fullName : String
  email : String
  /-- `can_manage`. -/
  canManage : Bool
  /-- `is_client_contact(actor, ticket.client)`. -/
  isContact : Bool
  deriving DecidableEq, Repr

/-- A notification, or an e-mail where nobody is to be notified. -/
structure Notice where
  event : String
  user : Option ℕ
  title : String := ""
  body : String := ""
  message : Option Message := none
  deriving DecidableEq, Repr

/-- What a call did. -/
inductive Answer where
  | stored
  | doubleClick
  | done
  deriving DecidableEq, Repr

/-- What a call tells others, and its own caller. -/
inductive Sent where
  | toRequester (n : Notice)
  | toAgent (n : Notice)
  | toTeam (n : Notice)
  | answer (a : Answer)
  deriving DecidableEq, Repr

/-! ### Rules -/

def maxSubject : ℕ := 200

def maxBody : ℕ := 20000

def ticketsPerHour : ℕ := 10

/-- `CLOSED_REPLY_WINDOW`, seven days. -/
def closedReplyWindow : ℤ := 7 * 86400 * 1000000

/-- `AUTO_CLOSE_AFTER`, seven days. -/
def autoCloseAfter : ℤ := 7 * 86400 * 1000000

/-- How close two clicks on "Send" are: fifteen seconds. -/
def doubleClickWithin : ℤ := 15 * 1000000

/-- `_denied`. -/
def deniedWith (message : String) : Err := .service message "permission_denied" 403

/-- `_author_name`. -/
def authorName (actor : Person) : MessageKind → String
  | .staff => clip 200 (if actor.fullName ≠ "" then actor.fullName else "Support team")
  | .customer => clip 200 (if actor.fullName ≠ "" then actor.fullName
      else if actor.email ≠ "" then actor.email else "System")

/-- `_clean_text`, with its label in small and in large. -/
def cleanText (value label Label : String) (limit : ℕ) : Except Err String := do
  let value := strip value
  ensure (value ≠ "") (.validation ("Enter " ++ label ++ "."))
  ensure (value.toList.length ≤ limit)
    (.validation (Label ++ " is too long (at most " ++ toString limit ++ " characters)."))
  pure value

/-- `can_transition`. -/
def canTransition (current new : TicketStatus) : Bool :=
  current ≠ new && (current ≠ .closed || new = .open)

/-- `transition`. -/
def transition (row : TicketRow) (new : TicketStatus) (now : ℤ) : Except Err TicketRow := do
  if row.status = new then pure row
  else do
    ensure (canTransition row.status new = true)
      (.service ("A " ++ lower row.status.label ++ " ticket cannot become " ++ lower new.label
        ++ ".") "invalid_transition" 409)
    pure { row with
      status := new
      resolvedAt := if new = .resolved then some now
        else if new = .closed then row.resolvedAt else none
      closedAt := if new = .closed then some now else none
      lastActivityAt := now }

/-- `customer_can_reply`. -/
def customerCanReply (row : TicketRow) (now : ℤ) : Bool :=
  row.status ≠ .closed || row.closedAt.any fun at' => now - at' ≤ closedReplyWindow

/-- `_notify_assignee`, where the agent is active. -/
def notifyAssignee (row : TicketRow) (active : Bool) (event title body : String)
    (exclude : ℕ) : List Sent :=
  match row.assignedTo with
  | some agent =>
    if agent ≠ exclude ∧ active = true then
      [.toAgent { event, user := some agent, title, body := clip 200 body }]
    else []
  | none => []

/-- The message `order_by("-created_at", "-id")` puts first. -/
def newest : List Message → Option Message
  | [] => none
  | m :: rest =>
    match newest rest with
    | none => some m
    | some last => if m.createdAt < last.createdAt then some last else some m

/-! ### Opening a ticket -/

/-- An active department, with its default agent if that one is active. -/
structure Department where
  pk : ℕ
  defaultAssignee : Option ℕ
  deriving DecidableEq, Repr

/-- What is asked of `open_ticket`, and what its checks find. -/
structure Opening where
  actor : Person
  reference : String
  /-- None, where it is no active department. -/
  department : Option Department
  subject : String
  body : String
  priority : String
  /-- The hosting account, or the domain, is another client's. -/
  foreignHosting : Bool := false
  foreignDomain : Bool := false
  /-- The tickets the actor opened in the last hour. -/
  recent : ℕ := 0
  uploads : Except Err (List Attachment) := .ok []
  /-- The token of the form was used already, by a request that is making no ticket. -/
  tokenUsed : Bool := false
  deriving DecidableEq

/-- `open_ticket`. -/
def openTicket (o : Opening) (now : ℤ) : Except Err (Ticket × List Sent) := do
  let staff := o.actor.canManage
  ensure (staff = true ∨ o.actor.isContact = true) denied
  let subject ← cleanText o.subject "a subject" "A subject" maxSubject
  let body ← cleanText o.body "a message" "A message" maxBody
  match o.department, TicketPriority.ofValue? o.priority with
  | none, _ => .error (serviceError "Choose a department." "department_invalid")
  | some _, none => .error (serviceError "Choose a valid priority." "priority_invalid")
  | some department, some priority =>
    ensure (staff = true ∨ priority ∈ TicketPriority.forCustomers)
      (serviceError "Choose a valid priority." "priority_invalid")
    ensure (o.foreignHosting = false)
      (serviceError "That hosting account does not belong to this client." "invalid_related")
    ensure (o.foreignDomain = false)
      (serviceError "That domain does not belong to this client." "invalid_related")
    ensure (staff = true ∨ o.recent < ticketsPerHour)
      (.service ("You have opened several tickets in the last hour. Please wait a little, or add "
        ++ "to an existing ticket.") "rate_limited" 429)
    let checked ← o.uploads
    ensure (o.tokenUsed = false)
      (serviceError "Your ticket is already being sent." "duplicate_submit")
    let kind : MessageKind := if staff ∧ ¬o.actor.isContact then .staff else .customer
    let row : TicketRow := {
      reference := o.reference
      openedBy := o.actor.pk
      department := department.pk
      subject := subject
      status := .open
      priority := priority
      assignedTo := department.defaultAssignee
      lastActivityAt := now
      lastCustomerReplyAt := if kind = .customer then some now else none }
    let message : Message := ⟨o.actor.pk, authorName o.actor kind, kind, body, false, now, checked⟩
    let requester := if o.actor.isContact then some o.actor.pk else none
    let owner : List Sent := match department.defaultAssignee with
      | some _ => notifyAssignee row true "ticket.assigned"
          (clip 200 ("New ticket " ++ o.reference ++ ": " ++ subject)) body o.actor.pk
      | none => [.toTeam {
          event := "ticket.unassigned"
          user := none
          title := clip 200 ("New ticket " ++ o.reference ++ " needs an owner: " ++ subject)
          body := clip 200 body }]
    pure (⟨row, [message]⟩,
      .toRequester { event := "ticket.opened", user := requester } :: owner ++ [Sent.answer .done])

/-! ### Replying -/

/-- What is asked of `reply`, and what its checks find. -/
structure Reply where
  actor : Person
  body : String
  uploads : Except Err (List Attachment) := .ok []
  internal : Bool := false
  setStatus : Option String := none
  /-- Who opened the ticket is still a contact of the client. -/
  openerIsContact : Bool := true
  /-- The agent it is assigned to is active. -/
  assigneeActive : Bool := true
  deriving DecidableEq

namespace Reply

variable (r : Reply)

/-- The same words from the same person in the last seconds. -/
def isTwin (body : String) (now : ℤ) (messages : List Message) : Bool :=
  match newest messages with
  | some last => last.author = r.actor.pk && last.body = body && last.isInternal = r.internal
      && now - last.createdAt < doubleClickWithin
  | none => false

def message (kind : MessageKind) (body : String) (checked : List Attachment) (now : ℤ) : Message :=
  ⟨r.actor.pk, authorName r.actor kind, kind, body, r.internal, now, checked⟩

/-- A public reply of the staff. -/
def storeStaff (body : String) (checked : List Attachment) (status : Option TicketStatus) (now : ℤ)
    (row : TicketRow) : Except Err (TicketRow × Message × List Sent) := do
  ensure (row.status ≠ .closed)
    (serviceError "This ticket is closed. Reopen it before replying." "ticket_closed")
  let message := r.message .staff body checked now
  let touched := { row with lastStaffReplyAt := some now, lastActivityAt := now }
  let row' ← transition touched (status.getD .agentReply) now
  let requester := if r.openerIsContact then some row.openedBy else none
  pure (row', message, [.toRequester {
    event := "ticket.reply"
    user := requester
    title := "Reply on " ++ row.reference
    body := row.subject
    message := some message }])

/-- A note. -/
def storeNote (body : String) (checked : List Attachment) (status : Option TicketStatus) (now : ℤ)
    (row : TicketRow) : Except Err (TicketRow × Message × List Sent) := do
  let row' ← match status with
    | none => pure row
    | some new => transition row new now
  pure (row', r.message .staff body checked now, notifyAssignee row' r.assigneeActive "ticket.note"
    ("Note on " ++ row.reference) body r.actor.pk)

/-- A reply of a contact. -/
def storeCustomer (body : String) (checked : List Attachment) (now : ℤ) (row : TicketRow) :
    Except Err (TicketRow × Message × List Sent) := do
  ensure (customerCanReply row now = true)
    (serviceError ("This ticket was closed some time ago. Please open a new ticket and mention "
      ++ "this one.") "ticket_closed")
  let touched := { row with lastCustomerReplyAt := some now, lastActivityAt := now }
  let reopened ← if touched.status = .closed then transition touched .open now else pure touched
  let row' ← transition reopened .customerReply now
  pure (row', r.message .customer body checked now,
    notifyAssignee row' r.assigneeActive "ticket.customer_reply"
      ("Customer replied on " ++ row.reference) body r.actor.pk)

/-- The status that is asked for. -/
def status : Except Err (Option TicketStatus) :=
  match r.setStatus with
  | none => .ok none
  | some value =>
    match TicketStatus.ofValue? value with
    | none => .error (serviceError "Choose a valid status." "invalid_status")
    | some new => .ok (some new)

/-- What `reply` does once it is not a double click. -/
def store (body : String) (checked : List Attachment) (now : ℤ) (row : TicketRow) :
    Except Err (TicketRow × Message × List Sent) := do
  let staff := r.actor.canManage
  ensure (¬(r.internal = true ∧ staff = false)) (deniedWith "Only staff can add internal notes.")
  ensure (¬(r.setStatus.isSome = true ∧ staff = false)) denied
  let status ← r.status
  if staff = true ∧ r.internal = false then r.storeStaff body checked status now row
  else if staff = true then r.storeNote body checked status now row
  else r.storeCustomer body checked now row

/-- What is checked first: the words, and the files. -/
def checked : Except Err (String × List Attachment) := do
  ensure (r.actor.canManage = true ∨ r.actor.isContact = true) denied
  let body ← cleanText r.body "a message" "A message" maxBody
  let files ← r.uploads
  pure (body, files)

/-- `reply`. -/
def post (now : ℤ) (t : Ticket) : Except Err (Ticket × List Sent) := do
  let (body, files) ← r.checked
  if files = [] ∧ r.isTwin body now t.messages = true then pure (t, [.answer .doubleClick])
  else do
    let (row, message, sent) ← r.store body files now t.row
    pure (⟨row, message :: t.messages⟩, sent ++ [Sent.answer .stored])

end Reply

/-! ### Status, assignment, priority, department -/

/-- `set_status`. -/
def setStatus (actor : Person) (value : String) (now : ℤ) (row : TicketRow) :
    Except Err (TicketRow × List Sent) := do
  ensure (actor.canManage = true ∨ actor.isContact = true
    ∧ value = TicketStatus.closed.value) denied
  match TicketStatus.ofValue? value with
  | none => .error (serviceError "Choose a valid status." "invalid_status")
  | some new =>
    let row' ← transition row new now
    pure (row', [.answer .done])

/-- An agent, and whether `_agent_ok`. -/
structure Agent where
  pk : ℕ
  ok : Bool
  deriving DecidableEq, Repr

/-- `assign`. -/
def assign (actor : Person) (agent : Option Agent) (now : ℤ) (row : TicketRow) :
    Except Err (TicketRow × List Sent) := do
  ensure (actor.canManage = true) denied
  ensure (∀ a ∈ agent, a.ok = true)
    (serviceError "That person cannot handle tickets." "assignee_invalid")
  if row.assignedTo = agent.map Agent.pk then pure (row, [.answer .done])
  else
    let row' := { row with assignedTo := agent.map Agent.pk, lastActivityAt := now }
    let sent := notifyAssignee row' true "ticket.assigned"
      ("Ticket " ++ row.reference ++ " assigned to you") row.subject actor.pk
    pure (row', sent ++ [Sent.answer .done])

/-- `set_priority`. -/
def setPriority (actor : Person) (value : String) (now : ℤ) (row : TicketRow) :
    Except Err (TicketRow × List Sent) := do
  ensure (actor.canManage = true) denied
  match TicketPriority.ofValue? value with
  | none => .error (serviceError "Choose a valid priority." "priority_invalid")
  | some priority =>
    if row.priority = priority then pure (row, [.answer .done])
    else pure ({ row with priority, lastActivityAt := now }, [.answer .done])

/-- `set_department`; None, where it is no active department. -/
def setDepartment (actor : Person) (department : Option ℕ) (now : ℤ) (row : TicketRow) :
    Except Err (TicketRow × List Sent) := do
  ensure (actor.canManage = true) denied
  match department with
  | none => .error (serviceError "Choose a department." "department_invalid")
  | some department =>
    if row.department = department then pure (row, [.answer .done])
    else pure ({ row with department, lastActivityAt := now }, [.answer .done])

/-- `auto_close_resolved`, on this ticket. -/
def autoClose (now : ℤ) (row : TicketRow) : Except Err (TicketRow × List Sent) := do
  if row.status = .resolved ∧ row.resolvedAt.any (fun at' => at' < now - autoCloseAfter) then
    let row' ← transition row .closed now
    pure (row', [])
  else pure (row, [])

/-! ### Any of them, at any time -/

/-- A call about the ticket. -/
inductive Call where
  | openTicket (o : Opening)
  | reply (r : Reply)
  | setStatus (actor : Person) (value : String)
  | assign (actor : Person) (agent : Option Agent)
  | setPriority (actor : Person) (value : String)
  | setDepartment (actor : Person) (department : Option ℕ)
  | autoClose
  deriving DecidableEq

/-- Who makes a call; the daily job is nobody's. -/
def Call.actor : Call → Option Person
  | .openTicket o => some o.actor
  | .reply r => some r.actor
  | .setStatus actor _ => some actor
  | .assign actor _ => some actor
  | .setPriority actor _ => some actor
  | .setDepartment actor _ => some actor
  | .autoClose => none

/-- A call that works on the row alone. -/
def onRow (f : TicketRow → Except Err (TicketRow × List Sent)) (t : Ticket) :
    Except Err (Option Ticket × List Sent) :=
  (f t.row).map fun r => (some { t with row := r.1 }, r.2)

/-- A call at a time. -/
structure Timed where
  now : ℤ
  call : Call
  deriving DecidableEq

/-- One ticket, from before it is opened. -/
def desk : Machine (Option Ticket) Timed Sent Err where
  exec c s :=
    match c.call, s with
    | .openTicket o, none => (openTicket o c.now).map fun r => (some r.1, r.2)
    -- it makes another ticket, or finds this one
    | .openTicket _, some t => .ok (some t, [])
    | _, none => .error (.doesNotExist "Ticket")
    | .reply r, some t => (r.post c.now t).map fun r => (some r.1, r.2)
    | .setStatus actor value, some t => onRow (setStatus actor value c.now) t
    | .assign actor agent, some t => onRow (assign actor agent c.now) t
    | .setPriority actor value, some t => onRow (setPriority actor value c.now) t
    | .setDepartment actor department, some t => onRow (setDepartment actor department c.now) t
    | .autoClose, some t => onRow (autoClose c.now) t

/-! ### What a contact sees -/

/-- Somebody who looks at a ticket. -/
structure Viewer where
  /-- `can_view_all`. -/
  canViewAll : Bool
  isContact : Bool
  deriving DecidableEq, Repr

/-- A contact of the client who is not of the staff. -/
def contact : Viewer := ⟨false, true⟩

/-- `messages_for`. -/
def messagesFor (v : Viewer) (t : Ticket) : List Message :=
  if v.canViewAll then t.messages else t.messages.filter fun m => !m.isInternal

/-- `can_view_attachment`, of an attachment of a message. -/
def canViewAttachment (v : Viewer) (m : Message) : Bool :=
  v.canViewAll || (!m.isInternal && v.isContact)

/-- What a person sees of a ticket: its row with the status and the times, the messages, and the
    attachments it may open. -/
structure View where
  row : TicketRow
  messages : List Message
  attachments : List Attachment
  deriving DecidableEq, Repr

def Ticket.view (v : Viewer) (t : Ticket) : View :=
  ⟨t.row, messagesFor v t, (t.messages.filter (canViewAttachment v)).flatMap Message.attachments⟩

/-- What of a call is for the customer: the notifications of the requester, and the answer to a call
    that a contact made. -/
def Sent.forCustomer (own : Bool) : Sent → Bool
  | .toRequester _ => true
  | .answer _ => own
  | _ => false

/-- The call is one a contact makes, and not the staff. -/
def Call.isOwn (c : Call) : Bool := c.actor.any fun a => !a.canManage

/-- What a call shows a contact. -/
def shownToContact (c : Timed) (s : Option Ticket) : Except Err (List Sent) :=
  match desk.exec c s with
  | .ok (_, sent) => .ok (sent.filter (Sent.forCustomer c.call.isOwn))
  | .error e => if c.call.isOwn then .error e else .ok []

/-- A note of the staff that sets no status. -/
def Call.isNote : Call → Bool
  | .reply r => r.internal && r.actor.canManage && r.setStatus.isNone
  | _ => false

/-- A ticket, and a contact of its client. -/
def customerSide : Observed (Option Ticket) Timed (Option View) (Except Err (List Sent)) where
  next := desk.next
  hidden c := c.call.isNote
  view s := s.map (Ticket.view contact)
  shown := shownToContact

/-! ### What a note can change -/

namespace Reply

variable (r : Reply)

/-- Whether it matters if the reply is stored: a contact is answered; a public reply of the staff is
    seen, unless it is refused; and a note sets a status, where it may. -/
def matters (row : TicketRow) : Bool :=
  if r.actor.canManage = false then true
  else if r.internal = false then
    row.status ≠ .closed && (r.setStatus.all fun v => (TicketStatus.ofValue? v).isSome)
  else r.setStatus.any fun v => (TicketStatus.ofValue? v).any (canTransition row.status)

/-- The messages a contact reads. -/
def isPublic (m : Message) : Bool := !m.isInternal

/-- A note decides on this reply without files: it stands between a public reply and its twin, or is
    the twin of a note. -/
def isParted (now : ℤ) (t : Ticket) : Bool :=
  match r.checked with
  | .ok (body, []) => r.matters t.row &&
      if r.internal then r.isTwin body now t.messages
      else r.isTwin body now (t.messages.filter isPublic) && !r.isTwin body now t.messages
  | _ => false

end Reply

/-- A note decides on this call. -/
def Timed.isParted (c : Timed) (s : Option Ticket) : Bool :=
  match c.call, s with
  | .reply r, some t => r.isParted c.now t
  | _, _ => false

/-! ### The view of a contact -/

theorem view_contact (t : Ticket) : t.view contact = ⟨t.row, t.messages.filter Reply.isPublic,
    (t.messages.filter Reply.isPublic).flatMap Message.attachments⟩ := by
  have : canViewAttachment contact = Reply.isPublic := by
    funext m
    simp [canViewAttachment, contact, Reply.isPublic]
  rw [Ticket.view, this]
  rfl

/-- Two tickets look alike when their rows and their public messages are the same. -/
theorem view_eq_iff {t t' : Ticket} : t.view contact = t'.view contact
    ↔ t.row = t'.row ∧ t.messages.filter Reply.isPublic = t'.messages.filter Reply.isPublic := by
  rw [view_contact, view_contact, View.mk.injEq]
  constructor
  · rintro ⟨hrow, hmessages, -⟩
    exact ⟨hrow, hmessages⟩
  · rintro ⟨hrow, hmessages⟩
    exact ⟨hrow, hmessages, by rw [hmessages]⟩

theorem newest_eq_none {messages : List Message} : newest messages = none ↔ messages = [] := by
  cases messages with
  | nil => simp [newest]
  | cons m rest =>
    simp only [newest]
    split
    · simp
    · split <;> simp

theorem mem_of_newest {messages : List Message} {m : Message} (h : newest messages = some m) :
    m ∈ messages := by
  induction messages generalizing m with
  | nil => cases h
  | cons z rest ih =>
    simp only [newest] at h
    split at h
    · rw [← Option.some.inj h]
      exact List.mem_cons_self
    · next last hlast =>
      split at h
      · rw [← Option.some.inj h]
        exact List.mem_cons_of_mem _ (ih hlast)
      · rw [← Option.some.inj h]
        exact List.mem_cons_self

/-- The newest message is later than those with a higher key, and no earlier than the others. -/
theorem newest_eq_some {messages : List Message} {m : Message} : newest messages = some m
    ↔ ∃ front back, messages = front ++ m :: back ∧ (∀ x ∈ front, x.createdAt < m.createdAt)
      ∧ ∀ x ∈ back, x.createdAt ≤ m.createdAt := by
  constructor
  · intro h
    induction messages generalizing m with
    | nil => cases h
    | cons z rest ih =>
      simp only [newest] at h
      split at h
      · next hrest =>
        rw [← Option.some.inj h, newest_eq_none.mp hrest]
        exact ⟨[], [], rfl, fun _ hx => absurd hx List.not_mem_nil,
          fun _ hx => absurd hx List.not_mem_nil⟩
      · next last hrest =>
        obtain ⟨front, back, rfl, hfront, hback⟩ := ih hrest
        split at h
        · next hlt =>
          rw [← Option.some.inj h]
          exact ⟨z :: front, back, rfl, List.forall_mem_cons.mpr ⟨hlt, hfront⟩, hback⟩
        · next hle =>
          rw [← Option.some.inj h]
          have hle := Int.not_lt.mp hle
          refine ⟨[], front ++ last :: back, rfl, fun _ hx => absurd hx List.not_mem_nil, ?_⟩
          intro x hx
          rcases List.mem_append.mp hx with hx | hx
          · exact Int.le_trans (Int.le_of_lt (hfront x hx)) hle
          · rcases List.mem_cons.mp hx with rfl | hx
            · exact hle
            · exact Int.le_trans (hback x hx) hle
  · rintro ⟨front, back, rfl, hfront, hback⟩
    induction front with
    | nil =>
      simp only [List.nil_append, newest]
      split
      · rfl
      · next last hlast =>
        rw [if_neg (Int.not_lt.mpr (hback last (mem_of_newest hlast)))]
    | cons z front ih =>
      obtain ⟨hz, hfront⟩ := List.forall_mem_cons.mp hfront
      simp only [List.cons_append, newest]
      rw [ih hfront]
      simp only
      rw [if_pos hz]

/-- The newest message is the newest of any kind it is of. -/
theorem newest_filter {p : Message → Bool} {messages : List Message} {m : Message}
    (h : newest messages = some m) (hp : p m = true) :
    newest (messages.filter p) = some m := by
  obtain ⟨front, back, rfl, hfront, hback⟩ := newest_eq_some.mp h
  refine newest_eq_some.mpr ⟨front.filter p, back.filter p, ?_, ?_, ?_⟩
  · rw [List.filter_append, List.filter_cons_of_pos hp]
  · exact fun x hx => hfront x (List.mem_filter.mp hx).1
  · exact fun x hx => hback x (List.mem_filter.mp hx).1

namespace Reply

variable {r : Reply}

/-- The twin of a public reply is its twin among the public messages. -/
theorem isTwin_filter {body : String} {now : ℤ} {messages : List Message}
    (hr : r.internal = false) (h : r.isTwin body now messages = true) :
    r.isTwin body now (messages.filter isPublic) = true := by
  unfold isTwin at h ⊢
  cases hnew : newest messages with
  | none =>
    rw [hnew] at h
    cases h
  | some last =>
    rw [hnew] at h
    have hpublic : isPublic last = true := by
      simp only [Bool.and_eq_true, decide_eq_true_eq] at h
      rw [isPublic, h.1.2, hr]
      rfl
    rw [newest_filter hnew hpublic]
    exact h

end Reply

/-! ### What a call leaves to be seen -/

/-- What a contact is shown of a call, and the view it leaves. -/
def seen (c : Timed) (s : Option Ticket) : Except Err (List Sent) × Option View :=
  (shownToContact c s, (desk.next c s).map (Ticket.view contact))

theorem seen_of_ok {c : Timed} {s s' : Option Ticket} {sent : List Sent}
    (h : desk.exec c s = .ok (s', sent)) : seen c s
      = (.ok (sent.filter (Sent.forCustomer c.call.isOwn)), s'.map (Ticket.view contact)) := by
  unfold seen shownToContact Machine.next
  rw [h]

theorem seen_of_error {c : Timed} {s : Option Ticket} {e : Err}
    (h : desk.exec c s = .error e) : seen c s
      = (if c.call.isOwn then .error e else .ok [], s.map (Ticket.view contact)) := by
  unfold seen shownToContact Machine.next
  rw [h]

/-- A call that works on the row alone does the same to tickets that look alike. -/
theorem seen_onRow {c : Timed} {t t' : Ticket}
    {f : TicketRow → Except Err (TicketRow × List Sent)}
    (hexec : desk.exec c (some t) = onRow f t) (hexec' : desk.exec c (some t') = onRow f t')
    (h : t.view contact = t'.view contact) : seen c (some t) = seen c (some t') := by
  obtain ⟨hrow, hmessages⟩ := view_eq_iff.mp h
  rw [onRow] at hexec hexec'
  rw [← hrow] at hexec'
  cases hf : f t.row with
  | error e =>
    rw [hf] at hexec hexec'
    rw [seen_of_error hexec, seen_of_error hexec', Option.map_some, Option.map_some, h]
  | ok p =>
    rw [hf] at hexec hexec'
    have hview : (⟨p.1, t.messages⟩ : Ticket).view contact
      = (⟨p.1, t'.messages⟩ : Ticket).view contact := view_eq_iff.mpr ⟨rfl, hmessages⟩
    rw [seen_of_ok hexec, seen_of_ok hexec', Option.map_some, Option.map_some, hview]

namespace Reply

variable {r : Reply} {now : ℤ} {t t' : Ticket} {body : String} {files : List Attachment}

/-- A reply the checks refuse. -/
theorem seen_of_refused {e : Err} (hc : r.checked = .error e) :
    seen ⟨now, .reply r⟩ (some t)
      = (if r.actor.canManage = false then .error e else .ok [], some (t.view contact)) := by
  have hexec : desk.exec ⟨now, .reply r⟩ (some t) = .error e := by
    simp only [desk, post, hc, error_bind, Except.map]
  rw [seen_of_error hexec]
  simp [Call.isOwn, Call.actor]

/-- A double click. -/
theorem seen_of_twin (hc : r.checked = .ok (body, [])) (h : r.isTwin body now t.messages = true) :
    seen ⟨now, .reply r⟩ (some t)
      = (.ok (if r.actor.canManage = false then [.answer .doubleClick] else []),
        some (t.view contact)) := by
  have hexec : desk.exec ⟨now, .reply r⟩ (some t) = .ok (some t, [.answer .doubleClick]) := by
    simp only [desk, post, hc, ok_bind, h, and_self, if_true]
    rfl
  rw [seen_of_ok hexec]
  cases hm : r.actor.canManage <;>
    simp [Call.isOwn, Call.actor, Sent.forCustomer, hm]

/-- A reply that is no double click, and is refused. -/
theorem seen_of_store_error (hc : r.checked = .ok (body, files))
    (h : ¬(files = [] ∧ r.isTwin body now t.messages = true)) {e : Err}
    (hstore : r.store body files now t.row = .error e) :
    seen ⟨now, .reply r⟩ (some t)
      = (if r.actor.canManage = false then .error e else .ok [], some (t.view contact)) := by
  have hexec : desk.exec ⟨now, .reply r⟩ (some t) = .error e := by
    simp only [desk, post, hc, ok_bind, if_neg h, hstore, error_bind, Except.map]
  rw [seen_of_error hexec]
  simp [Call.isOwn, Call.actor]

/-- A reply that is stored. -/
theorem seen_of_store_ok (hc : r.checked = .ok (body, files))
    (h : ¬(files = [] ∧ r.isTwin body now t.messages = true)) {row : TicketRow} {m : Message}
    {sent : List Sent} (hstore : r.store body files now t.row = .ok (row, m, sent)) :
    seen ⟨now, .reply r⟩ (some t)
      = (.ok ((sent ++ [Sent.answer .stored]).filter (Sent.forCustomer !r.actor.canManage)),
        some ((⟨row, m :: t.messages⟩ : Ticket).view contact)) := by
  have hexec : desk.exec ⟨now, .reply r⟩ (some t)
      = .ok (some ⟨row, m :: t.messages⟩, sent ++ [Sent.answer .stored]) := by
    simp only [desk, post, hc, ok_bind, if_neg h, hstore]
    rfl
  rw [seen_of_ok hexec]
  simp [Call.isOwn, Call.actor]

/-- A public reply of the staff that matters is stored, for all to read. -/
theorem store_of_staff (files : List Attachment) {row : TicketRow} (hm : r.matters row = true)
    (hstaff : r.actor.canManage = true) (hr : r.internal = false) :
    ∃ row' m sent, r.store body files now row = .ok (row', m, sent) ∧ isPublic m = true := by
  simp only [matters, hstaff, hr, Bool.true_eq_false, if_false, if_true, Bool.and_eq_true,
    decide_eq_true_eq] at hm
  obtain ⟨hopen, hvalid⟩ := hm
  obtain ⟨status, hstatus⟩ : ∃ status, r.status = .ok status := by
    unfold status
    cases hset : r.setStatus with
    | none => exact ⟨none, rfl⟩
    | some v =>
      rw [hset] at hvalid
      obtain ⟨new, hnew⟩ := Option.isSome_iff_exists.mp hvalid
      exact ⟨some new, by simp only [hnew]⟩
  -- a ticket that is not closed may move anywhere
  obtain ⟨row', hrow'⟩ : ∃ row', transition
      { row with lastStaffReplyAt := some now, lastActivityAt := now }
      (status.getD .agentReply) now = .ok row' := by
    unfold transition
    split
    · exact ⟨_, rfl⟩
    · next hne =>
      have : canTransition row.status (status.getD .agentReply) = true := by
        simp only [canTransition, Bool.and_eq_true, decide_eq_true_eq, Bool.or_eq_true]
        exact ⟨hne, .inl hopen⟩
      simp only [ensure, this, if_true, ok_bind]
      exact ⟨_, rfl⟩
  have hstore : ∃ sent, r.store body files now row
      = .ok (row', r.message .staff body files now, sent) := by
    unfold store storeStaff
    simp only [hstaff, hr, hstatus, ensure, hopen, Bool.false_eq_true, Bool.true_eq_false,
      and_false, not_false_eq_true, if_true, ok_bind, and_self, ne_eq, hrow']
    exact ⟨_, rfl⟩
  obtain ⟨sent, hstore⟩ := hstore
  exact ⟨row', _, sent, hstore, by simp [message, isPublic, hr]⟩

/-- One that does not matter is refused. -/
theorem store_of_staff_error (files : List Attachment) {row : TicketRow}
    (hm : r.matters row = false)
    (hstaff : r.actor.canManage = true) (hr : r.internal = false) :
    ∃ e, r.store body files now row = .error e := by
  simp only [matters, hstaff, hr, Bool.true_eq_false, if_false, if_true, Bool.and_eq_false_iff,
    decide_eq_false_iff_not, ne_eq, Decidable.not_not] at hm
  unfold store storeStaff status
  simp only [hstaff, hr, ensure, Bool.false_eq_true, Bool.true_eq_false, and_false,
    not_false_eq_true, if_true, ok_bind, and_self]
  cases hset : r.setStatus with
  | none =>
    rw [hset] at hm
    have hclosed : row.status = .closed := hm.resolve_right (by simp)
    simp only [ok_bind, hclosed, ne_eq, not_true_eq_false, if_false, error_bind]
    exact ⟨_, rfl⟩
  | some v =>
    cases hv : TicketStatus.ofValue? v with
    | none =>
      simp only [hv, error_bind]
      exact ⟨_, rfl⟩
    | some new =>
      rw [hset] at hm
      have hclosed : row.status = .closed := hm.resolve_right (by simp [hv])
      simp only [hv, ok_bind, hclosed, ne_eq, not_true_eq_false, if_false, error_bind]
      exact ⟨_, rfl⟩

/-- The requester hears nothing of a note. -/
theorem forCustomer_notifyAssignee {row : TicketRow} {active : Bool} {event title : String}
    {exclude : ℕ} : (notifyAssignee row active event title body exclude).filter
      (Sent.forCustomer false) = [] := by
  unfold notifyAssignee
  split
  · split <;> rfl
  · rfl

/-- A note that may set its status does set it. -/
theorem store_of_note (files : List Attachment) {row : TicketRow} (hm : r.matters row = true)
    (hstaff : r.actor.canManage = true) (hr : r.internal = true) :
    ∃ row' m sent, r.store body files now row = .ok (row', m, sent) ∧ row'.status ≠ row.status := by
  simp only [matters, hstaff, hr, Bool.true_eq_false, if_false] at hm
  obtain ⟨v, hset, hv⟩ := (Option.any_eq_true _ _).mp hm
  obtain ⟨new, hnew, hcan⟩ := (Option.any_eq_true _ _).mp hv
  have hne : row.status ≠ new := by
    simp only [canTransition, Bool.and_eq_true, decide_eq_true_eq] at hcan
    exact hcan.1
  have hstore : ∃ row' sent, r.store body files now row
      = .ok (row', r.message .staff body files now, sent) ∧ row'.status = new := by
    unfold store storeNote status transition
    simp only [hstaff, hr, hset, hnew, ensure, hne, hcan, Bool.true_eq_false, and_false,
      not_false_eq_true, if_true, if_false, ok_bind]
    exact ⟨_, _, rfl, rfl⟩
  obtain ⟨row', sent, hstore, hstatus⟩ := hstore
  exact ⟨row', _, sent, hstore, fun h => hne (h.symm.trans hstatus)⟩

/-- A note that may not leaves the row, or is refused. -/
theorem store_of_note_unchanged (now : ℤ) (files : List Attachment) {row : TicketRow}
    (hm : r.matters row = false)
    (hstaff : r.actor.canManage = true) (hr : r.internal = true) :
    (∃ e, r.store body files now row = .error e) ∨ ∃ m sent,
      r.store body files now row = .ok (row, m, sent) ∧ isPublic m = false
        ∧ sent.filter (Sent.forCustomer false) = [] := by
  have hmessage : isPublic (r.message .staff body files now) = false := by
    simp [message, isPublic, hr]
  simp only [matters, hstaff, hr, Bool.true_eq_false, if_false] at hm
  unfold store storeNote status transition
  simp only [hstaff, hr, ensure, Bool.true_eq_false, and_false, not_false_eq_true, if_true,
    if_false, ok_bind]
  cases hset : r.setStatus with
  | none =>
    refine .inr ⟨_, _, rfl, hmessage, forCustomer_notifyAssignee⟩
  | some v =>
    cases hv : TicketStatus.ofValue? v with
    | none =>
      refine .inl ?_
      simp only [hv, error_bind]
      exact ⟨_, rfl⟩
    | some new =>
      simp only [hset, hv, Option.any_some] at hm
      by_cases hsame : row.status = new
      · refine .inr ⟨r.message .staff body files now, notifyAssignee row r.assigneeActive
          "ticket.note" ("Note on " ++ row.reference) body r.actor.pk, ?_, hmessage,
          forCustomer_notifyAssignee⟩
        simp only [hv, ok_bind, hsame, if_true]
        rfl
      · refine .inl ?_
        simp only [hv, ok_bind, hsame, if_false, hm, Bool.false_eq_true, error_bind]
        exact ⟨_, rfl⟩

/-- A reply that is a double click on both tickets, or on neither, does the same to both. -/
theorem seen_eq_of_same (hview : t.view contact = t'.view contact)
    (hsame : files = [] → r.isTwin body now t.messages = r.isTwin body now t'.messages)
    (hc : r.checked = .ok (body, files)) :
    seen ⟨now, .reply r⟩ (some t) = seen ⟨now, .reply r⟩ (some t') := by
  obtain ⟨hrow, hmessages⟩ := view_eq_iff.mp hview
  by_cases htwin : files = [] ∧ r.isTwin body now t.messages = true
  · obtain ⟨rfl, htwin⟩ := htwin
    rw [seen_of_twin hc htwin, seen_of_twin hc (hsame rfl ▸ htwin), hview]
  · have htwin' : ¬(files = [] ∧ r.isTwin body now t'.messages = true) := by
      rintro ⟨hfiles, h⟩
      exact htwin ⟨hfiles, (hsame hfiles).trans h⟩
    cases hstore : r.store body files now t.row with
    | error e =>
      rw [seen_of_store_error hc htwin hstore, seen_of_store_error hc htwin' (hrow ▸ hstore), hview]
    | ok p =>
      obtain ⟨row, m, sent⟩ := p
      have hnext : (⟨row, m :: t.messages⟩ : Ticket).view contact
          = (⟨row, m :: t'.messages⟩ : Ticket).view contact := by
        refine view_eq_iff.mpr ⟨rfl, ?_⟩
        simp only [List.filter_cons, hmessages]
      rw [seen_of_store_ok hc htwin hstore, seen_of_store_ok hc htwin' (hrow ▸ hstore), hnext]

/-- A reply that matters, and is a double click on one ticket only, tells them apart. -/
theorem seen_ne_of_matters (hview : t.view contact = t'.view contact)
    (hc : r.checked = .ok (body, [])) (htwin : r.isTwin body now t.messages = true)
    (htwin' : r.isTwin body now t'.messages = false) (hm : r.matters t.row = true) :
    seen ⟨now, .reply r⟩ (some t) ≠ seen ⟨now, .reply r⟩ (some t') := by
  obtain ⟨hrow, hmessages⟩ := view_eq_iff.mp hview
  have hnot : ¬(([] : List Attachment) = [] ∧ r.isTwin body now t'.messages = true) := by
    simp [htwin']
  rw [hrow] at hm
  rw [seen_of_twin hc htwin]
  intro heq
  cases hstaff : r.actor.canManage with
  | false =>
    rw [hstaff, if_pos rfl] at heq
    cases hstore : r.store body [] now t'.row with
    | error e =>
      rw [seen_of_store_error hc hnot hstore, hstaff, if_pos rfl] at heq
      cases (Prod.mk.inj heq).1
    | ok p =>
      obtain ⟨row, m, sent⟩ := p
      rw [seen_of_store_ok hc hnot hstore, hstaff, List.filter_append] at heq
      have hlist := Except.ok.inj (Prod.mk.inj heq).1
      have hmem : Sent.answer .stored ∈ [Sent.answer .doubleClick] := by
        rw [hlist]
        exact List.mem_append_right _ (by decide)
      revert hmem
      decide
  | true =>
    cases hr : r.internal with
    | false =>
      obtain ⟨row, m, sent, hstore, hpublic⟩ := store_of_staff [] hm hstaff hr
      rw [seen_of_store_ok hc hnot hstore] at heq
      obtain ⟨-, hlist⟩ := view_eq_iff.mp (Option.some.inj (Prod.mk.inj heq).2)
      rw [hmessages, List.filter_cons_of_pos hpublic] at hlist
      exact List.cons_ne_self _ _ hlist.symm
    | true =>
      obtain ⟨row, m, sent, hstore, hstatus⟩ := store_of_note [] hm hstaff hr
      rw [seen_of_store_ok hc hnot hstore] at heq
      obtain ⟨hsame, -⟩ := view_eq_iff.mp (Option.some.inj (Prod.mk.inj heq).2)
      exact hstatus (congrArg TicketRow.status (hsame.symm.trans hrow))

/-- One that does not matter does not. -/
theorem seen_eq_of_not_matters (hview : t.view contact = t'.view contact)
    (hc : r.checked = .ok (body, [])) (htwin : r.isTwin body now t.messages = true)
    (htwin' : r.isTwin body now t'.messages = false) (hm : r.matters t.row = false) :
    seen ⟨now, .reply r⟩ (some t) = seen ⟨now, .reply r⟩ (some t') := by
  obtain ⟨hrow, hmessages⟩ := view_eq_iff.mp hview
  have hnot : ¬(([] : List Attachment) = [] ∧ r.isTwin body now t'.messages = true) := by
    simp [htwin']
  have hstaff : r.actor.canManage = true := by
    cases h : r.actor.canManage with
    | true => rfl
    | false =>
      rw [matters, if_pos h] at hm
      cases hm
  rw [hrow] at hm
  rw [seen_of_twin hc htwin, hstaff, if_neg (by decide), hview]
  have herror : ∀ e, r.store body [] now t'.row = .error e →
      (Except.ok [], some (t'.view contact)) = seen ⟨now, .reply r⟩ (some t') := by
    intro e hstore
    rw [seen_of_store_error hc hnot hstore, hstaff, if_neg (by decide)]
  cases hr : r.internal with
  | false =>
    obtain ⟨e, hstore⟩ := store_of_staff_error [] hm hstaff hr
    exact herror e hstore
  | true =>
    rcases store_of_note_unchanged now [] hm hstaff hr with
      ⟨e, hstore⟩ | ⟨m, sent, hstore, hinternal, hsent⟩
    · exact herror e hstore
    · have hnext : (⟨t'.row, m :: t'.messages⟩ : Ticket).view contact = t'.view contact := by
        refine view_eq_iff.mpr ⟨rfl, ?_⟩
        rw [List.filter_cons_of_neg (by simp [hinternal])]
      rw [seen_of_store_ok hc hnot hstore, hstaff, hnext, List.filter_append]
      simp only [Bool.not_true, hsent]
      rfl

/-- What a note decides, of a reply without files. -/
theorem isParted_eq (hc : r.checked = .ok (body, [])) (u : Ticket) :
    r.isParted now u = (r.matters u.row && if r.internal then r.isTwin body now u.messages
      else r.isTwin body now (u.messages.filter isPublic) && !r.isTwin body now u.messages) := by
  simp only [isParted, hc]

/-- A double click on one ticket, and none on another that looks alike. -/
theorem seen_iff_of_twin (hview : t.view contact = t'.view contact)
    (hc : r.checked = .ok (body, [])) (htwin : r.isTwin body now t.messages = true)
    (htwin' : r.isTwin body now t'.messages = false) :
    seen ⟨now, .reply r⟩ (some t) = seen ⟨now, .reply r⟩ (some t')
      ↔ r.isParted now t = r.isParted now t' := by
  obtain ⟨hrow, hmessages⟩ := view_eq_iff.mp hview
  rw [isParted_eq hc, isParted_eq hc, htwin, htwin', ← hrow, ← hmessages]
  cases hm : r.matters t.row with
  | false => exact iff_of_true (seen_eq_of_not_matters hview hc htwin htwin' hm) rfl
  | true =>
    refine iff_of_false (seen_ne_of_matters hview hc htwin htwin' hm) ?_
    cases hr : r.internal with
    | true => simp
    | false => simp [isTwin_filter hr htwin]

/-- **A reply does the same to two tickets that look alike exactly when a note parts it on both or
    on neither.** -/
theorem seen_iff (hview : t.view contact = t'.view contact) :
    seen ⟨now, .reply r⟩ (some t) = seen ⟨now, .reply r⟩ (some t')
      ↔ r.isParted now t = r.isParted now t' := by
  obtain ⟨hrow, hmessages⟩ := view_eq_iff.mp hview
  cases hc : r.checked with
  | error e =>
    refine iff_of_true ?_ ?_
    · rw [seen_of_refused hc, seen_of_refused hc, hview]
    · simp only [isParted, hc]
  | ok p =>
    obtain ⟨body, files⟩ := p
    cases files with
    | cons file files =>
      refine iff_of_true (seen_eq_of_same hview (fun h => ?_) hc) ?_
      · cases h
      · simp only [isParted, hc]
    | nil =>
      cases htwin : r.isTwin body now t.messages with
      | false =>
        cases htwin' : r.isTwin body now t'.messages with
        | false =>
          refine iff_of_true (seen_eq_of_same hview (fun _ => htwin.trans htwin'.symm) hc) ?_
          rw [isParted_eq hc, isParted_eq hc, htwin, htwin', hrow, hmessages]
        | true =>
          rw [eq_comm, seen_iff_of_twin hview.symm hc htwin' htwin, eq_comm]
      | true =>
        cases htwin' : r.isTwin body now t'.messages with
        | false => exact seen_iff_of_twin hview hc htwin htwin'
        | true =>
          refine iff_of_true (seen_eq_of_same hview (fun _ => htwin.trans htwin'.symm) hc) ?_
          rw [isParted_eq hc, isParted_eq hc, htwin, htwin', hrow, hmessages]

/-- A note that sets no status leaves the view as it is. -/
theorem view_next_of_note (hnote : (Call.reply r).isNote = true) :
    (desk.next ⟨now, .reply r⟩ (some t)).map (Ticket.view contact) = some (t.view contact) := by
  simp only [Call.isNote, Bool.and_eq_true, Option.isNone_iff_eq_none] at hnote
  obtain ⟨⟨hr, hstaff⟩, hset⟩ := hnote
  have hseen : (seen ⟨now, .reply r⟩ (some t)).2 = some (t.view contact) := by
    cases hc : r.checked with
    | error e => rw [seen_of_refused hc]
    | ok p =>
      obtain ⟨body, files⟩ := p
      by_cases htwin : files = [] ∧ r.isTwin body now t.messages = true
      · obtain ⟨rfl, htwin⟩ := htwin
        rw [seen_of_twin hc htwin]
      · have hm : r.matters t.row = false := by simp [matters, hr, hstaff, hset]
        rcases store_of_note_unchanged now files hm hstaff hr with
          ⟨e, hstore⟩ | ⟨m, sent, hstore, hinternal, -⟩
        · rw [seen_of_store_error hc htwin hstore]
        · rw [seen_of_store_ok hc htwin hstore]
          refine congrArg some (view_eq_iff.mpr ⟨rfl, ?_⟩)
          rw [List.filter_cons_of_neg (by simp [hinternal])]
  exact hseen

end Reply

/-! ### Whole histories -/

theorem view_next_of_hidden (c : Timed) (s : Option Ticket) (h : c.call.isNote = true) :
    (desk.next c s).map (Ticket.view contact) = s.map (Ticket.view contact) := by
  obtain ⟨now, call⟩ := c
  cases call with
  | reply r =>
    cases s with
    | none => rfl
    | some t => exact Reply.view_next_of_note h
  | _ => cases h

/-- A call that is no hidden note does the same to what looks alike exactly when a note parts it
    on both or on neither. -/
theorem seen_iff_isParted (c : Timed) (s s' : Option Ticket)
    (hview : s.map (Ticket.view contact) = s'.map (Ticket.view contact)) :
    seen c s = seen c s' ↔ c.isParted s = c.isParted s' := by
  obtain ⟨now, call⟩ := c
  cases s with
  | none =>
    cases s' with
    | none => exact iff_of_true rfl rfl
    | some t' => cases hview
  | some t =>
    cases s' with
    | none => cases hview
    | some t' =>
      have hview : t.view contact = t'.view contact := Option.some.inj hview
      cases call with
      | openTicket o =>
        refine iff_of_true ?_ rfl
        have hsame : ∀ u : Ticket, seen ⟨now, .openTicket o⟩ (some u)
            = (.ok [], some (u.view contact)) := fun u => rfl
        rw [hsame, hsame, hview]
      | reply r => exact Reply.seen_iff hview
      | setStatus actor value => exact iff_of_true (seen_onRow rfl rfl hview) rfl
      | assign actor agent => exact iff_of_true (seen_onRow rfl rfl hview) rfl
      | setPriority actor value => exact iff_of_true (seen_onRow rfl rfl hview) rfl
      | setDepartment actor department => exact iff_of_true (seen_onRow rfl rfl hview) rfl
      | autoClose => exact iff_of_true (seen_onRow rfl rfl hview) rfl

/-- **Two histories of a ticket that differ only in notes look alike to a contact exactly when**
    their notes part the same replies: in each call that both have, one history has a note between a
    reply and its twin, or a twin of a note that sets a status, just where the other has. -/
theorem notes_unseen_iff (history history' : List Timed)
    (h : customerSide.known history = customerSide.known history') :
    customerSide.trace history none = customerSide.trace history' none
      ↔ customerSide.marks Timed.isParted history none
        = customerSide.marks Timed.isParted history' none :=
  Observed.trace_eq_iff (fun c s hc => view_next_of_hidden c s hc)
    (fun c s s' _ hview => seen_iff_isParted c s s' hview) history history' none none h rfl

/-! ### A note between two clicks -/

/-- A contact of the client, and a member of the staff. -/
def ann : Person := ⟨7, "Ann", "ann@acme.com", false, true⟩

def sam : Person := ⟨2, "Sam", "sam@panel.example.net", true, false⟩

/-- Ann opens a ticket and asks twice, so many seconds apart, with notes in between or without. -/
def askedTwice (apart : ℤ) (notes : List Timed) : List Timed :=
  [⟨0, .openTicket {
      actor := ann, reference := "T000001", department := some ⟨1, none⟩, subject := "Mail"
      body := "It bounces.", priority := "normal" }⟩,
    ⟨60000000, .reply { actor := ann, body := "Any news?" }⟩] ++ notes
    ++ [⟨60000000 + apart * 1000000, .reply { actor := ann, body := "Any news?" }⟩]

/-- Sam leaves a note five seconds after she has asked. -/
def note : Timed := ⟨65000000, .reply { actor := sam, body := "Known fault.", internal := true }⟩

/-- She asks again after an hour: the note changes nothing. -/
theorem notes_unseen_hour : customerSide.trace (askedTwice 3600 [note]) none
    = customerSide.trace (askedTwice 3600 []) none :=
  (notes_unseen_iff (askedTwice 3600 [note]) (askedTwice 3600 []) (by decide +kernel)).mpr
    (by decide +kernel)

/-- She clicks twice within ten seconds: only without the note is it one message. -/
theorem not_notes_unseen : ¬∀ history history' : List Timed,
    customerSide.known history = customerSide.known history' →
      customerSide.trace history none = customerSide.trace history' none := by
  intro h
  have htrace := h (askedTwice 10 [note]) (askedTwice 10 []) (by decide +kernel)
  revert htrace
  decide +kernel

end WPanel.Support
