import WPanel.Hosting.Schedules
import Mathlib.Data.List.Perm.Basic

namespace WPanel.Hosting.CronJobs

open WPanel.Lib WPanel.Hosting.Schedules

/-!
# The scheduled jobs of a cPanel account

`hosting/adapters/cpanel_cron.py`: a job is changed by removing its line from the crontab and adding
another one.

* `Server` — what the server answers: the lines of the crontab with their numbers and keys;
* `rows`, `find`, `updateCronJob` — the jobs as they are read back, and the change;
* `Updated` — the change is refused and the crontab is as it was, or exactly that job is replaced;
* `SwitchesBack` — switched off and on again, a job is what it was;
* `updated_iff` — the promise is kept unless a line is removed and the new one is not added, or
  either is done without an answer, the check of the schedule does not come to an end, or a command
  that is marked twice is switched on.
-/

/-- A switched-off job stays in the crontab as a comment. -/
def DISABLED : String := "#WHP-DISABLED# "

/-! ### The crontab and its server -/

/-- A job of a crontab: minute, hour, day, month and weekday, and what is run. -/
structure Job where
  fields : List String
  command : String
  length_fields : fields.length = 5
  isWord_fields : ∀ field ∈ fields, IsWord field
  deriving DecidableEq

/-- A crontab has jobs and other lines: settings, comments, blank lines. -/
inductive Line
  | job (job : Job)
  | other (text : String)
  deriving DecidableEq

/-- The server: its number of the first line of a crontab, and the key it gives to a job, which is
    a digest of the job and no number; servers that give none leave it empty. -/
structure Server where
  firstLine : ℕ
  linekey : Job → String
  linekey_inj : ∀ a b, linekey a ≠ "" → linekey a = linekey b → a = b
  linekey_ne : ∀ a (n : ℕ), linekey a ≠ toString n

/-- One line, as `listcron` answers it: what it says of the five fields, in this order. -/
structure Item where
  linekey : String
  count : ℕ
  fields : List (Option String)
  command : String

/-- What comes of each call: a listing that is refused, for a reason; a change that is made,
    refused, or made without an answer in time. -/
structure Replies where
  listcron : Option String := none
  removeLine : Outcome String Unit := .done ()
  addLine : Outcome String Unit := .done ()

variable (server : Server)

def Server.item (i : ℕ) : Line → Item
  | .job job => ⟨server.linekey job, server.firstLine + i, job.fields.map some, job.command⟩
  | .other _ => ⟨"", server.firstLine + i, [], ""⟩

def Server.listcron (crontab : List Line) : List Item := crontab.mapIdx server.item

/-- The line of a number is gone. -/
def Server.removeLine (line : ℕ) (crontab : List Line) : List Line :=
  crontab.eraseIdx (line - server.firstLine)

/-! ### The adapter -/

/-- A job, as `_lines` reads it. -/
structure Row where
  id : String
  line : ℕ
  schedule : String
  command : String
  enabled : Bool
  deriving DecidableEq

/-- `command[len(DISABLED):]`. -/
def unmarked (command : String) : String :=
  String.ofList (command.toList.drop DISABLED.toList.length)

/-- `item.get("linekey") or item.get("count")`, as text. -/
def Item.id (item : Item) : String :=
  if item.linekey ≠ "" then item.linekey else toString item.count

def Item.row (item : Item) : Option Row :=
  if item.command = "" then none
  else
    let enabled := !startsWith item.command DISABLED
    some {
      id := item.id
      line := item.count
      schedule := String.intercalate " " (item.fields.map fun field => field.getD "*")
      command := if enabled then item.command else unmarked item.command
      enabled := enabled }

/-- The jobs among the lines. -/
def Server.rows (crontab : List Line) : List Row := (server.listcron crontab).filterMap Item.row

/-- What customers are shown of a job. -/
structure CronJobInfo where
  jobId : String
  schedule : String
  command : String
  enabled : Bool
  deriving DecidableEq

def Row.info (row : Row) : CronJobInfo := ⟨row.id, row.schedule, row.command, row.enabled⟩

/-- `list_cron_jobs`. -/
def Server.listCronJobs (crontab : List Line) : List CronJobInfo :=
  (server.rows crontab).map Row.info

def answer (refusal : Option String) : Except Err PUnit :=
  match refusal with
  | none => pure ⟨⟩
  | some reason => throw (hostingError reason)

/-- `_lines`. -/
def Server.lines (refusal : Option String) : Routine (List Line) Err (List Row) := do
  Routine.check (answer refusal)
  Routine.read server.rows

/-- `_find`, among the rows. -/
def find (rows : List Row) (jobId : String) : Except Err Row :=
  match rows.find? fun row => row.id = jobId with
  | some row => pure row
  | none => throw (hostingError "That scheduled job no longer exists.")

/-- The five fields of a schedule, in front of a command. -/
def lineOf (schedule command : String) : Except Err Job :=
  if h : (splitSpace schedule).length = 5 then
    pure ⟨splitSpace schedule, command, h, fun _ => isWord_of_mem_splitSpace⟩
  else throw (.unexpected "ValueError: wrong number of values to unpack")

/-- `_add`. -/
def add (reply : Outcome String Unit) (schedule command : String) (enabled : Bool) :
    Routine (List Line) Err Unit := do
  let job ← Routine.check (lineOf schedule (if enabled then command else DISABLED ++ command))
  Routine.remote hostingError reply fun _ crontab => crontab ++ [Line.job job]

/-- What is to be different. -/
structure Change where
  schedule : Option String := none
  command : Option String := none
  enabled : Option Bool := none

def Change.newSchedule (change : Change) (row : Row) : Except Err String :=
  match change.schedule with
  | some schedule => checkSchedule schedule
  | none => pure row.schedule

def Change.newCommand (change : Change) (row : Row) : Except Err String :=
  match change.command with
  | some command => checkCommand command
  | none => pure row.command

/-- `update_cron_job`. -/
def Server.updateCronJob (replies : Replies) (jobId : String) (change : Change) :
    Routine (List Line) Err Unit := do
  let rows ← server.lines replies.listcron
  let row ← Routine.check (find rows jobId)
  let newSchedule ← Routine.check (change.newSchedule row)
  let newCommand ← Routine.check (change.newCommand row)
  Routine.remote hostingError replies.removeLine fun _ => server.removeLine row.line
  add replies.addLine newSchedule newCommand (change.enabled.getD row.enabled)

/-! ### The promise -/

/-- The schedule of a job, as text. -/
def Job.schedule (job : Job) : String := String.intercalate " " job.fields

/-- The new line says what was asked for, and what was not asked for as before. -/
structure Change.Asks (change : Change) (job : CronJobInfo) (new : Job) : Prop where
  schedule : ∀ schedule ∈ change.schedule, checkSchedule schedule = .ok new.schedule
  schedule_none : change.schedule = none → new.schedule = job.schedule
  command : ∀ asked ∈ change.command, ∃ command, checkCommand asked = .ok command
    ∧ new.command = if change.enabled.getD job.enabled then command else DISABLED ++ command
  command_none : change.command = none →
    new.command = if change.enabled.getD job.enabled then job.command else DISABLED ++ job.command

/-- The line reads as that job. -/
def Server.Reads (crontab : List Line) (i : ℕ) (job : CronJobInfo) : Prop :=
  ∃ old, crontab[i]? = some (.job old) ∧ (server.item i (.job old)).row.map Row.info = some job

/-- **Exactly that job is replaced**: every other line is kept, and the new one is as asked, with
    the marker exactly when the job is switched off. -/
def Server.Replaced (crontab : List Line) (job : CronJobInfo) (change : Change)
    (after : List Line) : Prop :=
  ∃ i new, server.Reads crontab i job ∧ after = crontab.eraseIdx i ++ [Line.job new]
    ∧ change.Asks job new
    ∧ (startsWith new.command DISABLED = true ↔ change.enabled.getD job.enabled = false)

/-- **The change is refused and the crontab is as it was, or exactly that job is replaced.** -/
def Server.Updated (replies : Replies) (crontab : List Line) (job : CronJobInfo)
    (change : Change) : Prop :=
  match server.updateCronJob replies job.jobId change crontab with
  | (.error e, after) => (∃ message, e = hostingError message) ∧ after = crontab
  | (.ok _, after) => server.Replaced crontab job change after

/-- The job, switched off. -/
def IsOff (job off : CronJobInfo) : Prop :=
  off.schedule = job.schedule ∧ off.command = job.command ∧ off.enabled = false

/-- **Switched off and on again, a job is what it was**, in a crontab of the same lines. -/
def Server.SwitchesBack (crontab : List Line) (job : CronJobInfo) : Prop :=
  job.enabled = true → ∃ crontab',
    server.updateCronJob {} job.jobId { enabled := some false } crontab = (.ok (), crontab')
      ∧ (∃ off ∈ server.listCronJobs crontab', IsOff job off)
      ∧ ∀ off ∈ server.listCronJobs crontab', IsOff job off → ∃ crontab'',
        server.updateCronJob {} off.jobId { enabled := some true } crontab' = (.ok (), crontab'')
          ∧ crontab''.Perm crontab

/-- Both checks accept what is asked for. -/
def Change.Accepted (change : Change) : Prop :=
  (∀ schedule ∈ change.schedule, (checkSchedule schedule).isOk = true)
    ∧ ∀ command ∈ change.command, (checkCommand command).isOk = true

/-- The job as it is found, taken out and put at the end as asked, leaves the crontab as it was: it
    stands there already, and nothing different is asked for. -/
def Server.Idle (crontab : List Line) (job : CronJobInfo) (change : Change) : Prop :=
  ∃ row new, find (server.rows crontab) job.jobId = .ok row ∧ change.Asks job new
    ∧ server.removeLine row.line crontab ++ [Line.job new] = crontab

/-- A kept command that is marked twice, switched on. -/
def Change.Unmasks (change : Change) (job : CronJobInfo) : Prop :=
  change.command = none ∧ change.enabled.getD job.enabled = true
    ∧ startsWith job.command DISABLED = true

/-- The calls that make the change go well together: the line is not removed, or it is and the new
    one is added, of which no marker is left to be taken off; a new line that is added without an
    answer has to make no difference. -/
def Server.GoesThrough (replies : Replies) (crontab : List Line) (job : CronJobInfo)
    (change : Change) : Prop :=
  match replies.removeLine, replies.addLine with
  | .refused _, _ => True
  | .lost _ _, _ => False
  | .done _, .done _ => ¬change.Unmasks job
  | .done _, .refused _ => False
  | .done _, .lost _ _ => server.Idle crontab job change

section

variable {server} {crontab crontab' : List Line} {i j : ℕ} {a b old new : Job} {row row' : Row}
  {job off : CronJobInfo} {replies : Replies} {change : Change} {schedule command reason : String}
  {e : Err}

private theorem cons_eraseIdx_perm {l : List Line} {line : Line} (h : l[i]? = some line) :
    (line :: l.eraseIdx i).Perm l := by
  obtain ⟨hi, rfl⟩ := List.getElem?_eq_some_iff.mp h
  exact List.getElem_cons_eraseIdx_perm hi

/-! ### The marker -/

theorem startsWith_marked (command : String) :
    startsWith (DISABLED ++ command) DISABLED = true := by
  rw [startsWith, String.toList_append, List.isPrefixOf_iff_prefix]
  exact List.prefix_append _ _

theorem unmarked_marked (command : String) : unmarked (DISABLED ++ command) = command := by
  rw [unmarked, String.toList_append, List.drop_left, String.ofList_toList]

theorem marked_unmarked (h : startsWith command DISABLED = true) :
    DISABLED ++ unmarked command = command := by
  obtain ⟨rest, hrest⟩ := List.isPrefixOf_iff_prefix.mp h
  refine String.toList_injective ?_
  rw [unmarked, String.toList_append, String.toList_ofList, ← hrest, List.drop_left]

/-! ### The rows of a crontab -/

/-- What is read of a line that is a job. -/
theorem row_eq_some (h : (server.item i (.job old)).row = some row) :
    row.id = (server.item i (.job old)).id ∧ row.line = server.firstLine + i
      ∧ row.schedule = old.schedule ∧ row.enabled = !startsWith old.command DISABLED
      ∧ old.command = if row.enabled then row.command else DISABLED ++ row.command := by
  rw [Item.row] at h
  split at h
  · cases h
  · cases h
    refine ⟨rfl, rfl, ?_, rfl, ?_⟩
    · simp [Server.item, Job.schedule]
    · cases hmark : startsWith old.command DISABLED with
      | true => simp [Server.item, hmark, marked_unmarked]
      | false => simp [Server.item, hmark]

theorem mem_rows : row ∈ server.rows crontab
    ↔ ∃ i old, crontab[i]? = some (.job old) ∧ (server.item i (.job old)).row = some row := by
  simp only [Server.rows, Server.listcron, List.mem_filterMap, List.mem_mapIdx]
  constructor
  · rintro ⟨item, ⟨i, hi, rfl⟩, hrow⟩
    cases hline : crontab[i] with
    | job old =>
      rw [hline] at hrow
      exact ⟨i, old, by rw [List.getElem?_eq_getElem hi, hline], hrow⟩
    | other text =>
      rw [hline] at hrow
      cases hrow
  · rintro ⟨i, old, hline, hrow⟩
    obtain ⟨hi, hget⟩ := List.getElem?_eq_some_iff.mp hline
    exact ⟨_, ⟨i, hi, rfl⟩, by rw [hget]; exact hrow⟩

theorem id_of_key (h : server.linekey old ≠ "") :
    (server.item i (.job old)).id = server.linekey old := if_pos h

theorem id_of_no_key (h : server.linekey old = "") :
    (server.item i (.job old)).id = toString (server.firstLine + i) := if_neg (not_not.mpr h)

/-- **A job is known by its id**: lines of one id are the same line. -/
theorem eq_of_id_eq (ha : crontab[i]? = some (.job a)) (hb : crontab[j]? = some (.job b))
    (h : (server.item i (.job a)).id = (server.item j (.job b)).id) : a = b := by
  by_cases hkey : server.linekey a = ""
  · by_cases hkey' : server.linekey b = ""
    · -- neither has a key: the numbers of the lines are the same
      rw [id_of_no_key hkey, id_of_no_key hkey'] at h
      obtain rfl : i = j := by
        have := toString_inj h
        omega
      rw [ha] at hb
      cases hb
      rfl
    · rw [id_of_no_key hkey, id_of_key hkey'] at h
      exact absurd h.symm (server.linekey_ne b _)
  · by_cases hkey' : server.linekey b = ""
    · rw [id_of_key hkey, id_of_no_key hkey'] at h
      exact absurd h (server.linekey_ne a _)
    · rw [id_of_key hkey, id_of_key hkey'] at h
      exact server.linekey_inj a b hkey h

/-- A job is its schedule and its command. -/
theorem job_eq (hschedule : a.schedule = b.schedule) (hcommand : a.command = b.command) :
    a = b := by
  have hfields : a.fields = b.fields := by
    rw [← splitSpace_intercalate a.isWord_fields, ← splitSpace_intercalate b.isWord_fields]
    exact congrArg splitSpace hschedule
  cases a
  cases b
  cases hfields
  cases hcommand
  rfl

theorem exists_row (i : ℕ) (h : old.command ≠ "") :
    ∃ row, (server.item i (.job old)).row = some row := ⟨_, if_neg h⟩

/-- A marked line is read as a job that is switched off. -/
theorem off_of_marked (hread : (server.item i (.job old)).row = some row)
    (h : old.command = DISABLED ++ command) : row.enabled = false ∧ row.command = command := by
  obtain ⟨-, -, -, henabled, hcommand⟩ := row_eq_some hread
  rw [h, startsWith_marked] at henabled
  rw [henabled, if_neg (by decide), h] at hcommand
  exact ⟨henabled, by rw [← unmarked_marked row.command, ← hcommand, unmarked_marked]⟩

/-- The row that `_find` comes upon is the job of that id. -/
theorem find_of_mem (h : job ∈ server.listCronJobs crontab) :
    ∃ i old row, crontab[i]? = some (.job old) ∧ (server.item i (.job old)).row = some row
      ∧ row.info = job ∧ find (server.rows crontab) job.jobId = .ok row := by
  obtain ⟨shown, hshown, rfl⟩ := List.mem_map.mp h
  obtain ⟨j, b, hb, hrowb⟩ := mem_rows.mp hshown
  cases hfind : (server.rows crontab).find? fun row => row.id = shown.info.jobId with
  | none =>
    have hno := List.find?_eq_none.mp hfind shown hshown
    exact absurd (decide_eq_true rfl) hno
  | some row =>
    have hid : row.id = shown.id := by
      have hid := List.find?_some hfind
      exact of_decide_eq_true hid
    obtain ⟨i, a, ha, hrowa⟩ := mem_rows.mp (List.mem_of_find?_eq_some hfind)
    obtain ⟨hida, -, hsa, hea, hca⟩ := row_eq_some hrowa
    obtain ⟨hidb, -, hsb, heb, hcb⟩ := row_eq_some hrowb
    obtain rfl : a = b := eq_of_id_eq ha hb (hida.symm.trans (hid.trans hidb))
    refine ⟨i, a, row, ha, hrowa, ?_, ?_⟩
    · have henabled : row.enabled = shown.enabled := hea.trans heb.symm
      have hcommand : row.command = shown.command := by
        rw [hca, henabled] at hcb
        split at hcb
        · exact hcb
        · rw [← unmarked_marked row.command, hcb, unmarked_marked]
      rw [Row.info, Row.info, hid, hsa, hsb, henabled, hcommand]
    · rw [find, hfind]
      rfl

/-! ### The steps of a change -/

/-- What a schedule is that can be written into a line. -/
def IsSchedule (schedule : String) : Prop :=
  ∃ fields : List String, fields.length = 5 ∧ (∀ field ∈ fields, IsWord field)
    ∧ schedule = String.intercalate " " fields

theorem Job.isSchedule (job : Job) : IsSchedule job.schedule :=
  ⟨job.fields, job.length_fields, job.isWord_fields, rfl⟩

theorem isSchedule_of_checked (h : checkSchedule command = .ok schedule) : IsSchedule schedule := by
  obtain ⟨_, hfive, h⟩ := bind_eq_ok.mp h
  obtain ⟨_, -, h⟩ := bind_eq_ok.mp h
  obtain ⟨_, -, h⟩ := bind_eq_ok.mp h
  exact ⟨splitSpace command, ensure_eq_ok.mp hfive, fun _ => isWord_of_mem_splitSpace,
    ((pure_eq_ok _ _).mp h).symm⟩

/-- The five fields are unpacked, and joined they are the schedule again. -/
theorem exists_lineOf (h : IsSchedule schedule) (command : String) :
    ∃ new, lineOf schedule command = .ok new ∧ new.schedule = schedule
      ∧ new.command = command := by
  obtain ⟨fields, hfive, hwords, rfl⟩ := h
  have hsplit := splitSpace_intercalate hwords
  have hlength : (splitSpace (String.intercalate " " fields)).length = 5 := by rw [hsplit, hfive]
  exact ⟨_, dif_pos hlength, congrArg (String.intercalate " ") hsplit, rfl⟩

/-- A checked command is not marked. -/
theorem not_marked_of_checked {asked : String} (h : checkCommand asked = .ok command) :
    startsWith command DISABLED = false := by
  obtain ⟨_, -, h⟩ := bind_eq_ok.mp h
  obtain ⟨_, hphp, h⟩ := bind_eq_ok.mp h
  obtain ⟨hphp, -⟩ := ensure_eq_ok.mp hphp
  obtain ⟨_, -, h⟩ := bind_eq_ok.mp h
  obtain ⟨_, -, h⟩ := bind_eq_ok.mp h
  obtain rfl := (pure_eq_ok _ _).mp h
  -- it begins with `php`
  cases hsplit : splitSpace asked with
  | nil =>
    rw [hsplit] at hphp
    exact absurd hphp (by decide)
  | cons word rest =>
    rw [hsplit] at hphp
    obtain rfl : word = "php" := hphp
    have hhead : ∃ tail, (String.intercalate " " ("php" :: rest)).toList = 'p' :: tail := by
      rw [String.toList_intercalate]
      cases rest with
      | nil => exact ⟨['h', 'p'], rfl⟩
      | cons word rest =>
        rw [List.map_cons, List.map_cons, List.intercalate_cons_cons]
        exact ⟨_, rfl⟩
    obtain ⟨tail, htail⟩ := hhead
    rw [startsWith, htail]
    rfl

/-- The check of a command raises nothing but a reason. -/
theorem raises_checkCommand (command : String) :
    Raises (checkCommand command) fun e => ∃ message, e = hostingError message :=
  (raises_ensure ⟨_, rfl⟩).bind fun _ => (raises_ensure ⟨_, rfl⟩).bind fun _ =>
    (raises_ensure ⟨_, rfl⟩).bind fun _ => (raises_ensure ⟨_, rfl⟩).bind fun _ => raises_pure _

/-- The listing is refused. -/
theorem update_of_unlisted (jobId : String) (h : replies.listcron = some reason) :
    server.updateCronJob replies jobId change crontab
      = (.error (hostingError reason), crontab) := by
  simp only [Server.updateCronJob, Server.lines, h]
  rfl

section

variable (hlisted : replies.listcron = none)
  (hfind : find (server.rows crontab) job.jobId = .ok row)

include hlisted hfind

/-- The new schedule is refused. -/
theorem update_of_wrong_schedule (h : change.newSchedule row = .error e) :
    server.updateCronJob replies job.jobId change crontab = (.error e, crontab) := by
  simp only [Server.updateCronJob, Server.lines, hlisted, answer, Routine.bind_apply,
    Routine.check_apply, Routine.read_apply, pure, Except.pure, hfind, h]

/-- The new command is refused. -/
theorem update_of_wrong_command (hschedule : change.newSchedule row = .ok schedule)
    (h : change.newCommand row = .error e) :
    server.updateCronJob replies job.jobId change crontab = (.error e, crontab) := by
  simp only [Server.updateCronJob, Server.lines, hlisted, answer, Routine.bind_apply,
    Routine.check_apply, Routine.read_apply, pure, Except.pure, hfind, hschedule, h]

/-- Once everything is checked, the answers of the two calls decide. -/
theorem update_of_checked (hschedule : change.newSchedule row = .ok schedule)
    (hcommand : change.newCommand row = .ok command)
    (hline : lineOf schedule
      (if change.enabled.getD row.enabled then command else DISABLED ++ command) = .ok new) :
    server.updateCronJob replies job.jobId change crontab
      = match replies.removeLine, replies.addLine with
        | .refused reason, _ => (.error (hostingError reason), crontab)
        | .lost reason _, _ =>
          (.error (hostingError reason), server.removeLine row.line crontab)
        | .done _, .refused reason =>
          (.error (hostingError reason), server.removeLine row.line crontab)
        | .done _, .lost reason _ =>
          (.error (hostingError reason), server.removeLine row.line crontab ++ [Line.job new])
        | .done _, .done _ => (.ok (), server.removeLine row.line crontab ++ [Line.job new]) := by
  simp only [Server.updateCronJob, Server.lines, add, hlisted, answer, Routine.bind_apply,
    Routine.check_apply, Routine.read_apply, pure, Except.pure, hfind, hschedule, hcommand, hline,
    Routine.remote]
  cases replies.removeLine with
  | done u => cases replies.addLine <;> rfl
  | refused reason => rfl
  | lost reason u => rfl

end

/-! ### What a change leaves -/

/-- Everything about the job that is changed, as it is read. -/
structure Server.Finds (server : Server) (crontab : List Line) (job : CronJobInfo) (i : ℕ)
    (old : Job) (row : Row) : Prop where
  line : crontab[i]? = some (.job old)
  read : (server.item i (.job old)).row = some row
  info : row.info = job
  find : CronJobs.find (server.rows crontab) job.jobId = .ok row

theorem Server.Finds.removed (h : server.Finds crontab job i old row) :
    server.removeLine row.line crontab = crontab.eraseIdx i := by
  rw [Server.removeLine, (row_eq_some h.read).2.1, Nat.add_sub_cancel_left]

theorem Server.Finds.reads (h : server.Finds crontab job i old row) :
    server.Reads crontab i job := ⟨old, h.line, by rw [h.read, Option.map_some, h.info]⟩

/-- One line fewer. -/
theorem Server.Finds.eraseIdx_ne (h : server.Finds crontab job i old row) :
    crontab.eraseIdx i ≠ crontab := by
  intro heq
  obtain ⟨hi, -⟩ := List.getElem?_eq_some_iff.mp h.line
  have := congrArg List.length heq
  rw [List.length_eraseIdx_of_lt hi] at this
  omega

theorem exists_finds (h : job ∈ server.listCronJobs crontab) :
    ∃ i old row, server.Finds crontab job i old row := by
  obtain ⟨i, old, row, hline, hread, hinfo, hfind⟩ := find_of_mem h
  exact ⟨i, old, row, hline, hread, hinfo, hfind⟩

/-- The schedule that is asked for can be written into a line. -/
theorem isSchedule_of_newSchedule (h : server.Finds crontab job i old row)
    (hschedule : change.newSchedule row = .ok schedule) : IsSchedule schedule := by
  cases hasked : change.schedule with
  | none =>
    rw [Change.newSchedule, hasked] at hschedule
    obtain rfl := (pure_eq_ok _ _).mp hschedule
    rw [(row_eq_some h.read).2.2.1]
    exact old.isSchedule
  | some asked =>
    rw [Change.newSchedule, hasked] at hschedule
    exact isSchedule_of_checked hschedule

/-- The new line is as asked. -/
theorem asks_of_new (h : server.Finds crontab job i old row)
    (hschedule : change.newSchedule row = .ok schedule)
    (hcommand : change.newCommand row = .ok command) (hnew : new.schedule = schedule)
    (hnew' : new.command
      = if change.enabled.getD row.enabled then command else DISABLED ++ command) :
    change.Asks job new := by
  obtain rfl := h.info
  subst hnew
  constructor
  · intro asked hasked
    rw [Change.newSchedule, Option.mem_def.mp hasked] at hschedule
    exact hschedule
  · intro hasked
    rw [Change.newSchedule, hasked] at hschedule
    exact ((pure_eq_ok _ _).mp hschedule).symm
  · intro asked hasked
    rw [Change.newCommand, Option.mem_def.mp hasked] at hcommand
    exact ⟨command, hcommand, hnew'⟩
  · intro hasked
    rw [Change.newCommand, hasked] at hcommand
    obtain rfl := (pure_eq_ok _ _).mp hcommand
    exact hnew'

/-- The marker says whether the job is switched off, unless the command has one of its own. -/
theorem marked_new_iff {enabled : Bool}
    (hnew : new.command = if enabled then command else DISABLED ++ command) :
    (startsWith new.command DISABLED = true ↔ enabled = false)
      ↔ ¬(enabled = true ∧ startsWith command DISABLED = true) := by
  cases enabled with
  | true => rw [hnew]; simp
  | false => rw [hnew]; simp [startsWith_marked]

theorem newSchedule_eq_error (h : change.newSchedule row = .error e) :
    ∃ asked ∈ change.schedule, checkSchedule asked = .error e := by
  rw [Change.newSchedule] at h
  split at h
  · next asked hasked => exact ⟨asked, hasked, h⟩
  · exact absurd h (pure_ne_error _ _)

theorem newCommand_eq_error (h : change.newCommand row = .error e) :
    ∃ asked ∈ change.command, checkCommand asked = .error e := by
  rw [Change.newCommand] at h
  split at h
  · next asked hasked => exact ⟨asked, hasked, h⟩
  · exact absurd h (pure_ne_error _ _)

/-- The schedule is one that was checked, or the job's. -/
theorem readable_of_newSchedule (h : change.newSchedule row = .ok schedule) :
    ∀ asked ∈ change.schedule, checkSchedule asked = .ok schedule := by
  intro asked hasked
  rw [Change.newSchedule, Option.mem_def.mp hasked] at h
  exact h

theorem accepted_of_ok (hschedule : change.newSchedule row = .ok schedule)
    (hcommand : change.newCommand row = .ok command) : change.Accepted := by
  refine ⟨fun asked hasked => ?_, fun asked hasked => ?_⟩
  · rw [readable_of_newSchedule hschedule asked hasked]
    rfl
  · rw [Change.newCommand, Option.mem_def.mp hasked] at hcommand
    exact congrArg Except.isOk hcommand

/-- The new command is marked where the job's is, and it is kept. -/
theorem marked_newCommand_iff (hcommand : change.newCommand row = .ok command) :
    startsWith command DISABLED = true
      ↔ change.command = none ∧ startsWith row.command DISABLED = true := by
  cases hasked : change.command with
  | none =>
    rw [Change.newCommand, hasked] at hcommand
    obtain rfl := (pure_eq_ok _ _).mp hcommand
    simp
  | some asked =>
    rw [Change.newCommand, hasked] at hcommand
    rw [not_marked_of_checked hcommand]
    simp

/-- **Switching off and on again gives the job back**, whatever the crontab. -/
theorem switchesBack (h : job ∈ server.listCronJobs crontab) :
    server.SwitchesBack crontab job := by
  intro henabled
  obtain ⟨i, old, row, hf⟩ := exists_finds h
  obtain rfl := hf.info
  have henabled : row.enabled = true := henabled
  obtain ⟨hid, hnumber, hschedule, hmark, hcommand⟩ := row_eq_some hf.read
  rw [henabled, if_pos rfl] at hcommand
  -- switched off
  obtain ⟨off, hoff, hoffSchedule, hoffCommand⟩ := exists_lineOf old.isSchedule
    (DISABLED ++ row.command)
  have hfirst : server.updateCronJob {} row.info.jobId { enabled := some false } crontab
      = (.ok (), crontab.eraseIdx i ++ [Line.job off]) := by
    rw [← hf.removed]
    have hline : lineOf row.schedule (DISABLED ++ row.command) = .ok off := by
      rw [hschedule]
      exact hoff
    exact update_of_checked rfl hf.find rfl rfl hline
  have hlast : (crontab.eraseIdx i ++ [Line.job off])[(crontab.eraseIdx i).length]?
      = some (.job off) := List.getElem?_concat_length
  have hperm : (crontab.eraseIdx i ++ [Line.job off]).Perm (.job off :: crontab.eraseIdx i) :=
    List.perm_append_singleton _ _
  generalize crontab.eraseIdx i ++ [Line.job off] = crontab' at hfirst hlast hperm
  refine ⟨crontab', hfirst, ?_, fun shown hshown hisOff => ?_⟩
  · -- the new line is shown
    have hne : off.command ≠ "" := by
      rw [hoffCommand]
      intro hnil
      have := startsWith_marked row.command
      rw [hnil] at this
      exact absurd this (by decide +kernel)
    obtain ⟨shown, hshown⟩ := exists_row (crontab.eraseIdx i).length hne
    obtain ⟨hoff, hsame⟩ := off_of_marked hshown hoffCommand
    refine ⟨shown.info, List.mem_map_of_mem (mem_rows.mpr ⟨_, off, hlast, hshown⟩), ?_, hsame, hoff⟩
    exact (row_eq_some hshown).2.2.1.trans (hoffSchedule.trans hschedule.symm)
  · -- switched on again
    obtain ⟨j, old', row', hf'⟩ := exists_finds hshown
    obtain rfl := hf'.info
    obtain ⟨hsameSchedule, hsameCommand, hoff'⟩ := hisOff
    have hsameSchedule : row'.schedule = row.schedule := hsameSchedule
    have hsameCommand : row'.command = row.command := hsameCommand
    have hoff' : row'.enabled = false := hoff'
    obtain ⟨-, -, hschedule', -, hcommand'⟩ := row_eq_some hf'.read
    rw [hoff', if_neg (by decide), hsameCommand] at hcommand'
    obtain rfl : off = old' := by
      refine job_eq ?_ (hoffCommand.trans hcommand'.symm)
      rw [hoffSchedule, ← hschedule', hsameSchedule, hschedule]
    obtain ⟨new, hnew, hnewSchedule, hnewCommand⟩ := exists_lineOf old.isSchedule row.command
    obtain rfl : new = old := job_eq hnewSchedule (hnewCommand.trans hcommand.symm)
    refine ⟨crontab'.eraseIdx j ++ [Line.job new], ?_, ?_⟩
    · rw [← hf'.removed]
      have hline : lineOf row'.schedule row'.command = .ok new := by
        rw [hsameSchedule, hsameCommand, hschedule]
        exact hnew
      exact update_of_checked rfl hf'.find rfl rfl hline
    · -- the marked line was added and is gone; the other lines are those that were there before
      have hothers : (crontab'.eraseIdx j).Perm (crontab.eraseIdx i) :=
        List.Perm.cons_inv ((cons_eraseIdx_perm hf'.line).trans hperm)
      have hback : (crontab.eraseIdx i ++ [Line.job new]).Perm crontab :=
        (List.perm_append_singleton _ _).trans (cons_eraseIdx_perm hf.line)
      exact (hothers.append_right _).trans hback

/-- The job is replaced as it should be, unless the command that is kept has a marker of its own. -/
theorem replaced_iff (h : server.Finds crontab job i old row)
    (hschedule : change.newSchedule row = .ok schedule)
    (hcommand : change.newCommand row = .ok command) (hnew : new.schedule = schedule)
    (hnew' : new.command
      = if change.enabled.getD row.enabled then command else DISABLED ++ command) :
    server.Replaced crontab job change (crontab.eraseIdx i ++ [Line.job new])
      ↔ ¬change.Unmasks job := by
  have hmarked := marked_new_iff hnew'
  rw [marked_newCommand_iff hcommand] at hmarked
  obtain rfl := h.info
  have hunmasks : (change.enabled.getD row.enabled = true ∧ change.command = none
      ∧ startsWith row.command DISABLED = true) ↔ change.Unmasks row.info := and_left_comm
  rw [hunmasks] at hmarked
  constructor
  · rintro ⟨_, new', -, hafter, -, hmarker⟩
    -- the line that was added is the last one
    obtain rfl : new = new' := by
      have hlast := (List.append_inj' hafter rfl).2
      cases hlast
      rfl
    exact hmarked.mp hmarker
  · exact fun hno => ⟨i, new, h.reads, rfl, asks_of_new h hschedule hcommand hnew hnew',
      hmarked.mpr hno⟩

/-- The line that is asked for is the one that is written. -/
theorem eq_of_asks (hnew : change.Asks job new) (hother : change.Asks job old) : new = old := by
  refine job_eq ?_ ?_
  · cases hasked : change.schedule with
    | none => rw [hnew.schedule_none hasked, hother.schedule_none hasked]
    | some asked =>
      exact Except.ok.inj ((hnew.schedule asked hasked).symm.trans (hother.schedule asked hasked))
  · cases hasked : change.command with
    | none => rw [hnew.command_none hasked, hother.command_none hasked]
    | some asked =>
      obtain ⟨command, hcommand, his⟩ := hnew.command asked hasked
      obtain ⟨command', hcommand', his'⟩ := hother.command asked hasked
      cases hcommand.symm.trans hcommand'
      rw [his, his']

/-- What is left by an addition whose answer is lost is the crontab as it was, or not. -/
theorem idle_iff (h : server.Finds crontab job i old row) (hasks : change.Asks job new) :
    crontab.eraseIdx i ++ [Line.job new] = crontab ↔ server.Idle crontab job change := by
  rw [← h.removed]
  constructor
  · exact fun heq => ⟨row, new, h.find, hasks, heq⟩
  · rintro ⟨row', new', hfind, hasks', heq⟩
    cases h.find.symm.trans hfind
    cases eq_of_asks hasks hasks'
    exact heq

/-- Both checks are passed: what becomes of the two calls decides. -/
theorem updated_iff_of_checked (h : server.Finds crontab job i old row)
    (hlisted : replies.listcron = none) (hschedule : change.newSchedule row = .ok schedule)
    (hcommand : change.newCommand row = .ok command) :
    server.Updated replies crontab job change
      ↔ server.GoesThrough replies crontab job change := by
  obtain ⟨new, hnew, hnewSchedule, hnewCommand⟩ :=
    exists_lineOf (isSchedule_of_newSchedule h hschedule)
      (if change.enabled.getD row.enabled then command else DISABLED ++ command)
  unfold Server.GoesThrough
  rw [Server.Updated, update_of_checked hlisted h.find hschedule hcommand hnew, h.removed]
  cases replies.removeLine with
  | refused reason => exact iff_of_true ⟨⟨reason, rfl⟩, rfl⟩ trivial
  | lost reason u =>
    -- the job is lost
    exact iff_of_false (fun hkept => h.eraseIdx_ne hkept.2) id
  | done u =>
    cases replies.addLine with
    | refused reason =>
      -- so it is here
      exact iff_of_false (fun hkept => h.eraseIdx_ne hkept.2) id
    | lost reason u' =>
      dsimp only
      rw [and_iff_right ⟨reason, rfl⟩]
      exact idle_iff h (asks_of_new h hschedule hcommand hnewSchedule hnewCommand)
    | done u' => exact replaced_iff h hschedule hcommand hnewSchedule hnewCommand

end

/-- **A change is refused and the crontab as it was, or exactly that job is replaced, and switching
    off and on again gives the job back, exactly where**, as far as it comes to it, the check of the
    new schedule comes upon no number it cannot read, neither call is carried out without an answer,
    the new line is not refused after the old one is removed, and no command that is marked twice is
    kept and switched on. -/
theorem updated_iff {crontab : List Line} {job : CronJobInfo}
    (h : job ∈ server.listCronJobs crontab) (change : Change) (replies : Replies) :
    (server.Updated replies crontab job change ∧ server.SwitchesBack crontab job)
      ↔ (replies.listcron = none →
        (∀ schedule ∈ change.schedule, ¬Unreadable schedule)
          ∧ (change.Accepted →
            server.GoesThrough replies crontab job change)) := by
  rw [and_iff_left (switchesBack h)]
  obtain ⟨i, old, row, hf⟩ := exists_finds h
  cases hlisted : replies.listcron with
  | some reason =>
    rw [Server.Updated, update_of_unlisted job.jobId hlisted]
    exact iff_of_true ⟨⟨reason, rfl⟩, rfl⟩ fun hnone => by cases hnone
  | none =>
    refine Iff.trans ?_ (imp_iff_right rfl).symm
    cases hschedule : change.newSchedule row with
    | error e =>
      obtain ⟨asked, hasked, hrefused⟩ := newSchedule_eq_error hschedule
      rw [Server.Updated, update_of_wrong_schedule hlisted hf.find hschedule]
      constructor
      · rintro ⟨⟨message, rfl⟩, -⟩
        refine ⟨fun asked' hasked' hstrange => ?_, fun haccepted => ?_⟩
        · obtain rfl : asked = asked' := Option.mem_unique hasked hasked'
          rw [checkSchedule_eq_valueError.mpr hstrange] at hrefused
          exact hostingError_ne_valueError message (Except.error.inj hrefused).symm
        · have := haccepted.1 asked hasked
          rw [hrefused] at this
          cases this
      · rintro ⟨hreadable, -⟩
        refine ⟨?_, rfl⟩
        rcases raises_checkSchedule asked e hrefused with rfl | hreason
        · exact absurd (checkSchedule_eq_valueError.mp hrefused) (hreadable asked hasked)
        · exact hreason
    | ok schedule =>
      have hreadable : ∀ asked ∈ change.schedule, ¬Unreadable asked := by
        intro asked hasked hstrange
        have := readable_of_newSchedule hschedule asked hasked
        rw [checkSchedule_eq_valueError.mpr hstrange] at this
        cases this
      rw [and_iff_right hreadable]
      cases hcommand : change.newCommand row with
      | error e =>
        obtain ⟨asked, hasked, hrefused⟩ := newCommand_eq_error hcommand
        rw [Server.Updated, update_of_wrong_command hlisted hf.find hschedule hcommand]
        refine iff_of_true ⟨raises_checkCommand asked e hrefused, rfl⟩ fun haccepted => ?_
        have := haccepted.2 asked hasked
        rw [hrefused] at this
        cases this
      | ok command =>
        exact (updated_iff_of_checked hf hlisted hschedule hcommand).trans
          (imp_iff_right (accepted_of_ok hschedule hcommand)).symm

private theorem empty_ne_toString (n : ℕ) : "" ≠ toString n := by
  intro h
  have hnil : (toString n).toList = [] := by
    rw [← h]
    rfl
  rw [Nat.toString_eq_repr, Nat.toList_repr] at hnil
  exact Nat.toDigits_ne_nil hnil

/-- A server that numbers the lines from 1 and gives no keys. -/
def plainServer : Server where
  firstLine := 1
  linekey _ := ""
  linekey_inj _ _ h := absurd rfl h
  linekey_ne _ := empty_ne_toString

private theorem isWord_nightly : ∀ field ∈ ["0", "2", "*", "*", "*"], IsWord field := by
  decide +kernel

/-- Every night at two. -/
def nightlyJob : Job :=
  ⟨["0", "2", "*", "*", "*"], "php public_html/cron.php", rfl, isWord_nightly⟩

def nightlyInfo : CronJobInfo := ⟨"1", "0 2 * * *", "php public_html/cron.php", true⟩

example : plainServer.listCronJobs [.job nightlyJob] = [nightlyInfo] := by decide +kernel

theorem updated_iff_nightly :
    plainServer.Updated {} [.job nightlyJob] nightlyInfo { enabled := some false }
      ∧ plainServer.SwitchesBack [.job nightlyJob] nightlyInfo :=
  (updated_iff plainServer (by decide +kernel) { enabled := some false } {}).mpr fun _ =>
    ⟨fun _ hasked => absurd hasked (Option.not_mem_none _),
      fun _ hunmasks => Bool.false_ne_true hunmasks.2.1⟩

/-- **Switched off where the server refuses the new line, the job is lost**: the crontab is empty
    afterwards. -/
theorem not_updated_refused :
    ¬(plainServer.Updated { addLine := .refused "The server is busy." } [.job nightlyJob]
      nightlyInfo
        { enabled := some false }
      ∧ plainServer.SwitchesBack [.job nightlyJob] nightlyInfo) := by
  have hlost : plainServer.updateCronJob { addLine := .refused "The server is busy." } "1"
      { enabled := some false } [.job nightlyJob]
        = (.error (hostingError "The server is busy."), []) := by decide +kernel
  rintro ⟨hkept, -⟩
  rw [Server.Updated, nightlyInfo, hlost] at hkept
  exact absurd hkept.2 (by decide)

end WPanel.Hosting.CronJobs
