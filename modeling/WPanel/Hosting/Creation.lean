import WPanel.Hosting.RoundTrip

namespace WPanel.Hosting

open WPanel.Lib

/-!
# Making a staging copy

`create` of `hosting/staging.py`: a subdomain with its folder, a database with its user, and the
copier's file in the folder of the website.  When a call fails, `_cleanup` takes away what the row
of the copy, as it is in memory, says was made.  A call that fails may have been carried out all the
same, where its answer was lost.

* `build` — the steps from the subdomain to the answer of the copier;
* `create` — the code, under any answers of the provider;
* `Restored` — files, databases, users and domains are as they were, and no row is left;
* `Built` — what every step keeps: whatever the clean-up does not take away is as it was;
* `LosesAnswer` — a call that makes something is carried out, and its answer is lost;
* `restored_iff` — a `create` that raises puts the account back exactly when no answer is lost, and
  the folder of the copy held no file, or, where the panel did not learn the folder, no page was put
  into it.
-/

/-- The answers to each call of `create`. -/
structure CreationAnswers (α : Type) where
  /-- None when the provider cannot be asked. -/
  capabilities : List Capability
  /-- `list_domains` answered, before the subdomain is added and after. -/
  domainsBefore : Bool
  domainsAfter : Bool
  /-- The subdomain is added or not; then the page that is put into a new website's folder. -/
  addDomain : Outcome String (Option α)
  /-- The listings answered, before the database and its user are made. -/
  databasesBefore : Bool
  usersBefore : Bool
  createDatabase : Outcome String Unit
  createUser : Outcome String Unit
  /-- The names that the listings show afterwards, when they answer. -/
  databasesAfter : Option (String → Bool)
  usersAfter : Option (String → Bool)
  grant : Bool
  asked : DomainAnswers
  /-- The copier's file as it was written, when it could be. -/
  script : Outcome String α
  /-- The copier ran. -/
  ran : Option (CopierAnswers α)
  /-- The result file as it was written, when it could be. -/
  result : Option α
  reply : Reply
  /-- What the clean-up is answered. -/
  provider : Answers α

/-- A page for a folder that has none. -/
def putPage {α : Type} (page : Option α) (g : Folder α) : Folder α :=
  match page, g.find? "index.html" with
  | some content, none => g.put "index.html" (.inl content)
  | _, _ => g

/-- The folder of a new website, with a page. -/
def newSite {α : Type} (page : Option α) (root : Path) (files : Folder α) : Folder α :=
  (files.makeFolder root).update root (putPage page)

section

variable {α : Type} (ans : CreationAnswers α) (suffix : String)

/-! ### The calls -/

/-- `list_domains`. -/
def listDomains (answered : Bool) : Routine (HostingAccount α) Err (List DomainInfo) := fun s =>
  if answered then (.ok s.server.domains, s)
  else (.error (adapterError "The domains could not be listed."), s)

/-- `add_domain`, for a subdomain. -/
def addSubdomain (name : String) (root : Path) : Routine (HostingAccount α) Err Unit := do
  let _ ← Routine.remote adapterError ans.addDomain fun page s => { s with server := { s.server with
    files := newSite page root s.server.files
    domains := s.server.domains ++ [⟨name, .subdomain, root⟩] } }
  return ()

/-- `list_databases` or `list_database_users`: the names of a list that are shown. -/
def listNames (names : Server α → List String) (shown : Option (String → Bool)) :
    Routine (HostingAccount α) Err (List String) := fun s =>
  match shown with
  | some shown => (.ok ((names s.server).filter shown), s)
  | none => (.error (adapterError "The names could not be listed."), s)

/-- The names before anything was made. -/
def namesBefore (names : Server α → List String) (answered : Bool) :
    Routine (HostingAccount α) Err (List String) :=
  listNames names (if answered then some fun _ => true else none)

/-- `create_database`. -/
def createDatabase (name : String) : Routine (HostingAccount α) Err Unit := fun s =>
  if s.server.full name ∈ s.server.databases then
    (.error (adapterError "A database with that name already exists."), s)
  else Routine.remote adapterError ans.createDatabase (fun _ s => { s with server := { s.server with
    databases := s.server.databases ++ [s.server.full name] } }) s

/-- `create_database_user`. -/
def createDatabaseUser (name : String) : Routine (HostingAccount α) Err Unit := fun s =>
  if s.server.full name ∈ s.server.users then
    (.error (adapterError "A user with that name already exists."), s)
  else Routine.remote adapterError ans.createUser (fun _ s => { s with server := { s.server with
    users := s.server.users ++ [s.server.full name] } }) s

/-- `write_file`, for the copier's file. -/
def writeCopier (live : Path) : Routine (HostingAccount α) Err Unit :=
  match ans.script with
  | .done content => writeScript (some content) suffix live
  | .refused _ => writeScript none suffix live
  | .lost message content => do
    writeScript (some content) suffix live
    Routine.check (.error (adapterError message))

/-! ### The steps

The row of the copy is an object in memory beside the account: it is changed first and saved
after. -/

/-- Change the row and save it. -/
def saveRow (save : StagingSite → StagingSite) :
    Routine (HostingAccount α × StagingSite) Err Unit := do
  Routine.change fun s => (s.1, save s.2)
  let row ← Routine.read (·.2)
  Routine.onFst (saveStaging row.siteDomain fun _ => row)

/-- The folder that the listing gives for a domain. -/
def documentRoot (listed : List DomainInfo) (name : String) (root : Path) : Path :=
  listed.foldl (fun root info =>
    if lower info.name = name ∧ info.documentRoot ≠ [] then info.documentRoot else root) root

/-- The subdomain with its folder. -/
def makeSubdomain (name : String) (root : Path) :
    Routine (HostingAccount α × StagingSite) Err Unit := do
  Routine.onFst (addSubdomain ans name root)
  Routine.change fun s => (s.1, { s.2 with madeDomain := true })
  let listed ← Routine.onFst (listDomains ans.domainsAfter)
  saveRow fun row => { row with docroot := documentRoot listed name root }

/-- A name for the database and its user that none ends in. -/
def freeSuffix (taken : List String) : Option String :=
  ["stg", "stg2", "stg3"].find? fun short =>
    !taken.any fun name => endsWith name ("_" ++ short) || name = short

/-- The first name that is new. -/
def firstNew (before after : List String) : String := (after.find? (· ∉ before)).getD ""

/-- The database with its user: they are made under a short name, and remembered under the name
    that the listings then show. -/
def makeDatabase : Routine (HostingAccount α × StagingSite) Err Unit := do
  let databases ← Routine.onFst (namesBefore (·.databases) ans.databasesBefore)
  let users ← Routine.onFst (namesBefore (·.users) ans.usersBefore)
  let short ← Routine.check (match freeSuffix (databases ++ users) with
    | some short => .ok short
    | none => .error (serviceError "There are already several staging databases on this account."
        "limit_reached"))
  Routine.onFst (createDatabase ans short)
  saveRow fun row => { row with dbName := short }
  Routine.onFst (createDatabaseUser ans short)
  saveRow fun row => { row with dbUser := short }
  let databases' ← Routine.onFst (listNames (·.databases) ans.databasesAfter)
  let users' ← Routine.onFst (listNames (·.users) ans.usersAfter)
  Routine.check (ensure (firstNew databases databases' ≠ "" ∧ firstNew users users' ≠ "")
    (serviceError ("The server did not report the new database, so the staging website was not "
      ++ "created.") "database_missing"))
  saveRow fun row => { row with
    dbName := firstNew databases databases', dbUser := firstNew users users' }

/-- The row remembers the copier's file and its result. -/
def StagingSite.withScript (row : StagingSite) (suffix : String) : StagingSite :=
  { row with scriptRef := scriptName suffix, resultRef := resultName suffix }

/-- The copier runs, from the website's folder into that of the copy. -/
def runCreate (exclude : List String) (live root : Path) : Routine (HostingAccount α) Err Unit :=
  match ans.ran with
  | none => return ()
  | some run => Routine.change (onFiles (afterScript ans.result suffix live
      (copier run false exclude live root)))

/-- The copier's file is written and called once; none when it does not answer. -/
def runCopier (live : Path) :
    Routine (HostingAccount α × StagingSite) Err (Option (Option String)) := do
  Routine.check (ensure (ans.grant = true)
    (adapterError "That does not exist on this account."))
  let plan ← Routine.read (·.1.plan)
  let root ← Routine.read (·.2.docroot)
  Routine.onFst (writeCopier ans suffix live)
  saveRow (·.withScript suffix)
  Routine.onFst (runCreate ans suffix (others plan ans.asked live root) live root)
  Routine.check (match ans.reply with
    | .unreachable message => .error (serviceError message "unreachable")
    | .silent => .ok none
    | .answered error => .ok (some error))

/-- Everything in the `try` of `create`. -/
def build (live : Path) (name : String) (root : Path) :
    Routine (HostingAccount α × StagingSite) Err (Option (Option String)) := do
  makeSubdomain ans name root
  makeDatabase ans
  runCopier ans suffix live

/-! ### The routine -/

/-- `unavailable_reason`. -/
def requireAvailable (plan : Plan) (own : String) : Except Err Unit := do
  ensure (∃ app ∈ plan.app own, app.kind = .wordpress ∧ app.state = .ready) (serviceError
    "Staging is for WordPress websites that are installed and ready." "not_available")
  ensure ([.files, .databases, .domains] ⊆ ans.capabilities)
    (serviceError "This server cannot make a staging copy yet." "not_available")

/-- There is no staging copy, or one that failed, whose row goes. -/
def clearFailed (existing : Option StagingSite) : Routine (HostingAccount α) Err Unit :=
  match existing with
  | none => return ()
  | some existing => do
    Routine.check (ensure (existing.state = .failed)
      (serviceError "This website already has a staging copy." "exists"))
    forgetStaging existing.siteDomain

/-- `_apply`, for a copy that was being made. -/
def applyCreated (plan : Plan) (row : StagingSite) (error : Option String) :
    Routine (HostingAccount α) Err Unit := do
  Routine.bestEffort ((([row.resultRef, row.scriptRef].filter (· ≠ "")).map fun name =>
    deletePath ans.provider (plan.docrootPath row.siteDomain ++ [name])))
  match error with
  | none => saveStaging row.siteDomain fun _ => { row with
      state := .ready, error := "", resultRef := "", scriptRef := "" }
  | some message => do
    cleanup ans.provider plan { row with resultRef := "", scriptRef := "" } true
    saveStaging row.siteDomain fun _ => { row with
      state := .failed, error := message, resultRef := "", scriptRef := "", madeDomain := false
      dbName := "", dbUser := "" }

/-- On an error the account is cleaned up, the row is deleted and the error raised again. -/
def orUndo (plan : Plan) (row : StagingSite)
    (steps : Routine (HostingAccount α × StagingSite) Err (Option (Option String))) :
    Routine (HostingAccount α) Err Unit := fun s =>
  match steps (s, row) with
  | (.ok none, (s', _)) => (.ok (), s')
  | (.ok (some error), (s', row)) => applyCreated ans plan row error s'
  | (.error e, (s', row)) => (do
      cleanup ans.provider plan row true
      forgetStaging row.siteDomain
      Routine.check (.error e)) s'

/-- The row of a copy, before anything is made. -/
def newRow (plan : Plan) (own : String) : StagingSite where
  siteDomain := own
  domain := plan.stagingDomain own

/-- Make a staging copy of a website, once it has none. -/
def makeStaging (plan : Plan) (own : String) : Routine (HostingAccount α) Err Unit := do
  let listed ← listDomains ans.domainsBefore
  Routine.check (ensure (plan.stagingDomain own ∉ listed.map (lower ·.name)) (serviceError
    (plan.stagingDomain own
      ++ " already exists on this hosting account, so a staging site was not created.")
    "domain_exists"))
  Routine.change fun s => { s with plan := { s.plan with
    stagings := s.plan.stagings ++ [newRow plan own] } }
  orUndo ans plan (newRow plan own)
    (build ans suffix (plan.docrootPath own) (plan.stagingDomain own) (plan.stagingRoot own))

/-- Make a staging copy of a website. -/
def create (domain : String) : Routine (HostingAccount α) Err Unit := do
  let plan ← Routine.read (·.plan)
  Routine.check (requireAvailable ans plan (plan.own domain))
  clearFailed (plan.staging (plan.own domain))
  makeStaging ans suffix plan (plan.own domain)

end

/-! ### The account is as it was -/

/-- Files, databases, users and domains are as they were, and no row is left that was not there.
    An empty folder is not a file. -/
structure Restored {α : Type} (before after : HostingAccount α) : Prop where
  files : ∀ p, after.server.files.get p = before.server.files.get p
  databases : after.server.databases = before.server.databases
  users : after.server.users = before.server.users
  domains : after.server.domains = before.server.domains
  rows : ∀ staging ∈ after.plan.stagings, staging ∈ before.plan.stagings

/-- `create` gets as far as adding the subdomain. -/
structure Starts {α : Type} (ans : CreationAnswers α) (own : String)
    (s : HostingAccount α) : Prop where
  available : requireAvailable ans s.plan own = .ok ()
  replaced : ∀ existing ∈ s.plan.staging own, existing.state = .failed
  listed : ans.domainsBefore = true
  untaken : s.plan.stagingDomain own ∉ s.server.domains.map (lower ·.name)

/-- There is a folder to write the copier's file into, and no file of its name in it. -/
def Writable {α : Type} (suffix : String) (live : Path) (f : Folder α) : Prop :=
  ∃ g, f.at? live = some g ∧ g.find? (scriptName suffix) = none

section

variable {α : Type} (ans : CreationAnswers α) (own suffix : String) (s : HostingAccount α)

/-- The copier's file is written, in an account with the folder of a copy, and the answer lost. -/
def LosesScript (page : Option α) : Prop :=
  ans.grant = true ∧ (∃ message content, ans.script = .lost message content)
    ∧ Writable suffix (s.plan.docrootPath own)
      (newSite page (s.plan.stagingRoot own) s.server.files)

/-- The listings show a name that is new, once this one was made. -/
def Reports (names : List String) (made : String) (shown : Option (String → Bool)) : Prop :=
  ∃ f ∈ shown, firstNew names ((names ++ [made]).filter f) ≠ ""

/-- The user is made and the answer lost; or a later answer is. -/
def LosesUser (page : Option α) (short : String) : Prop :=
  s.server.full short ∉ s.server.users ∧
    match ans.createUser with
    | .done _ => Reports s.server.databases (s.server.full short) ans.databasesAfter
      ∧ Reports s.server.users (s.server.full short) ans.usersAfter
      ∧ LosesScript ans own suffix s page
    | .refused _ => False
    | .lost _ _ => True

/-- The database is made and the answer lost; or a later answer is. -/
def LosesDatabase (page : Option α) : Prop :=
  ans.databasesBefore = true ∧ ans.usersBefore = true
    ∧ ∃ short ∈ freeSuffix (s.server.databases ++ s.server.users),
      s.server.full short ∉ s.server.databases ∧
        match ans.createDatabase with
        | .done _ => LosesUser ans own suffix s page short
        | .refused _ => False
        | .lost _ _ => True

/-- **A call that makes something is carried out, and its answer is lost**: the subdomain is added,
    the database or its user made, or the copier's file written. -/
def LosesAnswer : Prop :=
  Starts ans own s ∧
    match ans.addDomain with
    | .done page => ans.domainsAfter = true ∧ LosesDatabase ans own suffix s page
    | .refused _ => False
    | .lost _ _ => True

/-- If the subdomain was added: when the panel learned its folder, there was no file in it; else
    no page was put into it. -/
def FolderUndoable : Prop :=
  ∀ page, ans.addDomain = .done page → Starts ans own s →
    if ans.domainsAfter then ∀ p, s.plan.stagingRoot own <+: p → s.server.files.get p = none
    else ∀ content g, page = some content →
      (s.server.files.makeFolder (s.plan.stagingRoot own)).at? (s.plan.stagingRoot own) = some g →
        g.find? "index.html" ≠ none

/-- No answer is lost, and the folder can be undone. -/
def Undoable : Prop := ¬LosesAnswer ans own suffix s ∧ FolderUndoable ans own s

end

/-! ### What the clean-up takes away -/

section

variable {α : Type} {capabilities : List Capability}

theorem full_full (server : Server α) (name : String) :
    server.full (server.full name) = server.full name := by
  unfold Server.full
  by_cases h : startsWith name server.namePrefix = true
  · rw [if_pos h, if_pos h]
  · rw [if_neg h, if_pos]
    simp [startsWith, String.toList_append]

theorem bestEffort_deletePath (paths : List Path) (s : HostingAccount α) :
    (Routine.bestEffort (paths.map (deletePath (.obliging α capabilities))) s).2
      = onFiles (fun f => paths.foldl (fun f path => f.remove path) f) s := by
  induction paths generalizing s with
  | nil => rfl
  | cons path paths ih =>
    rw [List.map_cons, Routine.bestEffort_cons, deletePath_obliging, ih]
    rfl

theorem get_foldl_remove {paths : List Path} (hpaths : ∀ path ∈ paths, path ≠ []) (f : Folder α)
    (p : Path) : (paths.foldl (fun f path => f.remove path) f).get p
      = if ∃ path ∈ paths, path <+: p then none else f.get p := by
  induction paths generalizing f with
  | nil => simp
  | cons path paths ih =>
    rw [List.foldl_cons, ih (fun q hq => hpaths q (List.mem_cons_of_mem _ hq)),
      Folder.get_remove _ (hpaths path List.mem_cons_self)]
    by_cases h : path <+: p <;> simp [h]

/-- The server once `_cleanup` has taken away what a row says. -/
def afterCleanup (plan : Plan) (row : StagingSite) (server : Server α) : Server α :=
  { server with
    files := (plan.scriptPaths row ++ row.folder).foldl (fun f path => f.remove path) server.files
    domains := if row.madeDomain then server.domains.filter (·.name ≠ row.domain)
      else server.domains
    users := if row.dbUser = "" then server.users
      else server.users.filter (· ≠ server.full row.dbUser)
    databases := if row.dbName = "" then server.databases
      else server.databases.filter (· ≠ server.full row.dbName) }

theorem cleanup_obliging (plan : Plan) (row : StagingSite) (s : HostingAccount α) :
    (cleanup (.obliging α capabilities) plan row true s).2
      = { s with server := afterCleanup plan row s.server } := by
  unfold cleanup cleanupSteps
  rw [if_pos rfl, Routine.bestEffort_append, Routine.bestEffort_append, Routine.bestEffort_append,
    Routine.bestEffort_append, bestEffort_deletePath]
  unfold afterCleanup
  rw [List.foldl_append]
  have hdomain : ∀ s : HostingAccount α, (Routine.bestEffort (if row.madeDomain = true then
      [removeDomain (.obliging α capabilities) row.domain] else []) s).2
        = { s with server := { s.server with domains := (if row.madeDomain
            then s.server.domains.filter (·.name ≠ row.domain) else s.server.domains) } } := by
    intro s
    split <;> rfl
  have huser : ∀ s : HostingAccount α, (Routine.bestEffort (if row.dbUser = "" then []
      else [deleteDatabaseUser (.obliging α capabilities) row.dbUser]) s).2
        = { s with server := { s.server with users := (if row.dbUser = "" then s.server.users
            else s.server.users.filter (· ≠ s.server.full row.dbUser)) } } := by
    intro s
    split <;> rfl
  have hdatabase : ∀ s : HostingAccount α, (Routine.bestEffort (if row.dbName = "" then []
      else [deleteDatabase (.obliging α capabilities) row.dbName]) s).2
        = { s with server := { s.server with databases := (if row.dbName = ""
            then s.server.databases
            else s.server.databases.filter (· ≠ s.server.full row.dbName)) } } := by
    intro s
    split <;> rfl
  rw [hdatabase, huser, bestEffort_deletePath, hdomain]
  rfl

end

/-! ### What every step keeps -/

/-- A name that was made, and is remembered by its short name or its full one; or none was. -/
def Made (full : String → String) (before after : List String) (name : String) : Prop :=
  (name = "" ∧ after = before)
    ∨ (name ≠ "" ∧ full name ∉ before ∧ after = before ++ [full name])

section

variable {α : Type} (plan : Plan) (own suffix : String) (before : HostingAccount α)

/-- The domain, the database and the user that were made are those that the row names. -/
structure Built (s : HostingAccount α × StagingSite) : Prop where
  site : s.2.siteDomain = own
  name : s.2.domain = plan.stagingDomain own
  namePrefix : s.1.server.namePrefix = before.server.namePrefix
  domains : s.1.server.domains = before.server.domains ++ (if s.2.madeDomain
    then [⟨plan.stagingDomain own, .subdomain, plan.stagingRoot own⟩] else [])
  databases : Made before.server.full before.server.databases s.1.server.databases s.2.dbName
  users : Made before.server.full before.server.users s.1.server.users s.2.dbUser
  rows : ∀ staging ∈ s.1.plan.stagings, staging.siteDomain ≠ own →
    staging ∈ before.plan.stagings

/-- The folder is known, and every other file but the copier's two is as it was. -/
structure Held (s : HostingAccount α × StagingSite) : Prop extends Built plan own before s where
  made : s.2.madeDomain = true
  root : s.2.docroot = plan.stagingRoot own
  scripts : ∀ path ∈ plan.scriptPaths s.2, ∃ name ∈ [scriptName suffix, resultName suffix],
    path = plan.docrootPath own ++ [name]
  kept : ∀ p, (∀ path ∈ plan.scriptPaths s.2 ++ s.2.folder, ¬path <+: p) →
    s.1.server.files.get p = before.server.files.get p

end

/-! ### What the clean-up leaves -/

section

variable {α : Type} {plan : Plan} {own suffix : String} {before : HostingAccount α}

/-- The account once the clean-up has run and the row is deleted. -/
def undone (plan : Plan) (s : HostingAccount α × StagingSite) : HostingAccount α where
  plan := { s.1.plan with
    stagings := s.1.plan.stagings.filter (·.siteDomain ≠ s.2.siteDomain) }
  server := afterCleanup plan s.2 s.1.server

theorem get_undone {s : HostingAccount α × StagingSite} (p : Path) :
    (undone plan s).server.files.get p
      = if ∃ path ∈ plan.scriptPaths s.2 ++ s.2.folder, path <+: p then none
        else s.1.server.files.get p := by
  refine get_foldl_remove (fun path hpath => ?_) _ p
  rcases List.mem_append.mp hpath with hpath | hpath
  · obtain ⟨name, -, rfl⟩ := List.mem_map.mp hpath
    simp
  · unfold StagingSite.folder at hpath
    split at hpath
    · cases hpath
    · next hne =>
      rw [List.mem_singleton.mp hpath]
      exact hne

/-- A domain that the row does not know of stays. -/
theorem not_restored_of_domains {s : HostingAccount α × StagingSite}
    (hmade : s.2.madeDomain = false)
    {info : DomainInfo} (h : s.1.server.domains = before.server.domains ++ [info]) :
    ¬Restored before (undone plan s) := by
  intro hrestored
  have hsame : (if s.2.madeDomain = true then _ else _) = _ := hrestored.domains
  rw [if_neg (by simp [hmade]), h] at hsame
  exact absurd hsame (by simp)

/-- So does a database. -/
theorem not_restored_of_databases {s : HostingAccount α × StagingSite} (hname : s.2.dbName = "")
    {name : String} (h : s.1.server.databases = before.server.databases ++ [name]) :
    ¬Restored before (undone plan s) := by
  intro hrestored
  have hsame : (if s.2.dbName = "" then _ else _) = _ := hrestored.databases
  rw [if_pos hname, h] at hsame
  exact absurd hsame (by simp)

/-- So does a user. -/
theorem not_restored_of_users {s : HostingAccount α × StagingSite} (hname : s.2.dbUser = "")
    {name : String} (h : s.1.server.users = before.server.users ++ [name]) :
    ¬Restored before (undone plan s) := by
  intro hrestored
  have hsame : (if s.2.dbUser = "" then _ else _) = _ := hrestored.users
  rw [if_pos hname, h] at hsame
  exact absurd hsame (by simp)

/-- The copier's file is not in the folder of the copy. -/
theorem not_stagingRoot_prefix (plan : Plan) (own suffix : String) :
    ¬plan.stagingRoot own <+: plan.docrootPath own ++ [scriptName suffix] := by
  intro hpre
  have hstart := startsWith_scriptName suffix
  by_cases h : lower (strip own) ≠ "" ∧ lower (strip own) ≠ lower plan.domain
  · have hlive : plan.docrootPath own = ["public_html", lower (strip own)] := by
      simp only [Plan.docrootPath]
      rw [if_pos h]
    have hown : own ≠ "" := by
      rintro rfl
      exact h.1 (by decide +kernel)
    have hsite : plan.siteDomain own = lower (strip own) := by
      rw [Plan.siteDomain, if_neg fun h' => h.1 (by rw [h']; decide +kernel)]
    rw [hlive, Plan.stagingRoot, if_neg hown, Plan.stagingDomain, hsite] at hpre
    -- the folder of the website has another name: nothing is added in front of it
    simp at hpre
  · have hlive : plan.docrootPath own = ["public_html"] := by
      simp only [Plan.docrootPath]
      rw [if_neg h]
    rw [hlive, Plan.stagingRoot] at hpre
    have heq : (if own = "" then "staging" else plan.stagingDomain own) = scriptName suffix := by
      simpa using hpre
    rw [← heq] at hstart
    split at hstart
    · exact absurd hstart (by decide +kernel)
    · rw [Plan.stagingDomain, startsWith, String.toList_append] at hstart
      exact absurd hstart (by simp [List.isPrefixOf])

/-- So does the copier's file. -/
theorem not_restored_of_script {s : HostingAccount α × StagingSite} (hscript : s.2.scriptRef = "")
    (hresult : s.2.resultRef = "") (hroot : s.2.docroot = plan.stagingRoot own) {content : α}
    (hold : before.server.files.get (plan.docrootPath own ++ [scriptName suffix]) = none)
    (hnew : s.1.server.files.get (plan.docrootPath own ++ [scriptName suffix]) = some content) :
    ¬Restored before (undone plan s) := by
  intro hrestored
  have hsame := hrestored.files (plan.docrootPath own ++ [scriptName suffix])
  rw [get_undone, if_neg, hnew, hold] at hsame
  · cases hsame
  · rintro ⟨path, hpath, hpre⟩
    rcases List.mem_append.mp hpath with hpath | hpath
    · simp [Plan.scriptPaths, hscript, hresult] at hpath
    · have hne : plan.stagingRoot own ≠ [] := List.cons_ne_nil _ _
      rw [StagingSite.folder, hroot, if_neg hne, List.mem_singleton] at hpath
      exact not_stagingRoot_prefix plan own suffix (hpath ▸ hpre)

end

/-! ### The calls, one by one -/

section

variable {α : Type} {ans : CreationAnswers α} {s : HostingAccount α} {bad : HostingAccount α → Prop}

theorem post_listDomains {answered : Bool} {good : List DomainInfo → HostingAccount α → Prop}
    (hgood : answered = true → good s.server.domains s) (hbad : answered = false → bad s) :
    (listDomains answered).Post s good bad := by
  cases answered with
  | true => exact hgood rfl
  | false => exact hbad rfl

/-- An account with a subdomain and its folder. -/
def added (page : Option α) (name : String) (root : Path) (s : HostingAccount α) :
    HostingAccount α :=
  { s with server := { s.server with
    files := newSite page root s.server.files
    domains := s.server.domains ++ [⟨name, .subdomain, root⟩] } }

theorem post_addSubdomain {name : String} {root : Path} {good : Unit → HostingAccount α → Prop}
    (hgood : ∀ page, ans.addDomain = .done page → good () (added page name root s))
    (hrefused : ∀ message, ans.addDomain = .refused message → bad s)
    (hlost : ∀ message page, ans.addDomain = .lost message page → bad (added page name root s)) :
    (addSubdomain ans name root).Post s good bad :=
  Routine.post_bind (Routine.post_remote (fun page hadd => hgood page hadd) hrefused hlost)

theorem post_listNames {names : Server α → List String} {shown : Option (String → Bool)}
    {good : List String → HostingAccount α → Prop}
    (hgood : ∀ f, shown = some f → good ((names s.server).filter f) s)
    (hbad : shown = none → bad s) : (listNames names shown).Post s good bad := by
  cases shown with
  | none => exact hbad rfl
  | some f => exact hgood f rfl

theorem post_namesBefore {names : Server α → List String} {answered : Bool}
    {good : List String → HostingAccount α → Prop}
    (hgood : answered = true → good (names s.server) s)
    (hbad : answered = false → bad s) : (namesBefore names answered).Post s good bad := by
  cases answered with
  | false => exact hbad rfl
  | true =>
    show good ((names s.server).filter fun _ => true) s
    rw [List.filter_eq_self.mpr fun _ _ => rfl]
    exact hgood rfl

/-- An account with a database more. -/
def withDatabase (name : String) (s : HostingAccount α) : HostingAccount α :=
  { s with server := { s.server with databases := s.server.databases ++ [s.server.full name] } }

/-- An account with a user more. -/
def withUser (name : String) (s : HostingAccount α) : HostingAccount α :=
  { s with server := { s.server with users := s.server.users ++ [s.server.full name] } }

theorem post_createDatabase {name : String} {good : Unit → HostingAccount α → Prop}
    (hgood : s.server.full name ∉ s.server.databases → ∀ u, ans.createDatabase = .done u →
      good () (withDatabase name s))
    (hrefused : s.server.full name ∈ s.server.databases
      ∨ (∃ message, ans.createDatabase = .refused message) → bad s)
    (hlost : s.server.full name ∉ s.server.databases → ∀ message u,
      ans.createDatabase = .lost message u → bad (withDatabase name s)) :
    (createDatabase ans name).Post s good bad := by
  by_cases htaken : s.server.full name ∈ s.server.databases
  · unfold Routine.Post createDatabase
    rw [if_pos htaken]
    exact hrefused (.inl htaken)
  · have hcall : createDatabase ans name s = Routine.remote adapterError ans.createDatabase
        (fun _ => withDatabase name) s := if_neg htaken
    unfold Routine.Post
    rw [hcall]
    exact Routine.post_remote (hgood htaken) (fun message h => hrefused (.inr ⟨message, h⟩))
      (hlost htaken)

theorem post_createDatabaseUser {name : String} {good : Unit → HostingAccount α → Prop}
    (hgood : s.server.full name ∉ s.server.users → ∀ u, ans.createUser = .done u →
      good () (withUser name s))
    (hrefused : s.server.full name ∈ s.server.users
      ∨ (∃ message, ans.createUser = .refused message) → bad s)
    (hlost : s.server.full name ∉ s.server.users → ∀ message u,
      ans.createUser = .lost message u → bad (withUser name s)) :
    (createDatabaseUser ans name).Post s good bad := by
  by_cases htaken : s.server.full name ∈ s.server.users
  · unfold Routine.Post createDatabaseUser
    rw [if_pos htaken]
    exact hrefused (.inl htaken)
  · have hcall : createDatabaseUser ans name s = Routine.remote adapterError ans.createUser
        (fun _ => withUser name) s := if_neg htaken
    unfold Routine.Post
    rw [hcall]
    exact Routine.post_remote (hgood htaken) (fun message h => hrefused (.inr ⟨message, h⟩))
      (hlost htaken)

theorem post_writeScript {content : α} {suffix : String} {live : Path}
    {good : Unit → HostingAccount α → Prop}
    (hgood : Writable suffix live s.server.files → ∀ files,
      (∀ p, ¬live ++ [scriptName suffix] <+: p → files.get p = s.server.files.get p) →
      files.get (live ++ [scriptName suffix]) = some content → good () (onFiles (fun _ => files) s))
    (hbad : ¬Writable suffix live s.server.files → bad s) :
    (writeScript (some content) suffix live).Post s good bad := by
  unfold Routine.Post writeScript
  cases hat : s.server.files.at? live with
  | none =>
    refine hbad fun ⟨g, hg, _⟩ => ?_
    rw [hat] at hg
    cases hg
  | some g =>
    dsimp only
    by_cases hfree : g.find? (scriptName suffix) = none
    · rw [if_pos hfree]
      refine hgood ⟨g, hat, hfree⟩ _ (fun p hp => get_update_name
        (fun g m hm => by rw [Folder.find?_put, if_neg hm]) hp) ?_
      rw [Folder.get_update_append hat, Folder.get_put_file, if_pos rfl]
    · rw [if_neg hfree]
      refine hbad fun ⟨g', hg', hfree'⟩ => hfree ?_
      rw [hat] at hg'
      exact Option.some.inj hg' ▸ hfree'

/-- The copier's file is written, or is not; or it is and the panel does not hear of it. -/
theorem post_writeCopier {suffix : String} {live : Path} {good : Unit → HostingAccount α → Prop}
    (hgood : ¬(∃ message content, ans.script = .lost message content) → ∀ files,
      (∀ p, ¬live ++ [scriptName suffix] <+: p → files.get p = s.server.files.get p) →
        good () (onFiles (fun _ => files) s))
    (hbad : ¬((∃ message content, ans.script = .lost message content)
      ∧ Writable suffix live s.server.files) → bad s)
    (hlost : (∃ message content, ans.script = .lost message content) →
      Writable suffix live s.server.files → ∀ files content,
        files.get (live ++ [scriptName suffix]) = some content → bad (onFiles (fun _ => files) s)) :
    (writeCopier ans suffix live).Post s good bad := by
  unfold writeCopier
  cases hscript : ans.script with
  | done content =>
    have hnot : ¬∃ message content, ans.script = .lost message content := by
      rw [hscript]
      exact nofun
    rw [hscript] at hnot
    exact post_writeScript (fun _ files hfiles _ => hgood (hscript ▸ hnot) files hfiles)
      fun _ => hbad fun h => hnot (hscript ▸ h.1)
  | refused message =>
    have hnot : ¬∃ message content, ans.script = .lost message content := by
      rw [hscript]
      exact nofun
    exact hbad fun h => hnot h.1
  | lost message content =>
    have hlost' : ∃ message content, ans.script = .lost message content :=
      ⟨message, content, hscript⟩
    exact Routine.post_bind (post_writeScript (fun hwritable files _ hnew =>
      Routine.post_check nofun fun _ _ => hlost hlost' hwritable files content hnew)
      fun hnot => hbad fun h => hnot h.2)

theorem post_runCreate {suffix : String} {exclude : List String} {live root : Path}
    {good : Unit → HostingAccount α → Prop}
    (hgood : ∀ files, (∀ p, ¬live ++ [scriptName suffix] <+: p →
      ¬live ++ [resultName suffix] <+: p → ¬root <+: p →
        files.get p = s.server.files.get p) → good () (onFiles (fun _ => files) s)) :
    (runCreate ans suffix exclude live root).Post s good bad := by
  unfold runCreate
  cases ans.ran with
  | none => exact hgood s.server.files fun _ _ _ _ => rfl
  | some run => exact hgood _ fun p hscript hresult hroot =>
      get_afterScript _ hscript hresult fun f => copier_outside f hroot

/-- An account in which the row of a copy is saved. -/
def saved (row : StagingSite) (s : HostingAccount α) : HostingAccount α :=
  { s with plan := { s.plan with stagings := s.plan.stagings.map fun staging =>
      if staging.siteDomain = row.siteDomain then row else staging } }

theorem post_saveRow {save : StagingSite → StagingSite} {s : HostingAccount α × StagingSite}
    {good : Unit → HostingAccount α × StagingSite → Prop}
    {bad : HostingAccount α × StagingSite → Prop}
    (h : good () (saved (save s.2) s.1, save s.2)) : (saveRow save).Post s good bad := h

/-- Saving the row changes no other. -/
theorem rows_saved {own : String} {row : StagingSite} {before : List StagingSite}
    (hrow : row.siteDomain = own)
    (h : ∀ staging ∈ s.plan.stagings, staging.siteDomain ≠ own → staging ∈ before) :
    ∀ staging ∈ (saved row s).plan.stagings, staging.siteDomain ≠ own → staging ∈ before := by
  intro staging hmem hne
  obtain ⟨old, hold, hsame⟩ := List.mem_map.mp hmem
  split at hsame
  · exact absurd (hsame ▸ hrow) hne
  · exact h staging (hsame ▸ hold) hne

end

/-! ### The subdomain -/

section

variable {α : Type} {ans : CreationAnswers α} {plan : Plan} {own suffix : String}
  {before : HostingAccount α}

theorem get_newSite {page : Option α} {root p : Path} (f : Folder α) (h : ¬root <+: p) :
    (newSite page root f).get p = f.get p := by
  rw [newSite, Folder.get_update_of_outside _ _ h, Folder.get_makeFolder]

/-- No file is made when there is no page to write, or no place to write it. -/
theorem get_newSite_iff {page : Option α} {root : Path} {f : Folder α} :
    (∀ p, (newSite page root f).get p = f.get p)
      ↔ ∀ content g, page = some content → (f.makeFolder root).at? root = some g →
        g.find? "index.html" ≠ none := by
  constructor
  · intro h content g hpage hat hfind
    have hsame := h (root ++ ["index.html"])
    rw [newSite, Folder.get_update_append hat, ← Folder.get_makeFolder f root,
      Folder.get_append hat] at hsame
    simp [putPage, hpage, hfind, Folder.get, Folder.find?_put] at hsame
  · intro h p
    have hmade := Folder.get_makeFolder f root p
    rcases Folder.get_update_cases (f.makeFolder root) root (putPage page) p with
      hsame | ⟨g, r, hat, -, hnew, hold⟩
    · exact hsame.trans hmade
    · refine hnew.trans (Eq.trans ?_ (hold.symm.trans hmade))
      unfold putPage
      split
      · next content hfind => exact absurd hfind (h content g rfl hat)
      · rfl

/-- The listing shows the folder that was asked for. -/
theorem documentRoot_added {listed : List DomainInfo} {name : String} {kind : DomainKind}
    {root : Path} (h : name ∉ listed.map (lower ·.name)) :
    documentRoot (listed ++ [⟨name, kind, root⟩]) name root = root := by
  have hlisted : ∀ listed : List DomainInfo, name ∉ listed.map (lower ·.name) →
      documentRoot listed name root = root := by
    intro listed
    induction listed with
    | nil => exact fun _ => rfl
    | cons info listed ih =>
      intro h
      simp only [List.map_cons, List.mem_cons, not_or] at h
      unfold documentRoot
      rw [List.foldl_cons, if_neg fun hinfo => h.1 hinfo.1.symm]
      exact ih h.2
  unfold documentRoot
  rw [List.foldl_append]
  have hfirst := hlisted listed h
  unfold documentRoot at hfirst
  rw [hfirst, List.foldl_cons, List.foldl_nil]
  split <;> rfl

/-- What has been made goes with the clean-up, but for the files. -/
def Known (ans : CreationAnswers α) (own suffix : String) (before : HostingAccount α)
    (s : HostingAccount α × StagingSite) : Prop :=
  -- the panel did not learn the folder
  (Built before.plan own before s ∧ before.plan.scriptPaths s.2 ++ s.2.folder = []
    ∧ (((∃ message, ans.addDomain = .refused message) ∧ s.1.server.files = before.server.files)
      ∨ ∃ page, ans.addDomain = .done page ∧ ans.domainsAfter = false
        ∧ s.1.server.files = newSite page (before.plan.stagingRoot own) before.server.files))
    -- or it did
    ∨ ((∃ page, ans.addDomain = .done page) ∧ ans.domainsAfter = true
      ∧ Held before.plan own suffix before s)

/-- The folder of a copy, where it is known. -/
theorem mem_folder {row : StagingSite} {root : Path} (h : row.docroot = root) (hne : root ≠ []) :
    root ∈ row.folder := by
  rw [StagingSite.folder, if_neg (h ▸ hne), h]
  exact List.mem_singleton_self root

/-- How the steps can stop: an answer was lost, and the account is not put back; or none was, and
    what has been made is known. -/
def Stopped (ans : CreationAnswers α) (own suffix : String) (before : HostingAccount α)
    (s : HostingAccount α × StagingSite) : Prop :=
  (LosesAnswer ans own suffix before ∧ ¬Restored before (undone before.plan s))
    ∨ (¬LosesAnswer ans own suffix before ∧ Known ans own suffix before s)

/-- The folder of the copy is held, and nothing else has been made yet. -/
structure Opened (own suffix : String) (before : HostingAccount α) (page : Option α)
    (s : HostingAccount α × StagingSite) : Prop extends Held before.plan own suffix before s where
  dbName : s.2.dbName = ""
  dbUser : s.2.dbUser = ""
  scriptRef : s.2.scriptRef = ""
  resultRef : s.2.resultRef = ""
  files : s.1.server.files = newSite page (before.plan.stagingRoot own) before.server.files

theorem post_makeSubdomain {s : HostingAccount α} (hstarts : Starts ans own before)
    (hserver : s.server = before.server)
    (hrows : ∀ staging ∈ s.plan.stagings, staging.siteDomain ≠ own →
      staging ∈ before.plan.stagings) :
    (makeSubdomain ans (before.plan.stagingDomain own) (before.plan.stagingRoot own)).Post
      (s, newRow before.plan own)
      (fun _ s' => ∃ page, ans.addDomain = .done page ∧ ans.domainsAfter = true
        ∧ Opened own suffix before page s')
      (Stopped ans own suffix before) := by
  have hpaths : ∀ row : StagingSite, row.scriptRef = "" → row.resultRef = "" →
      before.plan.scriptPaths row = [] := by
    intro row hscript hresult
    simp [Plan.scriptPaths, hscript, hresult]
  have hroot : before.plan.stagingRoot own ≠ [] := List.cons_ne_nil _ _
  have hbegins : s.server.namePrefix = before.server.namePrefix := by rw [hserver]
  have hdatabases : s.server.databases = before.server.databases := by rw [hserver]
  have husers : s.server.users = before.server.users := by rw [hserver]
  -- what the call adds, to the account as it was before the creation
  have hadded : s.server.domains
      ++ [⟨before.plan.stagingDomain own, .subdomain, before.plan.stagingRoot own⟩]
        = before.server.domains
          ++ [⟨before.plan.stagingDomain own, .subdomain, before.plan.stagingRoot own⟩] := by
    rw [hserver]
  have hfiles : ∀ page, newSite page (before.plan.stagingRoot own) s.server.files
      = newSite page (before.plan.stagingRoot own) before.server.files := by
    intro page
    rw [hserver]
  unfold makeSubdomain
  refine Routine.post_bind (Routine.post_onFst (post_addSubdomain (fun page hadd => ?_)
    (fun message hadd => ?_) fun message page hadd => ?_))
  · refine Routine.post_bind (Routine.post_change ?_)
    refine Routine.post_bind (Routine.post_onFst (post_listDomains (fun hafter => ?_)
      fun hafter => ?_))
    · have hfolder : documentRoot (s.server.domains
          ++ [⟨before.plan.stagingDomain own, .subdomain, before.plan.stagingRoot own⟩])
          (before.plan.stagingDomain own) (before.plan.stagingRoot own)
            = before.plan.stagingRoot own :=
        documentRoot_added (hserver ▸ hstarts.untaken)
      refine post_saveRow ⟨page, hadd, hafter, ?_⟩
      refine
        { site := rfl, name := rfl, namePrefix := hbegins, domains := hadded
          databases := .inl ⟨rfl, hdatabases⟩
          users := .inl ⟨rfl, husers⟩
          rows := rows_saved rfl hrows
          made := rfl
          root := hfolder
          scripts := ?_
          kept := ?_
          dbName := rfl, dbUser := rfl, scriptRef := rfl, resultRef := rfl
          files := hfiles page }
      · rw [hpaths _ rfl rfl]
        exact nofun
      · intro p hp
        have hnot : ¬before.plan.stagingRoot own <+: p :=
          hp _ (List.mem_append_right _ (mem_folder hfolder hroot))
        show (newSite page (before.plan.stagingRoot own) s.server.files).get p = _
        rw [hfiles, get_newSite _ hnot]
    · -- the folder is not learned
      refine .inr ⟨fun hloses => ?_, .inl ⟨?_, by rw [hpaths _ rfl rfl]; rfl,
        .inr ⟨page, hadd, hafter, hfiles page⟩⟩⟩
      · have hlater := hloses.2
        rw [hadd, hafter] at hlater
        exact Bool.false_ne_true hlater.1
      · exact
          { site := rfl, name := rfl, namePrefix := hbegins, domains := hadded
            databases := .inl ⟨rfl, hdatabases⟩
            users := .inl ⟨rfl, husers⟩
            rows := hrows }
  · -- the subdomain is refused
    have hdomains : s.server.domains = before.server.domains ++ [] := by
      rw [hserver, List.append_nil]
    have hsame : s.server.files = before.server.files := by rw [hserver]
    refine .inr ⟨fun hloses => ?_, .inl ⟨?_, by rw [hpaths _ rfl rfl]; rfl,
      .inl ⟨⟨message, hadd⟩, hsame⟩⟩⟩
    · have hlater := hloses.2
      rw [hadd] at hlater
      exact hlater
    · exact
        { site := rfl, name := rfl, namePrefix := hbegins, domains := hdomains
          databases := .inl ⟨rfl, hdatabases⟩
          users := .inl ⟨rfl, husers⟩
          rows := hrows }
  · -- it is added, and the answer lost
    refine .inl ⟨⟨hstarts, ?_⟩, not_restored_of_domains rfl hadded⟩
    rw [hadd]
    trivial

/-! ### The database and its user -/

theorem full_congr {server server' : Server α} (h : server'.namePrefix = server.namePrefix)
    (name : String) : server'.full name = server.full name := by
  unfold Server.full
  rw [h]

/-- The row is saved with the names of a database and a user that were made. -/
theorem Held.save {s : HostingAccount α × StagingSite} (h : Held plan own suffix before s)
    {dbName dbUser : String} {databases users : List String}
    (hdatabases : Made before.server.full before.server.databases databases dbName)
    (husers : Made before.server.full before.server.users users dbUser) :
    Held plan own suffix before (saved { s.2 with dbName, dbUser }
      { s.1 with server := { s.1.server with databases, users } }, { s.2 with dbName, dbUser }) :=
  { site := h.site, name := h.name, namePrefix := h.namePrefix, domains := h.domains
    databases := hdatabases
    users := husers
    rows := rows_saved h.site h.rows
    made := h.made
    root := h.root
    scripts := h.scripts
    kept := h.kept }

/-- A new name is made. -/
theorem Made.add {full : String → String} {names names' : List String} {name : String}
    (h : Made full names names' "") (hname : name ≠ "") (hnew : full name ∉ names') :
    Made full names (names' ++ [full name]) name := by
  rcases h with ⟨-, rfl⟩ | ⟨h, -⟩
  · exact .inr ⟨hname, hnew, rfl⟩
  · exact absurd rfl h

/-- The new name of a listing is the one that was made. -/
theorem Made.found {full : String → String} (hfull : ∀ name, full (full name) = full name)
    {names names' : List String} {name : String} (h : Made full names names' name)
    (hname : name ≠ "") {shown : String → Bool}
    (hfound : firstNew names (names'.filter shown) ≠ "") :
    Made full names names' (firstNew names (names'.filter shown)) := by
  rcases h with ⟨h, -⟩ | ⟨-, hnew, rfl⟩
  · exact absurd h hname
  · have hfind : firstNew names ((names ++ [full name]).filter shown) = full name := by
      cases hfirst : ((names ++ [full name]).filter shown).find? (· ∉ names) with
      | none =>
        rw [firstNew, hfirst] at hfound
        exact absurd rfl hfound
      | some found =>
        rw [firstNew, hfirst, Option.getD_some]
        have hmem := List.mem_of_find?_eq_some hfirst
        have hnot : found ∉ names := by simpa using List.find?_some hfirst
        rcases List.mem_append.mp (List.mem_filter.mp hmem).1 with h | h
        · exact absurd h hnot
        · exact List.mem_singleton.mp h
    rw [hfind] at hfound ⊢
    exact .inr ⟨hfound, by rwa [hfull], by rw [hfull]⟩

theorem freeSuffix_ne_empty {taken : List String} {short : String}
    (h : freeSuffix taken = some short) : short ≠ "" := by
  have hmem := List.mem_of_find?_eq_some h
  rintro rfl
  simp at hmem

/-- How the later steps can stop. -/
def HeldOr (lost : Prop) (own suffix : String) (before : HostingAccount α)
    (s : HostingAccount α × StagingSite) : Prop :=
  (lost ∧ ¬Restored before (undone before.plan s))
    ∨ (¬lost ∧ Held before.plan own suffix before s)

theorem post_makeDatabase {page : Option α} {s : HostingAccount α × StagingSite}
    (h : Opened own suffix before page s) :
    (makeDatabase ans).Post s (fun _ s' => Held before.plan own suffix before s'
        ∧ s'.2.scriptRef = "" ∧ s'.2.resultRef = "" ∧ s'.1.server.files = s.1.server.files
        ∧ (LosesDatabase ans own suffix before page ↔ LosesScript ans own suffix before page))
      (HeldOr (LosesDatabase ans own suffix before page) own suffix before) := by
  have hfull : ∀ name, s.1.server.full name = before.server.full name := full_congr h.namePrefix
  have hdatabases := h.databases
  have husers := h.users
  rw [h.dbName] at hdatabases
  rw [h.dbUser] at husers
  have hsame : s.1.server.databases = before.server.databases := by
    rcases hdatabases with ⟨-, h⟩ | ⟨h, -⟩
    · exact h
    · exact absurd rfl h
  have hsame' : s.1.server.users = before.server.users := by
    rcases husers with ⟨-, h⟩ | ⟨h, -⟩
    · exact h
    · exact absurd rfl h
  unfold makeDatabase
  refine Routine.post_bind (Routine.post_onFst (post_namesBefore (fun hbefore => ?_)
    fun hbefore => .inr ⟨fun hloses => ?_, h.toHeld⟩))
  swap
  · rw [LosesDatabase, hbefore] at hloses
    exact Bool.false_ne_true hloses.1
  refine Routine.post_bind (Routine.post_onFst (post_namesBefore (fun hbefore' => ?_)
    fun hbefore' => .inr ⟨fun hloses => ?_, h.toHeld⟩))
  swap
  · rw [LosesDatabase, hbefore'] at hloses
    exact Bool.false_ne_true hloses.2.1
  -- a name that is free
  refine Routine.post_bind (Routine.post_check (fun short hshort => ?_)
    fun e hnone => .inr ⟨fun hloses => ?_, h.toHeld⟩)
  swap
  · obtain ⟨-, -, short, hfree, -⟩ := hloses
    dsimp only at hnone
    rw [hsame, hsame', Option.mem_def.mp hfree] at hnone
    cases hnone
  have hfree : freeSuffix (before.server.databases ++ before.server.users) = some short := by
    dsimp only at hshort
    rw [hsame, hsame'] at hshort
    split at hshort
    · next found hfound =>
      cases hshort
      exact hfound
    · cases hshort
  have hne : short ≠ "" := freeSuffix_ne_empty hfree
  have hloses : LosesDatabase ans own suffix before page
      ↔ before.server.full short ∉ before.server.databases ∧
        match ans.createDatabase with
        | .done _ => LosesUser ans own suffix before page short
        | .refused _ => False
        | .lost _ _ => True := by
    unfold LosesDatabase
    simp [hbefore, hbefore', hfree]
  -- the database
  refine Routine.post_bind (Routine.post_onFst (post_createDatabase (fun hnew u hdone => ?_)
    (fun hrefused => .inr ⟨fun hlost => ?_, h.toHeld⟩)
    fun hnew message u hlost => .inl ⟨hloses.mpr ⟨?_, ?_⟩, ?_⟩))
  rotate_left
  · obtain ⟨hfresh, hlost⟩ := hloses.mp hlost
    rcases hrefused with htaken | ⟨message, hrefused⟩
    · rw [hfull, hsame] at htaken
      exact hfresh htaken
    · rw [hrefused] at hlost
      exact hlost
  · rwa [hfull, hsame] at hnew
  · rw [hlost]
    trivial
  · have hmore : s.1.server.databases ++ [s.1.server.full short]
        = before.server.databases ++ [s.1.server.full short] := by rw [hsame]
    exact not_restored_of_databases h.dbName hmore
  rw [hfull, hsame] at hnew
  rw [and_iff_right hnew, hdone] at hloses
  have hmade : Made before.server.full before.server.databases
      (s.1.server.databases ++ [s.1.server.full short]) short := by
    rw [hfull]
    exact hdatabases.add hne (hsame ▸ hnew)
  refine Routine.post_bind (post_saveRow ?_)
  have hheld := h.toHeld.save hmade (h.dbUser ▸ husers)
  -- its user
  refine Routine.post_bind (Routine.post_onFst (post_createDatabaseUser (fun hnew' u hdone' => ?_)
    (fun hrefused => .inr ⟨fun hlost => ?_, hheld⟩)
    fun hnew' message u hlost => .inl ⟨hloses.mpr ⟨?_, ?_⟩, ?_⟩))
  rotate_left
  · obtain ⟨hfresh, hlost⟩ := hloses.mp hlost
    rcases hrefused with htaken | ⟨message, hrefused⟩
    · have htaken : s.1.server.full short ∈ s.1.server.users := htaken
      rw [hfull, hsame'] at htaken
      exact hfresh htaken
    · rw [hrefused] at hlost
      exact hlost
  · have hnew' : s.1.server.full short ∉ s.1.server.users := hnew'
    rwa [hfull, hsame'] at hnew'
  · rw [hlost]
    trivial
  · have hmore : s.1.server.users ++ [s.1.server.full short]
        = before.server.users ++ [s.1.server.full short] := by rw [hsame']
    exact not_restored_of_users h.dbUser hmore
  have hnew' : s.1.server.full short ∉ s.1.server.users := hnew'
  rw [hfull, hsame'] at hnew'
  rw [LosesUser, and_iff_right hnew', hdone'] at hloses
  have hmade' : Made before.server.full before.server.users
      (s.1.server.users ++ [s.1.server.full short]) short := by
    rw [hfull]
    exact husers.add hne (hsame' ▸ hnew')
  refine Routine.post_bind (post_saveRow ?_)
  have hheld' := hheld.save hmade hmade'
  -- the names they are shown under
  refine Routine.post_bind (Routine.post_onFst (post_listNames (fun shown hshown => ?_)
    fun hshown => .inr ⟨fun hlost => ?_, hheld'⟩))
  swap
  · obtain ⟨f, hf, -⟩ := (hloses.mp hlost).1
    rw [hshown] at hf
    cases hf
  refine Routine.post_bind (Routine.post_onFst (post_listNames (fun shown' hshown' => ?_)
    fun hshown' => .inr ⟨fun hlost => ?_, hheld'⟩))
  swap
  · obtain ⟨f, hf, -⟩ := (hloses.mp hlost).2.1
    rw [hshown'] at hf
    cases hf
  refine Routine.post_bind (Routine.post_check (fun _ hfound => ?_)
    fun e hnone => .inr ⟨fun hlost => ?_, hheld'⟩)
  swap
  · obtain ⟨⟨f, hf, hnew⟩, ⟨f', hf', hnew'⟩, -⟩ := hloses.mp hlost
    cases hshown.symm.trans hf
    cases hshown'.symm.trans hf'
    have hnone : ensure (firstNew s.1.server.databases
        ((s.1.server.databases ++ [s.1.server.full short]).filter shown) ≠ ""
      ∧ firstNew s.1.server.users
        ((s.1.server.users ++ [s.1.server.full short]).filter shown') ≠ "") _ = .error e := hnone
    rw [hsame, hsame', hfull, ensure, if_pos ⟨hnew, hnew'⟩] at hnone
    cases hnone
  have hfound : firstNew s.1.server.databases
      ((s.1.server.databases ++ [s.1.server.full short]).filter shown) ≠ ""
    ∧ firstNew s.1.server.users
      ((s.1.server.users ++ [s.1.server.full short]).filter shown') ≠ "" := ensure_eq_ok.mp hfound
  obtain ⟨hfound, hfound'⟩ := hfound
  refine post_saveRow ?_
  have hlast : Made before.server.full before.server.databases
      (s.1.server.databases ++ [s.1.server.full short])
      (firstNew s.1.server.databases
        ((s.1.server.databases ++ [s.1.server.full short]).filter shown)) := by
    rw [hsame] at hmade hfound ⊢
    exact hmade.found (full_full _) hne hfound
  have hlast' : Made before.server.full before.server.users
      (s.1.server.users ++ [s.1.server.full short])
      (firstNew s.1.server.users
        ((s.1.server.users ++ [s.1.server.full short]).filter shown')) := by
    rw [hsame'] at hmade' hfound' ⊢
    exact hmade'.found (full_full _) hne hfound'
  rw [hsame, hfull] at hfound
  rw [hsame', hfull] at hfound'
  refine ⟨hheld'.save hlast hlast', h.scriptRef, h.resultRef, rfl, hloses.trans ?_⟩
  rw [and_iff_right ⟨shown, hshown, hfound⟩, and_iff_right ⟨shown', hshown', hfound'⟩]

/-! ### The copier -/

theorem scriptName_ne_empty (suffix : String) : scriptName suffix ≠ "" := by
  intro h
  have := congrArg (fun s => s.toList.length) h
  simp [scriptName, String.toList_append] at this

theorem resultName_ne_empty (suffix : String) : resultName suffix ≠ "" := by
  intro h
  have := congrArg (fun s => s.toList.length) h
  simp [resultName, String.toList_append] at this

/-- The paths of the copier's two files. -/
theorem scriptPaths_written (row : StagingSite) :
    plan.scriptPaths (row.withScript suffix)
      = [plan.docrootPath row.siteDomain ++ [scriptName suffix],
        plan.docrootPath row.siteDomain ++ [resultName suffix]] := by
  simp [Plan.scriptPaths, StagingSite.withScript, scriptName_ne_empty, resultName_ne_empty]

theorem post_runCopier {page : Option α} {s : HostingAccount α × StagingSite}
    (hdrawn : ∀ name ∈ [scriptName suffix, resultName suffix], ∀ p,
      before.plan.docrootPath own ++ [name] <+: p → before.server.files.get p = none)
    (h : Held before.plan own suffix before s)
    (hscript : s.2.scriptRef = "") (hresult : s.2.resultRef = "")
    (hfiles : s.1.server.files = newSite page (before.plan.stagingRoot own) before.server.files) :
    (runCopier ans suffix (before.plan.docrootPath own)).Post s (fun _ _ => True)
      (HeldOr (LosesScript ans own suffix before page) own suffix before) := by
  unfold runCopier
  refine Routine.post_bind (Routine.post_check (fun _ hgrant => ?_)
    fun e hgrant => .inr ⟨fun hloses => ?_, h⟩)
  swap
  · rw [ensure, if_pos hloses.1] at hgrant
    cases hgrant
  have hgrant : ans.grant = true := ensure_eq_ok.mp hgrant
  refine Routine.post_bind (Routine.post_read ?_)
  refine Routine.post_bind (Routine.post_read ?_)
  have hloses : LosesScript ans own suffix before page
      ↔ (∃ message content, ans.script = .lost message content)
        ∧ Writable suffix (before.plan.docrootPath own) s.1.server.files := by
    rw [LosesScript, and_iff_right hgrant, hfiles]
  refine Routine.post_bind (Routine.post_onFst (post_writeCopier (fun hscript' files hfiles => ?_)
    (fun hnot => .inr ⟨fun hlost => hnot (hloses.mp hlost), h⟩)
    fun hlost hwritable files content hnew => .inl ⟨hloses.mpr ⟨hlost, hwritable⟩, ?_⟩))
  swap
  · exact not_restored_of_script hscript hresult h.root
      (hdrawn _ List.mem_cons_self _ (List.prefix_refl _)) hnew
  have hnever : ¬LosesScript ans own suffix before page := fun hlost =>
    hscript' (hloses.mp hlost).1
  refine Routine.post_bind (post_saveRow ?_)
  have hpaths : before.plan.scriptPaths (s.2.withScript suffix)
      = [before.plan.docrootPath own ++ [scriptName suffix],
        before.plan.docrootPath own ++ [resultName suffix]] := by
    rw [scriptPaths_written, h.site]
  -- what the copier may touch is in the folder of the copy, or one of its two files
  have hheld : ∀ files' : Folder α,
      (∀ p, ¬before.plan.docrootPath own ++ [scriptName suffix] <+: p →
        ¬before.plan.docrootPath own ++ [resultName suffix] <+: p → ¬s.2.docroot <+: p →
          files'.get p = files.get p) →
      Held before.plan own suffix before
        (onFiles (fun _ => files') (saved (s.2.withScript suffix) s.1), s.2.withScript suffix) := by
    intro files' hfiles'
    refine
      { site := h.site, name := h.name, namePrefix := h.namePrefix, domains := h.domains
        databases := h.databases
        users := h.users
        rows := rows_saved h.site h.rows
        made := h.made
        root := h.root
        scripts := ?_
        kept := ?_ }
    · intro path hpath
      rw [hpaths] at hpath
      rcases List.mem_cons.mp hpath with hpath | hpath
      · exact ⟨_, List.mem_cons_self, hpath⟩
      · exact ⟨_, List.mem_cons_of_mem _ List.mem_cons_self, List.mem_singleton.mp hpath⟩
    · intro p hp
      rw [hpaths] at hp
      have hp1 := hp _ (List.mem_append_left _ List.mem_cons_self)
      have hp2 := hp _ (List.mem_append_left _ (List.mem_cons_of_mem _ List.mem_cons_self))
      have hp3 : ∀ path ∈ s.2.folder, ¬path <+: p := fun path hpath =>
        hp path (List.mem_append_right _ hpath)
      have hroot : ¬s.2.docroot <+: p :=
        hp3 _ (mem_folder rfl (h.root ▸ List.cons_ne_nil _ _))
      refine (hfiles' p hp1 hp2 hroot).trans ((hfiles p hp1).trans (h.kept p fun path hpath => ?_))
      have hnone : before.plan.scriptPaths s.2 = [] := by simp [Plan.scriptPaths, hscript, hresult]
      rw [hnone] at hpath
      exact hp3 path hpath
  refine Routine.post_bind (Routine.post_onFst (post_runCreate fun files' hfiles' => ?_))
  exact Routine.post_check (fun _ _ => trivial) fun _ _ => .inr ⟨hnever, hheld files' hfiles'⟩

/-! ### The whole -/

theorem post_build {s : HostingAccount α} (hstarts : Starts ans own before)
    (hdrawn : ∀ name ∈ [scriptName suffix, resultName suffix], ∀ p,
      before.plan.docrootPath own ++ [name] <+: p → before.server.files.get p = none)
    (hserver : s.server = before.server)
    (hrows : ∀ staging ∈ s.plan.stagings, staging.siteDomain ≠ own →
      staging ∈ before.plan.stagings) :
    (build ans suffix (before.plan.docrootPath own) (before.plan.stagingDomain own)
      (before.plan.stagingRoot own)).Post (s, newRow before.plan own) (fun _ _ => True)
        (Stopped ans own suffix before) := by
  unfold build
  refine Routine.post_bind (Routine.Post.mono (post_makeSubdomain hstarts hserver hrows) ?_
    fun _ h => h)
  rintro _ s' ⟨page, hadd, hafter, hopened⟩
  -- from here on the answers that can be lost are those of the database and of the copier
  have hloses : LosesAnswer ans own suffix before ↔ LosesDatabase ans own suffix before page := by
    rw [LosesAnswer, hadd, and_iff_right hstarts]
    exact and_iff_right hafter
  have hstopped : ∀ {lost : Prop} (_ : LosesDatabase ans own suffix before page ↔ lost) s',
      HeldOr lost own suffix before s' → Stopped ans own suffix before s' := by
    rintro lost hlost s' (⟨h, hnot⟩ | ⟨h, hheld⟩)
    · exact .inl ⟨hloses.mpr (hlost.mpr h), hnot⟩
    · exact .inr ⟨fun hanswer => h (hlost.mp (hloses.mp hanswer)),
        .inr ⟨⟨page, hadd⟩, hafter, hheld⟩⟩
  refine Routine.post_bind (Routine.Post.mono (post_makeDatabase hopened) ?_ (hstopped Iff.rfl))
  rintro _ s'' ⟨hheld, hscript, hresult, hfiles, hlost⟩
  exact Routine.Post.mono (post_runCopier hdrawn hheld hscript hresult (hfiles.trans hopened.files))
    (fun _ _ _ => trivial) (hstopped hlost)

/-! ### The account is put back -/

/-- What was made is taken away again. -/
theorem Made.undone {full : String → String} {names names' : List String} {name : String}
    (h : Made full names names' name) :
    (if name = "" then names' else names'.filter (· ≠ full name)) = names := by
  rcases h with ⟨rfl, rfl⟩ | ⟨hne, hnew, rfl⟩
  · rw [if_pos rfl]
  · rw [if_neg hne, List.filter_append, List.filter_eq_self.mpr fun other hother => by
      simpa using fun h : other = full name => hnew (h ▸ hother)]
    simp

theorem lower_stagingDomain (plan : Plan) (own : String) :
    lower (plan.stagingDomain own) = plan.stagingDomain own := by
  have hbegins : lower "staging." = "staging." := by decide +kernel
  rw [Plan.stagingDomain, lower_append, hbegins, Plan.siteDomain, lower_lower]

/-- **The clean-up puts back all but the files.** -/
theorem restored_undone (huntaken : plan.stagingDomain own
      ∉ before.server.domains.map (lower ·.name)) {s : HostingAccount α × StagingSite}
    (h : Built plan own before s) :
    Restored before (undone plan s)
      ↔ ∀ p, (undone plan s).server.files.get p = before.server.files.get p := by
  refine ⟨(·.files), fun hfiles => ⟨hfiles, ?_, ?_, ?_, ?_⟩⟩
  · show (if s.2.dbName = "" then _ else _) = _
    rw [← h.databases.undone, full_congr h.namePrefix]
  · show (if s.2.dbUser = "" then _ else _) = _
    rw [← h.users.undone, full_congr h.namePrefix]
  · show (if s.2.madeDomain then _ else _) = _
    have hdomains := h.domains
    rw [h.name]
    split
    · next hmade =>
      rw [hdomains, if_pos hmade, List.filter_append, List.filter_eq_self.mpr fun info hinfo => ?_]
      · simp
      · refine decide_eq_true fun hname => huntaken (List.mem_map.mpr ⟨info, hinfo, ?_⟩)
        rw [hname, lower_stagingDomain]
    · next hmade => rw [hdomains, if_neg hmade, List.append_nil]
  · intro staging hstaging
    obtain ⟨hmem, hne⟩ := List.mem_filter.mp hstaging
    exact h.rows staging hmem (by simpa [h.site] using hne)

/-- What is known goes, and the files are as they were exactly when no file was in the folder of the
    copy, or no page was put into it. -/
theorem restored_of_known (hstarts : Starts ans own before)
    (hdrawn : ∀ name ∈ [scriptName suffix, resultName suffix], ∀ p,
      before.plan.docrootPath own ++ [name] <+: p → before.server.files.get p = none)
    {s : HostingAccount α × StagingSite} (h : Known ans own suffix before s) :
    Restored before (undone before.plan s) ↔ FolderUndoable ans own before := by
  rcases h with ⟨hbuilt, hpaths, hcases⟩ | ⟨⟨page, hpage⟩, hafter, hheld⟩
  · rw [restored_undone hstarts.untaken hbuilt]
    have hget : ∀ p, (undone before.plan s).server.files.get p = s.1.server.files.get p := by
      intro p
      rw [get_undone, hpaths, if_neg (by simp)]
    simp only [hget]
    rcases hcases with ⟨⟨message, hadd⟩, hfiles⟩ | ⟨page, hadd, hafter, hfiles⟩
    · rw [hfiles]
      refine ⟨fun _ page hpage => ?_, fun _ _ => rfl⟩
      rw [hadd] at hpage
      cases hpage
    · rw [hfiles, get_newSite_iff]
      constructor
      · intro h page' hpage' _
        rw [hadd] at hpage'
        cases hpage'
        rw [hafter]
        exact h
      · intro h
        have hcond := h page hadd hstarts
        rw [hafter] at hcond
        exact hcond
  · rw [restored_undone hstarts.untaken hheld.toBuilt]
    have hfolder : s.2.folder = [before.plan.stagingRoot own] := by
      have hroot : before.plan.stagingRoot own ≠ [] := List.cons_ne_nil _ _
      rw [StagingSite.folder, hheld.root, if_neg hroot]
    have hiff : FolderUndoable ans own before
        ↔ ∀ p, before.plan.stagingRoot own <+: p → before.server.files.get p = none := by
      constructor
      · intro h
        have hcond := h page hpage hstarts
        rw [hafter] at hcond
        exact hcond
      · intro h _ _ _
        rw [hafter]
        exact h
    rw [hiff]
    constructor
    · intro h p hp
      rw [← h p, get_undone, if_pos]
      exact ⟨_, List.mem_append_right _ (hfolder ▸ List.mem_singleton_self _), hp⟩
    · intro h p
      rw [get_undone]
      split
      · next htaken =>
        obtain ⟨path, hpath, hpre⟩ := htaken
        rcases List.mem_append.mp hpath with hpath | hpath
        · obtain ⟨name, hname, hsame⟩ := hheld.scripts path hpath
          exact (hdrawn name hname p (hsame ▸ hpre)).symm
        · rw [hfolder] at hpath
          exact (h p (List.mem_singleton.mp hpath ▸ hpre)).symm
      · next hfree => exact hheld.kept p fun path hpath hpre => hfree ⟨path, hpath, hpre⟩

/-- **When the steps stop, the account is put back** exactly when no answer was lost, and no file
    was in the folder of the copy, or no page was put into it. -/
theorem restored_of_stopped (hstarts : Starts ans own before)
    (hdrawn : ∀ name ∈ [scriptName suffix, resultName suffix], ∀ p,
      before.plan.docrootPath own ++ [name] <+: p → before.server.files.get p = none)
    {s : HostingAccount α × StagingSite} (h : Stopped ans own suffix before s) :
    Restored before (undone before.plan s) ↔ Undoable ans own suffix before := by
  rcases h with ⟨hlost, hnot⟩ | ⟨hnone, hknown⟩
  · exact iff_of_false hnot fun hundoable => hundoable.1 hlost
  · rw [Undoable, and_iff_right hnone]
    exact restored_of_known hstarts hdrawn hknown

/-- Where no call was made that makes something, there is nothing to undo. -/
theorem undoable_of_not_starts (h : ¬Starts ans own before) : Undoable ans own suffix before :=
  ⟨fun hloses => h hloses.1, fun _ _ hstarts => absurd hstarts h⟩

/-- A change of the records alone. -/
theorem restored_of_records {s s' : HostingAccount α} (hserver : s'.server = s.server)
    (hrows : ∀ staging ∈ s'.plan.stagings, staging ∈ s.plan.stagings) : Restored s s' := by
  refine ⟨fun p => ?_, ?_, ?_, ?_, hrows⟩ <;> rw [hserver]

/-- What the clean-up leaves, in the end. -/
theorem undo_eq {e : Err} (hprovider : ans.provider = .obliging α ans.capabilities)
    (s : HostingAccount α × StagingSite) :
    ((do cleanup ans.provider plan s.2 true
         forgetStaging s.2.siteDomain
         Routine.check (.error e)) : Routine (HostingAccount α) Err Unit) s.1
      = (.error e, undone plan s) := by
  have hclean : cleanup ans.provider plan s.2 true s.1
      = (.ok (), { s.1 with server := afterCleanup plan s.2 s.1.server }) := by
    rw [hprovider]
    exact Prod.ext (Routine.bestEffort_ok _ _) (cleanup_obliging plan s.2 s.1)
  rw [Routine.bind_of_ok hclean]
  rfl

theorem total_applyCreated (row : StagingSite) (error : Option String) :
    (applyCreated ans plan row error).Total := by
  unfold applyCreated
  refine Routine.total_bind (fun s => ⟨_, Routine.bestEffort_ok _ s⟩) fun _ => ?_
  cases error with
  | none => exact fun _ => ⟨_, rfl⟩
  | some message =>
    exact Routine.total_bind (fun s => ⟨_, Routine.bestEffort_ok _ s⟩) fun _ _ => ⟨_, rfl⟩

theorem post_orUndo {steps : Routine (HostingAccount α × StagingSite) Err (Option (Option String))}
    {row : StagingSite} {s : HostingAccount α} {bad : HostingAccount α → Prop}
    {stopped : HostingAccount α × StagingSite → Prop}
    (hprovider : ans.provider = .obliging α ans.capabilities)
    (hsteps : steps.Post (s, row) (fun _ _ => True) stopped)
    (hbad : ∀ s', stopped s' → bad (undone plan s')) :
    (orUndo ans plan row steps).Post s (fun _ _ => True) bad := by
  unfold Routine.Post orUndo
  rcases hrun : steps (s, row) with ⟨e | ⟨_ | error⟩, s', row'⟩
  · have hstopped := hsteps.of_error hrun
    dsimp only
    rw [undo_eq hprovider (s', row')]
    exact hbad _ hstopped
  · trivial
  · exact (total_applyCreated row' error).post fun _ _ => trivial

theorem post_clearFailed {existing : Option StagingSite} {s : HostingAccount α}
    {good : Unit → HostingAccount α → Prop} {bad : HostingAccount α → Prop}
    (hgood : ∀ s', (∀ row ∈ existing, row.state = .failed) → s'.server = s.server →
      (∀ staging ∈ s'.plan.stagings, staging ∈ s.plan.stagings) → good () s')
    (hbad : (∃ row ∈ existing, row.state ≠ .failed) → bad s) :
    (clearFailed existing).Post s good bad := by
  unfold clearFailed
  cases existing with
  | none => exact hgood s nofun rfl fun _ h => h
  | some row =>
    refine Routine.post_bind (Routine.post_check (fun _ hok => ?_) fun e herror => ?_)
    · refine hgood _ (fun row' hrow' => ?_) rfl fun _ h => (List.mem_filter.mp h).1
      cases hrow'
      exact ensure_eq_ok.mp hok
    · refine hbad ⟨row, rfl, fun h => ?_⟩
      rw [ensure, if_pos h] at herror
      cases herror

theorem post_makeStaging {s s' : HostingAccount α}
    (hprovider : ans.provider = .obliging α ans.capabilities)
    (hdrawn : ∀ name ∈ [scriptName suffix, resultName suffix], ∀ p,
      s.plan.docrootPath own ++ [name] <+: p → s.server.files.get p = none)
    (havailable : requireAvailable ans s.plan own = .ok ())
    (hfailed : ∀ existing ∈ s.plan.staging own, existing.state = .failed)
    (hserver : s'.server = s.server)
    (hrows : ∀ staging ∈ s'.plan.stagings, staging ∈ s.plan.stagings) :
    (makeStaging ans suffix s.plan own).Post s' (fun _ _ => True)
      fun s'' => Restored s s'' ↔ Undoable ans own suffix s := by
  have hearly : ¬Starts ans own s → (Restored s s' ↔ Undoable ans own suffix s) := fun hnot =>
    iff_of_true (restored_of_records hserver hrows) (undoable_of_not_starts hnot)
  unfold makeStaging
  refine Routine.post_bind (post_listDomains (fun hlisted => ?_) fun hlisted => ?_)
  · refine Routine.post_bind (Routine.post_check (fun _ huntaken => ?_) fun e htaken => ?_)
    · have huntaken := ensure_eq_ok.mp huntaken
      rw [hserver] at huntaken
      have hstarts : Starts ans own s := ⟨havailable, hfailed, hlisted, huntaken⟩
      refine Routine.post_bind (Routine.post_change ?_)
      have hadded : ∀ staging ∈ s'.plan.stagings ++ [newRow s.plan own],
          staging.siteDomain ≠ own → staging ∈ s.plan.stagings := by
        intro staging hstaging hne
        rcases List.mem_append.mp hstaging with hstaging | hstaging
        · exact hrows staging hstaging
        · rw [List.mem_singleton.mp hstaging] at hne
          exact absurd rfl hne
      have hbuild : (build ans suffix (s.plan.docrootPath own) (s.plan.stagingDomain own)
          (s.plan.stagingRoot own)).Post ({ s' with plan := { s'.plan with
            stagings := s'.plan.stagings ++ [newRow s.plan own] } }, newRow s.plan own)
          (fun _ _ => True) (Stopped ans own suffix s) := post_build hstarts hdrawn hserver hadded
      exact post_orUndo hprovider hbuild fun s'' hstopped =>
        restored_of_stopped hstarts hdrawn hstopped
    · refine hearly fun h => ?_
      rw [ensure, if_pos (by rw [hserver]; exact h.untaken)] at htaken
      cases htaken
  · exact hearly fun h => absurd h.listed (by rw [hlisted]; intro h; cases h)

/-- **A `create` that raises puts the account back** — the clean-up's own calls succeeding —
    exactly when no call that makes something was carried out without an answer, and, if it added
    the subdomain: there was no file in the folder of the copy, where the panel learned the folder,
    and no page was put into it, where it did not. -/
theorem restored_iff {site : String} {s : HostingAccount α} {e : Err}
    (hprovider : ans.provider = .obliging α ans.capabilities)
    (hdrawn : ∀ name ∈ [scriptName suffix, resultName suffix], ∀ p,
      s.plan.docrootPath (s.plan.own site) ++ [name] <+: p → s.server.files.get p = none)
    (hraised : (create ans suffix site s).1 = .error e) :
    Restored s (create ans suffix site s).2 ↔ Undoable ans (s.plan.own site) suffix s := by
  have hearly : ¬Starts ans (s.plan.own site) s →
      (Restored s s ↔ Undoable ans (s.plan.own site) suffix s) := fun hnot =>
    iff_of_true (restored_of_records rfl fun _ h => h) (undoable_of_not_starts hnot)
  have hpost : (create ans suffix site).Post s (fun _ _ => True)
      fun s' => Restored s s' ↔ Undoable ans (s.plan.own site) suffix s := by
    unfold create
    refine Routine.post_bind (Routine.post_read ?_)
    refine Routine.post_bind (Routine.post_check (fun _ havailable => ?_) fun e herror => ?_)
    · refine Routine.post_bind (post_clearFailed (fun s' hfailed hserver hrows => ?_)
        fun ⟨row, hrow, hstate⟩ => ?_)
      · exact post_makeStaging hprovider hdrawn havailable hfailed hserver hrows
      · exact hearly fun h => hstate (h.replaced row hrow)
    · exact hearly fun h => absurd h.available (by rw [herror]; nofun)
  exact hpost.of_error (Prod.ext hraised rfl)

end

/-- A plan on `example.com` whose own website has no staging copy. -/
def livePlan : Plan where
  domain := "example.com"
  domain_stripped := strip_example
  apps := [{ domain := "", kind := .wordpress, state := .ready }]

/-- The website, with a folder of the customer's named `staging`. -/
def liveWith (staging : Folder String) : HostingAccount String where
  plan := livePlan
  server :=
    { files := .sub "public_html" (.file "wp-config.php" "live" (.sub "staging" staging .empty))
        .empty }

/-- The databases cannot be listed. -/
def unlisted : CreationAnswers String where
  capabilities := [.files, .databases, .domains]
  domainsBefore := true
  domainsAfter := true
  addDomain := .done (some "Coming soon")
  databasesBefore := false
  usersBefore := true
  createDatabase := .done ()
  createUser := .done ()
  databasesAfter := some fun _ => true
  usersAfter := some fun _ => true
  grant := true
  asked := unanswered
  script := .done "copier"
  ran := none
  result := none
  reply := .silent
  provider := .obliging String [.files, .databases, .domains]

/-- The folder was empty: the account is as it was. -/
theorem restored_unlisted :
    Restored (liveWith .empty) (create unlisted "0" "" (liveWith .empty)).2 := by
  have hroot : livePlan.stagingRoot (livePlan.own "") = ["public_html", "staging"] := by
    decide +kernel
  have hlive : livePlan.docrootPath (livePlan.own "") = ["public_html"] := by decide +kernel
  have hraised : (create unlisted "0" "" (liveWith .empty)).1
      = .error (adapterError "The names could not be listed.") := by decide +kernel
  have hget : ∀ name q, (liveWith .empty).server.files.get ("public_html" :: name :: q)
      = if name = "wp-config.php" ∧ q = [] then some "live" else none := by
    intro name q
    simp only [liveWith, Folder.get_sub_cons, Folder.get_file_cons]
    by_cases hname : name = "wp-config.php" <;> by_cases hq : q = [] <;> simp [hname, hq]
  refine (restored_iff rfl (fun name hname p hp => ?_) hraised).mpr
    ⟨fun hloses => Bool.false_ne_true hloses.2.2.1, fun page _ _ => ?_⟩
  · obtain ⟨q, rfl⟩ := hp
    rw [show (liveWith .empty).plan.docrootPath ((liveWith .empty).plan.own "") = ["public_html"]
      from hlive]
    refine (hget name q).trans (if_neg fun h => ?_)
    rw [h.1] at hname
    revert hname
    decide +kernel
  · rw [if_pos (show unlisted.domainsAfter = true from rfl)]
    intro p hp
    rw [show (liveWith .empty).plan.stagingRoot ((liveWith .empty).plan.own "")
      = ["public_html", "staging"] from hroot] at hp
    obtain ⟨q, rfl⟩ := hp
    exact (hget "staging" q).trans (if_neg fun h => absurd h.1 (by decide))

/-- **A folder that the customer already had is deleted** with the files in it. -/
theorem not_restored_unlisted :
    (create unlisted "0" "" (liveWith (.file "notes.txt" "mine" .empty))).1
        = .error (adapterError "The names could not be listed.")
      ∧ ¬Restored (liveWith (.file "notes.txt" "mine" .empty))
        (create unlisted "0" "" (liveWith (.file "notes.txt" "mine" .empty))).2 := by
  refine ⟨by decide +kernel, fun h => ?_⟩
  have hsame := h.files ["public_html", "staging", "notes.txt"]
  revert hsame
  decide +kernel

end WPanel.Hosting
