import WPanel.Core
import WPanel.Lib.Folder
import WPanel.Lib.Routine

namespace WPanel.Hosting

open WPanel.Lib

/-!
# A hosting account and its websites

What `hosting/site_apps.py`, `hosting/staging.py` and `hosting/plan_sites.py` know of one hosting
account, and what is on its server.  The plan's own website is in `public_html`; a website on a
domain added to the plan is in a folder of its own, named after the domain, inside it.

* `Plan` — the records of the panel: websites and their staging copies;
* `Server` — files, databases, database users and domains;
* `HostingAccount`, `Answers` — both, and what the provider answers to each call;
* `docrootPath` — where the panel looks for a website.

A file path is a list of names.  A provider call either does what it says, or fails with a
`ServiceError`; a failed deletion may have deleted a part.
-/

/-- A path inside the account's home folder. -/
abbrev Path := List String

inductive Capability where
  | files
  | databases
  | domains
  | ssl
  | backups
  | apps
  deriving DecidableEq, Repr

/-! ### The records of the panel -/

inductive AppKind where
  | wordpress
  | custom
  deriving DecidableEq, Repr

inductive AppState where
  | installing
  | ready
  | failed
  deriving DecidableEq, Repr

/-- What a website was set up as.  The domain of the plan's own website is blank. -/
structure WebsiteApp where
  domain : String
  kind : AppKind
  state : AppState
  jobRef : String := ""
  installerRef : String := ""
  dbName : String := ""
  dbUser : String := ""
  deriving DecidableEq, Repr

inductive StagingState where
  | creating
  | ready
  | pushing
  | failed
  deriving DecidableEq, Repr

/-- A private copy of a website, on its own subdomain. -/
structure StagingSite where
  /-- The website it is a copy of; blank for the plan's own. -/
  siteDomain : String
  domain : String
  state : StagingState := .creating
  docroot : Path := []
  dbName : String := ""
  dbUser : String := ""
  scriptRef : String := ""
  resultRef : String := ""
  error : String := ""
  /-- WHPanel added the subdomain, so it removes it again. -/
  madeDomain : Bool := false
  deriving DecidableEq, Repr

/-- The records of one hosting account. -/
structure Plan where
  /-- The domain of the plan's own website. -/
  domain : String
  domain_stripped : strip domain = domain := by decide +kernel
  apps : List WebsiteApp := []
  stagings : List StagingSite := []
  deriving DecidableEq, Repr

theorem strip_example : strip "example.com" = "example.com" := by decide +kernel

/-- `_own`: blank for the plan's own website, else the name of the added domain. -/
def Plan.own (plan : Plan) (domain : String) : String :=
  if lower (strip domain) = lower plan.domain then "" else lower (strip domain)

/-- `site_domain`: the domain a website is on. -/
def Plan.siteDomain (plan : Plan) (domain : String) : String :=
  lower (if strip domain = "" then plan.domain else strip domain)

/-- `docroot_path`: the folder of a website. -/
def Plan.docrootPath (plan : Plan) (domain : String) : Path :=
  let domain := lower (strip domain)
  if domain ≠ "" ∧ domain ≠ lower plan.domain then ["public_html", domain] else ["public_html"]

/-- `site_apps.current`. -/
def Plan.app (plan : Plan) (domain : String) : Option WebsiteApp :=
  plan.apps.find? (·.domain = plan.own domain)

/-- `staging.current`. -/
def Plan.staging (plan : Plan) (domain : String) : Option StagingSite :=
  plan.stagings.find? (·.siteDomain = plan.own domain)

/-! ### The server -/

inductive DomainKind where
  | primary
  | addon
  | subdomain
  | alias
  deriving DecidableEq, Repr

structure DomainInfo where
  name : String
  kind : DomainKind
  documentRoot : Path := []
  deriving DecidableEq, Repr

/-- What is on the server for one account. -/
structure Server (α : Type) where
  files : Folder α := .empty
  databases : List String := []
  users : List String := []
  domains : List DomainInfo := []
  /-- What the names of the account's databases and users start with. -/
  namePrefix : String := ""
  deriving DecidableEq

/-- `_full`: a database or user name with the account's prefix. -/
def Server.full {α : Type} (server : Server α) (name : String) : String :=
  if startsWith name server.namePrefix then name else server.namePrefix ++ name

/-- An account: the records of the panel and what is on the server. -/
structure HostingAccount (α : Type) where
  plan : Plan
  server : Server α
  deriving DecidableEq

/-! ### What the provider answers -/

/-- The answer to a deletion: it was done, or it failed, and what is outside the path is as it
    was. -/
inductive Deletion (α : Type) (path : Path) where
  | done
  | failed (after : Folder α → Folder α)
      (outside : ∀ files q, ¬path <+: q → (after files).get q = files.get q)

/-- What the provider answers to each call of a routine. -/
structure Answers (α : Type) where
  /-- `_capabilities(account)`: none when the provider cannot be asked. -/
  capabilities : List Capability
  /-- The names a listing shows; `none` when it fails. -/
  listFiles : Path → Option (String → Bool)
  deletePath : (path : Path) → Deletion α path
  removeDomain : String → Bool
  deleteDatabase : String → Bool
  deleteDatabaseUser : String → Bool

/-- A provider that does everything it is asked. -/
def Answers.obliging (α : Type) (capabilities : List Capability) : Answers α where
  capabilities
  listFiles _ := some fun _ => true
  deletePath _ := .done
  removeDomain _ := true
  deleteDatabase _ := true
  deleteDatabaseUser _ := true

/-- A `ServiceError` in the place of the provider's own. -/
def adapterError (message : String) : Err :=
  serviceError ("The hosting server could not complete that: " ++ message) "adapter_error"

section

variable {α : Type} (ans : Answers α)

/-- `list_files`: the names in a folder. -/
def listFiles (path : Path) : Routine (HostingAccount α) Err (List String) := fun s =>
  match ans.listFiles path, s.server.files.at? path with
  | some shown, some folder => (.ok (folder.names.filter shown), s)
  | _, _ => (.error (adapterError "That file or folder does not exist."), s)

/-- `delete_path`. -/
def deletePath (path : Path) : Routine (HostingAccount α) Err Unit := fun s =>
  match ans.deletePath path with
  | .done => (.ok (), { s with server := { s.server with files := s.server.files.remove path } })
  | .failed after _ => (.error (adapterError "It could not be deleted."),
      { s with server := { s.server with files := after s.server.files } })

/-- `remove_domain`. -/
def removeDomain (name : String) : Routine (HostingAccount α) Err Unit := fun s =>
  if ans.removeDomain name then
    (.ok (), { s with server := { s.server with
      domains := s.server.domains.filter (·.name ≠ name) } })
  else (.error (adapterError "That domain is not on this account."), s)

/-- `delete_database`. -/
def deleteDatabase (name : String) : Routine (HostingAccount α) Err Unit := fun s =>
  if ans.deleteDatabase name then
    (.ok (), { s with server := { s.server with
      databases := s.server.databases.filter (· ≠ s.server.full name) } })
  else (.error (adapterError "That does not exist on this account."), s)

/-- `delete_database_user`. -/
def deleteDatabaseUser (name : String) : Routine (HostingAccount α) Err Unit := fun s =>
  if ans.deleteDatabaseUser name then
    (.ok (), { s with server := { s.server with
      users := s.server.users.filter (· ≠ s.server.full name) } })
  else (.error (adapterError "That does not exist on this account."), s)

/-! ### Staging copies -/

/-- The script of a staging copy and its result, in the folder of the website. -/
def Plan.scriptPaths (plan : Plan) (staging : StagingSite) : List Path :=
  ([staging.scriptRef, staging.resultRef].filter (· ≠ "")).map fun name =>
    plan.docrootPath staging.siteDomain ++ [name]

/-- The folder of a staging copy, once it has one. -/
def StagingSite.folder (staging : StagingSite) : List Path :=
  if staging.docroot = [] then [] else [staging.docroot]

/-- The steps of `_cleanup`: the script and its result, the subdomain, the folder, the database
    user and the database. -/
def cleanupSteps (plan : Plan) (staging : StagingSite) (folderMade : Bool) :
    List (Routine (HostingAccount α) Err Unit) :=
  (plan.scriptPaths staging).map (deletePath ans)
    ++ (if staging.madeDomain then [removeDomain ans staging.domain] else [])
    ++ (if folderMade then staging.folder.map (deletePath ans) else [])
    ++ (if staging.dbUser = "" then [] else [deleteDatabaseUser ans staging.dbUser])
    ++ (if staging.dbName = "" then [] else [deleteDatabase ans staging.dbName])

/-- `_cleanup`: take away what a staging copy is made of; each step is best effort. -/
def cleanup (plan : Plan) (staging : StagingSite) (folderMade : Bool) :
    Routine (HostingAccount α) Err Unit :=
  Routine.bestEffort (cleanupSteps ans plan staging folderMade)

/-- The row of a staging copy is deleted. -/
def forgetStaging (siteDomain : String) : Routine (HostingAccount α) Err Unit :=
  Routine.change fun s => { s with plan := { s.plan with
    stagings := s.plan.stagings.filter (·.siteDomain ≠ siteDomain) } }

/-- `staging.delete`. -/
def deleteStaging (plan : Plan) (domain : String) : Routine (HostingAccount α) Err Unit :=
  match plan.staging domain with
  | none => return ()
  | some staging => do
    cleanup ans plan staging true
    forgetStaging staging.siteDomain

end

/-! ### Files that a routine leaves alone -/

/-- Only files that `may` be touched are. -/
def touches {α : Type} (may : Path → Prop) : Frame (HostingAccount α) where
  allows s s' := ∀ p, ¬may p → s'.server.files.get p = s.server.files.get p
  refl _ _ _ := rfl
  trans _ _ _ h h' p hp := (h' p hp).trans (h p hp)

/-- No file appears. -/
def shrinks {α : Type} : Frame (HostingAccount α) where
  allows s s' := ∀ p, s.server.files.get p = none → s'.server.files.get p = none
  refl _ _ hp := hp
  trans _ _ _ h h' p hp := h' p (h p hp)

/-- A frame that is about the files only. -/
def AboutFiles {α : Type} (fr : Frame (HostingAccount α)) : Prop :=
  ∀ s s', s'.server.files = s.server.files → fr.allows s s'

section

variable {α : Type} {ans : Answers α} {may : Path → Prop} {fr : Frame (HostingAccount α)}

theorem aboutFiles_touches : AboutFiles (α := α) (touches may) := fun _ _ h p _ => by rw [h]

theorem aboutFiles_shrinks : AboutFiles (α := α) shrinks := fun _ _ h p hp => by rw [h, hp]

/-- A routine that does not write the files keeps to a frame about them. -/
theorem AboutFiles.within {β : Type} (hfr : AboutFiles fr) {r : Routine (HostingAccount α) Err β}
    (h : ∀ s, (r s).2.server.files = s.server.files) : r.Within fr :=
  fun s => hfr _ _ (h s)

theorem within_deletePath {path : Path} (h : ∀ q, path <+: q → may q) :
    (deletePath ans path).Within (touches may) := by
  intro s p hp
  have hnot : ¬path <+: p := fun hpre => hp (h p hpre)
  unfold deletePath
  split
  · show (s.server.files.remove path).get p = s.server.files.get p
    cases path with
    | nil => rfl
    | cons k q => rw [Folder.get_remove _ (List.cons_ne_nil k q), if_neg hnot]
  · next after outside _ => exact outside s.server.files p hnot

theorem listFiles_state (path : Path) (s : HostingAccount α) : (listFiles ans path s).2 = s := by
  unfold listFiles
  split <;> rfl

theorem removeDomain_files (name : String) (s : HostingAccount α) :
    (removeDomain ans name s).2.server.files = s.server.files := by
  unfold removeDomain
  split <;> rfl

theorem deleteDatabase_files (name : String) (s : HostingAccount α) :
    (deleteDatabase ans name s).2.server.files = s.server.files := by
  unfold deleteDatabase
  split <;> rfl

theorem deleteDatabaseUser_files (name : String) (s : HostingAccount α) :
    (deleteDatabaseUser ans name s).2.server.files = s.server.files := by
  unfold deleteDatabaseUser
  split <;> rfl

/-- The steps of `_cleanup` write no files but the folder of the copy, and two files the panel
    wrote into the folder of the website. -/
theorem within_cleanupSteps {plan : Plan} {staging : StagingSite} {folderMade : Bool}
    (hfr : AboutFiles fr)
    (h : ∀ path ∈ plan.scriptPaths staging ++ staging.folder, (deletePath ans path).Within fr)
    {step : Routine (HostingAccount α) Err Unit}
    (hstep : step ∈ cleanupSteps ans plan staging folderMade) :
    step.Within fr := by
  simp only [cleanupSteps, List.mem_append] at hstep
  rcases hstep with (((hstep | hstep) | hstep) | hstep) | hstep
  · obtain ⟨path, hpath, rfl⟩ := List.mem_map.mp hstep
    exact h path (List.mem_append_left _ hpath)
  · split at hstep <;> simp only [List.mem_singleton, List.not_mem_nil] at hstep
    subst hstep
    exact hfr.within fun s => removeDomain_files _ s
  · split at hstep
    · obtain ⟨path, hpath, rfl⟩ := List.mem_map.mp hstep
      exact h path (List.mem_append_right _ hpath)
    · cases hstep
  · split at hstep <;> simp only [List.mem_singleton, List.not_mem_nil] at hstep
    subst hstep
    exact hfr.within fun s => deleteDatabaseUser_files _ s
  · split at hstep <;> simp only [List.mem_singleton, List.not_mem_nil] at hstep
    subst hstep
    exact hfr.within fun s => deleteDatabase_files _ s

/-! ### A provider that does what it is asked -/

section

variable {capabilities : List Capability}

theorem deletePath_obliging (path : Path) (s : HostingAccount α) :
    deletePath (.obliging α capabilities) path s
      = (.ok (), { s with server := { s.server with files := s.server.files.remove path } }) := rfl

theorem shrinks_deletePath (path : Path) :
    (deletePath (.obliging α capabilities) path).Within shrinks := by
  intro s p hp
  rw [deletePath_obliging]
  show (s.server.files.remove path).get p = none
  cases path with
  | nil => exact hp
  | cons k q =>
    rw [Folder.get_remove _ (List.cons_ne_nil k q)]
    split
    · rfl
    · exact hp

/-- What is deleted is gone. -/
theorem deletePath_gone {path p : Path} (hpath : path ≠ []) (hp : path <+: p)
    (s : HostingAccount α) :
    (deletePath (.obliging α capabilities) path s).2.server.files.get p = none := by
  rw [deletePath_obliging]
  show (s.server.files.remove path).get p = none
  rw [Folder.get_remove _ hpath, if_pos hp]

theorem listFiles_obliging {path : Path} {s : HostingAccount α} {folder : Folder α}
    (h : s.server.files.at? path = some folder) :
    listFiles (.obliging α capabilities) path s = (.ok folder.names, s) := by
  simp [listFiles, Answers.obliging, h]

end

end

end WPanel.Hosting
