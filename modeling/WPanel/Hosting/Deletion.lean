import WPanel.Hosting.Accounts

namespace WPanel.Hosting

open WPanel.Lib

/-!
# Deleting a website

`delete_website` of `hosting/site_apps.py`: the files of a website, its staging copy, and the
database and user WHPanel made for it, while the plan stays.

* `deleteWebsite` — the code, under any answers of the provider;
* `Layout.folders` — the folders of the websites of a plan and of their staging copies;
* `Layout.Innermost` — the innermost folder a file is in says whose file it is;
* `Taken`, `Exposed` — what a deletion deletes, and a folder that lies where it does;
* `leavesOthers_iff` — the files of the others are safe, whatever is in the folders and whatever
  the provider answers, exactly when no folder of another is exposed;
* `exposed_added` — deleting the plan's own website exposes every other.
-/

/-- Names in a website's folder that are the server's own. -/
def keepOnDelete : List String := ["cgi-bin", ".well-known"]

/-- What was removed, and what was left. -/
structure Report where
  files : ℕ := 0
  staging : Bool := false
  database : Bool := false
  domainRemoved : Bool := false
  left : List String := []
  deriving DecidableEq, Repr

section

variable {α : Type} (ans : Answers α)

/-- `folder_entries`: what is in the folder that deleting would remove; nothing when it cannot
    be listed. -/
def folderEntries (plan : Plan) (domain : String) :
    Routine (HostingAccount α) Err (List String) := do
  let listed ← (listFiles ans (plan.docrootPath domain)).attempt
  match listed with
  | .ok names => return names.filter (· ∉ keepOnDelete)
  | .error _ => return []

/-- The checks before anything is deleted. -/
def requireDeletable (plan : Plan) (confirmDomain own : String) :
    Routine (HostingAccount α) Err Unit := do
  Routine.check (ensure (lower (strip confirmDomain) = plan.siteDomain own)
    (serviceError "Type the website's address exactly to confirm." "confirm_mismatch"))
  match plan.app own with
  | none => do
    let entries ← folderEntries ans plan own
    Routine.check (ensure (entries ≠ [])
      (serviceError "There is nothing to delete: the website folder is empty." "nothing"))
  | some app => Routine.check (ensure (app.state ≠ .installing)
      (serviceError "This website is still being installed. Wait for it to finish, then delete it."
        "busy"))

/-- One entry of the website's folder goes, unless it is the server's own. -/
def deleteEntry (folder : Path) (name : String) : Routine (HostingAccount α) Err Unit :=
  if name ∈ keepOnDelete then return () else deletePath ans (folder ++ [name])

/-- Empty the folder of a website; the number of entries that went. -/
def clearFolder (folder : Path) : Routine (HostingAccount α) Err ℕ :=
  if Capability.files ∈ ans.capabilities then do
    let names ← listFiles ans folder
    names.forM (deleteEntry ans folder)
    return (names.filter (· ∉ keepOnDelete)).length
  else return 0

/-- The database user that the record of the website names. -/
def dropDatabaseUser (app : WebsiteApp) (report : Report) : Routine (HostingAccount α) Err Report :=
  if app.dbUser = "" then return report
  else do
    match ← (deleteDatabaseUser ans app.dbUser).attempt with
    | .ok _ => return report
    | .error _ => return { report with
        left := report.left ++ ["the database user " ++ app.dbUser] }

/-- The database that the record of the website names. -/
def dropDatabase (app : WebsiteApp) (report : Report) : Routine (HostingAccount α) Err Report :=
  if app.dbName ≠ "" then do
    match ← (deleteDatabase ans app.dbName).attempt with
    | .ok _ => return { report with database := true }
    | .error _ => return { report with left := report.left ++ ["the database " ++ app.dbName] }
  else if app.kind = .wordpress then
    return { report with left := report.left
      ++ ["its database (remove it under MySQL databases if you no longer need it)"] }
  else return report

/-- The database and the user go, when there is a record of the website. -/
def dropRecorded (app : Option WebsiteApp) (report : Report) :
    Routine (HostingAccount α) Err Report :=
  match app with
  | none => return report
  | some app => dropDatabaseUser ans app report >>= dropDatabase ans app

/-- A domain that was added to the plan goes with its folder. -/
def dropDomain (plan : Plan) (own : String) (report : Report) :
    Routine (HostingAccount α) Err Report :=
  if own = "" then return report
  else do
    let removed ← (removeDomain ans own).attempt
    let _ ← (deletePath ans (plan.docrootPath own)).attempt
    return match removed with
      | .ok _ => { report with domainRemoved := true }
      | .error _ => { report with left := report.left
          ++ ["the domain " ++ own ++ " on the plan (remove it under Domains)"] }

/-- The record of the website is deleted. -/
def forgetWebsite (own : String) : Routine (HostingAccount α) Err Unit :=
  Routine.change fun s => { s with plan := { s.plan with
    apps := s.plan.apps.filter (·.domain ≠ own) } }

/-- The files of the website, its database and user, its domain and its record. -/
def dropWebsite (plan : Plan) (own : String) : Routine (HostingAccount α) Err Report := do
  let files ← clearFolder ans (plan.docrootPath own)
  let report ← dropRecorded ans (plan.app own) { files, staging := (plan.staging own).isSome }
  let report ← dropDomain ans plan own report
  forgetWebsite own
  return report

/-- Everything `delete_website` does once it has made its checks. -/
def takeDown (plan : Plan) (own : String) : Routine (HostingAccount α) Err Report := do
  deleteStaging ans plan own
  dropWebsite ans plan own

/-- Remove a website from its hosting plan. -/
def deleteWebsite (confirmDomain domain : String) : Routine (HostingAccount α) Err Report := do
  let plan ← Routine.read (·.plan)
  requireDeletable ans plan confirmDomain (plan.own domain)
  takeDown ans plan (plan.own domain)

end

/-! ### Whose file it is -/

/-- Whose folder it is: a website's, or that of the staging copy of a website. -/
inductive Owner where
  | site (own : String)
  | copy (own : String)
  deriving DecidableEq, Repr

/-- The domains added to a plan, each with a website of its own. -/
structure Layout (plan : Plan) where
  added : List String
  clean : ∀ domain ∈ added, lower (strip domain) = domain ∧ domain ≠ ""
    ∧ domain ≠ lower plan.domain

variable {plan : Plan}

/-- The websites of the plan; the plan's own is blank. -/
def Layout.sites (layout : Layout plan) : List String := "" :: layout.added

/-- Every folder of the plan, with whose it is. -/
def Layout.folders (layout : Layout plan) : List (Owner × Path) :=
  layout.sites.map (fun site => (Owner.site site, plan.docrootPath site))
    ++ plan.stagings.flatMap fun staging =>
      staging.folder.map fun path => (Owner.copy staging.siteDomain, path)

/-- The file is in this folder, and in no folder of the plan further down. -/
def Layout.Innermost (layout : Layout plan) (folder path : Path) : Prop :=
  folder <+: path ∧ ∀ other ∈ layout.folders, other.2 <+: path → other.2 <+: folder

instance (layout : Layout plan) (folder path : Path) : Decidable (layout.Innermost folder path) :=
  inferInstanceAs (Decidable (_ ∧ _))

/-- Whatever is in the folders, whatever the provider answers and whatever is typed, deleting
    the website leaves the files of the other websites and of their staging copies alone. -/
def LeavesOthers (layout : Layout plan) (site : String) : Prop :=
  ∀ (ans : Answers String) (confirmDomain : String) (server : Server String),
    ∀ other ∈ layout.folders, other.1 ≠ .site site → other.1 ≠ .copy site →
      ∀ path, layout.Innermost other.2 path →
        (deleteWebsite ans confirmDomain site ⟨plan, server⟩).2.server.files.get path
          = server.files.get path

/-- The website is being installed. -/
def Plan.Busy (plan : Plan) (site : String) : Prop :=
  ∃ app ∈ plan.app site, app.state = .installing

/-- The paths that go with the staging copy of a website. -/
def Plan.stagingPaths (plan : Plan) (site : String) : List Path :=
  (plan.staging site).toList.flatMap fun staging => plan.scriptPaths staging ++ staging.folder

/-- What the deletion of a website deletes: what goes with its staging copy, the entries of its
    folder but the server's own, and the folder itself when its domain was added to the plan. -/
def Taken (plan : Plan) (site : String) (path : Path) : Prop :=
  path ∈ plan.stagingPaths site ∨
    (∃ name, name ∉ keepOnDelete ∧ path = plan.docrootPath site ++ [name])
    ∨ (site ≠ "" ∧ path = plan.docrootPath site)

/-- A folder that lies where the deletion of a website clears. -/
def Exposed (plan : Plan) (site : String) (folder : Path) : Prop :=
  folder = plan.docrootPath site ∨ ∃ path, Taken plan site path ∧ path <+: folder

/-! ### What a deletion may touch -/

section

variable {α : Type} {ans : Answers α} {site : String} {fr : Frame (HostingAccount α)}

theorem within_deleteStaging (hfr : AboutFiles fr)
    (h : ∀ path ∈ plan.stagingPaths site, (deletePath ans path).Within fr) :
    (deleteStaging ans plan site).Within fr := by
  unfold deleteStaging
  split
  · exact Routine.within_pure _
  · next staging hstaging =>
    refine Routine.within_bind (Routine.within_bestEffort fun step hstep =>
      within_cleanupSteps hfr (fun path hpath => h path ?_) hstep) fun _ => hfr.within fun _ => rfl
    simpa [Plan.stagingPaths, hstaging] using hpath

theorem within_deleteEntry {folder : Path} {name : String}
    (h : name ∉ keepOnDelete → (deletePath ans (folder ++ [name])).Within fr) :
    (deleteEntry ans folder name).Within fr :=
  Routine.within_ite (fun _ => Routine.within_pure _) h

theorem within_clearFolder (hfr : AboutFiles fr) {folder : Path}
    (h : ∀ name ∉ keepOnDelete, (deletePath ans (folder ++ [name])).Within fr) :
    (clearFolder ans folder).Within fr := by
  refine Routine.within_ite (fun _ => ?_) fun _ => Routine.within_pure _
  refine Routine.within_bind (hfr.within fun s => by rw [listFiles_state]) fun names => ?_
  exact Routine.within_bind (Routine.within_forM fun name _ => within_deleteEntry (h name))
    fun _ => Routine.within_pure _

/-- The database and the user are not in the files. -/
theorem within_dropRecorded (hfr : AboutFiles fr) (app : Option WebsiteApp) (report : Report) :
    (dropRecorded ans app report).Within fr := by
  unfold dropRecorded
  split
  · exact Routine.within_pure _
  · next app =>
    refine Routine.within_bind ?_ fun report => ?_
    · refine Routine.within_ite (fun _ => Routine.within_pure _) fun _ => ?_
      refine Routine.within_bind (Routine.within_attempt
        (hfr.within fun s => deleteDatabaseUser_files _ s)) fun done => ?_
      cases done <;> exact Routine.within_pure _
    · refine Routine.within_ite (fun _ => ?_) fun _ => Routine.within_ite
        (fun _ => Routine.within_pure _) fun _ => Routine.within_pure _
      refine Routine.within_bind (Routine.within_attempt
        (hfr.within fun s => deleteDatabase_files _ s)) fun done => ?_
      cases done <;> exact Routine.within_pure _

theorem within_dropDomain (hfr : AboutFiles fr) (report : Report)
    (h : site ≠ "" → (deletePath ans (plan.docrootPath site)).Within fr) :
    (dropDomain ans plan site report).Within fr := by
  refine Routine.within_ite (fun _ => Routine.within_pure _) fun hsite => ?_
  refine Routine.within_bind (Routine.within_attempt
    (hfr.within fun s => removeDomain_files _ s)) fun _ => ?_
  exact Routine.within_bind (Routine.within_attempt (h hsite)) fun _ => Routine.within_pure _

theorem within_dropWebsite (hfr : AboutFiles fr)
    (h : ∀ path, Taken plan site path → (deletePath ans path).Within fr) :
    (dropWebsite ans plan site).Within fr := by
  refine Routine.within_bind (within_clearFolder hfr fun name hname =>
    h _ (.inr (.inl ⟨name, hname, rfl⟩))) fun files => ?_
  refine Routine.within_bind (within_dropRecorded hfr _ _) fun report => ?_
  refine Routine.within_bind (within_dropDomain hfr report fun hsite =>
    h _ (.inr (.inr ⟨hsite, rfl⟩))) fun report => ?_
  exact Routine.within_bind (hfr.within fun _ => rfl) fun _ => Routine.within_pure _

/-- **What a deletion does to the files are its deletions of what it takes.** -/
theorem within_takeDown (hfr : AboutFiles fr)
    (h : ∀ path, Taken plan site path → (deletePath ans path).Within fr) :
    (takeDown ans plan site).Within fr :=
  Routine.within_bind (within_deleteStaging hfr fun path hpath => h path (.inl hpath))
    fun _ => within_dropWebsite hfr h

/-- The checks look only. -/
theorem requireDeletable_state (confirmDomain : String) (s : HostingAccount α) :
    (requireDeletable ans plan confirmDomain site s).2 = s := by
  have h : (requireDeletable ans plan confirmDomain site).Within (.still _) := by
    unfold requireDeletable
    refine Routine.within_bind (Routine.within_check _) fun _ => ?_
    split
    · refine Routine.within_bind ?_ fun entries => Routine.within_check _
      refine Routine.within_bind (Routine.within_attempt fun s => listFiles_state _ s)
        fun listed => ?_
      cases listed <;> exact Routine.within_pure _
    · exact Routine.within_check _
  exact h s

/-- What a deletion leaves: all as it was, or what its steps left after the checks. -/
theorem deleteWebsite_state (confirmDomain : String) (s : HostingAccount α) :
    (deleteWebsite ans confirmDomain site s).2
      = match (requireDeletable ans s.plan confirmDomain (s.plan.own site) s).1 with
        | .ok _ => (takeDown ans s.plan (s.plan.own site) s).2
        | .error _ => s := by
  unfold deleteWebsite
  rw [Routine.bind_of_ok (Routine.read_apply _ s),
    Routine.bind_of_still (requireDeletable_state confirmDomain s)]
  generalize (requireDeletable ans s.plan confirmDomain (s.plan.own site) s).1 = checked
  cases checked <;> rfl

/-- A website that is being installed is not deleted. -/
theorem requireDeletable_busy (h : plan.Busy site) (confirmDomain : String) (s : HostingAccount α) :
    ∃ e, (requireDeletable ans plan confirmDomain site s).1 = .error e := by
  obtain ⟨app, happ, hstate⟩ := h
  have happ : plan.app site = some app := happ
  unfold requireDeletable
  by_cases hc : lower (strip confirmDomain) = plan.siteDomain site
  · rw [ensure, if_pos hc, Routine.bind_of_ok (Routine.check_apply _ s), happ]
    exact ⟨_, by simp only [Routine.check_apply, ensure, hstate, ne_eq, not_true, if_false]; rfl⟩
  · rw [ensure, if_neg hc, Routine.bind_of_error (Routine.check_apply _ s)]
    exact ⟨_, rfl⟩

/-! ### When nothing fails -/

theorem total_deleteStaging (site : String) : (deleteStaging ans plan site).Total := by
  unfold deleteStaging
  split
  · exact Routine.total_pure _
  · exact Routine.total_bind (fun s => ⟨_, Routine.bestEffort_ok _ s⟩) fun _ _ => ⟨_, rfl⟩

theorem total_dropRecorded (app : Option WebsiteApp) (report : Report) :
    (dropRecorded ans app report).Total := by
  unfold dropRecorded
  split
  · exact Routine.total_pure _
  · next app =>
    refine Routine.total_bind (Routine.total_ite (fun _ => Routine.total_pure _) fun _ => ?_)
      fun report => Routine.total_ite (fun _ => ?_) fun _ => Routine.total_ite
        (fun _ => Routine.total_pure _) fun _ => Routine.total_pure _
    all_goals
      refine Routine.total_bind (Routine.total_attempt _) fun done => ?_
      cases done <;> exact Routine.total_pure _

section

variable {capabilities : List Capability} {p : Path}

/-- That there is no file at a path. -/
def Gone (p : Path) (s : HostingAccount α) : Prop := s.server.files.get p = none

theorem gone_of_shrinks {β : Type} {r : Routine (HostingAccount α) Err β} (hr : r.Within shrinks)
    {s : HostingAccount α} (h : Gone p s) : Gone p (r s).2 := hr s p h

theorem gone_deleteStaging {taken : Path} (htaken : taken ∈ plan.stagingPaths site)
    (hne : taken ≠ []) (hp : taken <+: p) (s : HostingAccount α) :
    Gone p (deleteStaging (.obliging α capabilities) plan site s).2 := by
  unfold deleteStaging
  cases hstaging : plan.staging site with
  | none => simp [Plan.stagingPaths, hstaging] at htaken
  | some staging =>
    have htaken : taken ∈ plan.scriptPaths staging ++ staging.folder := by
      simpa [Plan.stagingPaths, hstaging] using htaken
    have hgone : Gone p (cleanup (.obliging α capabilities) plan staging true s).2 := by
      have hdelete : ∀ s, Gone p (deletePath (.obliging α capabilities) taken s).2 := fun s =>
        deletePath_gone hne hp s
      refine Routine.bestEffort_reaches ?_ hdelete (fun step hstep s h => ?_) s
      · rcases List.mem_append.mp htaken with h | h
        · simp only [cleanupSteps, List.mem_append]
          exact .inl (.inl (.inl (.inl (List.mem_map_of_mem h))))
        · simp only [cleanupSteps, if_true, List.mem_append]
          exact .inl (.inl (.inr (List.mem_map_of_mem h)))
      · exact gone_of_shrinks (within_cleanupSteps aboutFiles_shrinks
          (fun path _ => shrinks_deletePath path) hstep) h
    exact Routine.bind_keeps hgone fun _ s h => h

/-- A folder that is listed is cleared to the end. -/
theorem clearFolder_ok {folder : Path} {inner : Folder α} {s : HostingAccount α}
    (hat : s.server.files.at? folder = some inner)
    (hfiles : .files ∈ (Answers.obliging α capabilities).capabilities) :
    ∃ n, (clearFolder (.obliging α capabilities) folder s).1 = .ok n := by
  unfold clearFolder
  rw [if_pos hfiles, Routine.bind_of_ok (listFiles_obliging hat)]
  have hall : (inner.names.forM (deleteEntry (.obliging α capabilities) folder) s).1 = .ok ⟨⟩ := by
    refine Routine.forM_ok (fun name _ s => ?_) s
    unfold deleteEntry
    split <;> rfl
  rw [Routine.bind_of_ok (Prod.ext hall rfl)]
  exact ⟨_, rfl⟩

theorem gone_clearFolder {folder : Path} {inner : Folder α} {s : HostingAccount α} {name : String}
    (hat : s.server.files.at? folder = some inner)
    (hfiles : .files ∈ (Answers.obliging α capabilities).capabilities)
    (hname : name ∈ inner.names) (hkeep : name ∉ keepOnDelete) (hp : folder ++ [name] <+: p) :
    Gone p (clearFolder (.obliging α capabilities) folder s).2 := by
  unfold clearFolder
  rw [if_pos hfiles, Routine.bind_of_ok (listFiles_obliging hat)]
  refine Routine.bind_keeps (P := Gone p) ?_ fun _ _ h => h
  refine Routine.forM_reaches (fun m _ s => ?_) hname (fun s => ?_) (fun m _ s h => ?_) s
  · unfold deleteEntry
    split <;> rfl
  · rw [deleteEntry, if_neg hkeep]
    exact deletePath_gone (by simp) hp s
  · exact gone_of_shrinks (within_deleteEntry fun _ => shrinks_deletePath _) h

theorem gone_dropDomain (hsite : site ≠ "") (hp : plan.docrootPath site <+: p) (report : Report)
    (s : HostingAccount α) :
    Gone p (dropDomain (.obliging α capabilities) plan site report s).2 := by
  have hne : plan.docrootPath site ≠ [] := by
    simp only [Plan.docrootPath]
    split <;> simp
  have hgone : ∀ s, Gone p (deletePath (.obliging α capabilities) (plan.docrootPath site) s).2 :=
    deletePath_gone hne hp
  unfold dropDomain
  rw [if_neg hsite]
  refine (Routine.total_attempt _).bind_reaches (P := Gone p) s fun _ => ?_
  exact Routine.bind_keeps (P := Gone p) (hgone _) fun _ _ h => h

/-- The folder of the website is cleared, and goes with its domain. -/
theorem gone_dropWebsite {s : HostingAccount α} {name : String} {rest : Path}
    (hp : p = plan.docrootPath site ++ name :: rest) (htaken : name ∉ keepOnDelete ∨ site ≠ "")
    (hfiles : .files ∈ (Answers.obliging α capabilities).capabilities) :
    Gone p (dropWebsite (.obliging α capabilities) plan site s).2 := by
  have hkeeps : ∀ {β : Type} {r : Routine (HostingAccount α) Err β}, r.Within shrinks → ∀ s,
      Gone p s → Gone p (r s).2 := fun hr _ h => gone_of_shrinks hr h
  have hdomain : ∀ report, (dropDomain (.obliging α capabilities) plan site report).Within
      shrinks := fun report => within_dropDomain aboutFiles_shrinks report fun _ =>
        shrinks_deletePath _
  by_cases hgone : Gone p s
  · exact hkeeps (within_dropWebsite aboutFiles_shrinks fun _ _ => shrinks_deletePath _) s hgone
  · obtain ⟨inner, hat, hmem⟩ := Folder.at?_of_get (hp ▸ hgone)
    obtain ⟨n, hn⟩ := clearFolder_ok hat hfiles
    unfold dropWebsite
    by_cases hkeep : name ∈ keepOnDelete
    · -- only the folder itself goes, with the domain
      have hsite := htaken.resolve_left fun h => h hkeep
      rw [Routine.bind_of_ok (Prod.ext hn rfl)]
      refine (total_dropRecorded _ _).bind_reaches (P := Gone p) _ fun report => ?_
      exact Routine.bind_keeps (P := Gone p)
        (gone_dropDomain hsite ⟨name :: rest, hp.symm⟩ report _) fun _ _ h => h
    · refine Routine.bind_keeps (P := Gone p)
        (gone_clearFolder hat hfiles hmem hkeep ⟨rest, by simp [hp]⟩) fun files s h => ?_
      refine Routine.bind_keeps (hkeeps (within_dropRecorded aboutFiles_shrinks _ _) s h)
        fun report s h => ?_
      exact Routine.bind_keeps (P := Gone p) (hkeeps (hdomain report) s h) fun _ _ h => h

/-- **What is taken goes**: under a provider that does what it is asked, no file is left. -/
theorem gone_takeDown {taken : Path} (htaken : Taken plan site taken) (hne : taken ≠ [])
    (hp : taken <+: p) (hproper : p ≠ plan.docrootPath site)
    (hfiles : .files ∈ (Answers.obliging α capabilities).capabilities)
    (s : HostingAccount α) : Gone p (takeDown (.obliging α capabilities) plan site s).2 := by
  show Gone p ((deleteStaging _ plan site >>= fun _ => dropWebsite _ plan site) s).2
  obtain ⟨rest, hrest⟩ := hp
  rcases htaken with htaken | ⟨name, hname, hpath⟩ | ⟨hsite, hpath⟩
  · refine Routine.bind_keeps (P := Gone p) (gone_deleteStaging htaken hne ⟨rest, hrest⟩ s)
      fun _ s h => ?_
    exact gone_of_shrinks (within_dropWebsite aboutFiles_shrinks fun _ _ => shrinks_deletePath _) h
  · refine (total_deleteStaging site).bind_reaches (P := Gone p) s fun _ => ?_
    exact gone_dropWebsite (by rw [← hrest, hpath, List.append_assoc]; rfl) (.inl hname) hfiles
  · refine (total_deleteStaging site).bind_reaches (P := Gone p) s fun _ => ?_
    cases rest with
    | nil => exact absurd (by rw [← hrest, List.append_nil, hpath]) hproper
    | cons name rest => exact gone_dropWebsite (by rw [← hrest, hpath]) (.inr hsite) hfiles

end

end

/-! ### The files of the others -/

section

variable {layout : Layout plan} {site : String}

theorem strip_empty : strip "" = "" := by decide +kernel

theorem lower_empty : lower "" = "" := by decide +kernel

theorem own_of_mem (h : site ∈ layout.sites) : plan.own site = site := by
  rcases List.mem_cons.mp h with rfl | h
  · simp only [Plan.own, strip_empty, lower_empty, ite_self]
  · obtain ⟨hclean, -, hother⟩ := layout.clean site h
    rw [Plan.own, hclean, if_neg hother]

/-- The address of the website, as it can be typed to confirm. -/
theorem exists_confirm (h : site ∈ layout.sites) :
    ∃ confirmDomain, lower (strip confirmDomain) = plan.siteDomain site := by
  rcases List.mem_cons.mp h with rfl | h
  · exact ⟨plan.domain, by rw [plan.domain_stripped]; simp [Plan.siteDomain, strip_empty]⟩
  · obtain ⟨hclean, hne, -⟩ := layout.clean site h
    refine ⟨site, ?_⟩
    rw [Plan.siteDomain, if_neg fun hblank => hne ?_]
    rw [← hclean, hblank, lower_empty]

theorem docrootPath_mem (h : site ∈ layout.sites) :
    (.site site, plan.docrootPath site) ∈ layout.folders :=
  List.mem_append_left _ (List.mem_map_of_mem h)

theorem docrootPath_ne_nil : plan.docrootPath site ≠ [] := by
  simp only [Plan.docrootPath]
  split <;> exact List.cons_ne_nil _ _

/-- What goes with the staging copy of a website is the folder of the copy, and files in the
    folder of the website. -/
theorem mem_stagingPaths {path : Path} (hsite : plan.own site = site)
    (h : path ∈ plan.stagingPaths site) :
    (∃ name, path = plan.docrootPath site ++ [name])
      ∨ (.copy site, path) ∈ layout.folders ∧ path ≠ [] := by
  cases hstaging : plan.staging site with
  | none => simp [Plan.stagingPaths, hstaging] at h
  | some staging =>
    have hof : staging.siteDomain = site := by
      simpa [hsite] using List.find?_some hstaging
    have h : path ∈ plan.scriptPaths staging ++ staging.folder := by
      simpa [Plan.stagingPaths, hstaging] using h
    rcases List.mem_append.mp h with h | h
    · obtain ⟨name, -, rfl⟩ := List.mem_map.mp h
      exact .inl ⟨name, by rw [hof]⟩
    · refine .inr ⟨List.mem_append_right _ (List.mem_flatMap.mpr
        ⟨staging, List.mem_of_find?_eq_some hstaging, ?_⟩), ?_⟩
      · exact List.mem_map.mpr ⟨path, h, by rw [hof]⟩
      · intro hnil
        subst hnil
        simp only [StagingSite.folder] at h
        split at h
        · cases h
        · next hne => exact hne (List.mem_singleton.mp h).symm

/-- The folder a file is in says whose file it is: every other folder it is in is further up. -/
theorem Layout.Innermost.of_mem {folder path : Path} (hin : layout.Innermost folder path)
    {owner : Owner} {other : Path} (hmem : (owner, other) ∈ layout.folders)
    (h : other <+: path) : other <+: folder := hin.2 (owner, other) hmem h

/-- A file of another that the deletion takes is in a folder that is exposed. -/
theorem exposed_of_taken (hsite : site ∈ layout.sites) {folder path taken : Path}
    (hin : layout.Innermost folder path) (htaken : Taken plan site taken) (hp : taken <+: path) :
    Exposed plan site folder := by
  have hdocroot : plan.docrootPath site <+: path → plan.docrootPath site <+: folder :=
    hin.of_mem (docrootPath_mem hsite)
  have hentry : ∀ name, taken = plan.docrootPath site ++ [name] → Exposed plan site folder := by
    intro name hname
    obtain ⟨rest, rfl⟩ := hdocroot (.trans ⟨[name], hname.symm⟩ hp)
    cases rest with
    | nil => exact .inl (List.append_nil _)
    | cons m rest =>
      refine .inr ⟨taken, htaken, ?_⟩
      rw [hname] at hp ⊢
      have hsame := List.prefix_of_prefix_length_le hp hin.1 (by simp)
      exact hsame
  rcases htaken with hstaging | ⟨name, -, hname⟩ | ⟨hne, hpath⟩
  · rcases mem_stagingPaths (own_of_mem hsite) hstaging with
      ⟨name, hname⟩ | ⟨hmem, -⟩
    · exact hentry name hname
    · exact .inr ⟨taken, .inl hstaging, hin.of_mem hmem hp⟩
  · exact hentry name hname
  · refine .inr ⟨taken, .inr (.inr ⟨hne, hpath⟩), ?_⟩
    rw [hpath] at hp ⊢
    exact hdocroot hp

/-- The website is deleted, when it is not being installed and something is in its folder. -/
theorem requireDeletable_ok {α : Type} {capabilities : List Capability} {s : HostingAccount α}
    {confirmDomain name : String} {inner : Folder α}
    (hconfirm : lower (strip confirmDomain) = plan.siteDomain site) (hbusy : ¬plan.Busy site)
    (hat : s.server.files.at? (plan.docrootPath site) = some inner) (hname : name ∈ inner.names)
    (hkeep : name ∉ keepOnDelete) :
    (requireDeletable (.obliging α capabilities) plan confirmDomain site s).1 = .ok () := by
  unfold requireDeletable
  rw [ensure, if_pos hconfirm, Routine.bind_of_ok (Routine.check_apply _ s)]
  cases happ : plan.app site with
  | none =>
    have hentries : folderEntries (.obliging α capabilities) plan site s
        = (.ok (inner.names.filter (· ∉ keepOnDelete)), s) := by
      unfold folderEntries
      rw [Routine.bind_of_ok (Routine.attempt_apply _ s), listFiles_obliging hat]
      rfl
    have hmem : name ∈ inner.names.filter (· ∉ keepOnDelete) :=
      List.mem_filter.mpr ⟨hname, decide_eq_true hkeep⟩
    dsimp only
    rw [Routine.bind_of_ok hentries, Routine.check_apply]
    exact if_pos (List.ne_nil_of_mem hmem)
  | some app => exact if_pos fun h => hbusy ⟨app, happ, h⟩

/-- A new file in a folder of the plan is that folder's. -/
theorem innermost_of_fresh {folder : Path} {leaf : String}
    (hleaf : ∀ other ∈ layout.folders, leaf ∉ other.2) :
    layout.Innermost folder (folder ++ [leaf]) :=
  ⟨List.prefix_append _ _, fun other hother => Folder.prefix_of_fresh (hleaf other hother)⟩

/-- What is taken is never the home folder. -/
theorem taken_ne_nil {taken : Path} (hsite : plan.own site = site)
    (h : Taken plan site taken) : taken ≠ [] := by
  rcases h with h | ⟨name, -, hpath⟩ | ⟨-, hpath⟩
  · have layout : Layout plan := ⟨[], fun _ h => absurd h List.not_mem_nil⟩
    have hcases : (∃ name, taken = plan.docrootPath site ++ [name])
        ∨ (.copy site, taken) ∈ layout.folders ∧ taken ≠ [] := mem_stagingPaths hsite h
    rcases hcases with ⟨name, hpath⟩ | ⟨-, hne⟩
    · rw [hpath]
      exact List.append_ne_nil_of_right_ne_nil _ (List.cons_ne_nil _ _)
    · exact hne
  · rw [hpath]
    exact List.append_ne_nil_of_right_ne_nil _ (List.cons_ne_nil _ _)
  · rw [hpath]
    exact docrootPath_ne_nil

/-- A new file in an exposed folder is taken. -/
theorem taken_of_exposed {folder : Path} {leaf : String} (hleaf : leaf ∉ keepOnDelete)
    (h : Exposed plan site folder) :
    ∃ taken, Taken plan site taken ∧ taken <+: folder ++ [leaf] := by
  rcases h with h | ⟨taken, htaken, hpre⟩
  · have hsame : plan.docrootPath site ++ [leaf] = folder ++ [leaf] := by rw [h]
    exact ⟨_, .inr (.inl ⟨leaf, hleaf, rfl⟩), ⟨[], by rw [List.append_nil, hsame]⟩⟩
  · exact ⟨taken, htaken, hpre.trans (List.prefix_append _ _)⟩

/-- Two files under new names, the one not in the way of the other. -/
theorem exists_twoFiles (docroot folder : Path) (used : List String) :
    ∃ (files : Folder String) (leaf entry : String), leaf ∉ used ∧ leaf ∉ docroot ∧ entry ∉ used
      ∧ files.get (folder ++ [leaf]) = some "theirs"
      ∧ files.get (docroot ++ entry :: []) ≠ none := by
  obtain ⟨leaf, hleaf⟩ : ∃ leaf, leaf ∉ used ++ docroot := ⟨_, Folder.freshName_not_mem _⟩
  obtain ⟨entry, hentry⟩ : ∃ entry, entry ∉ leaf :: (used ++ folder) :=
    ⟨_, Folder.freshName_not_mem _⟩
  simp only [List.mem_cons, List.mem_append, not_or] at hleaf hentry
  obtain ⟨hused, hdocroot⟩ := hleaf
  obtain ⟨hne, hentry, hfolder⟩ := hentry
  have hmem : leaf ∉ docroot ++ [entry] ∧ entry ∉ folder ++ [leaf] := by
    simp [hdocroot, hfolder, hne, Ne.symm hne]
  have hlast : ∀ (p : Path) (name : String), name ∈ p ++ [name] := fun _ _ =>
    List.mem_append_right _ List.mem_cons_self
  refine ⟨.twoFiles (folder ++ [leaf]) "theirs" (docroot ++ [entry]) "", leaf, entry, hused,
    hdocroot, hentry, Folder.get_twoFiles_left (by simp) _ _ _, ?_⟩
  rw [Folder.get_twoFiles_right (by simp) (by simp) (fun h => hmem.1 (h.subset (hlast _ _)))
    fun h => hmem.2 (h.subset (hlast _ _))]
  exact nofun

/-- An exposed folder of another loses its files. -/
theorem not_leavesOthers (hsite : site ∈ layout.sites) (hbusy : ¬plan.Busy site) {owner : Owner}
    {folder : Path} (hother : (owner, folder) ∈ layout.folders) (hnotsite : owner ≠ .site site)
    (hnotcopy : owner ≠ .copy site) (hexposed : Exposed plan site folder) :
    ¬LeavesOthers layout site := by
  intro hleaves
  -- a new file in the folder of the other, and one that makes the website's own folder listed
  obtain ⟨files, leaf, entry, hleaf, hdocroot, hentry, hpath, hlisted⟩ :=
    exists_twoFiles (plan.docrootPath site) folder
      (keepOnDelete ++ layout.folders.flatMap (·.2))
  simp only [List.mem_append, List.mem_flatMap, not_or, not_exists, not_and] at hleaf hentry
  have hin : layout.Innermost folder (folder ++ [leaf]) := innermost_of_fresh hleaf.2
  obtain ⟨inner, hat, hname⟩ := Folder.at?_of_get hlisted
  obtain ⟨confirmDomain, hconfirm⟩ := exists_confirm hsite
  obtain ⟨taken, htaken, hpre⟩ := taken_of_exposed hleaf.1 hexposed
  have hok : (requireDeletable (.obliging String [.files]) plan confirmDomain site
      ⟨plan, { files }⟩).1 = .ok () := requireDeletable_ok hconfirm hbusy hat hname hentry.1
  have hkept := hleaves (.obliging String [.files]) confirmDomain { files } (owner, folder) hother
    hnotsite hnotcopy (folder ++ [leaf]) hin
  rw [deleteWebsite_state] at hkept
  dsimp only at hkept
  rw [own_of_mem hsite, hok] at hkept
  have hproper : folder ++ [leaf] ≠ plan.docrootPath site := fun h =>
    hdocroot (h ▸ List.mem_append_right _ List.mem_cons_self)
  have hgone : Gone (folder ++ [leaf])
      (takeDown (.obliging String [.files]) plan site ⟨plan, { files }⟩).2 :=
    gone_takeDown htaken (taken_ne_nil (own_of_mem hsite) htaken) hpre hproper List.mem_cons_self _
  rw [Gone, hkept, hpath] at hgone
  cases hgone

/-- **Deleting a website leaves the files of the others alone** — whatever is in the folders,
    whatever the provider answers and whatever is typed — exactly when it is not deleted, being
    installed, or no folder of another lies where it clears. -/
theorem leavesOthers_iff (layout : Layout plan) (hsite : site ∈ layout.sites) :
    LeavesOthers layout site ↔ plan.Busy site ∨ ∀ other ∈ layout.folders,
      other.1 ≠ .site site → other.1 ≠ .copy site → ¬Exposed plan site other.2 := by
  have hown := own_of_mem hsite
  constructor
  · intro hleaves
    by_contra hcon
    obtain ⟨hbusy, other, hother, hnotsite, hnotcopy, hexposed⟩ :
        ¬plan.Busy site ∧ ∃ other ∈ layout.folders, other.1 ≠ .site site ∧ other.1 ≠ .copy site
          ∧ Exposed plan site other.2 := by
      push Not at hcon
      exact hcon
    exact not_leavesOthers hsite hbusy hother hnotsite hnotcopy hexposed hleaves
  · intro h ans confirmDomain server other hother hnotsite hnotcopy path hin
    rw [deleteWebsite_state]
    dsimp only
    rw [hown]
    rcases h with hbusy | hsafe
    · obtain ⟨e, he⟩ := requireDeletable_busy hbusy confirmDomain ⟨plan, server⟩
      rw [he]
    · generalize (requireDeletable ans plan confirmDomain site ⟨plan, server⟩).1 = checked
      cases checked with
      | error e => rfl
      | ok _ =>
        have hwithin : (takeDown ans plan site).Within
            (touches fun p => ∃ taken, Taken plan site taken ∧ taken <+: p) :=
          within_takeDown aboutFiles_touches fun taken htaken =>
            within_deletePath fun q hq => ⟨taken, htaken, hq⟩
        refine hwithin ⟨plan, server⟩ path ?_
        rintro ⟨taken, htaken, hp⟩
        exact hsafe other hother hnotsite hnotcopy (exposed_of_taken hsite hin htaken hp)

end

/-- A plan on `example.com` with one added domain. -/
def examplePlan : Plan where
  domain := "example.com"
  domain_stripped := strip_example
  apps := [{ domain := "", kind := .wordpress, state := .ready },
    { domain := "shop.example", kind := .custom, state := .ready }]

def exampleLayout : Layout examplePlan where
  added := ["shop.example"]
  clean := by decide +kernel

/-- What is in its folders. -/
def exampleServer : Server String where
  files := .sub "public_html" (.file "index.php" "wordpress"
    (.sub "shop.example" (.file "index.html" "shop" .empty) .empty)) .empty
  domains := [⟨"example.com", .primary, ["public_html"]⟩,
    ⟨"shop.example", .addon, ["public_html", "shop.example"]⟩]

/-- Deleting the added website leaves the plan's own alone: its folder is not inside the other's. -/
theorem leavesOthers_shop : LeavesOthers exampleLayout "shop.example" := by
  refine (leavesOthers_iff exampleLayout (by decide)).mpr (.inr fun other hother hnotsite _ => ?_)
  have hown : other = (.site "", ["public_html"]) := by
    revert hnotsite hother
    have hfolders : exampleLayout.folders = [(.site "", ["public_html"]),
        (.site "shop.example", ["public_html", "shop.example"])] := by decide +kernel
    rw [hfolders]
    intro hother hnotsite
    simp only [List.mem_cons, List.not_mem_nil, or_false] at hother
    rcases hother with h | h
    · exact h
    · exact absurd (by rw [h]) hnotsite
  have hdocroot : examplePlan.docrootPath "shop.example" = ["public_html", "shop.example"] := by
    decide +kernel
  have hstaging : examplePlan.stagingPaths "shop.example" = [] := by decide +kernel
  subst hown
  rintro (h | ⟨taken, htaken | ⟨name, -, hpath⟩ | ⟨-, hpath⟩, hpre⟩)
  · rw [hdocroot] at h
    cases h
  · rw [hstaging] at htaken
    cases htaken
  · rw [hpath, hdocroot] at hpre
    exact absurd hpre.length_le (by simp)
  · rw [hpath, hdocroot] at hpre
    exact absurd hpre.length_le (by simp)

/-- Deleting the plan's own website deletes the files of the website on the added domain. -/
theorem not_leavesOthers_own : ¬LeavesOthers exampleLayout "" := by
  intro h
  have hkept := h (.obliging String [.files]) "example.com" exampleServer
    (.site "shop.example", ["public_html", "shop.example"]) (by decide +kernel) (by decide)
    (by decide) ["public_html", "shop.example", "index.html"] (by decide +kernel)
  revert hkept
  decide +kernel

end WPanel.Hosting
