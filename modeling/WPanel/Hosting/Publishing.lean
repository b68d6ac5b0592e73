import WPanel.Hosting.Copier

namespace WPanel.Hosting

open WPanel.Lib

/-!
# Publishing a staging copy

`push` of `hosting/staging.py`: the copier clears the website and copies the staging copy over it.
What it spares is a list of names that the panel makes from `plan_sites.summary`, which passes
over what the provider does not answer.

* `Plan.siteNames`, `others` — the names that are spared;
* `push` — the code, under any answers of the provider and any outcome of the copier;
* `otherFolders` — the folders of the other websites attached to the plan, whether or not the
  panel set them up, and of the staging copies;
* `Reached` — such a folder lies where the run clears or copies;
* `pushSpares_iff` — the files of the others are safe, in every run, when no folder of theirs is
  reached, and only then unless the staging copy holds the website itself.
-/

/-! ### The names that are spared -/

/-- What the provider answers when the panel makes the list. -/
structure DomainAnswers where
  /-- None when it cannot be asked. -/
  capabilities : List Capability
  /-- `domain_limits` was answered. -/
  limits : Bool
  listing : Option (List DomainInfo)
  deriving DecidableEq, Repr

/-- The domains of `plan_sites.summary`: the plan's own, the added ones that the server lists, and
    those the panel has a record of. -/
def Plan.siteNames (plan : Plan) (asked : DomainAnswers) : List String :=
  let primary := lower plan.domain
  let listed := if .domains ∈ asked.capabilities ∧ asked.limits = true then
      ((asked.listing.getD []).filter (·.kind = .addon)).map (lower ·.name) else []
  let recorded := plan.apps.map fun app => if app.domain = "" then primary else app.domain
  (primary :: (listed ++ recorded)).eraseDups

/-- `_others`: the names in the folder of the website that are not part of it. -/
def others (plan : Plan) (asked : DomainAnswers) (live root : Path) : List String :=
  let sites := if live = ["public_html"] then
      (plan.siteNames asked).filter (· ≠ lower plan.domain)
        ++ plan.stagings.filterMap (·.docroot.getLast?) else []
  let own := if live <+: root ∧ live ≠ root then root.getLast?.toList else []
  (sites ++ own).filter (· ≠ "")

/-! ### The copier's file -/

/-- The names of the one-time file and of its result end in random digits. -/
def scriptName (suffix : String) : String := "whp-clone-" ++ suffix ++ ".php"

def resultName (suffix : String) : String := "whp-clone-" ++ suffix ++ ".json"

section

variable {α : Type}

/-- Change the files. -/
def onFiles (change : Folder α → Folder α) (s : HostingAccount α) : HostingAccount α :=
  { s with server := { s.server with files := change s.server.files } }

/-- `write_file` with `overwrite=False`: the copier's file, when it could be written. -/
def writeScript (script : Option α) (suffix : String) (live : Path) :
    Routine (HostingAccount α) Err Unit := fun s =>
  match script, s.server.files.at? live with
  | some content, some g =>
    if g.find? (scriptName suffix) = none then
      (.ok (), onFiles (·.update live fun g => g.put (scriptName suffix) (.inl content)) s)
    else (.error (adapterError "A file with that name already exists."), s)
  | _, _ => (.error (adapterError "The file could not be written."), s)

/-- `whp_finish`: the result file, when it could be written. -/
def putResult (result : Option α) (suffix : String) (g : Folder α) : Folder α :=
  match result, g.find? (resultName suffix) with
  | some content, some (.inl _) => g.put (resultName suffix) (.inl content)
  | some content, none => g.put (resultName suffix) (.inl content)
  | _, _ => g

/-- The copier runs: its file removes itself, and at the end it writes its result. -/
def afterScript (result : Option α) (suffix : String) (live : Path) (copying : Copying α Unit)
    (f : Folder α) : Folder α :=
  (copying (f.update live (·.erase (scriptName suffix)))).2.update live (putResult result suffix)

/-- Save the row of a staging copy. -/
def saveStaging (siteDomain : String) (save : StagingSite → StagingSite) :
    Routine (HostingAccount α) Err Unit :=
  Routine.change fun s => { s with plan := { s.plan with
    stagings := s.plan.stagings.map fun staging =>
      if staging.siteDomain = siteDomain then save staging else staging } }

end

/-! ### The run -/

/-- What the panel hears of the copier. -/
inductive Reply where
  | unreachable (message : String)
  | silent
  | answered (error : Option String)
  deriving DecidableEq, Repr

/-- The answers to each call of `push`. -/
structure PushAnswers (α : Type) where
  /-- The safety backup: made, or not supported. -/
  backup : Except String Bool
  asked : DomainAnswers
  /-- The copier's file as it was written, when it could be. -/
  script : Option α
  /-- The copier ran. -/
  ran : Option (CopierAnswers α)
  /-- The result file as it was written, when it could be. -/
  result : Option α
  reply : Reply
  provider : Answers α

section

variable {α : Type} (ans : PushAnswers α) (suffix : String)

/-- `backup_before_push`, and the customer's word where the server makes no backups. -/
def safetyBackup (acknowledged : Bool) : Except Err Unit :=
  match ans.backup with
  | .error message => .error (serviceError
      ("The safety backup could not be made, so nothing was published: " ++ message)
      "backup_failed")
  | .ok made => ensure (made = true ∨ acknowledged = true) (serviceError
      "This server cannot make a backup for you. Confirm that you have your own backup to publish."
      "needs_acknowledgement")


/-- The copier runs, from the website's folder into itself. -/
def runScript (exclude : List String) (src live : Path) : Routine (HostingAccount α) Err Unit :=
  match ans.ran with
  | none => return ()
  | some run => Routine.change (onFiles (afterScript ans.result suffix live
      (copier run true exclude src live)))

/-- What the panel makes of the answer: `_apply`, or the run is called off. -/
def settle (live : Path) (siteDomain : String) : Routine (HostingAccount α) Err Unit :=
  match ans.reply with
  | .unreachable message => do
    let _ ← (deletePath ans.provider (live ++ [scriptName suffix])).attempt
    saveStaging siteDomain fun staging => { staging with state := .ready, error := message }
    Routine.check (.error (serviceError message "unreachable"))
  | .silent => return ()
  | .answered error => do
    Routine.bestEffort (([resultName suffix, scriptName suffix].map fun name =>
      deletePath ans.provider (live ++ [name])))
    saveStaging siteDomain fun staging => { staging with
      state := .ready, resultRef := "", scriptRef := ""
      error := (error.map ("Publishing did not finish: " ++ ·)).getD "" }

/-- `push`, once there is a staging copy of the website in `live`. -/
def publish (acknowledged : Bool) (plan : Plan) (staging : StagingSite) (live : Path) :
    Routine (HostingAccount α) Err Unit := do
  Routine.check (ensure (staging.state = .ready)
    (serviceError "There is no staging website ready to publish." "not_ready"))
  Routine.check (safetyBackup ans acknowledged)
  Routine.check (ensure (staging.docroot ≠ []) (.unexpected "no path specified"))
  writeScript ans.script suffix live
  saveStaging staging.siteDomain fun staging => { staging with
    state := .pushing, scriptRef := scriptName suffix, resultRef := resultName suffix, error := "" }
  runScript ans suffix (others plan ans.asked live staging.docroot) staging.docroot live
  settle ans suffix live staging.siteDomain

/-- Publish the staging copy of a website. -/
def push (acknowledged : Bool) (domain : String) : Routine (HostingAccount α) Err Unit := do
  let plan ← Routine.read (·.plan)
  match plan.staging domain with
  | none => Routine.check (.error
      (serviceError "There is no staging website ready to publish." "not_ready"))
  | some staging =>
    publish ans suffix acknowledged plan staging (plan.docrootPath staging.siteDomain)

end

/-! ### Whose file it is -/

/-- The folder of a domain on the server. -/
def DomainInfo.folder (info : DomainInfo) : Path :=
  if info.documentRoot = [] then ["public_html", lower info.name] else info.documentRoot

/-- The folders of the other websites attached to the plan, set up by the panel or not, and of
    the staging copies. -/
def otherFolders (plan : Plan) (domains : List DomainInfo) (site : String) : List Path :=
  (domains.filter fun info => info.kind = .addon ∧ lower info.name ≠ site).map (·.folder)
    ++ (("" :: plan.apps.map (·.domain)).filter (· ≠ site)).map plan.docrootPath
    ++ plan.stagings.flatMap (·.folder)

/-- The file is in this folder, and neither in the website's own nor in that of another further
    down. -/
def BelongsTo (live : Path) (folders : List Path) (folder path : Path) : Prop :=
  folder <+: path ∧ ∀ other ∈ live :: folders, other <+: path → other <+: folder

instance (live : Path) (folders : List Path) (folder path : Path) :
    Decidable (BelongsTo live folders folder path) :=
  inferInstanceAs (Decidable (_ ∧ _))

/-- In every run, no file of another website or of a staging copy is removed or overwritten. -/
def PushSpares (plan : Plan) (domains : List DomainInfo) (asked : DomainAnswers)
    (suffix site : String) :
    Prop :=
  ∀ (ans : PushAnswers String) (acknowledged : Bool) (server : Server String),
    ans.asked = asked → server.domains = domains → server.files.Tidy →
      ∀ folder ∈ otherFolders plan domains (plan.own site), ∀ path content,
        BelongsTo (plan.docrootPath (plan.own site)) (otherFolders plan domains (plan.own site))
          folder path →
        server.files.get path = some content →
          (push ans suffix acknowledged site ⟨plan, server⟩).2.server.files.get path = some content

/-- A folder lies where the run clears or copies, or where its result was written. -/
def Reached (plan : Plan) (asked : DomainAnswers) (suffix : String) (staging : StagingSite)
    (folder : Path) : Prop :=
  let live := plan.docrootPath staging.siteDomain
  folder = live ∨ live ++ [resultName suffix] <+: folder
    ∨ ∃ r, folder = live ++ r ∧ Overwritten (others plan asked live staging.docroot) r

/-- No staging copy is ready, or no folder of another is reached. -/
def PushSafe (plan : Plan) (domains : List DomainInfo) (asked : DomainAnswers)
    (suffix site : String) :
    Prop :=
  ∀ staging ∈ plan.staging site, staging.state = .ready → staging.docroot ≠ [] →
    ∀ folder ∈ otherFolders plan domains (plan.own site), ¬Reached plan asked suffix staging folder

/-! ### What a push may touch -/

section

variable {α : Type} {ans : PushAnswers α} {suffix : String} {live path : Path}

/-- A change of one name of a folder changes nothing else. -/
theorem get_update_name {f : Folder α} {name : String} {u : Folder α → Folder α}
    (hu : ∀ g m, m ≠ name → (u g).find? m = g.find? m) (hpath : ¬live ++ [name] <+: path) :
    (f.update live u).get path = f.get path := by
  rcases f.get_update_cases live u path with h | ⟨g, r, -, rfl, h, h'⟩
  · exact h
  · cases r with
    | nil => rw [h, h', Folder.get_nil, Folder.get_nil]
    | cons m q =>
      have hm : m ≠ name := fun hm => hpath ⟨q, by rw [hm]; simp⟩
      rw [h, h', Folder.get_congr (hu g m hm)]

theorem find?_putResult {result : Option α} (g : Folder α) (m : String)
    (hm : m ≠ resultName suffix) : (putResult result suffix g).find? m = g.find? m := by
  unfold putResult
  split
  · rw [Folder.find?_put, if_neg hm]
  · rw [Folder.find?_put, if_neg hm]
  · rfl

/-- A run touches its own two files, and what the copier does. -/
theorem get_afterScript {result : Option α} {copying : Copying α Unit} (f : Folder α)
    (hscript : ¬live ++ [scriptName suffix] <+: path)
    (hresult : ¬live ++ [resultName suffix] <+: path)
    (hcopying : ∀ f, (copying f).2.get path = f.get path) :
    (afterScript result suffix live copying f).get path = f.get path := by
  rw [afterScript, get_update_name find?_putResult hresult, hcopying,
    get_update_name (fun g m hm => by rw [Folder.find?_erase, if_neg hm]) hscript]

/-- What a run may touch in the folder of the website: its own two files, and what the copier
    clears or copies. -/
def MayTouch (suffix : String) (exclude : List String) (live path : Path) : Prop :=
  live ++ [scriptName suffix] <+: path ∨ live ++ [resultName suffix] <+: path
    ∨ ∃ r, path = live ++ r ∧ Overwritten exclude r

theorem within_runScript {exclude : List String} {src : Path} :
    (runScript ans suffix exclude src live).Within (touches (MayTouch suffix exclude live)) := by
  unfold runScript
  split
  · exact Routine.within_pure _
  · next run _ =>
    intro s path hpath
    have hscript : ¬live ++ [scriptName suffix] <+: path := fun h => hpath (.inl h)
    have hresult : ¬live ++ [resultName suffix] <+: path := fun h => hpath (.inr (.inl h))
    exact get_afterScript _ hscript hresult fun f =>
      copier_push_other f fun r hr h => hpath (.inr (.inr ⟨r, hr, h⟩))

theorem within_writeScript {script : Option α} {may : Path → Prop}
    (h : ∀ q, live ++ [scriptName suffix] <+: q → may q) :
    (writeScript script suffix live).Within (touches may) := by
  intro s path hpath
  unfold writeScript
  split
  · split
    · show (Folder.update live _ _).get path = _
      exact get_update_name (fun g m hm => by rw [Folder.find?_put, if_neg hm])
        fun hpre => hpath (h _ hpre)
    · rfl
  · rfl

theorem within_settle {may : Path → Prop} {siteDomain : String}
    (hscript : ∀ q, live ++ [scriptName suffix] <+: q → may q)
    (hresult : ∀ q, live ++ [resultName suffix] <+: q → may q) :
    (settle ans suffix live siteDomain).Within (touches may) := by
  have hsave : ∀ save, (saveStaging (α := α) siteDomain save).Within (touches may) := fun save =>
    aboutFiles_touches.within fun _ => rfl
  unfold settle
  split
  · refine Routine.within_bind (Routine.within_attempt (within_deletePath hscript)) fun _ => ?_
    exact Routine.within_bind (hsave _) fun _ => Routine.within_check _
  · exact Routine.within_pure _
  · refine Routine.within_bind (Routine.within_bestEffort fun step hstep => ?_) fun _ => hsave _
    simp only [List.map_cons, List.map_nil, List.mem_cons, List.not_mem_nil, or_false] at hstep
    rcases hstep with rfl | rfl
    · exact within_deletePath hresult
    · exact within_deletePath hscript

/-- Nothing is done when something is already where the copier's file is to be written. -/
theorem writeScript_taken {script : Option α} {s : HostingAccount α}
    (hpre : live ++ [scriptName suffix] <+: path) (h : s.server.files.get path ≠ none) :
    ∃ e, writeScript script suffix live s = (.error e, s) := by
  unfold writeScript
  split
  · next g hat =>
    have hfind : g.find? (scriptName suffix) ≠ none := by
      obtain ⟨r, rfl⟩ := hpre
      rw [List.append_assoc, Folder.get_append hat] at h
      exact fun hnone => h (by simp [Folder.get, hnone])
    rw [if_neg hfind]
    exact ⟨_, rfl⟩
  · exact ⟨_, rfl⟩

/-- **A push keeps every file** that it may not touch, and those in the way of the copier. -/
theorem publish_keeps {acknowledged : Bool} {plan : Plan} {staging : StagingSite}
    {s : HostingAccount α}
    {content : α} (hpath : s.server.files.get path = some content)
    (hmay : staging.state = .ready → staging.docroot ≠ [] →
      ¬live ++ [scriptName suffix] <+: path →
        ¬MayTouch suffix (others plan ans.asked live staging.docroot) live path) :
    (publish ans suffix acknowledged plan staging live s).2.server.files.get path
      = some content := by
  let Kept : HostingAccount α → Prop := fun s => s.server.files.get path = some content
  refine Routine.check_bind (P := Kept) hpath fun _ hready => ?_
  refine Routine.check_bind (P := Kept) hpath fun _ _ => ?_
  refine Routine.check_bind (P := Kept) hpath fun _ hroot => ?_
  by_cases htaken : live ++ [scriptName suffix] <+: path
  · obtain ⟨e, he⟩ := writeScript_taken htaken (by rw [hpath]; exact nofun)
    rw [Routine.bind_of_error he]
    exact hpath
  · have hnot := hmay (ensure_eq_ok.mp hready) (ensure_eq_ok.mp hroot) htaken
    refine Eq.trans ?_ hpath
    refine Routine.within_bind
      (within_writeScript fun q hq => .inl hq) (fun _ => ?_) s path hnot
    refine Routine.within_bind (aboutFiles_touches.within fun _ => rfl) fun _ => ?_
    refine Routine.within_bind within_runScript fun _ => ?_
    exact within_settle (fun q hq => .inl hq) fun q hq => .inr (.inl hq)

end

/-! ### The files of the others -/

section

variable {plan : Plan} {site suffix : String} {asked : DomainAnswers} {domains : List DomainInfo}

theorem siteDomain_of_staging {staging : StagingSite} (h : plan.staging site = some staging) :
    staging.siteDomain = plan.own site := by
  simpa using List.find?_some h

theorem Copies_of_append {sk : Skips} {top : Bool} {q q' : Path} (h : sk.Copies top (q ++ q')) :
    sk.Copies top q := by
  induction q generalizing top with
  | nil => trivial
  | cons m q ih => exact ⟨h.1, ih h.2⟩

/-- A file that the run may touch is in a folder that is reached. -/
theorem reached_of_mayTouch {staging : StagingSite} {folders : List Path} {folder path : Path}
    (hin : BelongsTo (plan.docrootPath staging.siteDomain) folders folder path)
    (hscript : ¬plan.docrootPath staging.siteDomain ++ [scriptName suffix] <+: path)
    (h : MayTouch suffix (others plan asked (plan.docrootPath staging.siteDomain) staging.docroot)
      (plan.docrootPath staging.siteDomain) path) :
    Reached plan asked suffix staging folder := by
  generalize hlive : plan.docrootPath staging.siteDomain = live at *
  have hlower : live <+: path → ∃ r, folder = live ++ r := fun hpre => by
    obtain ⟨r, hr⟩ := hin.2 live List.mem_cons_self hpre
    exact ⟨r, hr.symm⟩
  obtain ⟨tail, hpath⟩ := hin.1
  rcases h with h | h | ⟨r, hr, hover⟩
  · exact absurd h hscript
  · obtain ⟨r, rfl⟩ := hlower (.trans (List.prefix_append _ _) h)
    cases r with
    | nil => exact .inl (by rw [hlive, List.append_nil])
    | cons m r =>
      rw [← hpath, List.append_assoc] at h
      have hm : resultName suffix = m := by
        have := (List.prefix_append_right_inj live).mp h
        exact (List.cons_prefix_cons.mp this).1
      refine .inr (.inl ?_)
      rw [hlive, hm, List.prefix_append_right_inj]
      exact ⟨r, rfl⟩
  · obtain ⟨r', rfl⟩ := hlower ⟨r, hr.symm⟩
    cases r' with
    | nil => exact .inl (by rw [hlive, List.append_nil])
    | cons m q =>
      refine .inr (.inr ⟨m :: q, by rw [hlive], ?_⟩)
      rw [← hpath, List.append_assoc, List.append_cancel_left_eq] at hr
      rw [hlive]
      subst hr
      rcases hover with hkept | hcopies
      · exact .inl hkept
      · exact .inr (Copies_of_append hcopies)

/-- **When no folder of another is reached, their files are safe** in every run. -/
theorem pushSpares_of_safe (h : PushSafe plan domains asked suffix site) :
    PushSpares plan domains asked suffix site := by
  intro ans acknowledged server hasked hdomains _ folder hfolder path content hin hpath
  unfold push
  rw [Routine.bind_of_ok (Routine.read_apply _ _)]
  dsimp only
  cases hstaging : plan.staging site with
  | none => exact hpath
  | some staging =>
    have hsite := siteDomain_of_staging hstaging
    refine publish_keeps hpath fun hready hroot hscript hmay => ?_
    rw [hasked] at hmay
    rw [← hsite] at hin
    exact h staging hstaging hready hroot folder hfolder (reached_of_mayTouch hin hscript hmay)

end

/-! ### Runs in which nothing fails -/

section

variable {plan : Plan} {site suffix : String} {asked : DomainAnswers} {staging : StagingSite}
  {live : Path}

/-- A run in which no call fails. -/
def tryRun (asked : DomainAnswers) (ran : Option (CopierAnswers String)) (reply : Reply) :
    PushAnswers String where
  backup := .ok true
  asked
  script := some "copier"
  ran
  result := none
  reply
  provider := .obliging String []

/-- The copier with no failing call. -/
def obligingCopier : CopierAnswers String where
  config := none

theorem obliging_obligingCopier : obligingCopier.Obliging where
  connects := rfl
  removed _ := rfl
  made _ := rfl
  copied _ := rfl

/-- The files once the copier has been written. -/
def written (suffix : String) (live : Path) (f : Folder String) : Folder String :=
  f.update live fun g => g.put (scriptName suffix) (.inl "copier")

/-- The files when the copier begins: its file has removed itself. -/
def begun (suffix : String) (live : Path) (f : Folder String) : Folder String :=
  (written suffix live f).update live (·.erase (scriptName suffix))

/-- Up to the run, such a push does what it says. -/
theorem publish_tryRun (plan : Plan) (asked : DomainAnswers) (suffix : String)
    (ran : Option (CopierAnswers String)) (reply : Reply) (server : Server String)
    {g : Folder String} (hready : staging.state = .ready) (hroot : staging.docroot ≠ [])
    (hat : server.files.at? live = some g) (hfree : g.find? (scriptName suffix) = none) :
    ∃ plan', publish (tryRun asked ran reply) suffix true plan staging live ⟨plan, server⟩
      = (runScript (tryRun asked ran reply) suffix (others plan asked live staging.docroot)
          staging.docroot live >>= fun _ =>
            settle (tryRun asked ran reply) suffix live staging.siteDomain)
          ⟨plan', { server with files := written suffix live server.files }⟩ := by
  have hwrite : writeScript (tryRun asked ran reply).script suffix live ⟨plan, server⟩
      = (.ok (), ⟨plan, { server with files := written suffix live server.files }⟩) := by
    simp only [writeScript, tryRun, hat, hfree, if_true]
    rfl
  have hbackup : safetyBackup (tryRun asked ran reply) true = .ok () := by
    simp [safetyBackup, tryRun, ensure]
  unfold publish
  rw [ensure, if_pos hready, Routine.bind_of_ok (Routine.check_apply _ _), hbackup,
    Routine.bind_of_ok (Routine.check_apply _ _), ensure, if_pos hroot,
    Routine.bind_of_ok (Routine.check_apply _ _), Routine.bind_of_ok hwrite]
  exact ⟨_, rfl⟩

theorem get_begun {f : Folder String} {x : Path} (h : ¬live ++ [scriptName suffix] <+: x) :
    (begun suffix live f).get x = f.get x := by
  rw [begun, get_update_name (fun g m hm => by rw [Folder.find?_erase, if_neg hm]) h, written,
    get_update_name (fun g m hm => by rw [Folder.find?_put, if_neg hm]) h]

theorem at?_begun {f g : Folder String} (h : f.at? live = some g) :
    ∃ g', (begun suffix live f).at? live = some g' :=
  ⟨_, Folder.at?_update (Folder.at?_update h _) _⟩

theorem at?_of_written {f : Folder String} {x : Path} (h : (written suffix live f).at? x ≠ none) :
    f.at? x ≠ none := by
  rcases Folder.at?_update_cases h with hx | ⟨g, r, hat, rfl, hx⟩
  · exact hx
  · rw [Folder.at?_append hat]
    exact Folder.at?_of_put_file hx

theorem at?_of_begun {f : Folder String} {x : Path} (h : (begun suffix live f).at? x ≠ none) :
    f.at? x ≠ none := by
  rcases Folder.at?_update_cases h with hx | ⟨g, r, hat, rfl, hx⟩
  · exact at?_of_written hx
  · have hwritten : (written suffix live f).at? (live ++ r) ≠ none := by
      rw [Folder.at?_append hat]
      exact Folder.at?_of_erase hx
    exact at?_of_written hwritten

theorem get_of_begun {f : Folder String} {x : Path} (h : (begun suffix live f).get x ≠ none) :
    f.get x ≠ none := by
  by_cases hx : live ++ [scriptName suffix] <+: x
  · obtain ⟨r, rfl⟩ := hx
    cases hat : f.at? live with
    | none =>
      have hwritten : (written suffix live f).at? live = none := by
        by_contra hne
        exact at?_of_written hne hat
      rwa [begun, Folder.get_update_of_none hwritten, written, Folder.get_update_of_none hat] at h
    | some g =>
      have hwritten : (written suffix live f).at? live
          = some (g.put (scriptName suffix) (.inl "copier")) := Folder.at?_update hat _
      rw [begun, List.append_assoc, Folder.get_update_append hwritten] at h
      exact absurd (by simp [Folder.get, Folder.find?_erase]) h
  · rwa [get_begun hx] at h

theorem tidy_begun {f : Folder String} (hf : f.Tidy) : (begun suffix live f).Tidy :=
  (hf.update live fun _ hg => hg.put _ fun _ h => by cases h).update live fun _ hg => hg.erase _

/-- **A run that loses a file**: whatever the copier does to it is what becomes of it. -/
theorem not_pushSpares_of_run {domains : List DomainInfo} {files g : Folder String}
    {folder path : Path} (hstaging : plan.staging site = some staging)
    (hlive : live = plan.docrootPath staging.siteDomain) (hready : staging.state = .ready)
    (hroot : staging.docroot ≠ []) (htidy : files.Tidy) (hat : files.at? live = some g)
    (hfree : g.find? (scriptName suffix) = none)
    (hfolder : folder ∈ otherFolders plan domains (plan.own site))
    (hin : BelongsTo live (otherFolders plan domains (plan.own site)) folder path)
    (hpath : files.get path = some "theirs") (hresult : ¬live ++ [resultName suffix] <+: path)
    (hlost : (copier obligingCopier true (others plan asked live staging.docroot)
      staging.docroot live
      (begun suffix live files)).2.get path ≠ some "theirs") :
    ¬PushSpares plan domains asked suffix site := by
  intro hspares
  have hsite := siteDomain_of_staging hstaging
  rw [hlive, hsite] at hin
  have hkept := hspares (tryRun asked (some obligingCopier) .silent) true { files, domains } rfl rfl
    htidy folder hfolder path "theirs" hin hpath
  unfold push at hkept
  rw [Routine.bind_of_ok (Routine.read_apply _ _), hstaging] at hkept
  dsimp only at hkept
  rw [← hlive] at hkept
  obtain ⟨plan', hrun⟩ := publish_tryRun plan asked suffix (some obligingCopier) .silent
    { files, domains } hready hroot hat hfree
  rw [hrun] at hkept
  refine hlost (Eq.trans ?_ hkept)
  exact (get_update_name find?_putResult hresult).symm

/-! ### Files that are lost -/

/-- A name that the clearing does not keep and the copying does not pass over. -/
theorem exists_plainName (used : List String) :
    ∃ name, name ∉ used ∧ startsWith name "whp-" = false := by
  refine ⟨Folder.freshName used, Folder.freshName_not_mem used, ?_⟩
  simp [startsWith, Folder.freshName, List.replicate_succ, List.isPrefixOf]

theorem keptOnPush_plain {exclude : List String} {name : String}
    (hused : name ∉ clearKeeps ++ exclude) (hplain : startsWith name "whp-" = false) :
    keptOnPush exclude name = false := by
  simp only [List.mem_append, not_or] at hused
  simp [keptOnPush, hused.1, hused.2, hplain]

theorem skips_plain {exclude : List String} {name : String} (top : Bool)
    (hused : name ∉ clearKeeps ++ exclude) (hplain : startsWith name "whp-" = false) :
    Skips.skips ⟨exclude, true⟩ top name = false := by
  simp only [List.mem_append, not_or, clearKeeps, List.mem_cons, List.not_mem_nil,
    or_false] at hused
  simp [Skips.skips, skippedName, hused, hplain]

theorem copies_concat {exclude : List String} {name : String} {r : Path} {top : Bool}
    (hused : name ∉ clearKeeps ++ exclude) (hplain : startsWith name "whp-" = false)
    (h : Skips.Copies ⟨exclude, true⟩ top r) : Skips.Copies ⟨exclude, true⟩ top (r ++ [name]) := by
  induction r generalizing top with
  | nil => exact ⟨skips_plain top hused hplain, trivial⟩
  | cons m q ih => exact ⟨h.1, ih h.2⟩

theorem startsWith_scriptName (suffix : String) : startsWith (scriptName suffix) "whp-" = true := by
  simp [startsWith, scriptName, String.toList_append]

theorem startsWith_resultName (suffix : String) : startsWith (resultName suffix) "whp-" = true := by
  simp [startsWith, resultName, String.toList_append]

theorem skippedName_scriptName (suffix : String) : skippedName (scriptName suffix) = true := by
  have hend : endsWith (scriptName suffix) ".php" = true := by
    simp only [endsWith, scriptName, String.toList_append, List.isSuffixOf_iff_suffix]
    exact List.suffix_append _ _
  simp [skippedName, startsWith_scriptName, hend]

theorem skippedName_resultName (suffix : String) : skippedName (resultName suffix) = true := by
  have hend : endsWith (resultName suffix) ".json" = true := by
    simp only [endsWith, resultName, String.toList_append, List.isSuffixOf_iff_suffix]
    exact List.suffix_append _ _
  simp [skippedName, startsWith_resultName, hend]

theorem scriptName_ne_resultName (suffix : String) : scriptName suffix ≠ resultName suffix := by
  intro h
  have hlist := congrArg String.toList h
  simp [scriptName, resultName, String.toList_append] at hlist

/-- What is cleared or copied is neither of the copier's own two files. -/
theorem ne_of_overwritten {exclude : List String} {name own : String} {rest : Path}
    (hstart : startsWith own "whp-" = true) (hskip : skippedName own = true)
    (h : Overwritten exclude (name :: rest)) : name ≠ own := by
  rintro rfl
  rcases h with hkept | hcopies
  · simp [keptOnPush, hstart] at hkept
  · have hfirst := hcopies.1
    simp [Skips.skips, hskip] at hfirst

/-- Files to try a run on: one of another website and one of the staging copy. -/
structure TryFiles (suffix : String) (live p q : Path) (files : Folder String) : Prop where
  tidy : files.Tidy
  theirs : files.get p = some "theirs"
  mine : files.get q = some "mine"
  only : ∀ x, files.get x ≠ none → x = p ∨ x = q
  folders : ∀ x, files.at? x ≠ none → x = [] ∨ (x <+: p ∧ x ≠ p) ∨ x <+: q ∧ x ≠ q
  /-- The copier can be written. -/
  free : ∀ g, files.at? live = some g → g.find? (scriptName suffix) = none

theorem exists_tryFiles {p q : Path} (hp : p ≠ []) (hq : q ≠ []) (hpq : ¬p <+: q) (hqp : ¬q <+: p)
    (hsp : ¬live ++ [scriptName suffix] <+: p) (hsq : ¬live ++ [scriptName suffix] <+: q) :
    ∃ files, TryFiles suffix live p q files := by
  refine ⟨.twoFiles p "theirs" q "mine", Folder.tidy_twoFiles _ _ _ _,
    Folder.get_twoFiles_left hp _ _ _, Folder.get_twoFiles_right hp hq hpq hqp _ _,
    fun x => Folder.eq_of_get_twoFiles hp hq, fun x => Folder.prefix_of_at?_twoFiles, ?_⟩
  intro g hat
  cases hfind : g.find? (scriptName suffix) with
  | none => rfl
  | some node =>
    cases node with
    | inl content =>
      have hget :
          (Folder.twoFiles p "theirs" q "mine").get (live ++ [scriptName suffix]) ≠ none := by
        rw [Folder.get_append hat]
        simp [Folder.get, hfind]
      rcases Folder.eq_of_get_twoFiles hp hq hget with h | h
      · exact absurd (h ▸ List.prefix_refl _) hsp
      · exact absurd (h ▸ List.prefix_refl _) hsq
    | inr inner =>
      have hget :
          (Folder.twoFiles p "theirs" q "mine").at? (live ++ [scriptName suffix]) ≠ none := by
        rw [Folder.at?_append hat]
        simp [Folder.at?, hfind]
      rcases Folder.prefix_of_at?_twoFiles hget with h | h | h
      · simp at h
      · exact absurd h.1 hsp
      · exact absurd h.1 hsq

/-- What the two files of a try have to be. -/
private theorem apart {base x : Path} (hbase : ¬base <+: live)
    (hscript : ¬live ++ [scriptName suffix] <+: base) :
    ¬live ++ [scriptName suffix] <+: base ++ x := by
  intro h
  rcases List.prefix_or_prefix_of_prefix h (List.prefix_append base x) with h | h
  · exact hscript h
  · rcases List.prefix_concat_iff.mp h with h | h
    · exact hscript (h ▸ List.prefix_refl _)
    · exact hbase h

variable {domains : List DomainInfo} {folder : Path} {name : String} {rest : Path}

/-- The paths of a file that is cleared or copied are not those of the copier. -/
theorem not_prefix_of_overwritten (live : Path) {exclude : List String} {own : String}
    (hstart : startsWith own "whp-" = true) (hskip : skippedName own = true)
    (h : Overwritten exclude (name :: rest)) : ¬live ++ [own] <+: live ++ name :: rest := by
  intro hpre
  rw [List.prefix_append_right_inj] at hpre
  exact ne_of_overwritten hstart hskip h (List.cons_prefix_cons.mp hpre).1.symm

/-- A file of the other website and one of the staging copy, neither of which is the copier's. -/
private theorem exists_trial {src q : Path} {exclude : List String} {entry : String}
    (hsrc : ¬src <+: live) (hscript : ¬live ++ [scriptName suffix] <+: src)
    (hover : Overwritten exclude (name :: rest)) (hpq : ¬live ++ name :: rest <+: src ++ entry :: q)
    (hqp : ¬src ++ entry :: q <+: live ++ name :: rest) :
    ∃ files g g' s, TryFiles suffix live (live ++ name :: rest) (src ++ entry :: q) files
      ∧ files.at? live = some g ∧ (begun suffix live files).at? live = some g'
      ∧ (begun suffix live files).at? src = some s
      ∧ (begun suffix live files).get (src ++ entry :: q) = some "mine" := by
  have hmine : ¬live ++ [scriptName suffix] <+: src ++ entry :: q := apart hsrc hscript
  obtain ⟨files, htry⟩ := exists_tryFiles (by simp) (by simp) hpq hqp
    (not_prefix_of_overwritten live (startsWith_scriptName suffix) (skippedName_scriptName suffix)
      hover) hmine
  have hbegun : (begun suffix live files).get (src ++ entry :: q) = some "mine" := by
    rw [get_begun hmine, htry.mine]
  obtain ⟨g, hat, -⟩ := Folder.at?_of_get (f := files) (p := live) (k := name) (q := rest)
    (by rw [htry.theirs]; exact nofun)
  obtain ⟨s, hs, -⟩ := Folder.at?_of_get (f := begun suffix live files) (p := src) (k := entry)
    (q := q) (by rw [hbegun]; exact nofun)
  obtain ⟨g', hg'⟩ := at?_begun hat
  exact ⟨files, g, g', s, htry, hat, hg', hs, hbegun⟩

/-- **A file under a name that is cleared is lost.** -/
theorem lost_cleared (hstaging : plan.staging site = some staging)
    (hlive : live = plan.docrootPath staging.siteDomain) (hready : staging.state = .ready)
    (hsrc : ¬staging.docroot <+: live) (hscript : ¬live ++ [scriptName suffix] <+: staging.docroot)
    (hfolder : folder ∈ otherFolders plan domains (plan.own site))
    (hin : BelongsTo live (otherFolders plan domains (plan.own site)) folder (live ++ name :: rest))
    (hkept : keptOnPush (others plan asked live staging.docroot) name = false)
    (hfresh : ¬live ++ name :: rest <+: staging.docroot) :
    ¬PushSpares plan domains asked suffix site := by
  have hover : Overwritten (others plan asked live staging.docroot) (name :: rest) := .inl hkept
  have hresult := not_prefix_of_overwritten live (startsWith_resultName suffix)
    (skippedName_resultName suffix) hover
  have hroot : staging.docroot ≠ [] := fun h => hsrc (h ▸ List.nil_prefix)
  -- the staging copy holds a file of a new name
  obtain ⟨entry, hentry⟩ : ∃ entry, entry ∉ live ++ name :: rest := ⟨_, Folder.freshName_not_mem _⟩
  have hlast : entry ∈ staging.docroot ++ [entry] := List.mem_append_right _ List.mem_cons_self
  obtain ⟨files, g, g', s, htry, hat, hg', hs, -⟩ := exists_trial hsrc hscript hover
    (fun h => by
      rcases List.prefix_concat_iff.mp h with h | h
      · exact hentry (h ▸ hlast)
      · exact hfresh h)
    (fun h => hentry (h.subset hlast))
  refine not_pushSpares_of_run hstaging hlive hready hroot htry.tidy hat (htry.free g hat)
    hfolder hin htry.theirs hresult ?_
  rw [copier_push_gone obliging_obligingCopier (tidy_begun htry.tidy) hs hg'
    (fun h => hsrc (h ▸ List.prefix_refl _)) hkept]
  · exact nofun
  · by_contra hget
    rcases htry.only _ (get_of_begun hget) with h | h
    · rw [List.append_cancel_right_eq] at h
      exact hsrc (h ▸ List.prefix_refl _)
    · rw [List.append_cancel_left_eq] at h
      exact hentry (List.mem_append_right _ (h ▸ List.mem_cons_self))

/-- **A file where the staging copy is copied to is overwritten.** -/
theorem lost_copied {r : Path} {leaf : String} (hstaging : plan.staging site = some staging)
    (hlive : live = plan.docrootPath staging.siteDomain) (hready : staging.state = .ready)
    (hsrc : ¬staging.docroot <+: live) (hscript : ¬live ++ [scriptName suffix] <+: staging.docroot)
    (hfolder : folder ∈ otherFolders plan domains (plan.own site))
    (hin : BelongsTo live (otherFolders plan domains (plan.own site)) folder (live ++ name :: rest))
    (hcopies : Skips.Copies ⟨others plan asked live staging.docroot, true⟩ true (name :: rest))
    (hname : name :: rest = r ++ [leaf]) (hleaf : leaf ∉ live ++ r ++ staging.docroot)
    (hsurvives : ∀ m q, staging.docroot = live ++ m :: q →
      keptOnPush (others plan asked live staging.docroot) m = true) :
    ¬PushSpares plan domains asked suffix site := by
  simp only [List.mem_append, not_or] at hleaf
  have hover : Overwritten (others plan asked live staging.docroot) (name :: rest) := .inr hcopies
  have hresult := not_prefix_of_overwritten live (startsWith_resultName suffix)
    (skippedName_resultName suffix) hover
  have hroot : staging.docroot ≠ [] := fun h => hsrc (h ▸ List.nil_prefix)
  have hne : live ≠ staging.docroot := fun h => hsrc (h ▸ List.prefix_refl _)
  -- the same file in the folder of the other and in the staging copy; its name is nowhere else
  have hdiffer : ∀ base base' : Path, leaf ∉ base → base' ≠ base →
      ¬base' ++ name :: rest <+: base ++ name :: rest := by
    intro base base' hbase hbases h
    rw [hname, ← List.append_assoc, ← List.append_assoc] at h
    rcases List.prefix_concat_iff.mp h with h | h
    · exact hbases (by simpa using h)
    · have hmem := h.subset (List.mem_append_right _ List.mem_cons_self)
      rcases List.mem_append.mp hmem with hmem | hmem
      · exact hbase hmem
      · exact hleaf.1.2 hmem
  obtain ⟨files, g, g', s, htry, hat, hg', hs, hbegun⟩ := exists_trial hsrc hscript hover
    (hdiffer _ _ hleaf.2 hne) (hdiffer _ _ hleaf.1.1 hne.symm)
  have hsource : (cleared obligingCopier (others plan asked live staging.docroot) live
      (begun suffix live files)).get (staging.docroot ++ name :: rest) = some "mine" := by
    rcases (begun suffix live files).get_update_cases live (fun g => (clearLive obligingCopier
        (others plan asked live staging.docroot) g).2) (staging.docroot ++ name :: rest) with
      h | ⟨g, y, -, hy, h, h'⟩
    · exact h.trans hbegun
    · have hpre : live <+: staging.docroot := by
        rcases List.prefix_or_prefix_of_prefix ⟨y, hy.symm⟩
          (List.prefix_append staging.docroot (name :: rest)) with hpre | hpre
        · exact hpre
        · exact absurd hpre hsrc
      obtain ⟨z, hz⟩ := hpre
      cases z with
      | nil => exact absurd (by rw [← hz, List.append_nil]) hne
      | cons m q =>
        rw [← hz, List.append_assoc, List.append_cancel_left_eq] at hy
        subst hy
        refine h.trans (Eq.trans ?_ (h'.symm.trans hbegun))
        rw [List.cons_append, get_clearLive obliging_obligingCopier, hsurvives m q hz.symm,
          if_pos rfl]
  have hfiles : ∀ x, (begun suffix live files).get x ≠ none → ∃ p, x = p ++ [leaf] := by
    intro x hx
    rcases htry.only x (get_of_begun hx) with rfl | rfl
    · exact ⟨live ++ r, by rw [hname, List.append_assoc]⟩
    · exact ⟨staging.docroot ++ r, by rw [hname, List.append_assoc]⟩
  have hfolders : ∀ x, (begun suffix live files).at? x ≠ none → leaf ∉ x := by
    intro x hx hmem
    have habove : ∀ base : Path, leaf ∉ base → x <+: base ++ name :: rest →
        x = base ++ name :: rest := by
      intro base hbase hpre
      rw [hname, ← List.append_assoc] at hpre ⊢
      rcases List.prefix_concat_iff.mp hpre with h | h
      · exact h
      · rcases List.mem_append.mp (h.subset hmem) with h | h
        · exact absurd h hbase
        · exact absurd h hleaf.1.2
    rcases htry.folders x (at?_of_begun hx) with rfl | ⟨hpre, hx⟩ | ⟨hpre, hx⟩
    · cases hmem
    · exact hx (habove live hleaf.1.1 hpre)
    · exact hx (habove _ hleaf.2 hpre)
  refine not_pushSpares_of_run hstaging hlive hready hroot htry.tidy hat (htry.free g hat)
    hfolder hin htry.theirs hresult ?_
  rw [copier_push_copied obliging_obligingCopier (tidy_begun htry.tidy) hs hg' hne.symm hcopies
    hfiles hfolders hsource]
  decide

/-- **A file where the result is written is deleted with it.** -/
theorem lost_result {leaf : String} (hstaging : plan.staging site = some staging)
    (hlive : live = plan.docrootPath staging.siteDomain) (hready : staging.state = .ready)
    (hroot : staging.docroot ≠ [])
    (hfolder : folder ∈ otherFolders plan domains (plan.own site))
    (hin : BelongsTo live (otherFolders plan domains (plan.own site)) folder (folder ++ [leaf]))
    (hreached : live ++ [resultName suffix] <+: folder) :
    ¬PushSpares plan domains asked suffix site := by
  intro hspares
  have hpath : live ++ [resultName suffix] <+: folder ++ [leaf] :=
    hreached.trans (List.prefix_append _ _)
  obtain ⟨name, hfresh⟩ : ∃ name, name ∉ scriptName suffix :: (folder ++ [leaf]) :=
    ⟨_, Folder.freshName_not_mem _⟩
  simp only [List.mem_cons, not_or] at hfresh
  have hsame : ¬live ++ [scriptName suffix] <+: folder ++ [leaf] := by
    intro h
    have hle := List.prefix_of_prefix_length_le h hpath (by simp)
    rw [List.prefix_append_right_inj] at hle
    exact scriptName_ne_resultName suffix (List.cons_prefix_cons.mp hle).1
  -- a push to a website with this file alone
  obtain ⟨files, htry⟩ := exists_tryFiles (p := folder ++ [leaf])
    (q := [name]) (by simp) (by simp)
    (fun h => hfresh.2 (List.mem_singleton.mp (h.subset (List.mem_append_right _
      List.mem_cons_self)) ▸ List.mem_append_right _ List.mem_cons_self))
    (fun h => hfresh.2 (h.subset List.mem_cons_self)) hsame
    (fun h => hfresh.1 (List.mem_singleton.mp (h.subset (List.mem_append_right _
      List.mem_cons_self))).symm)
  obtain ⟨g, hat⟩ : ∃ g, files.at? live = some g := by
    obtain ⟨q, hq⟩ := hpath
    rw [List.append_assoc, List.singleton_append] at hq
    obtain ⟨g, hg, -⟩ := Folder.at?_of_get (f := files) (p := live) (k := resultName suffix)
      (q := q)
      (by rw [hq, htry.theirs]; exact nofun)
    exact ⟨g, hg⟩
  have hsite := siteDomain_of_staging hstaging
  rw [hlive, hsite] at hin
  have hkept := hspares (tryRun asked none (.answered none)) true { files, domains } rfl rfl
    htry.tidy folder hfolder (folder ++ [leaf]) "theirs" hin htry.theirs
  unfold push at hkept
  rw [Routine.bind_of_ok (Routine.read_apply _ _), hstaging] at hkept
  dsimp only at hkept
  rw [← hlive] at hkept
  obtain ⟨plan', hrun⟩ := publish_tryRun plan asked suffix none (.answered none)
    { files, domains } hready hroot hat (htry.free g hat)
  rw [hrun, Routine.bind_of_ok
    (show runScript (tryRun asked none (.answered none)) suffix _ _ live _
    = (.ok (), _) from rfl)] at hkept
  -- the last step deletes the result, whatever it is
  have hgone : ∀ s : HostingAccount String, (settle (tryRun asked none (.answered none)) suffix live
      staging.siteDomain s).2.server.files.get (folder ++ [leaf]) = none := by
    intro s
    let Lost : HostingAccount String → Prop := fun s => s.server.files.get (folder ++ [leaf]) = none
    refine Routine.bind_keeps (P := Lost) ?_ fun _ _ h => h
    have hdelete : ∀ s : HostingAccount String,
        Lost (deletePath (.obliging String []) (live ++ [resultName suffix]) s).2 := fun s =>
      deletePath_gone (by simp) hpath s
    refine Routine.bestEffort_reaches (P := Lost) ?_ hdelete (fun step hstep s h => ?_) s
    · exact List.mem_cons_self
    simp only [List.map_cons, List.map_nil, List.mem_cons, List.not_mem_nil, or_false] at hstep
    rcases hstep with rfl | rfl
    · exact shrinks_deletePath _ s _ h
    · exact shrinks_deletePath _ s _ h
  rw [hgone] at hkept
  cases hkept

/-! ### When a push is safe -/

/-- A new file in a folder is that folder's. -/
theorem belongsTo_of_fresh {folders : List Path} {folder : Path} {leaf : String}
    (hleaf : ∀ other ∈ live :: folders, leaf ∉ other) :
    BelongsTo live folders folder (folder ++ [leaf]) :=
  ⟨List.prefix_append _ _, fun other hother => Folder.prefix_of_fresh (hleaf other hother)⟩

theorem docroot_mem_otherFolders (hstaging : plan.staging site = some staging)
    (hroot : staging.docroot ≠ []) :
    staging.docroot ∈ otherFolders plan domains (plan.own site) := by
  refine List.mem_append_right _ (List.mem_flatMap.mpr
    ⟨staging, List.mem_of_find?_eq_some hstaging, ?_⟩)
  rw [StagingSite.folder, if_neg hroot]
  exact List.mem_cons_self

/-- The staging copy does not hold the website itself, and its folder is not where the copier is
    to be written. -/
def Apart (plan : Plan) (suffix : String) (staging : StagingSite) : Prop :=
  ¬staging.docroot <+: plan.docrootPath staging.siteDomain
    ∧ ¬plan.docrootPath staging.siteDomain ++ [scriptName suffix] <+: staging.docroot

/-- **A folder that is reached can lose a file.** -/
theorem not_pushSpares (hstaging : plan.staging site = some staging)
    (hready : staging.state = .ready)
    (hapart : Apart plan suffix staging)
    (hfolder : folder ∈ otherFolders plan domains (plan.own site))
    (hreached : Reached plan asked suffix staging folder) :
    ¬PushSpares plan domains asked suffix site := by
  obtain ⟨hsrc, hscript⟩ := hapart
  have hroot : staging.docroot ≠ [] := fun h => hsrc (h ▸ List.nil_prefix)
  obtain ⟨live, hlive⟩ : ∃ live, live = plan.docrootPath staging.siteDomain := ⟨_, rfl⟩
  rw [← hlive] at hsrc hscript
  -- a file of a new name, which the clearing does not keep and the copying does not pass over
  obtain ⟨leaf, hused, hplain⟩ := exists_plainName (clearKeeps ++ others plan asked live
    staging.docroot ++ (live :: otherFolders plan domains (plan.own site)).flatten)
  rw [List.mem_append, not_or] at hused
  obtain ⟨hused, hfresh⟩ := hused
  have hfresh : ∀ other ∈ live :: otherFolders plan domains (plan.own site), leaf ∉ other :=
    fun other hother hmem => hfresh (List.mem_flatten.mpr ⟨other, hother, hmem⟩)
  have hin : ∀ folder, BelongsTo live (otherFolders plan domains (plan.own site)) folder
      (folder ++ [leaf]) := fun folder => belongsTo_of_fresh hfresh
  have hnotroot : ∀ folder ∈ otherFolders plan domains (plan.own site),
      ¬folder ++ [leaf] <+: staging.docroot := fun folder hmem h =>
    hfresh _ (List.mem_cons_of_mem _ (docroot_mem_otherFolders hstaging hroot))
      (h.subset (List.mem_append_right _ List.mem_cons_self))
  have hcleared : ∀ folder ∈ otherFolders plan domains (plan.own site), ∀ name rest,
      folder ++ [leaf] = live ++ name :: rest →
        keptOnPush (others plan asked live staging.docroot) name = false →
          ¬PushSpares plan domains asked suffix site := by
    intro folder hmem name rest hpath hkept
    exact lost_cleared hstaging hlive hready hsrc hscript hmem (hpath ▸ hin folder) hkept
      (hpath ▸ hnotroot folder hmem)
  rw [Reached, ← hlive] at hreached
  rcases hreached with hsame | hresult | ⟨r, hfolderr, hover⟩
  · exact hcleared folder hfolder leaf [] (by rw [hsame]) (keptOnPush_plain hused hplain)
  · exact lost_result hstaging hlive hready hroot hfolder (hin folder) hresult
  · cases r with
    | nil => exact hover.elim
    | cons name q =>
      have hpath : folder ++ [leaf] = live ++ name :: (q ++ [leaf]) := by simp [hfolderr]
      rcases hover with hkept | hcopies
      · exact hcleared folder hfolder name (q ++ [leaf]) hpath hkept
      · by_cases hsurvives : ∀ m q, staging.docroot = live ++ m :: q →
            keptOnPush (others plan asked live staging.docroot) m = true
        · refine lost_copied (r := name :: q) hstaging hlive hready hsrc hscript hfolder
            (hpath ▸ hin folder) (copies_concat hused hplain hcopies) rfl ?_ hsurvives
          rw [← hfolderr]
          intro hmem
          rcases List.mem_append.mp hmem with hmem | hmem
          · exact hfresh folder (List.mem_cons_of_mem _ hfolder) hmem
          · exact hfresh _ (List.mem_cons_of_mem _ (docroot_mem_otherFolders hstaging hroot)) hmem
        · push Not at hsurvives
          obtain ⟨m, q', hdocroot, hkept⟩ := hsurvives
          refine hcleared staging.docroot (docroot_mem_otherFolders hstaging hroot) m (q' ++ [leaf])
            ?_ (by simpa using hkept)
          simp [hdocroot]

/-- **A push leaves the files of the others alone** — in every run, whatever is in the folders
    and whatever the provider answers after the list was made — when no folder of another website
    or of a staging copy is reached; and only then, where the staging copy is apart from the
    website. -/
theorem pushSpares_iff (plan : Plan) (domains : List DomainInfo) (asked : DomainAnswers)
    (suffix site : String) :
    (PushSafe plan domains asked suffix site → PushSpares plan domains asked suffix site)
      ∧ ((∀ staging ∈ plan.staging site, Apart plan suffix staging) →
        PushSpares plan domains asked suffix site → PushSafe plan domains asked suffix site) := by
  refine ⟨pushSpares_of_safe, fun hapart hspares staging hstaging hready _ folder hfolder
    hreached => ?_⟩
  exact not_pushSpares hstaging hready (hapart staging hstaging) hfolder hreached hspares

end

/-- A folder under a name of the list is not reached. -/
theorem not_reached {plan : Plan} {asked : DomainAnswers} {suffix : String} {staging : StagingSite}
    {live : Path} {name : String} (q : Path) (hlive : live = plan.docrootPath staging.siteDomain)
    (hname : name ∈ others plan asked live staging.docroot) (hne : name ≠ resultName suffix) :
    ¬Reached plan asked suffix staging (live ++ name :: q) := by
  rw [Reached, ← hlive]
  rintro (h | h | ⟨r, hr, hover⟩)
  · simp at h
  · rw [List.prefix_append_right_inj] at h
    exact hne (List.cons_prefix_cons.mp h).1.symm
  · rw [List.append_cancel_left_eq] at hr
    subst hr
    rcases hover with hkept | hcopies
    · simp [keptOnPush, hname] at hkept
    · have hfirst := hcopies.1
      simp [Skips.skips, hname] at hfirst

/-- A plan on `example.com` whose own website has a staging copy. -/
def stagedCopy : StagingSite where
  siteDomain := ""
  domain := "staging.example.com"
  state := .ready
  docroot := ["public_html", "staging"]

def stagedPlan : Plan where
  domain := "example.com"
  domain_stripped := strip_example
  apps := [{ domain := "", kind := .wordpress, state := .ready },
    { domain := "shop.example", kind := .custom, state := .ready }]
  stagings := [stagedCopy]

/-- The provider does not answer. -/
def unanswered : DomainAnswers where
  capabilities := [.files, .databases, .domains]
  limits := true
  listing := none

/-- A website the panel has a record of is spared, though the provider does not list it. -/
theorem pushSpares_shop : PushSpares stagedPlan
    [⟨"shop.example", .addon, ["public_html", "shop.example"]⟩] unanswered "0" "" := by
  refine (pushSpares_iff stagedPlan _ unanswered "0" "").1 fun staging hstaging _ _ folder
    hfolder => ?_
  have hfound : stagedPlan.staging "" = some stagedCopy := by decide +kernel
  have hfolders : otherFolders stagedPlan
      [⟨"shop.example", .addon, ["public_html", "shop.example"]⟩] (stagedPlan.own "")
      = [["public_html", "shop.example"], ["public_html", "shop.example"],
        ["public_html", "staging"]] := by decide +kernel
  rw [hfound] at hstaging
  cases hstaging
  have hone : folder = ["public_html"] ++ "shop.example" :: []
      ∨ folder = ["public_html"] ++ "staging" :: [] := by
    rw [hfolders] at hfolder
    simpa using hfolder
  rcases hone with rfl | rfl
  · exact not_reached [] (by decide +kernel) (by decide +kernel) (by decide +kernel)
  · exact not_reached [] (by decide +kernel) (by decide +kernel) (by decide +kernel)

/-- **A website the customer added on the server is lost** when the listing fails. -/
theorem not_pushSpares_unlisted : ¬PushSpares stagedPlan
    [⟨"blog.example", .addon, ["public_html", "blog.example"]⟩] unanswered "0" "" := by
  intro h
  have hkept := h (tryRun unanswered (some obligingCopier) (.answered none)) true
    { files := .sub "public_html" (.file "wp-config.php" "live" (.file "index.php" "live"
        (.sub "blog.example" (.file "index.html" "blog" .empty)
          (.sub "staging" (.file "wp-config.php" "staging" (.file "index.php" "staging" .empty))
            .empty)))) .empty
      domains := [⟨"blog.example", .addon, ["public_html", "blog.example"]⟩] }
    rfl rfl (by decide) ["public_html", "blog.example"] (by decide +kernel)
    ["public_html", "blog.example", "index.html"] "blog" (by decide +kernel) (by decide)
  revert hkept
  decide +kernel

end WPanel.Hosting
