import WPanel.Hosting.Accounts
import WPanel.Lib.Machine
import Mathlib.Data.List.Basic

namespace WPanel.Hosting.Helpers

open WPanel.Lib

/-!
# The one-file helpers

The PHP files the panel writes into the websites of a hosting plan, and what becomes of them:
`harden`, `fill`, `HELPER_NAME` and `sweep_account` of `hosting/php_helpers.py`, and the six modules
that write such files.  Times are whole seconds, as both clocks give them.

* `Line`, `serve` — a helper, as far as it decides what a request to it does;
* `harden`, `fill` — the guard that is put in front of the token;
* `Writer` — who writes a helper, under which name, into which folder;
* `sweepAccount` — the nightly sweep;
* `plan` — the writers, the requests, the clean-ups that succeed and the sweeps, in any order;
* `Safe` — no helper has worked past its time, and none outlives a sweep that comes late enough;
* `always_safe_iff` — a plan is safe exactly when the database tool is not asked late, and what a
  sweep finds too old has a name it knows, in a folder it visits;
* `not_always_safe` — the database tool has no time of its own, and no such name.
-/

/-- `LIFETIME_SECONDS`. -/
def lifetimeSeconds : ℕ := 15 * 60

/-- `SWEEP_AFTER_SECONDS`. -/
def sweepAfterSeconds : ℕ := 60 * 60

/-! ### A helper -/

/-- The parts of a helper, in the order they run. -/
inductive Line where
  /-- Settings, constants and functions; nothing is done yet. -/
  | plain
  /-- `_CONST`. -/
  | tokenHash
  /-- `const WHP_EXPIRES = __EXPIRES__;`, and with the time filled in. -/
  | expires (at? : Option ℕ)
  /-- `if (time() > WHP_EXPIRES) { @unlink(__FILE__); … exit; }`. -/
  | expiryCheck
  /-- `_CHECK`. -/
  | tokenCheck
  /-- `@unlink(__FILE__);`. -/
  | unlink
  /-- What the helper is for. -/
  | work
  deriving DecidableEq, Repr

/-- The constant `WHP_EXPIRES`, or the place for it. -/
def Line.isExpires : Line → Bool
  | .expires _ => true
  | _ => false

/-- What a request does. -/
structure Served where
  status : ℕ := 200
  unlinked : Bool := false
  worked : Bool := false
  deriving DecidableEq, Repr

/-- A request at a time, with the helper's token or without. -/
def serve (now : ℕ) (token : Bool) : Option ℕ → List Line → Served
  | _, [] => {}
  | _, .expires at? :: rest => serve now token at? rest
  | at?, .expiryCheck :: rest =>
    if at?.any (· < now) then { status := 410, unlinked := true } else serve now token at? rest
  | at?, .tokenCheck :: rest => if token then serve now token at? rest else { status := 403 }
  | at?, .unlink :: rest => { serve now token at? rest with unlinked := true }
  | at?, .work :: rest => { serve now token at? rest with worked := true }
  | at?, _ :: rest => serve now token at? rest

/-- Something put right after the first of these lines. -/
def insertAfter (line new : Line) : List Line → List Line
  | [] => []
  | l :: ls => if l = line then l :: new :: ls else l :: insertAfter line new ls

/-- Something put right in front of it. -/
def insertBefore (line new : Line) : List Line → List Line
  | [] => []
  | l :: ls => if l = line then new :: l :: ls else l :: insertBefore line new ls

/-- `harden`. -/
def harden (php : List Line) : Except Err (List Line) :=
  if php.any Line.isExpires then .ok php
  else if .tokenHash ∈ php ∧ .tokenCheck ∈ php then
    .ok (insertBefore .tokenCheck .expiryCheck (insertAfter .tokenHash (.expires none) php))
  else .error (.unexpected "not a WHPanel helper template")

/-- `fill`. -/
def fill (php : List Line) (now : ℕ) : Except Err (List Line) := do
  let php ← harden php
  pure (php.map fun l => if l = .expires none then .expires (some (now + lifetimeSeconds)) else l)

/-! ### Who writes them -/

/-- The modules that write helpers. -/
inductive Writer where
  /-- `wp_installer`, for `site_apps.start_wordpress`. -/
  | installer
  /-- `care_scanner`, for `care.start_scan`. -/
  | scanner
  /-- `wp_clone`, for the staging copies and the copies of websites. -/
  | copier
  /-- `wp_tool`, for `care_tools.wordpress_action`. -/
  | wpTool
  /-- `server_tools`. -/
  | serverTool
  /-- `cpanel_dbtool`. -/
  | databaseTool
  deriving DecidableEq, Repr

/-- What `secrets.token_hex` gives. -/
structure Hex where
  digits : List Char
  ne_nil : digits ≠ []
  isHex : digits.all (fun c => c.isDigit || ('a' ≤ c && c ≤ 'f')) = true
  deriving DecidableEq

namespace Writer

/-- The middle of the name. -/
def kind : Writer → String
  | .installer => "install"
  | .scanner => "scan"
  | .copier => "clone"
  | .wpTool => "wp"
  | .serverTool => "tool"
  | .databaseTool => "db"

/-- `file_name`. -/
def fileName (writer : Writer) (ident : Hex) : String :=
  "whp-" ++ writer.kind ++ "-" ++ String.ofList ident.digits ++ ".php"

/-- `PHP`: settings, the hash, functions, the check of the token, and the rest.  The six are alike
    in this. -/
def php (_ : Writer) : List Line := [.plain, .tokenHash, .plain, .tokenCheck, .unlink, .work]

/-- `build`: the database tool alone leaves out `php_helpers.fill`. -/
def source (writer : Writer) (now : ℕ) : Except Err (List Line) :=
  match writer with
  | .databaseTool => .ok writer.php
  | _ => fill writer.php now

end Writer

/-- The characters after a prefix, if there is one. -/
def afterPrefix (start s : List Char) : Option (List Char) :=
  if start.isPrefixOf s then some (s.drop start.length) else none

/-- `HELPER_NAME`: `^whp-(wp|scan|clone|tool|install)-[0-9a-f]+\.php$`. -/
def helperName (name : String) : Bool :=
  ["wp", "scan", "clone", "tool", "install"].any fun kind =>
    match afterPrefix ("whp-" ++ kind ++ "-").toList name.toList with
    | none => false
    | some rest =>
      let digits := rest.takeWhile fun c => c.isDigit || ('a' ≤ c && c ≤ 'f')
      digits ≠ [] && rest.drop digits.length == ".php".toList

/-! ### The hosting plan -/

/-- A helper that lies in a folder. -/
structure Helper where
  folder : String
  name : String
  source : List Line
  writer : Writer
  writtenAt : ℕ
  deriving DecidableEq, Repr

/-- A hosting plan: its own domain, the domains with a `WebsiteApp` ("" is its own), the helpers
    that lie about, when helpers have worked, and when a sweep went through without a failure. -/
structure Plan where
  domain : String
  clock : ℕ := 0
  apps : List String := []
  helpers : List Helper := []
  /-- Of each time a helper has worked, when it was written, and when that was. -/
  worked : List (ℕ × ℕ) := []
  sweeps : List ℕ := []
  deriving DecidableEq, Repr

/-- `docroot_path`, for a domain that is stripped and in lower case. -/
def docrootPath (own domain : String) : String :=
  if domain ≠ "" ∧ domain ≠ own then "public_html/" ++ domain else "public_html"

/-- A call of the sweep. -/
inductive SweepCall where
  | listFiles (folder : String)
  | deletePath (folder name : String)
  deriving DecidableEq, Repr

/-- What the provider makes of the sweep: the calls that fail, and the names it lists without a
    time that can be read. -/
structure Answers where
  failing : List SweepCall := []
  undated : List String := []
  deriving DecidableEq, Repr

/-- `_age`. -/
def Helper.age (h : Helper) (now : ℕ) (ans : Answers) : ℕ :=
  if h.name ∈ ans.undated then sweepAfterSeconds + 1 else now - h.writtenAt

/-- The sweep is to delete this one, in this folder. -/
def Helper.due (h : Helper) (now : ℕ) (ans : Answers) (folder : String) : Bool :=
  h.folder = folder && helperName h.name && sweepAfterSeconds ≤ h.age now ans

/-- One folder of the sweep: what stays of the helpers, and how many were removed. -/
def sweepFolder (now : ℕ) (ans : Answers) (folder : String) (helpers : List Helper) :
    List Helper × ℕ :=
  if .listFiles folder ∈ ans.failing then (helpers, 0)
  else
    let gone (h : Helper) : Bool :=
      h.due now ans folder && (.deletePath folder h.name ∉ ans.failing : Bool)
    (helpers.filter fun h => !gone h, (helpers.filter gone).length)

/-- The folders after each other. -/
def sweepFolders (now : ℕ) (ans : Answers) : List String → List Helper → List Helper × ℕ
  | [], helpers => (helpers, 0)
  | folder :: folders, helpers =>
    let (helpers, removed) := sweepFolder now ans folder helpers
    let (helpers, more) := sweepFolders now ans folders helpers
    (helpers, removed + more)

namespace Plan

variable (s : Plan)

/-- The folders the sweep visits: that of the plan's own website, and those of the others. -/
def visited : List String :=
  docrootPath s.domain "" :: (s.apps.filter (· ≠ "")).map (docrootPath s.domain)

/-- `sweep_account`, with how many it removed. -/
def sweepAccount (now : ℕ) (ans : Answers) : Plan × ℕ :=
  let (helpers, removed) := sweepFolders now ans s.visited s.helpers
  ({ s with helpers, sweeps := if ans.failing = [] then now :: s.sweeps else s.sweeps }, removed)

/-- `write_file` of a helper, which replaces nothing. -/
def write (writer : Writer) (domain : String) (ident : Hex) (now : ℕ) : Except Err Plan := do
  let source ← writer.source now
  let folder := docrootPath s.domain domain
  ensure (∀ h ∈ s.helpers, ¬(h.folder = folder ∧ h.name = writer.fileName ident))
    (adapterError "A file with that name already exists.")
  pure { s with helpers := ⟨folder, writer.fileName ident, source, writer, now⟩ :: s.helpers }

/-- A helper is deleted. -/
def delete (folder name : String) : Plan :=
  { s with helpers := s.helpers.filter fun h => ¬(h.folder = folder ∧ h.name = name) }

/-- `app.save()`, of a row there is or a new one. -/
def saveApp (domain : String) : Plan :=
  { s with apps := if domain ∈ s.apps then s.apps else domain :: s.apps }

/-- `app.delete()`. -/
def deleteApp (domain : String) : Plan := { s with apps := s.apps.filter (· ≠ domain) }

/-- What a writer asks of the website first, and the helper it writes. -/
def writeFor (writer : Writer) (domain : String) (ident : Hex) (now : ℕ) : Except Err Plan :=
  match writer with
  | .installer => (s.saveApp domain).write writer domain ident now
  | .scanner => s.write writer domain ident now
  | .copier => do
    ensure (domain ∈ s.apps)
      (serviceError "Staging is for WordPress websites that are installed and ready."
        "not_available")
    s.write writer domain ident now
  | .wpTool => do
    ensure (domain ∈ s.apps)
      (serviceError "The WordPress manager is for WordPress websites that WHPanel set up."
        "not_wordpress")
    s.write writer domain ident now
  -- these two work on the plan's own website
  | .serverTool => s.write writer "" ident now
  | .databaseTool => s.write writer "" ident now

/-- `site_copy.copy`: the new website's row, the copier in its folder, and, when the website cannot
    be reached, its clean-up, which may fail, and the row's end. -/
def copySite (target : String) (ident : Hex) (now : ℕ) (unreached cleaned : Bool) :
    Except Err Plan := do
  ensure (target ≠ "" ∧ target ∉ s.apps)
    (serviceError "Choose a domain of this plan that has no website yet." "bad_target")
  let s' ← (s.saveApp target).write .copier target ident now
  if unreached then
    let left := if cleaned then s'.delete (docrootPath s.domain target)
      (Writer.copier.fileName ident) else s'
    pure (left.deleteApp target)
  else pure s'

/-- A request to a helper. -/
def ask (folder name : String) (token : Bool) (now : ℕ) : Plan :=
  match s.helpers.find? fun h => h.folder = folder ∧ h.name = name with
  | none => s
  | some h =>
    let served := serve now token none h.source
    let after := if served.unlinked then s.delete folder name else s
    { after with worked := if served.worked then (h.writtenAt, now) :: s.worked else s.worked }

/-- `delete_website`, with the files capability or without it. -/
def deleteWebsite (domain : String) (files : Bool) : Plan :=
  let folder := docrootPath s.domain domain
  let emptied := if files then
      { s with helpers := s.helpers.filter fun h =>
          ¬(h.folder = folder ∨ startsWith h.folder (folder ++ "/") = true) }
    else s
  emptied.deleteApp domain

end Plan

/-- What happens to a plan. -/
inductive Event where
  | write (writer : Writer) (domain : String) (ident : Hex)
  | copySite (target : String) (ident : Hex) (unreached cleaned : Bool)
  /-- A website is set up without WordPress. -/
  | setUp (domain : String)
  | deleteWebsite (domain : String) (files : Bool)
  /-- A clean-up of a writer succeeds, or somebody deletes the file. -/
  | cleanUp (folder name : String)
  | ask (folder name : String) (token : Bool)
  | sweep (ans : Answers)
  deriving DecidableEq

/-- An event, so many seconds after the one before. -/
structure Call where
  after : ℕ
  event : Event
  deriving DecidableEq

/-- A plan, and what happens to it. -/
def plan : Machine Plan Call Empty Err where
  exec call s₀ :=
    let now := s₀.clock + call.after
    let s := { s₀ with clock := now }
    match call.event with
    | .write writer domain ident => (s.writeFor writer domain ident now).map (·, [])
    | .copySite target ident unreached cleaned =>
      (s.copySite target ident now unreached cleaned).map (·, [])
    | .setUp domain => .ok (s.saveApp domain, [])
    | .deleteWebsite domain files => .ok (s.deleteWebsite domain files, [])
    | .cleanUp folder name => .ok (s.delete folder name, [])
    | .ask folder name token => .ok (s.ask folder name token now, [])
    | .sweep ans => .ok ((s.sweepAccount now ans).1, [])

/-! ### What the guards are for -/

/-- **A forgotten helper cannot wait for a stranger**: none has worked past its time, and none is
    left that was older than the sweep allows when a sweep went through. -/
structure Safe (s : Plan) : Prop where
  expired : ∀ p ∈ s.worked, p.2 ≤ p.1 + lifetimeSeconds
  swept : ∀ h ∈ s.helpers, ∀ t ∈ s.sweeps, t ≤ h.writtenAt + sweepAfterSeconds

/-- The database tool is not asked with its token when it is too old; and no sweep that goes through
    finds it too old, or any helper outside the folders of the websites it knows. -/
def Meets (s : Plan) (call : Call) (_ : Plan) : Prop :=
  let now := s.clock + call.after
  match call.event with
  | .ask folder name true =>
    ∀ h, s.helpers.find? (fun h => h.folder = folder ∧ h.name = name) = some h →
      h.writer = .databaseTool → now ≤ h.writtenAt + lifetimeSeconds
  | .sweep ans => ans.failing = [] →
      ∀ h ∈ s.helpers, h.writtenAt + sweepAfterSeconds < now →
        h.writer ≠ .databaseTool ∧ h.folder ∈ s.visited
  | _ => True

/-! ### Names and times -/

theorem afterPrefix_append (start rest : List Char) :
    afterPrefix start (start ++ rest) = some rest := by
  have : start.isPrefixOf (start ++ rest) = true :=
    List.isPrefixOf_iff_prefix.mpr (List.prefix_append _ _)
  rw [afterPrefix, if_pos this, List.drop_left]

/-- **The sweep knows every name but that of the database tool.** -/
theorem helperName_fileName (w : Writer) (ident : Hex) :
    helperName (w.fileName ident) = decide (w ≠ .databaseTool) := by
  have hname : ∀ kind : String,
    ("whp-" ++ kind ++ "-" ++ String.ofList ident.digits ++ ".php").toList
      = ("whp-" ++ kind ++ "-").toList ++ (ident.digits ++ ".php".toList) := by
    intro kind
    simp only [String.toList_append, String.toList_ofList, List.append_assoc]
  have htake : (ident.digits ++ ".php".toList).takeWhile
    (fun c => c.isDigit || ('a' ≤ c && c ≤ 'f'))
      = ident.digits := by
    rw [List.takeWhile_append_of_pos (List.all_eq_true.mp ident.isHex)]
    exact List.append_nil _
  -- a kind the pattern lists leaves the digits and the ending
  have hknown : ∀ kind ∈ ["wp", "scan", "clone", "tool", "install"],
      helperName ("whp-" ++ kind ++ "-" ++ String.ofList ident.digits ++ ".php") = true := by
    intro kind hkind
    refine List.any_eq_true.mpr ⟨kind, hkind, ?_⟩
    rw [hname, afterPrefix_append]
    simp only [htake, List.drop_left]
    simpa using ident.ne_nil
  cases w with
  | databaseTool =>
    -- none of the kinds is `db`
    have hnone : ∀ kind ∈ ["wp", "scan", "clone", "tool", "install"],
        afterPrefix ("whp-" ++ kind ++ "-").toList (("whp-" ++ "db" ++ "-").toList
          ++ (ident.digits ++ ".php".toList)) = none := by
      intro kind hkind
      simp only [List.mem_cons, List.not_mem_nil, or_false] at hkind
      rcases hkind with rfl | rfl | rfl | rfl | rfl <;> rfl
    refine List.any_eq_false.mpr fun kind hkind => ?_
    rw [Writer.fileName, Writer.kind, hname, hnone kind hkind]
    simp
  | installer => exact hknown "install" (by decide)
  | scanner => exact hknown "scan" (by decide)
  | copier => exact hknown "clone" (by decide)
  | wpTool => exact hknown "wp" (by decide)
  | serverTool => exact hknown "tool" (by decide)

/-- A helper with its time filled in: the check of the time stands before that of the token. -/
theorem source_eq {w : Writer} (h : w ≠ .databaseTool) (now : ℕ) :
    w.source now = .ok [.plain, .tokenHash, .expires (some (now + lifetimeSeconds)), .plain,
      .expiryCheck, .tokenCheck, .unlink, .work] := by
  cases w with
  | databaseTool => exact absurd rfl h
  | _ => rfl

/-- **Asked too late, a helper that has a time deletes itself and does nothing.** -/
theorem serve_source {w : Writer} (h : w ≠ .databaseTool) {writtenAt now : ℕ} {php : List Line}
    (hphp : w.source writtenAt = .ok php) (hlate : writtenAt + lifetimeSeconds < now)
    (token : Bool) : serve now token none php = { status := 410, unlinked := true } := by
  rw [source_eq h] at hphp
  rw [← Except.ok.inj hphp]
  simp [serve, hlate]

/-- Nobody does anything with a helper without its token. -/
theorem serve_without_token {w : Writer} {writtenAt now : ℕ} {php : List Line}
    (hphp : w.source writtenAt = .ok php) : (serve now false none php).worked = false := by
  by_cases h : w = .databaseTool
  · subst h
    rw [← Except.ok.inj hphp]
    rfl
  · rw [source_eq h] at hphp
    rw [← Except.ok.inj hphp]
    simp only [serve]
    split <;> rfl

/-- The database tool works whenever it is asked. -/
theorem serve_databaseTool {writtenAt now : ℕ} {php : List Line}
    (hphp : Writer.databaseTool.source writtenAt = .ok php) :
    (serve now true none php).worked = true := by
  rw [← Except.ok.inj hphp]
  rfl

/-! ### What a sweep leaves -/

theorem sweepFolders_cons (now : ℕ) (ans : Answers) (folder : String) (folders : List String)
    (helpers : List Helper) : sweepFolders now ans (folder :: folders) helpers
      = ((sweepFolders now ans folders (sweepFolder now ans folder helpers).1).1,
        (sweepFolder now ans folder helpers).2
          + (sweepFolders now ans folders (sweepFolder now ans folder helpers).1).2) := rfl

theorem sweepFolders_subset (now : ℕ) (ans : Answers) (folders : List String)
    (helpers : List Helper) : (sweepFolders now ans folders helpers).1 ⊆ helpers := by
  induction folders generalizing helpers with
  | nil => exact List.Subset.refl _
  | cons folder folders ih =>
    rw [sweepFolders_cons]
    refine List.Subset.trans (ih _) ?_
    unfold sweepFolder
    split
    · exact List.Subset.refl _
    · exact List.filter_subset_self _

/-- A sweep without a failure leaves what is due in none of its folders. -/
theorem mem_sweepFolders {now : ℕ} {ans : Answers} (hans : ans.failing = [])
    {folders : List String} {helpers : List Helper} {h : Helper} :
    h ∈ (sweepFolders now ans folders helpers).1
      ↔ h ∈ helpers ∧ ∀ folder ∈ folders, h.due now ans folder = false := by
  induction folders generalizing helpers with
  | nil => simp [sweepFolders]
  | cons folder folders ih =>
    have hfolder : h ∈ (sweepFolder now ans folder helpers).1
        ↔ h ∈ helpers ∧ h.due now ans folder = false := by
      simp [sweepFolder, hans]
    rw [sweepFolders_cons, ih, hfolder, List.forall_mem_cons, and_assoc]

/-! ### The invariant -/

/-- A helper is as its writer built it. -/
def Helper.Built (h : Helper) : Prop :=
  (∃ ident, h.name = h.writer.fileName ident) ∧ h.writer.source h.writtenAt = .ok h.source

/-- The plan is safe, its helpers are as they were built, and nothing is later than the clock. -/
structure Sound (s : Plan) : Prop where
  safe : Safe s
  built : ∀ h ∈ s.helpers, h.Built
  written : ∀ h ∈ s.helpers, h.writtenAt ≤ s.clock
  past : ∀ t ∈ s.sweeps, t ≤ s.clock

namespace Sound

variable {s s' : Plan}

/-- Fewer helpers, and later: nothing else has changed. -/
theorem mono (h : Sound s) (hhelpers : s'.helpers ⊆ s.helpers) (hworked : s'.worked = s.worked)
    (hsweeps : s'.sweeps = s.sweeps) (hclock : s.clock ≤ s'.clock) : Sound s' where
  safe := {
    expired := hworked ▸ h.safe.expired
    swept := fun x hx => hsweeps ▸ h.safe.swept x (hhelpers hx) }
  built x hx := h.built x (hhelpers hx)
  written x hx := Nat.le_trans (h.written x (hhelpers hx)) hclock
  past t ht := Nat.le_trans (h.past t (hsweeps ▸ ht)) hclock

theorem delete (h : Sound s) (folder name : String) : Sound (s.delete folder name) :=
  h.mono (List.filter_subset_self _) rfl rfl (Nat.le_refl _)

theorem saveApp (h : Sound s) (domain : String) : Sound (s.saveApp domain) :=
  h.mono (List.Subset.refl _) rfl rfl (Nat.le_refl _)

theorem deleteApp (h : Sound s) (domain : String) : Sound (s.deleteApp domain) :=
  h.mono (List.Subset.refl _) rfl rfl (Nat.le_refl _)

theorem deleteWebsite (h : Sound s) (domain : String) (files : Bool) :
    Sound (s.deleteWebsite domain files) := by
  unfold Plan.deleteWebsite
  refine Sound.deleteApp ?_ domain
  split
  · exact h.mono (List.filter_subset_self _) rfl rfl (Nat.le_refl _)
  · exact h

/-- A new helper is as old as the last second. -/
theorem write (h : Sound s) {w : Writer} {domain : String} {ident : Hex}
    (hok : s.write w domain ident s.clock = .ok s') : Sound s' := by
  unfold Plan.write at hok
  obtain ⟨source, hsource, hok⟩ := bind_eq_ok.mp hok
  obtain ⟨_, _, hok⟩ := bind_eq_ok.mp hok
  rw [← Except.ok.inj hok]
  exact {
    safe := {
      expired := h.safe.expired
      swept := by
        intro x hx t ht
        rcases List.mem_cons.mp hx with rfl | hx
        · exact Nat.le_trans (h.past t ht) (Nat.le_add_right _ _)
        · exact h.safe.swept x hx t ht }
    built := by
      intro x hx
      rcases List.mem_cons.mp hx with rfl | hx
      · exact ⟨⟨ident, rfl⟩, hsource⟩
      · exact h.built x hx
    written := by
      intro x hx
      rcases List.mem_cons.mp hx with rfl | hx
      · exact Nat.le_refl _
      · exact h.written x hx
    past := h.past }

theorem writeFor (h : Sound s) {w : Writer} {domain : String} {ident : Hex}
    (hok : s.writeFor w domain ident s.clock = .ok s') : Sound s' := by
  cases w with
  | installer => exact (h.saveApp domain).write hok
  | scanner => exact h.write hok
  | copier =>
    obtain ⟨_, _, hok⟩ := bind_eq_ok.mp hok
    exact h.write hok
  | wpTool =>
    obtain ⟨_, _, hok⟩ := bind_eq_ok.mp hok
    exact h.write hok
  | serverTool => exact h.write hok
  | databaseTool => exact h.write hok

theorem copySite (h : Sound s) {target : String} {ident : Hex} {unreached cleaned : Bool}
    (hok : s.copySite target ident s.clock unreached cleaned = .ok s') : Sound s' := by
  unfold Plan.copySite at hok
  obtain ⟨_, _, hok⟩ := bind_eq_ok.mp hok
  obtain ⟨s₁, hwrite, hok⟩ := bind_eq_ok.mp hok
  have h₁ : Sound s₁ := (h.saveApp target).write hwrite
  split at hok
  · rw [← Except.ok.inj hok]
    refine Sound.deleteApp ?_ target
    split
    · exact h₁.delete _ _
    · exact h₁
  · rw [← Except.ok.inj hok]
    exact h₁

/-- A request, where the database tool is not asked late. -/
theorem ask (h : Sound s) {folder name : String} {token : Bool}
    (hmeets : token = true → ∀ x,
      s.helpers.find? (fun x => x.folder = folder ∧ x.name = name) = some x →
      x.writer = .databaseTool → s.clock ≤ x.writtenAt + lifetimeSeconds) :
    Sound (s.ask folder name token s.clock) := by
  unfold Plan.ask
  split
  · exact h
  · next x hx =>
    have hbuilt := (h.built x (List.mem_of_find?_eq_some hx)).2
    -- one that works was asked in time
    have hworked : (serve s.clock token none x.source).worked = true →
        s.clock ≤ x.writtenAt + lifetimeSeconds := by
      intro hw
      cases token with
      | false =>
        rw [serve_without_token hbuilt] at hw
        cases hw
      | true =>
        by_cases hwriter : x.writer = .databaseTool
        · exact hmeets rfl x hx hwriter
        · refine Nat.le_of_not_lt fun hlate => ?_
          rw [serve_source hwriter hbuilt hlate] at hw
          cases hw
    have hafter : ∀ after : Plan, Sound after →
        Sound { after with worked := if (serve s.clock token none x.source).worked
          then (x.writtenAt, s.clock) :: s.worked else s.worked } := by
      intro after ha
      refine { ha with safe := { ha.safe with expired := ?_ } }
      split
      · next hw =>
        intro p hp
        rcases List.mem_cons.mp hp with rfl | hp
        · exact hworked hw
        · exact h.safe.expired p hp
      · exact h.safe.expired
    simp only
    split
    · exact hafter _ (h.delete folder name)
    · exact hafter _ h

/-- A sweep, where what is too old has a name it knows and lies in a folder it visits. -/
theorem sweepAccount (h : Sound s) {ans : Answers}
    (hmeets : ans.failing = [] → ∀ x ∈ s.helpers, x.writtenAt + sweepAfterSeconds < s.clock →
      x.writer ≠ .databaseTool ∧ x.folder ∈ s.visited) :
    Sound (s.sweepAccount s.clock ans).1 := by
  have hsub := sweepFolders_subset s.clock ans s.visited s.helpers
  have hless : Sound { s with helpers := (sweepFolders s.clock ans s.visited s.helpers).1 } :=
    h.mono hsub rfl rfl (Nat.le_refl _)
  unfold Plan.sweepAccount
  simp only
  split
  · next hans =>
    refine { hless with safe := { hless.safe with swept := ?_ }, past := ?_ }
    · intro x hx t ht
      rcases List.mem_cons.mp ht with rfl | ht
      · refine Nat.le_of_not_lt fun hold => ?_
        obtain ⟨hmem, hdue⟩ := (mem_sweepFolders hans).mp hx
        obtain ⟨hwriter, hfolder⟩ := hmeets hans x hmem hold
        obtain ⟨ident, hname⟩ := (h.built x hmem).1
        have hage : sweepAfterSeconds ≤ x.age s.clock ans := by
          unfold Helper.age
          split <;> omega
        have := hdue _ hfolder
        simp [Helper.due, hname, helperName_fileName, hwriter, hage] at this
      · exact hless.safe.swept x hx t ht
    · intro t ht
      rcases List.mem_cons.mp ht with rfl | ht
      · exact Nat.le_refl _
      · exact h.past t ht
  · exact hless

end Sound

/-! ### Whole runs -/

/-- An event that meets the condition leaves a sound plan. -/
theorem Sound.commits {call : Call} {s s' : Plan} {out : List Empty} (hs : Sound s)
    (h : plan.Commits call s s' out) (hmeets : Meets s call s') : Sound s' := by
  obtain ⟨after, event⟩ := call
  have hlater : Sound { s with clock := s.clock + after } :=
    hs.mono (List.Subset.refl _) rfl rfl (Nat.le_add_right _ _)
  cases event with
  | write w domain ident =>
    simp only [Machine.Commits, plan] at h
    obtain ⟨s₁, hok, heq⟩ := map_eq_ok.mp h
    rw [← (Prod.mk.inj heq).1]
    exact hlater.writeFor hok
  | copySite target ident unreached cleaned =>
    simp only [Machine.Commits, plan] at h
    obtain ⟨s₁, hok, heq⟩ := map_eq_ok.mp h
    rw [← (Prod.mk.inj heq).1]
    exact hlater.copySite hok
  | setUp domain =>
    rw [← (Prod.mk.inj (Except.ok.inj h)).1]
    exact hlater.saveApp domain
  | deleteWebsite domain files =>
    rw [← (Prod.mk.inj (Except.ok.inj h)).1]
    exact hlater.deleteWebsite domain files
  | cleanUp folder name =>
    rw [← (Prod.mk.inj (Except.ok.inj h)).1]
    exact hlater.delete folder name
  | ask folder name token =>
    rw [← (Prod.mk.inj (Except.ok.inj h)).1]
    refine hlater.ask fun htoken => ?_
    subst htoken
    exact hmeets
  | sweep ans =>
    rw [← (Prod.mk.inj (Except.ok.inj h)).1]
    exact hlater.sweepAccount hmeets

/-- A database tool that works is asked in time, where the plan is safe. -/
theorem Sound.in_time {s : Plan} {folder name : String} (hs : Sound s)
    (hsafe : Safe (s.ask folder name true s.clock)) {x : Helper}
    (hx : s.helpers.find? (fun x => x.folder = folder ∧ x.name = name) = some x)
    (hwriter : x.writer = .databaseTool) : s.clock ≤ x.writtenAt + lifetimeSeconds := by
  have hbuilt := (hs.built x (List.mem_of_find?_eq_some hx)).2
  rw [hwriter] at hbuilt
  refine hsafe.expired (x.writtenAt, s.clock) ?_
  unfold Plan.ask
  rw [hx]
  simp [serve_databaseTool hbuilt]

/-- What is older than a sweep without a failure allows had a name it knows, and was in a folder it
    visited, where the plan is safe. -/
theorem Sound.in_reach {s : Plan} {ans : Answers} (hs : Sound s)
    (hsafe : Safe (s.sweepAccount s.clock ans).1) (hans : ans.failing = []) {x : Helper}
    (hx : x ∈ s.helpers) (hold : x.writtenAt + sweepAfterSeconds < s.clock) :
    x.writer ≠ .databaseTool ∧ x.folder ∈ s.visited := by
  refine Classical.byContradiction fun hnot => ?_
  obtain ⟨ident, hname⟩ := (hs.built x hx).1
  -- it is due in no folder, so it is still there
  have hleft : x ∈ (s.sweepAccount s.clock ans).1.helpers := by
    rw [show (s.sweepAccount s.clock ans).1.helpers
      = (sweepFolders s.clock ans s.visited s.helpers).1 from rfl, mem_sweepFolders hans]
    refine ⟨hx, fun folder hfolder => ?_⟩
    unfold Helper.due
    by_cases hwriter : x.writer = .databaseTool
    · simp [hname, helperName_fileName, hwriter]
    · have hne : x.folder ≠ folder := fun heq => hnot ⟨hwriter, heq ▸ hfolder⟩
      simp [hne]
  have hswept : s.clock ∈ (s.sweepAccount s.clock ans).1.sweeps := by
    show s.clock ∈ (if ans.failing = [] then s.clock :: s.sweeps else s.sweeps)
    rw [if_pos hans]
    exact List.mem_cons_self
  exact absurd (hsafe.swept x hleft _ hswept) (Nat.not_le_of_lt hold)

/-- A plan without helpers is sound. -/
theorem sound_start (domain : String) (apps : List String) (clock : ℕ) :
    Sound { domain, apps, clock } where
  safe := { expired := fun _ h => absurd h List.not_mem_nil
            swept := fun _ h => absurd h List.not_mem_nil }
  built _ h := absurd h List.not_mem_nil
  written _ h := absurd h List.not_mem_nil
  past _ h := absurd h List.not_mem_nil

/-- **A plan is safe exactly when** the database tool is never asked with its token after its time,
    and whatever a sweep without a failure finds too old is not the database tool, and lies in the
    folder of the plan's own website or of one with a `WebsiteApp`. -/
theorem always_safe_iff (domain : String) (apps : List String) (clock : ℕ) (calls : List Call) :
    plan.Always Safe calls { domain, apps, clock }
      ↔ plan.EachStep Meets calls { domain, apps, clock } := by
  refine Machine.always_iff_eachStep (I := Sound) (fun s hs => hs.safe)
    (fun call s s' out hs h hmeets => hs.commits h hmeets) (fun call s s' out hs h hsafe => ?_)
    calls _ (sound_start domain apps clock)
  obtain ⟨after, event⟩ := call
  have hlater : Sound { s with clock := s.clock + after } :=
    hs.mono (List.Subset.refl _) rfl rfl (Nat.le_add_right _ _)
  cases event with
  | ask folder name token =>
    cases token with
    | false => trivial
    | true =>
      rw [← (Prod.mk.inj (Except.ok.inj h)).1] at hsafe
      exact fun x hx hwriter => hlater.in_time hsafe hx hwriter
  | sweep ans =>
    rw [← (Prod.mk.inj (Except.ok.inj h)).1] at hsafe
    exact fun hans x hx hold => hlater.in_reach hsafe hans hx hold
  | _ => trivial

/-! ### A tool without a time -/

/-- A name for a helper. -/
def someIdent : Hex where
  digits := "0a1b2c3d4e5f6071".toList
  ne_nil := by decide
  isHex := by decide

/-- The database tool is written and never reached; its clean-up fails, and the sweeps go by. -/
def forgottenTool : List Call :=
  [⟨0, .write .databaseTool "" someIdent⟩, ⟨86400, .sweep {}⟩,
    ⟨3600, .ask "public_html" "whp-db-0a1b2c3d4e5f6071.php" true⟩]

/-- It stays, and works a day later. -/
theorem not_always_safe : ¬∀ (domain : String) (apps : List String) (clock : ℕ)
    (calls : List Call), plan.Always Safe calls { domain, apps, clock } := by
  intro h
  have hexpired := (h "acme.com" [] 1700000000 forgottenTool).last.expired
  revert hexpired
  decide +kernel

end WPanel.Hosting.Helpers
