import WPanel.Lib.Routine
import WPanel.Lib.Text
import Mathlib.Data.List.Nodup
import Mathlib.Data.List.TakeDrop
import Mathlib.Logic.Function.Basic

namespace WPanel.Backups.Demo

open WPanel.Lib

/-!
# The backups of the demo provider

`DemoBackups` of `hosting/adapters/demo_backups.py`: a backup is an archive kept beside the account,
with the checksum of every file in it.

* `Archive`, `Row`, `State` — the archives, their index, and what is in the account;
* `checkFile`, `soundCopy` — the trial restore, and which copy of a backup passes it; on a `.json`
  file that is nested too deeply, it raises `RecursionError`, which nothing catches;
* `make` — a new backup, and at most seven of them;
* `restore` — the safety copy, and then each part the backup covers;
* `Restores` — a restore is refused and leaves everything, or brings back what the backup holds;
* `PushedOut`, `Recurses` — the safety copy takes the place of the backup in a full list, and the
  trial restore does not come to an end;
* `restores_iff` — a restore does what it is for, unless one of these two.
-/

/-- The content of a file. -/
abbrev Data := List UInt8

/-- Files under the names they have in an archive. -/
abbrev Files := List (String × Data)

/-- What a backup can cover. -/
inductive Part where
  | files
  | database
  | email
  | settings
  deriving DecidableEq, Repr

/-- The keys of `KINDS`. -/
inductive Kind where
  | files
  | database
  | email
  | full
  deriving DecidableEq, Repr

/-- The parts a backup of a kind covers. -/
def Kind.covers : Kind → Part → Bool
  | .files, p => p = .files
  | .database, p => p = .database
  | .email, p => p = .email
  | .full, _ => true

/-- `MAX_BACKUPS`. -/
def maxBackups : ℕ := 7

/-- `MAX_BYTES`. -/
def maxBytes : ℕ := 300000000

/-- `SETTINGS`, under their names in an archive. -/
def settingNames : List String :=
  ["state/domains.json", "state/ssl.json", "state/php.json", "state/cron.json", "state/ftp.json",
    "state/ip_rules.json"]

/-- Which part of the account a name in an archive belongs to. -/
def Part.holds : Part → String → Bool
  | .files, name => startsWith name "files/"
  | .database, name => name = "state/databases.json" || startsWith name "state/data/"
  | .email, name => name = "state/email.json"
  | .settings, name => name ∈ settingNames

/-- A zip file: `MANIFEST.json` and its other members.  It is intact if `testzip` finds nothing. -/
structure Archive where
  kind : Kind
  checksums : List (String × String)
  members : Files
  intact : Bool
  deriving DecidableEq

/-- An entry of `backups.json`. -/
structure Row where
  id : String
  kind : Kind
  createdAt : ℕ
  sha256 : String
  source : String
  offsite : Option String
  verified : String := ""
  verifiedAt : Option ℕ := none
  deriving DecidableEq, Repr

/-- How `json.loads` ends: with a value, with a `ValueError`, or, where the file is nested too
    deeply, with a `RecursionError`. -/
inductive Loaded where
  | value
  | malformed
  | tooDeep
  deriving DecidableEq, Repr

/-- What the provider's own libraries say of a file. -/
structure Library where
  sha256 : Data → String
  archiveSha256 : Archive → String
  loads : Data → Loaded
  /-- What `PRAGMA integrity_check` answers, if it is a database at all. -/
  integrityCheck : Data → Option String

/-- An account of the demo provider and its backups, the newest first. -/
structure State where
  parts : Part → Files
  rows : List Row
  /-- `backups/<id>.zip`. -/
  archives : String → Option Archive
  /-- `<id>.zip` in the off-server folder. -/
  away : String → Option Archive
  /-- `options().offsite`. -/
  offsite : Bool

/-- `HostingError`, or one of the two errors that nothing catches. -/
inductive Failure where
  | hosting (message : String)
  | fileNotFound
  | recursion
  deriving DecidableEq, Repr

/-! ### Checking a copy -/

/-- `_safe`. -/
def safe (name : String) : Bool :=
  name ≠ "" && !startsWith name "/" && '\\' ∉ name.toList && ".." ∉ splitOn '/' name
    && Char.ofNat 0 ∉ name.toList

variable (lib : Library)

/-- One turn of the loop of `_trial_restore`.  A `RecursionError` is none of the errors that
    `_trial_restore` turns into an answer. -/
def memberProblem (archive : Archive) (member : String × Data) : Except Failure (Option String) :=
  let (name, data) := member
  if archive.checksums.lookup name ≠ some (lib.sha256 data) then
    .ok (some ("A file in the backup (" ++ name ++ ") does not match what was saved."))
  else if endsWith name ".json" then
    match lib.loads data with
    | .value => .ok none
    | .malformed => .ok (some "The backup cannot be read back.")
    | .tooDeep => .error .recursion
  else if endsWith name ".sqlite3" then
    match lib.integrityCheck data with
    | none => .ok (some "The backup cannot be read back.")
    | some answer =>
      if answer ≠ "ok" then
        .ok (some ("The database " ++ (splitOn '/' name).getLastD "" ++
          " in the backup is damaged."))
      else .ok none
  else .ok none

/-- The names in an archive are those its manifest records. -/
def Archive.Complete (archive : Archive) : Prop :=
  (∀ name ∈ archive.members.map Prod.fst, name ∈ archive.checksums.map Prod.fst)
    ∧ ∀ name ∈ archive.checksums.map Prod.fst, name ∈ archive.members.map Prod.fst

instance (archive : Archive) : Decidable archive.Complete :=
  inferInstanceAs (Decidable (_ ∧ _))

/-- `_trial_restore`. -/
def trialRestore (archive : Archive) : Except Failure (Option String) :=
  if ¬archive.Complete then
    .ok (some "The backup is incomplete: its contents do not match what was recorded.")
  else archive.members.findSomeM? (memberProblem lib archive)

/-- `_check_file`. -/
def checkFile (copy : Option Archive) (sha256 : String) : Except Failure (Option String) :=
  match copy with
  | none => .ok (some "The backup file is missing.")
  | some archive =>
    if lib.archiveSha256 archive ≠ sha256 then
      .ok (some "The backup file has changed since it was made.")
    else if archive.intact = false then .ok (some "The backup file is damaged.")
    else if archive.members.any (fun member => !safe member.1) then
      .ok (some "The backup holds unsafe file names.")
    else trialRestore lib archive

/-- `_sound_copy`: what is wrong with the backup, if anything is.  A lost local copy is made
    again from the off-server one. -/
def soundCopy (row : Row) : Routine State Failure (Option String) := fun s =>
  match checkFile lib (s.archives row.id) row.sha256 with
  | .error e => (.error e, s)
  | .ok none => (.ok none, s)
  | .ok (some problem) =>
    if row.offsite.isSome then
      match checkFile lib (s.away row.id) row.sha256 with
      | .error e => (.error e, s)
      | .ok none =>
        (.ok none, { s with archives := Function.update s.archives row.id (s.away row.id) })
      | .ok (some _) => (.ok (some problem), s)
    else (.ok (some problem), s)

/-! ### Making one -/

/-- `_members`. -/
def members (s : State) (kind : Kind) : Files :=
  [Part.files, .database, .email, .settings].flatMap fun p =>
    if kind.covers p then s.parts p else []

/-- The archive `_make` writes. -/
def packed (s : State) (kind : Kind) : Archive where
  kind
  checksums := (members s kind).map fun member => (member.1, lib.sha256 member.2)
  members := members s kind
  intact := true

/-- `row`, as `_make` records it. -/
def newRow (s : State) (kind : Kind) (source id : String) (now : ℕ) : Row where
  id
  kind
  createdAt := now
  sha256 := lib.archiveSha256 (packed lib s kind)
  source
  offsite := if s.offsite then some "ok" else none

/-- The size of files. -/
def size (files : Files) : ℕ := (files.map fun member => member.2.length).sum

/-- `unlink(missing_ok=True)` of every archive of a list. -/
def unlink (rows : List Row) (archives : String → Option Archive) : String → Option Archive :=
  fun id => if id ∈ rows.map Row.id then none else archives id

/-- What `_make` leaves. -/
def stored (s : State) (kind : Kind) (source id : String) (now : ℕ) : State :=
  let rows := newRow lib s kind source id now :: s.rows
  let archive := some (packed lib s kind)
  { s with
    rows := rows.take maxBackups
    archives := unlink (rows.drop maxBackups) (Function.update s.archives id archive)
    away := unlink (rows.drop maxBackups)
      (if s.offsite then Function.update s.away id archive else s.away) }

/-- `_make`. -/
def make (kind : Kind) (source id : String) (now : ℕ) : Routine State Failure PUnit := do
  let s ← Routine.read fun s => s
  Routine.check (if maxBytes < size (members s kind) then .error (.hosting
      "This is too large to back up here. Remove files you do not need and try again.")
    else .ok ())
  Routine.change fun s => stored lib s kind source id now

/-! ### Restoring one -/

/-- What an archive holds of a part. -/
def Archive.held (archive : Archive) (p : Part) : Files :=
  archive.members.filter fun member => p.holds member.1

/-- `_extract`. -/
def extract (p : Part) (member : String × Data) : Routine State Failure PUnit := do
  Routine.check (if safe member.1 then .ok () else
    .error (.hosting "The backup holds an unsafe file name, so it was not restored."))
  Routine.change fun s =>
    { s with parts := Function.update s.parts p (s.parts p ++ [member]) }

/-- A part is cleared and read back. -/
def restorePart (kind : Kind) (archive : Archive) (p : Part) : Routine State Failure PUnit :=
  if kind.covers p then do
    Routine.change fun s => { s with parts := Function.update s.parts p [] }
    (archive.held p).forM (extract p)
  else pure ⟨⟩

/-- The second half of `restore`: what the archive holds is read back. -/
def readBack (row : Row) : Routine State Failure PUnit := do
  match ← Routine.read fun s => s.archives row.id with
  | none => Routine.check (.error .fileNotFound)
  | some archive =>
    [Part.files, .database, .email, .settings].forM (restorePart row.kind archive)

/-- `restore` of a backup that is listed; `newId` and `now` are of the safety copy. -/
def restoreRow (newId : String) (now : ℕ) (row : Row) : Routine State Failure PUnit := do
  match ← soundCopy lib row with
  | some problem =>
    Routine.check (.error (.hosting (problem ++ " It was not restored and nothing was changed.")))
  | none =>
    make lib row.kind "before restore" newId now  -- a way back
    readBack row

/-- `restore`. -/
def restore (newId : String) (now : ℕ) (id : String) : Routine State Failure PUnit := do
  match ← Routine.read fun s => s.rows.find? (·.id = id) with
  | none => Routine.check (.error (.hosting "That backup no longer exists."))
  | some row => restoreRow lib newId now row

/-! ### What a restore is for -/

/-- The archive a restore of a backup would read, if one of its copies is sound. -/
def copyOf (s : State) (row : Row) : Option Archive :=
  match checkFile lib (s.archives row.id) row.sha256 with
  | .error _ => none
  | .ok none => s.archives row.id
  | .ok (some _) =>
    if row.offsite.isSome ∧ checkFile lib (s.away row.id) row.sha256 = .ok none then s.away row.id
    else none

/-- The index of an account: every backup has an id of its own, and there are at most seven. -/
structure Sound (s : State) : Prop where
  nodup : (s.rows.map Row.id).Nodup
  few : s.rows.length ≤ maxBackups

/-- The account and all its backups are left. -/
structure Untouched (s s' : State) : Prop where
  parts : s'.parts = s.parts
  rows : s'.rows = s.rows
  copies : ∀ row ∈ s.rows, copyOf lib s' row = copyOf lib s row

/-- What a backup covers is as in its archive, and the rest is left.  A copy of what was there
    is in the list, and so is the backup. -/
structure BringsBack (s : State) (row : Row) (archive : Archive) (s' : State) : Prop where
  covered : ∀ p, row.kind.covers p = true → s'.parts p = archive.held p
  others : ∀ p, row.kind.covers p = false → s'.parts p = s.parts p
  safety : ∃ copy ∈ s'.rows, copy.source = "before restore" ∧ copy.kind = row.kind
    ∧ s'.archives copy.id = some (packed lib s row.kind)
  listed : row ∈ s'.rows
  copy : copyOf lib s' row = some archive

/-- **A restore is refused and leaves everything, or brings back what the backup holds.** -/
def Restores (s : State) (row : Row) : Except Failure PUnit × State → Prop
  | (.error e, s') => (∃ message, e = .hosting message) ∧ Untouched lib s s'
  | (.ok _, s') => ∃ archive, copyOf lib s row = some archive ∧ BringsBack lib s row archive s'

/-- The safety copy takes the place of the backup itself: one of its copies is sound, there is room
    for the safety copy, and the backup is the oldest of a full list. -/
structure PushedOut (s : State) (row : Row) : Prop where
  sound : copyOf lib s row ≠ none
  fits : size (members s row.kind) ≤ maxBytes
  full : s.rows.length = maxBackups
  oldest : s.rows.getLast? = some row

/-- The trial restore of a copy comes to a `.json` file that is nested too deeply: nothing is wrong
    with the copy as a whole, and nothing with the files before that one. -/
structure Nested (archive : Archive) (sha256 : String) : Prop where
  unchanged : lib.archiveSha256 archive = sha256
  intact : archive.intact = true
  safe : ∀ member ∈ archive.members, safe member.1 = true
  complete : archive.Complete
  deep : ∃ before member after, archive.members = before ++ member :: after
    ∧ (∀ m ∈ before, memberProblem lib archive m = .ok none)
    ∧ archive.checksums.lookup member.1 = some (lib.sha256 member.2)
    ∧ endsWith member.1 ".json" = true ∧ lib.loads member.2 = .tooDeep

/-- Such a file is in the copy that is checked: in the local one, or, where that one is lost or has
    something wrong with it, in the off-server one. -/
def Recurses (s : State) (row : Row) : Prop :=
  (∃ archive, s.archives row.id = some archive ∧ Nested lib archive row.sha256)
    ∨ (∃ problem, checkFile lib (s.archives row.id) row.sha256 = .ok (some problem))
      ∧ row.offsite.isSome = true ∧ ∃ archive, s.away row.id = some archive
        ∧ Nested lib archive row.sha256

section

variable {lib} {s : State} {row : Row} {archive : Archive} {sha256 : String}

/-! ### The trial restore -/

/-- A check of many files says nothing if the check of each says nothing. -/
theorem findSomeM?_eq_ok_none {α β : Type} {f : α → Except Failure (Option β)} {l : List α} :
    l.findSomeM? f = .ok none ↔ ∀ a ∈ l, f a = .ok none := by
  induction l with
  | nil => exact iff_of_true rfl nofun
  | cons a l ih =>
    rw [List.findSomeM?_cons, List.forall_mem_cons, ← ih]
    cases hone : f a with
    | error e => exact iff_of_false nofun fun h => nomatch h.1
    | ok found =>
      cases found with
      | some b => exact iff_of_false nofun fun h => nomatch h.1
      | none => exact ⟨fun h => ⟨rfl, h⟩, And.right⟩

/-- It raises what the first check raises that says anything. -/
theorem findSomeM?_eq_error {α β : Type} {f : α → Except Failure (Option β)} {l : List α}
    {e : Failure} : l.findSomeM? f = .error e ↔ ∃ before a after, l = before ++ a :: after
      ∧ (∀ b ∈ before, f b = .ok none) ∧ f a = .error e := by
  induction l with
  | nil =>
    refine iff_of_false nofun ?_
    rintro ⟨before, a, after, h, -⟩
    cases before <;> cases h
  | cons a l ih =>
    rw [List.findSomeM?_cons]
    constructor
    · intro h
      cases hone : f a with
      | error e' =>
        rw [hone] at h
        cases h
        exact ⟨[], a, l, rfl, nofun, hone⟩
      | ok found =>
        rw [hone] at h
        cases found with
        | some b => cases h
        | none =>
          obtain ⟨before, b, after, rfl, hbefore, hb⟩ := ih.mp h
          exact ⟨a :: before, b, after, rfl, List.forall_mem_cons.mpr ⟨hone, hbefore⟩, hb⟩
    · rintro ⟨before, b, after, heq, hbefore, hb⟩
      cases before with
      | nil =>
        obtain ⟨rfl, rfl⟩ := List.cons.inj heq
        rw [hb]
        rfl
      | cons c before =>
        obtain ⟨rfl, rfl⟩ := List.cons.inj heq
        rw [hbefore a List.mem_cons_self]
        exact ih.mpr ⟨before, b, after, rfl, fun m hm => hbefore m (List.mem_cons_of_mem _ hm), hb⟩

/-- Only `json.loads` raises what is not turned into an answer. -/
theorem memberProblem_eq_error {member : String × Data} {e : Failure} :
    memberProblem lib archive member = .error e ↔ e = .recursion
      ∧ archive.checksums.lookup member.1 = some (lib.sha256 member.2)
      ∧ endsWith member.1 ".json" = true ∧ lib.loads member.2 = .tooDeep := by
  unfold memberProblem
  dsimp only
  constructor
  · intro h
    split at h
    · cases h
    · next hsum =>
      split at h
      · next hjson =>
        split at h
        · cases h
        · cases h
        · next hdeep =>
          cases h
          exact ⟨rfl, not_not.mp hsum, hjson, hdeep⟩
      · repeat' split at h
        all_goals cases h
  · rintro ⟨rfl, hsum, hjson, hdeep⟩
    rw [if_neg (not_not.mpr hsum), if_pos hjson, hdeep]

/-- **A check raises exactly on files that are nested too deeply.** -/
theorem checkFile_eq_error {e : Failure} :
    checkFile lib (some archive) sha256 = .error e ↔ e = .recursion
      ∧ Nested lib archive sha256 := by
  constructor
  · intro h
    unfold checkFile at h
    dsimp only at h
    split at h
    · cases h
    · next hsha =>
      split at h
      · cases h
      · next hintact =>
        split at h
        · cases h
        · next hsafe =>
          unfold trialRestore at h
          split at h
          · cases h
          · next hcomplete =>
            obtain ⟨before, member, after, heq, hbefore, hraises⟩ := findSomeM?_eq_error.mp h
            obtain ⟨rfl, hsum, hjson, hdeep⟩ := memberProblem_eq_error.mp hraises
            have hall : ∀ m ∈ archive.members, safe m.1 = true := by
              intro m hm
              by_contra hunsafe
              exact hsafe (List.any_eq_true.mpr ⟨m, hm, by simpa using hunsafe⟩)
            exact ⟨rfl, not_not.mp hsha, by simpa using hintact, hall, not_not.mp hcomplete,
              before, member, after, heq, hbefore, hsum, hjson, hdeep⟩
  · rintro ⟨rfl, hnested⟩
    obtain ⟨before, member, after, heq, hbefore, hsum, hjson, hdeep⟩ := hnested.deep
    have hsafe : ¬archive.members.any (fun member => !safe member.1) = true := by
      simpa using fun a b hm => hnested.safe (a, b) hm
    unfold checkFile
    dsimp only
    rw [if_neg (not_not.mpr hnested.unchanged), if_neg (by rw [hnested.intact]; decide),
      if_neg hsafe, trialRestore, if_neg (not_not.mpr hnested.complete)]
    exact findSomeM?_eq_error.mpr ⟨before, member, after, heq, hbefore,
      memberProblem_eq_error.mpr ⟨rfl, hsum, hjson, hdeep⟩⟩

/-! ### The copy that is read -/

theorem checkFile_none (sha256 : String) :
    checkFile lib none sha256 = .ok (some "The backup file is missing.") := rfl

theorem ne_none_of_checkFile {copy : Option Archive} (h : checkFile lib copy sha256 = .ok none) :
    copy ≠ none := by
  rintro rfl
  rw [checkFile_none] at h
  cases h

/-- The copy that is read passes every check. -/
theorem checkFile_copyOf (h : copyOf lib s row = some archive) :
    checkFile lib (some archive) row.sha256 = .ok none := by
  unfold copyOf at h
  split at h
  · cases h
  · next hlocal => rwa [h] at hlocal
  · split at h
    · next haway =>
      rw [h] at haway
      exact haway.2
    · cases h

/-- A sound local copy is the one that is read. -/
theorem copyOf_of_local (h : checkFile lib (s.archives row.id) row.sha256 = .ok none) :
    copyOf lib s row = s.archives row.id := by
  rw [copyOf, h]

/-- Names that pass the checks are safe. -/
theorem safe_of_checkFile (h : checkFile lib (some archive) sha256 = .ok none)
    {member : String × Data} (hmember : member ∈ archive.members) : safe member.1 = true := by
  unfold checkFile at h
  dsimp only at h
  split at h
  · cases h
  · split at h
    · cases h
    · split at h
      · cases h
      · next hsafe =>
        rw [List.any_eq_true, not_exists] at hsafe
        simpa [hmember] using hsafe member

/-- A copy raises if it is an archive with such a file. -/
theorem checkFile_nested {copy : Option Archive} {e : Failure}
    (h : checkFile lib copy sha256 = .error e) :
    e = .recursion ∧ ∃ archive, copy = some archive ∧ Nested lib archive sha256 := by
  cases copy with
  | none => cases h
  | some archive =>
    obtain ⟨rfl, hnested⟩ := checkFile_eq_error.mp h
    exact ⟨rfl, archive, rfl, hnested⟩

/-- No copy is read, and nothing is done. -/
theorem soundCopy_of_recurses (h : Recurses lib s row) :
    copyOf lib s row = none ∧ soundCopy lib row s = (.error .recursion, s) := by
  rcases h with ⟨archive, hlocal, hnested⟩ | ⟨⟨problem, hlocal⟩, hoffsite, archive, haway, hnested⟩
  · have hraises := checkFile_eq_error.mpr ⟨rfl, hnested⟩
    rw [← hlocal] at hraises
    simp only [copyOf, soundCopy, hraises, and_self]
  · have hraises := checkFile_eq_error.mpr ⟨rfl, hnested⟩
    rw [← haway] at hraises
    simp only [copyOf, soundCopy, hlocal, hoffsite, hraises, reduceCtorEq, and_false, if_false,
      if_true, and_self]

/-- No copy is sound, and a check says so. -/
theorem soundCopy_of_none (h : copyOf lib s row = none) (hends : ¬Recurses lib s row) :
    ∃ problem, soundCopy lib row s = (.ok (some problem), s) := by
  unfold copyOf at h
  unfold soundCopy
  cases hlocal : checkFile lib (s.archives row.id) row.sha256 with
  | error e => exact absurd (.inl (checkFile_nested hlocal).2) hends
  | ok found =>
    cases found with
    | none =>
      rw [hlocal] at h
      exact absurd h (ne_none_of_checkFile hlocal)
    | some problem =>
      refine ⟨problem, ?_⟩
      rw [hlocal] at h
      dsimp only at h ⊢
      by_cases hoffsite : row.offsite.isSome = true
      · rw [if_pos hoffsite]
        cases haway : checkFile lib (s.away row.id) row.sha256 with
        | error e =>
          exact absurd (.inr ⟨⟨problem, hlocal⟩, hoffsite, (checkFile_nested haway).2⟩) hends
        | ok found =>
          cases found with
          | none =>
            rw [if_pos ⟨hoffsite, haway⟩] at h
            exact absurd h (ne_none_of_checkFile haway)
          | some _ => rfl
      · rw [if_neg hoffsite]

/-- The local copy of a backup is an archive, whatever it was. -/
def repaired (s : State) (row : Row) (archive : Archive) : State :=
  { s with archives := Function.update s.archives row.id (some archive) }

theorem archives_repaired (s : State) (row : Row) (archive : Archive) :
    (repaired s row archive).archives row.id = some archive := by
  show Function.update s.archives row.id (some archive) row.id = _
  rw [Function.update_self]

/-- A sound copy is in its place afterwards. -/
theorem soundCopy_of_some (h : copyOf lib s row = some archive) :
    soundCopy lib row s = (.ok none, repaired s row archive) := by
  unfold copyOf at h
  unfold soundCopy repaired
  cases hlocal : checkFile lib (s.archives row.id) row.sha256 with
  | error e =>
    rw [hlocal] at h
    cases h
  | ok found =>
    rw [hlocal] at h
    cases found with
    | none =>
      dsimp only at h ⊢
      rw [← h, Function.update_eq_self]
    | some problem =>
      dsimp only at h ⊢
      split at h
      · next haway => rw [if_pos haway.1, haway.2, h]
      · cases h

/-- A copy that is put back where it was lost is no other than the one that was read before. -/
theorem copyOf_repaired (hs : Sound s) (hrow : row ∈ s.rows) (h : copyOf lib s row = some archive)
    {other : Row} (hother : other ∈ s.rows) :
    copyOf lib (repaired s row archive) other = copyOf lib s other := by
  unfold repaired
  by_cases hid : other.id = row.id
  · obtain rfl : other = row := List.inj_on_of_nodup_map hs.nodup hother hrow hid
    rw [h, copyOf]
    simp only [Function.update_self, checkFile_copyOf h]
  · unfold copyOf
    simp only [Function.update_of_ne hid]

/-! ### The parts that are read back -/

theorem extract_safe {files : Files} (hsafe : ∀ member ∈ files, safe member.1 = true) (p : Part)
    (s : State) : files.forM (extract p) s
      = (.ok ⟨⟩, { s with parts := Function.update s.parts p (s.parts p ++ files) }) := by
  induction files generalizing s with
  | nil =>
    show (_, s) = _
    rw [List.append_nil, Function.update_eq_self]
  | cons member files ih =>
    have hone : extract p member s
        = (.ok ⟨⟩, { s with parts := Function.update s.parts p (s.parts p ++ [member]) }) := by
      simp [extract, Routine.bind_apply, hsafe member List.mem_cons_self]
    refine (Routine.bind_of_ok hone).trans ?_
    rw [ih fun m hm => hsafe m (List.mem_cons_of_mem _ hm)]
    simp

theorem restorePart_safe (hsafe : ∀ member ∈ archive.members, safe member.1 = true) (kind : Kind)
    (p : Part) (s : State) : restorePart kind archive p s
      = (.ok ⟨⟩, { s with parts := if kind.covers p then Function.update s.parts p (archive.held p)
                                   else s.parts }) := by
  unfold restorePart
  split
  · refine (Routine.bind_of_ok (Routine.change_apply _ s)).trans ?_
    have hheld : ∀ m ∈ archive.held p, safe m.1 = true :=
      fun m hm => hsafe m (List.mem_filter.mp hm).1
    rw [extract_safe hheld]
    simp
  · rfl

/-- Every part that is covered is as the archive holds it. -/
theorem restoreParts_safe (hsafe : ∀ member ∈ archive.members, safe member.1 = true) (kind : Kind)
    (parts : List Part) (s : State) : parts.forM (restorePart kind archive) s
      = (.ok ⟨⟩, { s with parts := fun p =>
          if p ∈ parts ∧ kind.covers p then archive.held p else s.parts p }) := by
  induction parts generalizing s with
  | nil =>
    show (_, s) = _
    simp
  | cons q parts ih =>
    refine (Routine.bind_of_ok (restorePart_safe hsafe kind q s)).trans ?_
    rw [ih]
    congr 2
    funext p
    by_cases hin : p ∈ parts ∧ kind.covers p = true
    · rw [if_pos hin, if_pos ⟨List.mem_cons_of_mem _ hin.1, hin.2⟩]
    · rw [if_neg hin]
      by_cases hpq : p = q
      · subst hpq
        by_cases hcovers : kind.covers p = true <;> simp [hcovers]
      · have : ¬(p ∈ q :: parts ∧ kind.covers p = true) := fun h =>
          hin ⟨(List.mem_cons.mp h.1).resolve_left hpq, h.2⟩
        rw [if_neg this]
        split
        · exact Function.update_of_ne hpq _ _
        · rfl

end

/-! ### Whether the backup is pushed out -/

section

variable {lib} {s : State} {row : Row} {archive : Archive} {kind : Kind} {source newId : String}
  {now : ℕ}

/-- Of the old backups, at most the oldest of a full list is dropped. -/
theorem dropped_iff (hs : Sound s) (hrow : row ∈ s.rows) :
    row.id ∈ (s.rows.drop (maxBackups - 1)).map Row.id
      ↔ s.rows.length = maxBackups ∧ s.rows.getLast? = some row := by
  have hfew := hs.few
  have hid : row.id ∈ (s.rows.drop (maxBackups - 1)).map Row.id
      ↔ row ∈ s.rows.drop (maxBackups - 1) := by
    refine ⟨fun h => ?_, fun h => List.mem_map_of_mem h⟩
    obtain ⟨other, hother, heq⟩ := List.mem_map.mp h
    exact List.inj_on_of_nodup_map hs.nodup (List.mem_of_mem_drop hother) hrow heq ▸ hother
  rw [hid]
  by_cases hfull : s.rows.length = maxBackups
  · have hne : s.rows ≠ [] := List.ne_nil_of_mem hrow
    have hlast : s.rows.drop (maxBackups - 1) = [s.rows.getLast hne] := by
      rw [← hfull]
      exact List.drop_length_sub_one hne
    rw [hlast, List.mem_singleton, List.getLast?_eq_some_getLast hne, Option.some.injEq]
    exact ⟨fun h => ⟨hfull, h.symm⟩, fun h => h.2.symm⟩
  · have hnone : s.rows.drop (maxBackups - 1) = [] :=
      List.drop_eq_nil_of_le (by omega)
    rw [hnone]
    exact ⟨fun h => absurd h List.not_mem_nil, fun h => absurd h.1 hfull⟩

/-- The archive of an old backup is deleted if the backup is dropped. -/
theorem archives_stored (hne : row.id ≠ newId) :
    (stored lib s kind source newId now).archives row.id
      = if row.id ∈ (s.rows.drop (maxBackups - 1)).map Row.id then none
        else s.archives row.id := by
  show unlink (s.rows.drop (maxBackups - 1)) _ row.id = _
  rw [unlink, Function.update_of_ne hne]

/-- The new archive is there. -/
theorem archives_stored_new (hnew : newId ∉ s.rows.map Row.id) :
    (stored lib s kind source newId now).archives newId = some (packed lib s kind) := by
  show unlink (s.rows.drop (maxBackups - 1)) _ newId = _
  rw [unlink, if_neg, Function.update_self]
  exact fun h => hnew (List.map_subset _ (List.drop_subset _ _) h)

theorem find_row (hs : Sound s) (hrow : row ∈ s.rows) :
    s.rows.find? (·.id = row.id) = some row := by
  cases hfind : s.rows.find? (·.id = row.id) with
  | none => simpa using List.find?_eq_none.mp hfind row hrow
  | some other =>
    have hfound := List.find?_some hfind
    have hid : other.id = row.id := of_decide_eq_true hfound
    rw [List.inj_on_of_nodup_map hs.nodup (List.mem_of_find?_eq_some hfind) hrow hid]

/-! ### The five ways a restore ends -/

theorem restoreRow_recurses (h : Recurses lib s row) :
    restoreRow lib newId now row s = (.error .recursion, s) :=
  Routine.bind_of_error (soundCopy_of_recurses h).2

theorem restoreRow_unsound (h : copyOf lib s row = none) (hends : ¬Recurses lib s row) :
    ∃ message, restoreRow lib newId now row s = (.error (.hosting message), s) := by
  obtain ⟨problem, hsound⟩ := soundCopy_of_none h hends
  exact ⟨_, Routine.bind_of_ok hsound⟩

/-- Only a lost copy was put back. -/
theorem restoreRow_tooLarge (h : copyOf lib s row = some archive)
    (hlarge : maxBytes < size (members s row.kind)) :
    ∃ message, restoreRow lib newId now row s
      = (.error (.hosting message), repaired s row archive) := by
  have hmake : make lib row.kind "before restore" newId now (repaired s row archive)
      = (.error (.hosting
          "This is too large to back up here. Remove files you do not need and try again."),
        repaired s row archive) := by
    have hmembers : members (repaired s row archive) row.kind = members s row.kind := rfl
    simp only [make, Routine.bind_apply, Routine.read_apply, hmembers, if_pos hlarge,
      Routine.check_apply]
  exact ⟨_, (Routine.bind_of_ok (soundCopy_of_some h)).trans (Routine.bind_of_error hmake)⟩

/-- The safety copy is stored, and the archive is looked for. -/
theorem restoreRow_stored (h : copyOf lib s row = some archive)
    (hfits : ¬maxBytes < size (members s row.kind)) :
    restoreRow lib newId now row s
      = readBack row (stored lib (repaired s row archive) row.kind "before restore" newId now) := by
  have hmake : make lib row.kind "before restore" newId now (repaired s row archive)
      = (.ok ⟨⟩, stored lib (repaired s row archive) row.kind "before restore" newId now) := by
    have hmembers : members (repaired s row archive) row.kind = members s row.kind := rfl
    simp only [make, Routine.bind_apply, Routine.read_apply, hmembers, if_neg hfits,
      Routine.check_apply, Routine.change_apply]
  exact (Routine.bind_of_ok (soundCopy_of_some h)).trans (Routine.bind_of_ok hmake)

theorem restoreRow_gone (h : copyOf lib s row = some archive)
    (hfits : ¬maxBytes < size (members s row.kind))
    (hgone : (stored lib (repaired s row archive) row.kind "before restore" newId now).archives
      row.id = none) :
    restoreRow lib newId now row s = (.error .fileNotFound,
      stored lib (repaired s row archive) row.kind "before restore" newId now) := by
  rw [restoreRow_stored h hfits]
  refine (Routine.bind_of_ok (Routine.read_apply _ _)).trans ?_
  rw [hgone]
  rfl

theorem restoreRow_done (h : copyOf lib s row = some archive)
    (hfits : ¬maxBytes < size (members s row.kind))
    (hthere : (stored lib (repaired s row archive) row.kind "before restore" newId now).archives
      row.id = some archive) :
    restoreRow lib newId now row s
      = (.ok ⟨⟩, { stored lib (repaired s row archive) row.kind "before restore" newId now with
          parts := fun p => if row.kind.covers p then archive.held p else s.parts p }) := by
  rw [restoreRow_stored h hfits]
  refine (Routine.bind_of_ok (Routine.read_apply _ _)).trans ?_
  rw [hthere]
  refine (restoreParts_safe (fun m hm => safe_of_checkFile (checkFile_copyOf h) hm) _ _ _).trans ?_
  congr 2
  funext p
  have hall : p ∈ [Part.files, .database, .email, .settings] := by cases p <;> decide
  simp only [hall, true_and]
  rfl

/-- A restore of a backup that is listed. -/
theorem restore_eq (hs : Sound s) (hrow : row ∈ s.rows) :
    restore lib newId now row.id s = restoreRow lib newId now row s := by
  refine (Routine.bind_of_ok (Routine.read_apply _ s)).trans ?_
  rw [find_row hs hrow]

/-- What the safety copy leaves of the old archives. -/
theorem archives_safety (lib : Library) (s : State) (archive : Archive) (now : ℕ)
    (hne : row.id ≠ newId) :
    (stored lib (repaired s row archive) row.kind "before restore" newId now).archives row.id
      = if row.id ∈ (s.rows.drop (maxBackups - 1)).map Row.id then none
        else (repaired s row archive).archives row.id :=
  archives_stored hne

/-- The archive was deleted with the oldest entry. -/
theorem restore_gone (hs : Sound s) (hrow : row ∈ s.rows) (hnew : newId ∉ s.rows.map Row.id)
    (h : copyOf lib s row = some archive) (hfits : ¬maxBytes < size (members s row.kind))
    (hdropped : s.rows.length = maxBackups ∧ s.rows.getLast? = some row) :
    (restore lib newId now row.id s).1 = .error .fileNotFound := by
  have hne : row.id ≠ newId := fun heq => hnew (heq ▸ List.mem_map_of_mem hrow)
  have harchive := archives_safety lib s archive now hne
  rw [restore_eq hs hrow,
    restoreRow_gone h hfits (harchive.trans (if_pos ((dropped_iff hs hrow).mpr hdropped)))]

/-- The archive is still there, and is read back. -/
theorem restore_done (hs : Sound s) (hrow : row ∈ s.rows) (hnew : newId ∉ s.rows.map Row.id)
    (h : copyOf lib s row = some archive) (hfits : ¬maxBytes < size (members s row.kind))
    (hkept : ¬(s.rows.length = maxBackups ∧ s.rows.getLast? = some row)) :
    ∃ s', restore lib newId now row.id s = (.ok ⟨⟩, s') ∧ BringsBack lib s row archive s' := by
  have hne : row.id ≠ newId := fun heq => hnew (heq ▸ List.mem_map_of_mem hrow)
  have hout : row.id ∉ (s.rows.drop (maxBackups - 1)).map Row.id :=
    fun hin => hkept ((dropped_iff hs hrow).mp hin)
  have harchive := archives_safety lib s archive now hne
  have hthere := (harchive.trans (if_neg hout)).trans (archives_repaired s row archive)
  refine ⟨_, (restore_eq hs hrow).trans (restoreRow_done h hfits hthere), ?_⟩
  exact
    { covered := fun p hp => if_pos hp
      others := fun p hp => if_neg (by rw [hp]; exact Bool.false_ne_true)
      safety := ⟨_, List.mem_cons_self, rfl, rfl, archives_stored_new hnew⟩
      listed := by
        refine List.mem_cons_of_mem _ ?_
        have hmem := hrow
        rw [← List.take_append_drop (maxBackups - 1) s.rows, List.mem_append] at hmem
        exact hmem.resolve_right fun hin => hout (List.mem_map_of_mem hin)
      copy := by
        have hcheck := checkFile_copyOf h
        rw [← hthere] at hcheck
        exact (copyOf_of_local hcheck).trans hthere }

end

/-- **A restore does what it is for, unless the safety copy pushes the backup out**, or the trial
    restore raises on a `.json` file that is nested too deeply. -/
theorem restores_iff {s : State} {row : Row} (hs : Sound s) (hrow : row ∈ s.rows)
    {newId : String} (hnew : newId ∉ s.rows.map Row.id) (now : ℕ) :
    Restores lib s row (restore lib newId now row.id s)
      ↔ ¬PushedOut lib s row ∧ ¬Recurses lib s row := by
  cases hcopy : copyOf lib s row with
  | none =>
    by_cases hends : Recurses lib s row
    · have hrun : restoreRow lib newId now row s = (.error .recursion, s) :=
        restoreRow_recurses hends
      rw [restore_eq hs hrow, hrun]
      refine iff_of_false ?_ fun h => h.2 hends
      rintro ⟨⟨message, hmessage⟩, -⟩
      cases hmessage
    · obtain ⟨message, hrun⟩ : ∃ message, restoreRow lib newId now row s
          = (.error (.hosting message), s) := restoreRow_unsound hcopy hends
      rw [restore_eq hs hrow, hrun]
      exact iff_of_true ⟨⟨_, rfl⟩, rfl, rfl, fun _ _ => rfl⟩
        ⟨fun hpushed => hpushed.sound hcopy, hends⟩
  | some archive =>
    -- a copy is read, so that no check raised
    have hends : ¬Recurses lib s row := fun h => by
      rw [(soundCopy_of_recurses h).1] at hcopy
      cases hcopy
    by_cases hfits : maxBytes < size (members s row.kind)
    · obtain ⟨message, hrun⟩ : ∃ message, restoreRow lib newId now row s
          = (.error (.hosting message), repaired s row archive) := restoreRow_tooLarge hcopy hfits
      rw [restore_eq hs hrow, hrun]
      refine iff_of_true ⟨⟨_, rfl⟩, rfl, rfl, fun other hother => ?_⟩
        ⟨fun hpushed => absurd hpushed.fits (not_le.mpr hfits), hends⟩
      exact copyOf_repaired hs hrow hcopy hother
    · by_cases hdropped : s.rows.length = maxBackups ∧ s.rows.getLast? = some row
      · have hgone : (restore lib newId now row.id s).1 = .error .fileNotFound :=
          restore_gone hs hrow hnew hcopy hfits hdropped
        rcases hresult : restore lib newId now row.id s with ⟨x, s'⟩
        rw [hresult] at hgone
        cases hgone
        refine iff_of_false (fun hrestores => ?_) fun hnot => hnot.1
          ⟨by rw [hcopy]; exact Option.some_ne_none _, not_lt.mp hfits, hdropped.1, hdropped.2⟩
        obtain ⟨⟨message, hmessage⟩, -⟩ := hrestores
        cases hmessage
      · obtain ⟨s', hrun, hback⟩ : ∃ s', restore lib newId now row.id s = (.ok ⟨⟩, s')
            ∧ BringsBack lib s row archive s' :=
          restore_done hs hrow hnew hcopy hfits hdropped
        rw [hrun]
        exact iff_of_true ⟨archive, hcopy, hback⟩
          ⟨fun hpushed => hdropped ⟨hpushed.full, hpushed.oldest⟩, hends⟩

/-- What the libraries say of files that are empty. -/
def emptyFiles : Library where
  sha256 _ := "e3b0c44298fc1c149afbf4c8996fb92427ae41e4649b934ca495991b7852b855"
  archiveSha256 archive := "zip of " ++ toString archive.members.length
  loads _ := .malformed
  integrityCheck _ := some "ok"

/-- A website of one page, before its first backup. -/
def onePage : State where
  parts p := if p = .files then [("files/index.html", [])] else []
  rows := []
  archives _ := none
  away _ := none
  offsite := false

/-- The website after seven backups of its files, with the ids 0 to 6. -/
def sevenBackups : State :=
  [0, 1, 2, 3, 4, 5, 6].foldl
    (fun s n => stored emptyFiles s .files "manual" (toString n) n) onePage

private theorem sevenBackups_sound : Sound sevenBackups := ⟨by decide +kernel, by decide +kernel⟩

/-- One of the seven backups. -/
def backupOf (n : ℕ) : Row := newRow emptyFiles onePage .files "manual" (toString n) n

private theorem newest_ends : ¬Recurses emptyFiles sevenBackups (backupOf 6) := by
  rintro (⟨archive, -, hnested⟩ | ⟨-, -, archive, -, hnested⟩) <;>
    obtain ⟨before, member, after, -, -, -, -, hdeep⟩ := hnested.deep <;> cases hdeep

/-- The newest of the seven can be restored. -/
theorem restores_newest : Restores emptyFiles sevenBackups (backupOf 6)
    (restore emptyFiles "safety" 7 (backupOf 6).id sevenBackups) :=
  (restores_iff emptyFiles sevenBackups_sound (by decide +kernel) (by decide +kernel) 7).mpr
    ⟨fun hpushed => absurd hpushed.oldest (by decide +kernel), newest_ends⟩

/-- The oldest of the seven is deleted on the way, and the restore breaks off. -/
theorem not_restores_oldest : ¬Restores emptyFiles sevenBackups (backupOf 0)
    (restore emptyFiles "safety" 7 (backupOf 0).id sevenBackups) := by
  have hrun : (restore emptyFiles "safety" 7 (backupOf 0).id sevenBackups).1
      = .error .fileNotFound := by decide +kernel
  rcases hresult : restore emptyFiles "safety" 7 (backupOf 0).id sevenBackups with ⟨x, s'⟩
  rw [hresult] at hrun
  cases hrun
  rintro ⟨⟨message, hmessage⟩, -⟩
  cases hmessage

end WPanel.Backups.Demo
