import WPanel.Hosting.Renaming
import WPanel.Lib.Dict
import WPanel.Lib.Paths

namespace WPanel.Hosting.Sandbox

open WPanel.Lib
open WPanel.Hosting.Renaming (Path cleanRelative cleanName parent leaf trashDir)

/-!
# A folder nobody gets out of

`Sandbox` of `hosting/adapters/sandbox.py`, in a tree without links: the files of one website, the
permissions that are kept beside them under the texts of their paths, and the trash.

* `Box` — the tree, the map of permissions and the index of the trash;
* `writeFile`, `makeDirectory`, `renamePath`, `copyPath`, `deletePath`, `setPermissions` — the
  operations on one file or folder; `carryModes` takes its permissions along;
* `trashPath`, `listTrash`, `restoreTrash`, `purgeTrash` — the trash;
* `archivePaths`, `extractArchive` — zip files, which stand for the lists of their members;
* `shown` — the permissions a file or folder is listed with.

What a file holds is of any type; `Zip` says how it is read as an archive.
-/

universe u

/-- `HostingError(message)`, as the gateway passes it on. -/
abbrev hostingError (message : String) : Err := adapterError message

/-- An entry of the index of the trash. -/
structure Trashed where
  name : String
  original : String
  isDir : Bool
  size : Option ℕ
  deletedAt : ℕ
  deriving DecidableEq, Repr

/-- The files of a website, the permissions that were set, and the index of the trash. -/
structure Box (α : Type) where
  tree : Disk α
  modes : Dict String := []
  index : Dict Trashed := []

variable {α : Type}

/-- `path.is_dir()`. -/
def isDir (t : Disk α) (p : Path) : Bool :=
  match t p with
  | some .folder => true
  | _ => false

/-- `path.exists()`. -/
def present (t : Disk α) (p : Path) : Bool := (t p).isSome

/-- One file. -/
def fileOf (content : α) : Disk α := fun r => if r = [] then some (.file content) else none

/-! ### Permissions -/

/-- `_carry_modes`. -/
def carryModes (modes : Dict String) (old : String) (new : Option String) (keepOld : Bool) :
    Dict String :=
  let moved := match new with
    | none => []
    | some new => (modes.keep (under old)).map fun e => (rebase old new e.1, e.2)
  let left := if keepOld then modes else modes.keep fun key => !under old key
  left.update moved

/-- The value of an octal digit. -/
def octal (c : Char) : ℕ := c.toNat - '0'.toNat

/-- `check_mode`. -/
def checkMode (mode : String) (isDir : Bool) : Except Err String := do
  let text := (strip mode).toList
  ensure ((text.length = 3 ∨ text.length = 4) ∧ text.all (· ∈ "01234567".toList) = true)
    (hostingError "Use a permission such as 644 or 755.")
  let digits := List.replicate (4 - text.length) '0' ++ text
  ensure (digits.head? = some '0') (hostingError
    "Special permission bits (setuid, setgid, sticky) are not allowed here.")
  let owner := octal (digits.getD 1 '0')
  let other := octal (digits.getD 3 '0')
  ensure (other / 2 % 2 = 0) (hostingError
    ("Anyone-can-write permissions are not allowed: they let any other user on the server change "
      ++ "your files."))
  ensure (isDir = true → owner = 7) (hostingError
    "A folder needs full access for you (7 first), or you could lock yourself out of it.")
  ensure (isDir = false → owner = 6 ∨ owner = 7) (hostingError
    "A file must stay readable and writable by you (6 or 7 first).")
  pure (String.ofList digits)

/-- The permissions a file or folder has when none were set. -/
def defaultMode (t : Disk α) (p : Path) : String := if isDir t p then "0755" else "0644"

/-- The permissions a file or folder is listed with. -/
def shown (b : Box α) (p : Path) : String :=
  (b.modes.get? (posix p)).getD (defaultMode b.tree p)

/-! ### Files and folders -/

/-- `resolve`. -/
def resolve (t : Disk α) (rel : String) (mustExist : Bool) : Except Err Path := do
  let path ← cleanRelative rel
  ensure (path.head? ≠ some trashDir) (hostingError "That folder is reserved for the trash.")
  ensure (mustExist = true → present t path = true)
    (hostingError "That file or folder does not exist.")
  pure path

/-- `set_permissions`. -/
def setPermissions (b : Box α) (rel mode : String) : Except Err (Box α) := do
  let target ← resolve b.tree rel true
  ensure (target ≠ [])
    (hostingError "The permissions of your website's main folder cannot be changed.")
  let digits ← checkMode mode (isDir b.tree target)
  pure { b with modes := b.modes.set (posix target) digits }

/-- `write_file`. -/
def writeFile (b : Box α) (rel : String) (content : α) (overwrite : Bool) :
    Except Err (Box α) := do
  let path ← cleanRelative rel
  ensure (path ≠ []) (hostingError "Choose a file name.")
  cleanName (leaf path)
  let folder ← resolve b.tree (posix (parent path)) true
  ensure (isDir b.tree folder = true) (hostingError "The folder for that file does not exist.")
  let target ← resolve b.tree (posix path) false
  ensure (isDir b.tree target = false)
    (hostingError "A folder with that name already exists.")
  ensure (present b.tree target = true → overwrite = true)
    (hostingError "A file with that name already exists.")
  pure { b with tree := b.tree.put target (fileOf content) }

/-- `make_directory`. -/
def makeDirectory (b : Box α) (rel : String) : Except Err (Box α) := do
  let path ← cleanRelative rel
  ensure (path ≠ []) (hostingError "Choose a folder name.")
  cleanName (leaf path)
  let folder ← resolve b.tree (posix (parent path)) true
  ensure (isDir b.tree folder = true) (hostingError "The parent folder does not exist.")
  let target ← resolve b.tree (posix path) false
  ensure (present b.tree target = false)
    (hostingError "Something with that name already exists.")
  pure { b with tree := b.tree.put target Disk.emptyFolder }

/-- What `rename_path` and `copy_path` check alike, each in its own words. -/
def sourceAndDestination (t : Disk α) (rootError emptyError insideError : String)
    (rel newRel : String) : Except Err (Path × Path) := do
  let source ← resolve t rel true
  ensure (source ≠ []) (hostingError rootError)
  let new ← cleanRelative newRel
  ensure (new ≠ []) (hostingError emptyError)
  cleanName (leaf new)
  let destination ← resolve t (posix new) false
  ensure (present t destination = false) (hostingError "Something with that name already exists.")
  ensure (isDir t (parent destination) = true)
    (hostingError "The destination folder does not exist.")
  ensure (¬(isDir t source = true ∧ source <+: destination)) (hostingError insideError)
  pure (source, destination)

/-- `rename_path`. -/
def renamePath (b : Box α) (rel newRel : String) : Except Err (Box α) := do
  let (source, destination) ← sourceAndDestination b.tree
    "Your website's main folder cannot be renamed." "Choose a new name."
    "A folder cannot be moved into itself." rel newRel
  pure { b with
    tree := b.tree.move source destination
    modes := carryModes b.modes (posix source) (some (posix destination)) false }

/-- `copy_path`. -/
def copyPath (b : Box α) (rel newRel : String) : Except Err (Box α) := do
  let (source, destination) ← sourceAndDestination b.tree
    "Your website's main folder cannot be copied." "Choose where to copy it."
    "A folder cannot be copied into itself." rel newRel
  pure { b with
    tree := b.tree.copy source destination
    modes := carryModes b.modes (posix source) (some (posix destination)) true }

/-- `delete_path`. -/
def deletePath (b : Box α) (rel : String) : Except Err (Box α) := do
  let target ← resolve b.tree rel true
  ensure (target ≠ []) (hostingError "Your website's main folder cannot be deleted.")
  pure { b with
    tree := b.tree.erase target
    modes := carryModes b.modes (posix target) none false }

/-! ### The trash -/

/-- Where an item of the trash is. -/
def stored (item : String) : Path := [trashDir, item]

/-- `self._trash().mkdir(exist_ok=True)`. -/
def makeTrash (t : Disk α) : Disk α :=
  if present t [trashDir] then t else t.put [trashDir] Disk.emptyFolder

/-- The item of the trash that a file or folder becomes. -/
def trashed (size : α → ℕ) (b : Box α) (source : Path) (item : String) (now : ℕ) : Box α :=
  let tree := makeTrash b.tree
  let moved := tree.move source (stored item)
  { tree := moved
    modes := carryModes b.modes (posix source) none false
    index := b.index.set item
      { name := leaf source
        original := posix source
        -- the item has been moved: nothing is at its old place
        isDir := isDir moved source
        size := match tree source with
          | some (.file content) => some (size content)
          | _ => none
        deletedAt := now } }

/-- `trash_path`, with the id it draws. -/
def trashPath (size : α → ℕ) (b : Box α) (rel item : String) (now : ℕ) : Except Err (Box α) := do
  let source ← resolve b.tree rel true
  ensure (source ≠ []) (hostingError "Your website's main folder cannot be deleted.")
  pure (trashed size b source item now)

/-- `list_trash`. -/
def listTrash (b : Box α) : Dict Trashed :=
  (b.index.filter fun e => present b.tree (stored e.1)).mergeSort
    fun e e' => decide (e'.2.deletedAt ≤ e.2.deletedAt)

/-- The names a restored item is given, one after the other. -/
def label (name : String) : ℕ → String
  | 0 => name
  | 1 => name ++ " (restored)"
  | n => name ++ " (restored " ++ toString n ++ ")"

/-- The loop of `restore_trash`: the first of these names that is free. -/
def candidate (t : Disk α) (folder : Path) (name : String) : ℕ → ℕ → Option Path
  | 0, _ => none
  | fuel + 1, n =>
    if present t (folder ++ [label name n]) then candidate t folder name fuel (n + 1)
    else some (folder ++ [label name n])

/-- The folder an item of the trash is put back into: its old one, or the top where that is gone. -/
def homeFolder (t : Disk α) (original : Path) : Path :=
  match resolve t (posix (parent original)) true with
  | .ok folder => if isDir t folder then folder else []
  | .error _ => []

/-- `restore_trash`, with `fuel` turns of its loop. -/
def restoreTrash (b : Box α) (item : String) (fuel : ℕ) : Except Err (Box α × Path) := do
  let gone := hostingError "That item is no longer in the trash."
  match b.index.get? item with
  | none => throw gone
  | some entry =>
    ensure (item ≠ "" ∧ '/' ∉ item.toList ∧ '\\' ∉ item.toList) gone
    ensure (present b.tree (stored item) = true) gone
    let original ← cleanRelative entry.original
    match candidate b.tree (homeFolder b.tree original) entry.name fuel 0 with
    | none => throw (.unexpected "the loop has not ended")
    | some target =>
      pure ({ b with
        tree := b.tree.move (stored item) target
        index := b.index.delete item }, target)

/-- `purge_trash`. -/
def purgeTrash (b : Box α) : Option String → Except Err (Box α)
  | none => pure { b with tree := b.tree.erase [trashDir], index := [] }
  | some item => do
    ensure ((b.index.get? item).isSome = true ∧ '/' ∉ item.toList ∧ '\\' ∉ item.toList)
      (hostingError "That item is no longer in the trash.")
    pure { b with tree := b.tree.erase (stored item), index := b.index.delete item }

/-! ### Archives -/

/-- `MAX_ARCHIVE_ENTRIES`. -/
def maxArchiveEntries : ℕ := 5000

/-- `MAX_ARCHIVE_BYTES`. -/
def maxArchiveBytes : ℕ := 200000000

/-- A member of a zip file, as `ZipInfo` shows it. -/
structure Member (α : Type) where
  filename : String
  content : α
  /-- Its external attributes are those of a symbolic link. -/
  isLink : Bool := false

/-- What the zip library makes of files: their sizes, the members of those that are archives, and
    the archive of a list of members. -/
structure Zip (α : Type) where
  size : α → ℕ
  blank : α
  size_blank : size blank = 0
  read : α → Option (List (Member α))
  write : List (Member α) → α
  /-- An archive that was written is read back. -/
  read_write : ∀ members, (∀ m ∈ members, Char.ofNat 0 ∉ m.filename.toList) →
    read (write members) = some members

/-- Texts, and archives of them, as what files may hold. -/
inductive Content where
  | text (text : String)
  | archive (members : List (Member Content))

/-- The zip library, on these. -/
def contentZip : Zip Content where
  size
    | .text text => text.toList.length
    | .archive _ => 22
  blank := .text ""
  size_blank := rfl
  read
    | .archive members => some members
    | .text _ => none
  write := .archive
  read_write _ _ := rfl

variable (zip : Zip α)

/-- The name of a file or folder in an archive: its path from the folder its source is in. -/
def archiveName (source path : Path) : Path := path.drop (source.length - 1)

/-- The loop of `archive_paths` over the paths of a source; `count` and `total` are those of the
    members so far. -/
def pack (t : Disk α) : List (Path × Path) → ℕ → ℕ → Except Err (List (Member α))
  | [], _, _ => pure []
  | (source, path) :: rest, count, total => do
    ensure (count + 1 ≤ maxArchiveEntries)
      (hostingError "That is too many files for one archive.")
    match t path with
    | none => throw (.unexpected "FileNotFoundError")
    | some .folder =>
      let members ← pack t rest (count + 1) total
      pure ({ filename := posix (archiveName source path) ++ "/", content := zip.blank } :: members)
    | some (.file content) =>
      ensure (total + zip.size content ≤ maxArchiveBytes)
        (hostingError "Those files are too large for one archive.")
      let members ← pack t rest (count + 1) (total + zip.size content)
      pure ({ filename := posix (archiveName source path), content } :: members)

/-- What `archive_paths` walks over: each source, and what is below it, without the archive itself
    and the trash. -/
def walked (t : Disk α) (walk : Path → List Path) (target : Path) (sources : List Path) :
    List (Path × Path) :=
  (sources.flatMap fun source =>
    (source :: if isDir t source then walk source else []).map fun path => (source, path)).filter
      fun e => e.2 ≠ target ∧ ¬([trashDir] <+: e.2 ∧ e.2 ≠ [trashDir])

/-- `archive_paths`; `walk` lists what is below a folder, in the order of the disk. -/
def archivePaths (b : Box α) (walk : Path → List Path) (rels : List String) (archiveRel : String) :
    Except Err (Box α) := do
  let archive ← cleanRelative archiveRel
  ensure (archive ≠ [] ∧ endsWith (lower (posix archive)) ".zip" = true)
    (hostingError "Name the archive with a .zip ending.")
  cleanName (leaf archive)
  let target ← resolve b.tree (posix archive) false
  ensure (present b.tree target = false)
    (hostingError "Something with that name already exists.")
  ensure (isDir b.tree (parent target) = true)
    (hostingError "The destination folder does not exist.")
  let sources ← rels.mapM fun rel => do
    let source ← resolve b.tree rel true
    ensure (source ≠ []) (hostingError
      ("Your website's main folder cannot be archived as a whole; pick what is inside it."))
    pure source
  ensure (sources ≠ []) (hostingError "Choose what to put in the archive.")
  -- the archive is there, and empty, while the folders are walked
  let opened := b.tree.put target (fileOf (zip.write []))
  let members ← pack zip opened (walked opened walk target sources) 0 0
  pure { b with tree := b.tree.put target (fileOf (zip.write members)) }

/-- A member's name, with forward slashes. -/
def Member.name (m : Member α) : String := replaceChar '\\' "/" m.filename

/-- A member is a folder. -/
def Member.isFolder (m : Member α) : Bool := endsWith m.name "/"

/-- A member's path in the archive. -/
def Member.path (m : Member α) : Except Err Path := cleanRelative (rstrip '/' m.name)

/-- A member, where it goes, and whether it is a folder. -/
structure Planned (α : Type) where
  member : Member α
  target : Path
  isDir : Bool

/-- One turn of the first loop of `extract_archive`. -/
def planMember (t : Disk α) (dest : Path) (m : Member α) : Except Err (Option (Planned α)) := do
  match m.path with
  | .error _ =>
    throw (hostingError "That archive contains an unsafe path, so it was not unpacked.")
  | .ok member =>
    if member = [] then pure none
    else do
      ensure (member.head? ≠ some trashDir ∧ m.isLink = false) (hostingError
        "That archive contains something that is not allowed, so it was not unpacked.")
      let target ← resolve t (posix (dest ++ member)) false
      ensure (m.isFolder = true ∨ present t target = false) (hostingError
        ("'" ++ posix member ++ "' already exists, so nothing was unpacked."))
      pure (some { member := m, target, isDir := m.isFolder })

/-- The members of an archive, if the file is one. -/
def readArchive (t : Disk α) (source : Path) : Except Err (List (Member α)) := do
  let notZip := hostingError "That is not a .zip archive."
  match t source with
  | some (.file content) => do
    ensure (endsWith (lower (leaf source)) ".zip" = true) notZip
    (zip.read content).elim (throw notZip) pure
  | _ => throw notZip

/-- `extract_archive`, up to its first change: where it unpacks, and what. -/
def plan (t : Disk α) (rel destRel : String) : Except Err (Path × List (Planned α)) := do
  let source ← resolve t rel true
  let infos ← readArchive zip t source
  let dest ← cleanRelative destRel
  let destination ← resolve t (posix dest) false
  ensure (present t destination = true → isDir t destination = true)
    (hostingError "Something with that name already exists.")
  ensure (destination ≠ [] → isDir t (parent destination) = true)
    (hostingError "The destination folder does not exist.")
  ensure (infos.length ≤ maxArchiveEntries)
    (hostingError "That archive has too many files.")
  ensure ((infos.map fun m => zip.size m.content).sum ≤ maxArchiveBytes)
    (hostingError "That archive is too large to unpack here.")
  let planned ← infos.mapM (planMember t dest)
  pure (destination, planned.filterMap id)

/-- A file on the way to a path, or at it. -/
def Obstructed (t : Disk α) (p : Path) : Prop :=
  ∃ q ∈ p.inits, present t q = true ∧ isDir t q = false

instance (t : Disk α) (p : Path) : Decidable (Obstructed t p) :=
  inferInstanceAs (Decidable (∃ q ∈ p.inits, _))

/-- A tree with folders on the way to a path, and at it. -/
def withFolders (t : Disk α) (p : Path) : Disk α :=
  fun q => if q <+: p then some .folder else t q

/-- `path.mkdir(parents=True, exist_ok=True)`. -/
def makeFolders (p : Path) : Routine (Disk α) Err PUnit := fun t =>
  if Obstructed t p then (.error (.unexpected "FileExistsError"), t) else (.ok ⟨⟩, withFolders t p)

/-- `with open(target, "wb") as out`. -/
def writeOver (target : Path) (content : α) : Routine (Disk α) Err PUnit := fun t =>
  if isDir t target then (.error (.unexpected "IsADirectoryError"), t)
  else (.ok ⟨⟩, t.put target (fileOf content))

/-- One turn of the second loop of `extract_archive`. -/
def unpackMember (planned : Planned α) : Routine (Disk α) Err PUnit :=
  if planned.isDir then makeFolders planned.target
  else do
    makeFolders (parent planned.target)
    writeOver planned.target planned.member.content

/-- `extract_archive`, from its first change on. -/
def unpackAll (destination : Path) (planned : List (Planned α)) : Routine (Disk α) Err ℕ := do
  makeFolders destination
  planned.forM unpackMember
  pure planned.length

/-- `extract_archive`. -/
def extractArchive (rel destRel : String) : Routine (Disk α) Err ℕ := do
  let t ← Routine.read fun t => t
  let todo ← Routine.check (plan zip t rel destRel)
  unpackAll todo.1 todo.2

/-! ### Paths that were let through -/

/-- A name `clean_relative` leaves in a path. -/
structure CleanName (name : String) : Prop where
  ne_empty : name ≠ ""
  ne_dot : name ≠ "."
  ne_dots : name ≠ ".."
  chars : ∀ c ∈ name.toList, c ≠ '/' ∧ c ≠ '\\' ∧ c ≠ ':' ∧ Renaming.isControl c = false
  short : name.toList.length ≤ Renaming.maxNameLength

/-- A path `clean_relative` returns. -/
structure CleanPath (p : Path) : Prop where
  names : ∀ name ∈ p, CleanName name
  short : (posix p).toList.length ≤ Renaming.maxPathLength

section

variable {t : Disk α} {p q : Path} {rel : String} {name : String}

theorem CleanName.plain (h : CleanName name) : Plain name :=
  ⟨h.ne_empty, fun hslash => (h.chars '/' hslash).1 rfl⟩

theorem CleanPath.plain (h : CleanPath p) : ∀ name ∈ p, Plain name :=
  fun name hname => (h.names name hname).plain

theorem cleanPath_of_cleanRelative (h : cleanRelative rel = .ok p) : CleanPath p := by
  refine ⟨?_, (length_posix p).trans_le (Renaming.cleanRelative_bounds h).1⟩
  simp only [cleanRelative, bind_eq_ok, ensure_eq_ok, pure_eq_ok, exists_and_left, exists_const]
    at h
  obtain ⟨-, hcontrol, hchars, -, hdots, hshort, rfl⟩ := h
  intro name hname
  obtain ⟨hpart, hne⟩ := List.mem_filter.mp hname
  obtain ⟨l, hl, rfl⟩ := List.mem_map.mp hpart
  have hne' : String.ofList l ≠ "" ∧ String.ofList l ≠ "." := of_decide_eq_true hne
  refine ⟨hne'.1, hne'.2, fun heq => hdots (heq ▸ hname), fun c hc => ?_, hshort _ hname⟩
  rw [String.toList_ofList] at hc
  obtain ⟨hslash, hmem⟩ := mem_splitOn hl hc
  refine ⟨hslash, fun heq => hchars.1 (heq ▸ hmem), fun heq => hchars.2 (heq ▸ hmem), ?_⟩
  rw [List.any_eq_false] at hcontrol
  simpa using hcontrol c hmem

/-- A clean path is let through as it is. -/
theorem cleanRelative_posix (h : CleanPath p) : cleanRelative (posix p) = .ok p := by
  by_cases hp : p = []
  · subst hp
    rfl
  · have hchars : ∀ c ∈ (posix p).toList,
        c ≠ '\\' ∧ c ≠ ':' ∧ Renaming.isControl c = false := by
      intro c hc
      rcases mem_posix hc with rfl | ⟨name, hname, hc⟩
      · decide
      · exact ((h.names name hname).chars c hc).2
    have hfilter : p.filter (fun part => part ≠ "" ∧ part ≠ ".") = p :=
      List.filter_eq_self.mpr fun name hname =>
        decide_eq_true ⟨(h.names name hname).ne_empty, (h.names name hname).ne_dot⟩
    have hstart : startsWith (posix p) "/" = false := startsWith_posix hp h.plain
    simp only [cleanRelative, bind_eq_ok, ensure_eq_ok, pure_eq_ok, exists_and_left, exists_const,
      splitOn_posix hp h.plain, hfilter]
    refine ⟨h.short, ?_, ⟨fun hmem => (hchars _ hmem).1 rfl, fun hmem => (hchars _ hmem).2.1 rfl⟩,
      hstart, fun hdots => (h.names _ hdots).ne_dots rfl, fun name hname =>
      (h.names name hname).short, trivial⟩
    rw [List.any_eq_false]
    intro c hc
    rw [(hchars c hc).2.2]
    exact Bool.false_ne_true

theorem CleanPath.of_prefix (h : CleanPath q) (hpq : p <+: q) : CleanPath p := by
  refine ⟨fun name hname => h.names name (hpq.subset hname), ?_⟩
  by_cases hp : p = []
  · rw [hp]
    exact Nat.zero_le _
  · obtain ⟨r, rfl⟩ := hpq
    by_cases hr : r = []
    · simpa [hr] using h.short
    · refine le_trans ?_ h.short
      rw [posix_append hp hr, String.append_assoc, String.toList_append, List.length_append]
      exact Nat.le_add_right _ _

theorem CleanPath.parent (h : CleanPath p) : CleanPath (parent p) :=
  h.of_prefix (List.dropLast_prefix p)

theorem not_prefix_parent (h : p ≠ []) : ¬p <+: Renaming.parent p := by
  intro hin
  have hlength := hin.length_le
  rw [Renaming.parent, List.length_dropLast] at hlength
  have hpos := List.length_pos_of_ne_nil h
  omega

/-! ### What the operations check -/

@[simp] theorem isDir_iff : isDir t p = true ↔ t p = some .folder := by
  unfold isDir
  split
  · next h => simp [h]
  · next h => exact ⟨fun hf => absurd hf Bool.false_ne_true, fun hf => absurd hf h⟩

@[simp] theorem isDir_eq_false : isDir t p = false ↔ t p ≠ some .folder := by
  rw [← Bool.not_eq_true, isDir_iff]

@[simp] theorem present_iff : present t p = true ↔ t p ≠ none := Option.isSome_iff_ne_none

@[simp] theorem present_eq_false : present t p = false ↔ t p = none :=
  Option.isSome_eq_false_iff.trans Option.isNone_iff_eq_none

theorem resolve_eq_ok {mustExist : Bool} : resolve t rel mustExist = .ok p
    ↔ cleanRelative rel = .ok p ∧ p.head? ≠ some trashDir ∧ (mustExist = true → t p ≠ none) := by
  simp only [resolve, bind_eq_ok, ensure_eq_ok, pure_eq_ok, exists_const, present_iff]
  constructor
  · rintro ⟨p', hclean, htrash, hexists, rfl⟩
    exact ⟨hclean, htrash, hexists⟩
  · rintro ⟨hclean, htrash, hexists⟩
    exact ⟨p, hclean, htrash, hexists, rfl⟩

/-- A path an operation is about: not that of the trash, nor in it. -/
structure Target (p : Path) : Prop where
  clean : CleanPath p
  outside : p.head? ≠ some trashDir

theorem target_of_resolve {mustExist : Bool} (h : resolve t rel mustExist = .ok p) : Target p :=
  ⟨cleanPath_of_cleanRelative (resolve_eq_ok.mp h).1, (resolve_eq_ok.mp h).2.1⟩

theorem resolve_posix {mustExist : Bool} (hp : CleanPath p) :
    resolve t (posix p) mustExist = .ok q
      ↔ q = p ∧ p.head? ≠ some trashDir ∧ (mustExist = true → t p ≠ none) := by
  rw [resolve_eq_ok, cleanRelative_posix hp]
  constructor
  · rintro ⟨heq, hout, hexists⟩
    cases heq
    exact ⟨rfl, hout, hexists⟩
  · rintro ⟨rfl, hout, hexists⟩
    exact ⟨rfl, hout, hexists⟩

/-- A path of clean names is let through if it is not too long. -/
theorem resolve_of_names {mustExist : Bool} (hp : ∀ name ∈ p, CleanName name) :
    resolve t (posix p) mustExist = .ok q ↔ q = p ∧ CleanPath p ∧ p.head? ≠ some trashDir
      ∧ (mustExist = true → t p ≠ none) := by
  by_cases hshort : (posix p).toList.length ≤ Renaming.maxPathLength
  · rw [resolve_posix ⟨hp, hshort⟩]
    exact ⟨fun h => ⟨h.1, ⟨hp, hshort⟩, h.2⟩, fun h => ⟨h.1, h.2.2⟩⟩
  · constructor
    · intro h
      have hclean := (resolve_eq_ok.mp h).1
      simp only [cleanRelative, bind_eq_ok, ensure_eq_ok] at hclean
      obtain ⟨-, hlong, -⟩ := hclean
      exact absurd hlong hshort
    · exact fun h => absurd h.2.1.short hshort

/-- Nothing an operation is about is above a place in the trash. -/
theorem Target.not_prefix (h : Target p) (hp : p ≠ []) {names : Path} :
    ¬p <+: trashDir :: names := by
  obtain ⟨name, rest, rfl⟩ := List.exists_cons_of_ne_nil hp
  intro hbegins
  have hname := (List.cons_prefix_cons.mp hbegins).1
  exact h.outside (by rw [hname, List.head?_cons])

theorem Target.not_below (h : Target p) {names : Path} : ¬trashDir :: names <+: p := by
  rintro ⟨rest, rfl⟩
  exact h.outside rfl

/-- A place for something new: in a folder, and no folder itself. -/
structure Place (t : Disk α) (p : Path) : Prop extends Target p where
  ne_nil : p ≠ []
  folder : t (parent p) = some .folder

variable {b b' : Box α} {content : α} {overwrite : Bool} {newRel mode : String}

theorem writeFile_eq_ok (h : writeFile b rel content overwrite = .ok b') :
    ∃ target, Place b.tree target ∧ b.tree target ≠ some .folder
      ∧ b' = { b with tree := b.tree.put target (fileOf content) } := by
  simp only [writeFile, bind_eq_ok, ensure_eq_ok, pure_eq_ok, exists_const] at h
  obtain ⟨path, hpath, hne, -, -, folder, hfolder, hdir, target, htarget, hnot, -, rfl⟩ := h
  have hclean := cleanPath_of_cleanRelative hpath
  obtain ⟨rfl, -⟩ := (resolve_posix hclean.parent).mp hfolder
  obtain ⟨rfl, hout, -⟩ := (resolve_posix hclean).mp htarget
  exact ⟨target, ⟨⟨hclean, hout⟩, hne, isDir_iff.mp hdir⟩, isDir_eq_false.mp hnot, rfl⟩

theorem makeDirectory_eq_ok (h : makeDirectory b rel = .ok b') :
    ∃ target, Place b.tree target ∧ b.tree target = none
      ∧ b' = { b with tree := b.tree.put target Disk.emptyFolder } := by
  simp only [makeDirectory, bind_eq_ok, ensure_eq_ok, pure_eq_ok, exists_const] at h
  obtain ⟨path, hpath, hne, -, -, folder, hfolder, hdir, target, htarget, hfree, rfl⟩ := h
  have hclean := cleanPath_of_cleanRelative hpath
  obtain ⟨rfl, -⟩ := (resolve_posix hclean.parent).mp hfolder
  obtain ⟨rfl, hout, -⟩ := (resolve_posix hclean).mp htarget
  exact ⟨target, ⟨⟨hclean, hout⟩, hne, isDir_iff.mp hdir⟩, present_eq_false.mp hfree, rfl⟩

/-- Something that is moved or taken away. -/
structure Source (t : Disk α) (p : Path) : Prop extends Target p where
  ne_nil : p ≠ []
  there : t p ≠ none

/-- From where to where something is moved or copied. -/
structure Route (t : Disk α) (p q : Path) : Prop where
  source : Source t p
  place : Place t q
  free : t q = none
  elsewhere : ¬(t p = some .folder ∧ p <+: q)

theorem sourceAndDestination_eq_ok {rootError emptyError insideError : String}
    (h : sourceAndDestination t rootError emptyError insideError rel newRel = .ok (p, q)) :
    cleanRelative rel = .ok p ∧ cleanRelative newRel = .ok q ∧ Route t p q := by
  simp only [sourceAndDestination, bind_eq_ok, ensure_eq_ok, pure_eq_ok, exists_const] at h
  obtain ⟨source, hsource, hne, new, hnew, hnewne, -, -, destination, hdest, hfree, hdir, hinto,
    heq⟩ := h
  obtain ⟨rfl, rfl⟩ := Prod.mk.inj heq
  have hclean := cleanPath_of_cleanRelative hnew
  obtain ⟨rfl, hout, -⟩ := (resolve_posix hclean).mp hdest
  exact ⟨(resolve_eq_ok.mp hsource).1, hnew,
    ⟨target_of_resolve hsource, hne, (resolve_eq_ok.mp hsource).2.2 rfl⟩,
    ⟨⟨hclean, hout⟩, hnewne, isDir_iff.mp hdir⟩, present_eq_false.mp hfree,
    fun hinside => hinto ⟨isDir_iff.mpr hinside.1, hinside.2⟩⟩

theorem renamePath_eq_ok (h : renamePath b rel newRel = .ok b') :
    ∃ source destination, cleanRelative rel = .ok source ∧ cleanRelative newRel = .ok destination
      ∧ Route b.tree source destination
      ∧ b' = { b with
          tree := b.tree.move source destination
          modes := carryModes b.modes (posix source) (some (posix destination)) false } := by
  simp only [renamePath, bind_eq_ok] at h
  obtain ⟨⟨source, destination⟩, hroute, heq⟩ := h
  simp only [pure_eq_ok] at heq
  obtain ⟨hsource, hdest, hroute⟩ := sourceAndDestination_eq_ok hroute
  exact ⟨source, destination, hsource, hdest, hroute, heq.symm⟩

theorem copyPath_eq_ok (h : copyPath b rel newRel = .ok b') :
    ∃ source destination, cleanRelative rel = .ok source ∧ cleanRelative newRel = .ok destination
      ∧ Route b.tree source destination
      ∧ b' = { b with
          tree := b.tree.copy source destination
          modes := carryModes b.modes (posix source) (some (posix destination)) true } := by
  simp only [copyPath, bind_eq_ok] at h
  obtain ⟨⟨source, destination⟩, hroute, heq⟩ := h
  simp only [pure_eq_ok] at heq
  obtain ⟨hsource, hdest, hroute⟩ := sourceAndDestination_eq_ok hroute
  exact ⟨source, destination, hsource, hdest, hroute, heq.symm⟩

theorem deletePath_eq_ok (h : deletePath b rel = .ok b') :
    ∃ target, Source b.tree target
      ∧ b' = { b with
          tree := b.tree.erase target
          modes := carryModes b.modes (posix target) none false } := by
  simp only [deletePath, bind_eq_ok, ensure_eq_ok, pure_eq_ok, exists_const] at h
  obtain ⟨target, htarget, hne, rfl⟩ := h
  exact ⟨target, ⟨target_of_resolve htarget, hne, (resolve_eq_ok.mp htarget).2.2 rfl⟩, rfl⟩

theorem setPermissions_eq_ok (h : setPermissions b rel mode = .ok b') :
    ∃ target digits, Source b.tree target
      ∧ b' = { b with modes := b.modes.set (posix target) digits } := by
  simp only [setPermissions, bind_eq_ok, ensure_eq_ok, pure_eq_ok, exists_const] at h
  obtain ⟨target, htarget, hne, digits, -, rfl⟩ := h
  exact ⟨target, digits,
    ⟨target_of_resolve htarget, hne, (resolve_eq_ok.mp htarget).2.2 rfl⟩, rfl⟩

theorem trashPath_eq_ok {size : α → ℕ} {item : String} {now : ℕ} :
    trashPath size b rel item now = .ok b'
      ↔ ∃ source, resolve b.tree rel true = .ok source ∧ source ≠ []
        ∧ trashed size b source item now = b' := by
  simp only [trashPath, bind_eq_ok, ensure_eq_ok, pure_eq_ok, exists_const]

/-! ### The way back from the trash -/

/-- The first free name is free. -/
theorem candidate_eq_some {folder : Path} {fuel n : ℕ}
    (h : candidate t folder name fuel n = some p) :
    ∃ n', p = folder ++ [label name n'] ∧ t p = none := by
  induction fuel generalizing n with
  | zero => cases h
  | succ fuel ih =>
    rw [candidate] at h
    split at h
    · exact ih h
    · next hfree =>
      cases h
      exact ⟨n, rfl, present_eq_false.mp (Bool.not_eq_true _ ▸ hfree)⟩

/-- A free place is taken at once. -/
theorem candidate_of_free {folder : Path} {fuel n : ℕ} (hfuel : 0 < fuel)
    (h : t (folder ++ [label name n]) = none) :
    candidate t folder name fuel n = some (folder ++ [label name n]) := by
  obtain ⟨fuel, rfl⟩ := Nat.exists_eq_add_one.mpr hfuel
  rw [candidate, present_eq_false.mpr h]
  exact if_neg Bool.false_ne_true

theorem target_root : Target [] := ⟨⟨nofun, Nat.zero_le _⟩, nofun⟩

/-- An item goes back into a folder that is there. -/
theorem homeFolder_folder (h : t.Closed) (original : Path) :
    t (homeFolder t original) = some .folder ∧ Target (homeFolder t original) := by
  unfold homeFolder
  split
  · next folder hfolder =>
    split
    · next hdir => exact ⟨isDir_iff.mp hdir, target_of_resolve hfolder⟩
    · exact ⟨h.root, target_root⟩
  · exact ⟨h.root, target_root⟩

/-- Its old folder, where that is there. -/
theorem homeFolder_of_folder (hp : Target (parent p)) (h : t (parent p) = some .folder) :
    homeFolder t p = parent p := by
  have hresolve : resolve t (posix (parent p)) true = .ok (parent p) :=
    (resolve_posix hp.clean).mpr ⟨rfl, hp.outside, fun _ hnone => by simp [h] at hnone⟩
  rw [homeFolder, hresolve]
  exact if_pos (isDir_iff.mpr h)

/-- What `restore_trash` does where it succeeds. -/
structure Restored (b b' : Box α) (item : String) (entry : Trashed) (target : Path) : Prop where
  indexed : b.index.get? item = some entry
  there : b.tree (stored item) ≠ none
  place : ∃ original n, target = homeFolder b.tree original ++ [label entry.name n]
  free : b.tree target = none
  result : b' = { b with
    tree := b.tree.move (stored item) target
    index := b.index.delete item }

theorem restoreTrash_eq_ok {item : String} {fuel : ℕ}
    (h : restoreTrash b item fuel = .ok (b', p)) : ∃ entry, Restored b b' item entry p := by
  unfold restoreTrash at h
  split at h
  · cases h
  · next entry hentry =>
    simp only [bind_eq_ok, ensure_eq_ok, exists_const] at h
    obtain ⟨-, hthere, original, -, h⟩ := h
    split at h
    · cases h
    · next target htarget =>
      obtain ⟨n, htarget, hfree⟩ := candidate_eq_some htarget
      rw [pure_eq_ok, Prod.mk.injEq] at h
      obtain ⟨hbox, rfl⟩ := h
      exact ⟨entry, hentry, present_iff.mp hthere, ⟨original, n, htarget⟩, hfree, hbox.symm⟩

/-! ### What is unpacked where -/

variable {dest : Path} {m : Member α} {f : Planned α}

theorem planMember_eq_ok {o : Option (Planned α)} (hdest : ∀ name ∈ dest, CleanName name)
    (h : planMember t dest m = .ok o) : ∃ path, m.path = .ok path
      ∧ (path = [] ∧ o = none ∨ path ≠ [] ∧ path.head? ≠ some trashDir ∧ Target (dest ++ path)
        ∧ (m.isFolder = true ∨ t (dest ++ path) = none)
        ∧ o = some { member := m, target := dest ++ path, isDir := m.isFolder }) := by
  unfold planMember at h
  split at h
  · cases h
  · next path hpath =>
    refine ⟨path, hpath, ?_⟩
    split at h
    · next hnil =>
      cases h
      exact .inl ⟨hnil, rfl⟩
    · next hne =>
      simp only [bind_eq_ok, ensure_eq_ok, pure_eq_ok, exists_const] at h
      obtain ⟨⟨hhead, -⟩, target, htarget, hfree, rfl⟩ := h
      have hnames : ∀ name ∈ dest ++ path, CleanName name := fun name hname =>
        (List.mem_append.mp hname).elim (hdest name)
          ((cleanPath_of_cleanRelative hpath).names name)
      obtain ⟨rfl, hclean, hout, -⟩ := (resolve_of_names hnames).mp htarget
      exact .inr ⟨hne, hhead, ⟨hclean, hout⟩, hfree.imp_right present_eq_false.mp, rfl⟩

/-- A member that is let through. -/
theorem planMember_of_target {path : Path} (hpath : m.path = .ok path) (hne : path ≠ [])
    (hhead : path.head? ≠ some trashDir) (hlink : m.isLink = false)
    (htarget : Target (dest ++ path))
    (hfree : t (dest ++ path) = none) : planMember t dest m
      = .ok (some { member := m, target := dest ++ path, isDir := m.isFolder }) := by
  have hresolve : resolve t (posix (dest ++ path)) false = .ok (dest ++ path) :=
    (resolve_posix htarget.clean).mpr ⟨rfl, htarget.outside, fun h => by cases h⟩
  unfold planMember
  simp only [hpath, if_neg hne, bind_eq_ok, ensure_eq_ok, exists_const, hresolve]
  exact ⟨⟨hhead, hlink⟩, _, rfl, .inr (present_eq_false.mpr hfree), rfl⟩

theorem readArchive_eq_ok {zip : Zip α} {members : List (Member α)} :
    readArchive zip t p = .ok members ↔ ∃ content, t p = some (.file content)
      ∧ endsWith (lower (leaf p)) ".zip" = true ∧ zip.read content = some members := by
  unfold readArchive
  split
  · next content hcontent =>
    simp only [bind_eq_ok, ensure_eq_ok, exists_const, Option.some.injEq, Node.file.injEq,
      exists_eq_left', hcontent]
    refine and_congr_right fun _ => ?_
    cases zip.read content with
    | none => exact ⟨nofun, nofun⟩
    | some ms => exact ⟨fun h => by cases h; rfl, fun h => by cases h; rfl⟩
  · next hno =>
    refine ⟨nofun, ?_⟩
    rintro ⟨content, hcontent, -⟩
    exact absurd hcontent (hno content)

/-- What has been checked when the first folder is made. -/
structure Ready (zip : Zip α) (t : Disk α) (rel destRel : String) (dest : Path)
    (planned : List (Planned α)) : Prop where
  source : ∃ source content, cleanRelative rel = .ok source ∧ t source = some (.file content)
    ∧ ∃ members, zip.read content = some members
      ∧ ∃ steps, members.mapM (planMember t dest) = .ok steps ∧ planned = steps.filterMap id
  cleanDest : cleanRelative destRel = .ok dest
  allowed : Target dest
  parent : dest ≠ [] → t (parent dest) = some .folder
  folder : t dest ≠ none → t dest = some .folder

theorem plan_eq_ok {zip : Zip α} {destRel : String} {planned : List (Planned α)}
    (h : plan zip t rel destRel = .ok (dest, planned)) : Ready zip t rel destRel dest planned := by
  simp only [plan, bind_eq_ok, ensure_eq_ok, pure_eq_ok, exists_const] at h
  obtain ⟨source, hsource, infos, hinfos, dest', hdest', destination, hdestination, hfolder,
    hparent, -, -, steps, hsteps, heq⟩ := h
  obtain ⟨rfl, rfl⟩ := Prod.mk.inj heq
  have hclean := cleanPath_of_cleanRelative hdest'
  obtain ⟨rfl, hout, -⟩ := (resolve_posix hclean).mp hdestination
  refine ⟨?_, hdest', ⟨hclean, hout⟩, fun hne => isDir_iff.mp (hparent hne),
    fun hthere => isDir_iff.mp (hfolder (present_iff.mpr hthere))⟩
  obtain ⟨content, hcontent, -, hread⟩ := readArchive_eq_ok.mp hinfos
  exact ⟨source, content, (resolve_eq_ok.mp hsource).1, hcontent, infos, hread, steps, hsteps, rfl⟩

/-- Where a planned member goes. -/
theorem Ready.path {zip : Zip α} {destRel : String} {planned : List (Planned α)}
    (h : Ready zip t rel destRel dest planned) (hf : f ∈ planned) :
    ∃ path, f.target = dest ++ path ∧ path ≠ [] ∧ path.head? ≠ some trashDir
      ∧ Target (dest ++ path) := by
  obtain ⟨_, _, -, -, members, -, steps, hsteps, rfl⟩ := h.source
  obtain ⟨o, ho, hof⟩ := List.mem_filterMap.mp hf
  obtain ⟨m, -, hm⟩ := mapM_eq_ok hsteps o ho
  change o = some f at hof
  obtain ⟨path, -, ⟨-, hnone⟩ | ⟨hne, hhead, htarget, -, hsome⟩⟩ :=
    planMember_eq_ok h.allowed.clean.names hm
  · cases hof.symm.trans hnone
  · cases hof.symm.trans hsome
    exact ⟨path, rfl, hne, hhead, htarget⟩

/-- Every place that something is unpacked at is one an operation may be about. -/
theorem Ready.target {zip : Zip α} {destRel : String} {planned : List (Planned α)}
    (h : Ready zip t rel destRel dest planned) (hf : f ∈ planned) :
    Target f.target ∧ f.target ≠ [] := by
  obtain ⟨path, htarget, hne, -, hplace⟩ := h.path hf
  rw [htarget]
  exact ⟨hplace, fun hnil => hne (List.append_eq_nil_iff.mp hnil).2⟩

end

end WPanel.Hosting.Sandbox
