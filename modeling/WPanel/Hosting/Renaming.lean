import Mathlib.Algebra.Order.BigOperators.Group.List
import Mathlib.Algebra.Order.Group.Nat
import WPanel.Hosting.Accounts
import WPanel.Lib.Tree

namespace WPanel.Hosting.Renaming

open WPanel.Lib

/-!
# Renaming and copying, on the disk and through cPanel

`rename_path` and `copy_path` of `Sandbox` (`hosting/adapters/sandbox.py`) and of `CpanelFiles`
(`hosting/adapters/cpanel_files.py`), on one tree of files.  cPanel can only put a file or a folder
into another folder under its own name, and change its name where it is.

* `cleanRelative`, `cleanName` — which paths and names both let through;
* `Sandbox.renamePath`, `Sandbox.copyPath` — one step on the disk;
* `CpanelFiles.renamePath`, `CpanelFiles.copyPath` — up to four steps of cPanel, through a place
  that nobody has looked at;
* `Clear` — that place is free, and can be named;
* `cpanel_same_iff` — where the disk does it, cPanel leaves the same tree exactly when it is;
* `not_cpanel_same` — otherwise a file of the target's folder is lost.
-/

/-- A path, as the names on the way. -/
abbrev Path := List String

/-! ### Paths and names -/

/-- `MAX_PATH_LENGTH`. -/
def maxPathLength : ℕ := 1024

/-- `MAX_NAME_LENGTH`. -/
def maxNameLength : ℕ := 255

/-- The characters no path and no name may have. -/
def isControl (c : Char) : Bool := c.toNat < 32 || c.toNat = 127

/-- `clean_relative`: the names of a path. -/
def cleanRelative (rel : String) : Except Err Path := do
  ensure (rel.toList.length ≤ maxPathLength) (adapterError "That path is too long.")
  ensure (rel.toList.any isControl = false)
    (adapterError "That path contains characters that are not allowed.")
  ensure ('\\' ∉ rel.toList ∧ ':' ∉ rel.toList)
    (adapterError "Use forward slashes and no drive letters in a path.")
  ensure (startsWith rel "/" = false)
    (adapterError "Paths are relative to your website's folder.")
  let parts := (splitOn '/' rel).filter fun p => p ≠ "" ∧ p ≠ "."
  ensure (".." ∉ parts) (adapterError "A path cannot go up a folder.")
  ensure (∀ p ∈ parts, p.toList.length ≤ maxNameLength)
    (adapterError "A name in that path is too long.")
  pure parts

/-- `clean_name`; only that it raises nothing is used here. -/
def cleanName (name : String) : Except Err Unit := do
  let name := strip name
  ensure (name ≠ "" ∧ name ≠ "." ∧ name ≠ ".." ∧ '/' ∉ name.toList ∧ '\\' ∉ name.toList
      ∧ ':' ∉ name.toList)
    (adapterError "Enter a plain file or folder name (no slashes).")
  ensure (name.toList.any isControl = false ∧ name.toList.length ≤ maxNameLength)
    (adapterError "That name is not allowed.")

/-- `_parent`. -/
def parent (p : Path) : Path := p.dropLast

/-- `_leaf`. -/
def leaf (p : Path) : String := p.getLastD ""

/-- How long a path is as a text, its slashes included. -/
def pathLength (p : Path) : ℕ := (p.map fun name => name.toList.length + 1).sum - 1

/-- The folder that is reserved for the trash. -/
def trashDir : String := ".trash"

/-- The names `list_files` of cPanel leaves out. -/
def hidden : List String :=
  [".trash", ".cpanel", ".cphorde", ".softaculous", ".spamassassin", ".cagefs", ".cl.selector",
    ".caldav", ".htpasswds", ".contactemail", ".lastlogin", ".autorespond", ".cache",
    ".subaccounts"]

/-! ### On the disk -/

namespace Sandbox

variable (t : Disk ℕ)

/-- `resolve`, in a tree without links. -/
def resolve (rel : String) (mustExist : Bool) : Except Err Path := do
  let path ← cleanRelative rel
  ensure (path.head? ≠ some trashDir) (adapterError "That folder is reserved for the trash.")
  ensure (mustExist = true → t path ≠ none)
    (adapterError "That file or folder does not exist.")
  pure path

/-- What `rename_path` and `copy_path` check alike, each in its own words. -/
def sourceAndDestination (rootError emptyError insideError : String) (rel newRel : String) :
    Except Err (Path × Path) := do
  let source ← resolve t rel true
  ensure (source ≠ []) (adapterError rootError)
  let new ← cleanRelative newRel
  ensure (new ≠ []) (adapterError emptyError)
  cleanName (leaf new)
  let destination ← resolve t newRel false
  ensure (t destination = none) (adapterError "Something with that name already exists.")
  ensure (t (parent destination) = some .folder)
    (adapterError "The destination folder does not exist.")
  ensure (¬(t source = some .folder ∧ source <+: destination)) (adapterError insideError)
  pure (source, destination)

/-- `rename_path`. -/
def renamePath (rel newRel : String) : Except Err (Disk ℕ) := do
  let (source, destination) ← sourceAndDestination t
    "Your website's main folder cannot be renamed." "Choose a new name."
    "A folder cannot be moved into itself." rel newRel
  pure (t.move source destination)

/-- `copy_path`. -/
def copyPath (rel newRel : String) : Except Err (Disk ℕ) := do
  let (source, destination) ← sourceAndDestination t
    "Your website's main folder cannot be copied." "Choose where to copy it."
    "A folder cannot be copied into itself." rel newRel
  pure (t.copy source destination)

end Sandbox

/-! ### Through cPanel -/

/-- What `secrets.token_hex(4)` gives. -/
structure Token where
  text : String
  length_eq : text.toList.length = 8
  hex : ∀ c ∈ text.toList, c ∈ "0123456789abcdef".toList

namespace CpanelFiles

variable (t : Disk ℕ)

/-- `_abs`, of a path that is made of the names of clean ones: it can only be too long. -/
def abs (path : Path) : Except Err Unit :=
  ensure (pathLength path ≤ maxPathLength) (adapterError "That path is too long.")

/-- The source and the folder of a `fileop` are there. -/
def ready (source folder : Path) : Except Err Unit := do
  ensure (t source ≠ none) (adapterError "The source does not exist.")
  ensure (t folder = some .folder) (adapterError "The destination is not a folder.")

/-- `fileop` `move`: into a folder, under its own last name. -/
def move (source folder : Path) : Except Err (Disk ℕ) := do
  abs folder
  abs source
  ready t source folder
  pure (t.move source (folder ++ [leaf source]))

/-- `fileop` `copy`: into a folder, under its own last name. -/
def copy (source folder : Path) : Except Err (Disk ℕ) := do
  abs folder
  abs source
  ready t source folder
  pure (t.copy source (folder ++ [leaf source]))

/-- `fileop` `rename`: another last name, in the same folder. -/
def rename (source : Path) (name : String) : Except Err (Disk ℕ) := do
  abs source
  ready t source (parent source)
  pure (t.move source (parent source ++ [name]))

/-- `fileop` `unlink`. -/
def unlink (source : Path) : Except Err (Disk ℕ) := do
  abs source
  ensure (t source ≠ none) (adapterError "The source does not exist.")
  pure (t.erase source)

/-- `make_directory`. -/
def makeDirectory (path : Path) : Except Err (Disk ℕ) := do
  cleanName (leaf path)
  abs (parent path)
  ensure (t (parent path) = some .folder) (adapterError "The parent folder does not exist.")
  ensure (t path = none) (adapterError "Something with that name already exists.")
  pure (t.put path Disk.emptyFolder)

/-- `_exists`: the listing of the folder, without the names it hides. -/
def exists? (path : Path) : Except Err Bool := do
  abs (parent path)
  ensure (t (parent path) = some .folder) (adapterError "The folder does not exist.")
  pure (t path ≠ none && leaf path ∉ hidden)

/-- The checks of `rename_path` and of `copy_path`. -/
def sourceAndTarget (emptyError : String) (path newPath : String) : Except Err (Path × Path) := do
  let source ← cleanRelative path
  let target ← cleanRelative newPath
  ensure (source ≠ [] ∧ target ≠ []) (adapterError emptyError)
  cleanName (leaf target)
  let taken ← exists? t target
  ensure (taken = false) (adapterError "Something with that name already exists.")
  pure (source, target)

/-- The new name, where it is another one. -/
def renameLeaf (folder : Path) (old new : String) : Except Err (Disk ℕ) :=
  if old ≠ new then rename t (folder ++ [old]) new else pure t

/-- `rename_path`. -/
def renamePath (path newPath : String) : Except Err (Disk ℕ) := do
  let (source, target) ← sourceAndTarget t "Choose a new name." path newPath
  if parent source = parent target then rename t source (leaf target)
  else do
    let moved ← move t source (parent target)
    renameLeaf moved (parent target) (leaf source) (leaf target)

/-- The temporary folder of a copy into the same folder. -/
def scratch (token : Token) : Path := ["tmp", "whpanel-copy-" ++ token.text]

/-- The copy by way of the temporary folder. -/
def copyThrough (scratch source target : Path) : Except Err (Disk ℕ) := do
  let copied ← copy t source scratch
  let named ← renameLeaf copied scratch (leaf source) (leaf target)
  move named (scratch ++ [leaf target]) (parent target)

/-- `copy_path`. -/
def copyPath (token : Token) (path newPath : String) : Except Err (Disk ℕ) := do
  let (source, target) ← sourceAndTarget t "Choose where to copy it." path newPath
  if parent source ≠ parent target then do
    let copied ← copy t source (parent target)
    renameLeaf copied (parent target) (leaf source) (leaf target)
  else do
    let made ← makeDirectory t (scratch token)
    let done ← copyThrough made (scratch token) source target
    -- a leftover folder in `tmp` is harmless
    match unlink done (scratch token) with
    | .ok cleaned => pure cleaned
    | .error _ => pure done

end CpanelFiles

/-! ### The two alike -/

/-- A tree of files, as there is one. -/
structure Files where
  tree : Disk ℕ
  closed : tree.Closed

inductive Op where
  | rename
  | copy
  deriving DecidableEq, Repr

def Op.sandbox (op : Op) (t : Disk ℕ) : String → String → Except Err (Disk ℕ) :=
  match op with
  | .rename => Sandbox.renamePath t
  | .copy => Sandbox.copyPath t

def Op.cpanel (op : Op) (token : Token) (t : Disk ℕ) : String → String → Except Err (Disk ℕ) :=
  match op with
  | .rename => CpanelFiles.renamePath t
  | .copy => CpanelFiles.copyPath t token

/-- The place between, where the source lies in the target's folder under its own name. -/
def between (source target : Path) : Path := parent target ++ [leaf source]

/-- Nothing is at the place between, and its path is not too long; or it is the target. -/
def Free (t : Disk ℕ) (source target : Path) : Prop :=
  leaf source = leaf target ∨ t (between source target) = none
    ∧ pathLength (between source target) ≤ maxPathLength

/-- **The way of cPanel is clear**: between two folders, the place between is free; within one, a
    rename always is, and a copy needs a folder `tmp`, in which the name it takes is free, and which
    is not itself what is copied. -/
def Clear (op : Op) (token : Token) (t : Disk ℕ) (source target : Path) : Prop :=
  match op with
  | .rename => parent source = parent target ∨ Free t source target
  | .copy =>
    if parent source ≠ parent target then Free t source target
    else t ["tmp"] = some .folder ∧ t (CpanelFiles.scratch token) = none
      ∧ target ≠ CpanelFiles.scratch token ∧ source ≠ ["tmp"]

/-! ### Paths that were let through -/

section

variable {p q : Path}

theorem parent_append_leaf (h : p ≠ []) : parent p ++ [leaf p] = p := by
  rw [parent, leaf, List.getLastD_eq_getLast?, List.getLast?_eq_some_getLast h,
    Option.getD_some, List.dropLast_concat_getLast h]

@[simp] theorem parent_concat (p : Path) (name : String) : parent (p ++ [name]) = p :=
  List.dropLast_concat

@[simp] theorem leaf_concat (p : Path) (name : String) : leaf (p ++ [name]) = name := by
  simp [leaf]

/-- Two paths in one folder with one name are the same. -/
theorem eq_of_parent_leaf (hp : p ≠ []) (hq : q ≠ []) (hparent : parent p = parent q)
    (hleaf : leaf p = leaf q) : p = q := by
  rw [← parent_append_leaf hp, ← parent_append_leaf hq, hparent, hleaf]

/-- What is above a path that is not the root is the path itself, or above its folder. -/
theorem prefix_cases (hq : q ≠ []) (h : p <+: q) : p = q ∨ p <+: parent q := by
  rw [← parent_append_leaf hq] at h ⊢
  exact (List.prefix_concat_iff.mp h).imp_right fun h => by rwa [parent_concat]

/-- Two paths of one length are above each other only if they are the same. -/
theorem not_prefix_of_leaf_ne {folder : Path} {old new : String} (h : old ≠ new) :
    ¬folder ++ [old] <+: folder ++ [new] := fun hp => h (by
  simpa using hp.eq_of_length (by simp))

theorem not_concat_prefixed (folder : Path) (name : String) : ¬folder ++ [name] <+: folder :=
  fun h => absurd h.length_le (by simp)

theorem pathLength_parent_le (p : Path) : pathLength (parent p) ≤ pathLength p := by
  refine Nat.sub_le_sub_right (List.Sublist.sum_le_sum ?_ fun n _ => Nat.zero_le n) 1
  exact (List.dropLast_sublist p).map _

theorem pathLength_concat (p : Path) (name : String) :
    pathLength (p ++ [name]) = (p.map fun n => n.toList.length + 1).sum + name.toList.length := by
  rw [pathLength, List.map_append, List.sum_append]
  simp

/-- Everything `cleanRelative` lets through is short enough. -/
theorem cleanRelative_bounds {rel : String} (h : cleanRelative rel = .ok p) :
    pathLength p ≤ maxPathLength ∧ ∀ name ∈ p, name.toList.length ≤ maxNameLength := by
  simp only [cleanRelative, bind_eq_ok, ensure_eq_ok, pure_eq_ok, exists_and_left, exists_const]
    at h
  obtain ⟨hlength, -, -, -, -, hnames, rfl⟩ := h
  refine ⟨?_, hnames⟩
  have hsum := length_splitOn '/' rel
  have hfilter := List.Sublist.sum_le_sum ((List.filter_sublist
    (l := splitOn '/' rel) (p := fun p => p ≠ "" ∧ p ≠ ".")).map
      fun part => part.toList.length + 1) fun n _ => Nat.zero_le n
  rw [pathLength]
  omega

end

/-! ### What the disk has checked -/

/-- What is so of a source and a target for which the disk does it. -/
structure Proper (t : Disk ℕ) (source target : Path) : Prop where
  source_ne_nil : source ≠ []
  target_ne_nil : target ≠ []
  source_exists : t source ≠ none
  target_free : t target = none
  folder : t (parent target) = some .folder
  outside : ¬(t source = some .folder ∧ source <+: target)
  named : cleanName (leaf target) = .ok ()
  source_bounds : pathLength source ≤ maxPathLength
    ∧ ∀ name ∈ source, name.toList.length ≤ maxNameLength
  target_bounds : pathLength target ≤ maxPathLength
    ∧ ∀ name ∈ target, name.toList.length ≤ maxNameLength

/-- What resolving a path checks. -/
theorem Sandbox.resolve_eq_ok {t : Disk ℕ} {rel : String} {mustExist : Bool} {p : Path} :
    resolve t rel mustExist = .ok p ↔ cleanRelative rel = .ok p ∧ p.head? ≠ some trashDir
      ∧ (mustExist = true → t p ≠ none) := by
  simp only [resolve, bind_eq_ok, ensure_eq_ok, pure_eq_ok, exists_const]
  constructor
  · rintro ⟨p', hclean, htrash, hexists, rfl⟩
    exact ⟨hclean, htrash, hexists⟩
  · rintro ⟨hclean, htrash, hexists⟩
    exact ⟨p, hclean, htrash, hexists, rfl⟩

theorem Sandbox.proper {t : Disk ℕ} {rootError emptyError insideError path newPath : String}
    {source target : Path}
    (h : sourceAndDestination t rootError emptyError insideError path newPath
      = .ok (source, target)) :
    cleanRelative path = .ok source ∧ cleanRelative newPath = .ok target
      ∧ Proper t source target := by
  simp only [sourceAndDestination, bind_eq_ok, ensure_eq_ok, pure_eq_ok, resolve_eq_ok] at h
  obtain ⟨s, ⟨hs, -, hexists⟩, -, hsne, d, hd, -, hdne, u, hname, d', ⟨hd', -⟩, -, hfree, -,
    hfolder, -, houtside, heq⟩ := h
  obtain ⟨rfl, rfl⟩ := Prod.mk.inj heq
  obtain rfl : d = d' := by
    rw [hd] at hd'
    exact Except.ok.inj hd'
  exact ⟨hs, hd, hsne, hdne, hexists trivial, hfree, hfolder, houtside, hname,
    cleanRelative_bounds hs, cleanRelative_bounds hd⟩

namespace Proper

variable {t : Disk ℕ} {source target : Path}

theorem ne (h : Proper t source target) : source ≠ target := by
  rintro rfl
  exact h.source_exists h.target_free

/-- The target is not in the source, also where the source is a file. -/
theorem not_source_prefixed (h : Proper t source target) (hclosed : t.Closed) :
    ¬source <+: target := by
  intro hbegins
  refine h.outside ⟨?_, hbegins⟩
  rcases prefix_cases h.target_ne_nil hbegins with heq | hparent
  · exact absurd heq h.ne
  · by_cases heq : source = parent target
    · rw [heq, h.folder]
    · exact hclosed.folder_of_prefixed (by rw [h.folder]; exact Option.some_ne_none _) hparent heq

theorem not_source_prefix_parent (h : Proper t source target) (hclosed : t.Closed) :
    ¬source <+: parent target := fun hp =>
  h.not_source_prefixed hclosed (hp.trans (List.dropLast_prefix target))

/-- Where the source and the target are in one folder, they have two names. -/
theorem leaf_ne (h : Proper t source target) (hparent : parent source = parent target) :
    leaf source ≠ leaf target := fun hleaf =>
  h.ne (eq_of_parent_leaf h.source_ne_nil h.target_ne_nil hparent hleaf)

theorem source_leaf (h : Proper t source target) :
    (leaf source).toList.length ≤ maxNameLength :=
  h.source_bounds.2 _ (by
    rw [← parent_append_leaf h.source_ne_nil]
    simp)

theorem target_leaf (h : Proper t source target) :
    (leaf target).toList.length ≤ maxNameLength :=
  h.target_bounds.2 _ (by
    rw [← parent_append_leaf h.target_ne_nil]
    simp)

theorem parent_bound (h : Proper t source target) : pathLength (parent target) ≤ maxPathLength :=
  (pathLength_parent_le target).trans h.target_bounds.1

theorem concat_leaf (h : Proper t source target) : parent target ++ [leaf target] = target :=
  parent_append_leaf h.target_ne_nil

end Proper

/-! ### The steps of cPanel -/

namespace CpanelFiles

variable {t : Disk ℕ} {source target : Path}

theorem abs_eq {p : Path} (h : pathLength p ≤ maxPathLength) : abs p = .ok () := by
  rw [abs, ensure, if_pos h]

theorem ready_eq {folder : Path} (hsource : t source ≠ none) (hfolder : t folder = some .folder) :
    ready t source folder = .ok () := by
  rw [ready, ensure, if_pos hsource, ensure, if_pos hfolder]
  rfl

theorem move_eq (source folder : Path) (hfolderLength : pathLength folder ≤ maxPathLength)
    (hlength : pathLength source ≤ maxPathLength) (hsource : t source ≠ none)
    (hfolder : t folder = some .folder) :
    move t source folder = .ok (t.move source (folder ++ [leaf source])) := by
  rw [move, abs_eq hfolderLength, abs_eq hlength, ready_eq hsource hfolder]
  rfl

theorem copy_eq (source folder : Path) (hfolderLength : pathLength folder ≤ maxPathLength)
    (hlength : pathLength source ≤ maxPathLength) (hsource : t source ≠ none)
    (hfolder : t folder = some .folder) :
    copy t source folder = .ok (t.copy source (folder ++ [leaf source])) := by
  rw [copy, abs_eq hfolderLength, abs_eq hlength, ready_eq hsource hfolder]
  rfl

theorem rename_eq (source : Path) (name : String) (hlength : pathLength source ≤ maxPathLength)
    (hsource : t source ≠ none) (hfolder : t (parent source) = some .folder) :
    rename t source name = .ok (t.move source (parent source ++ [name])) := by
  rw [rename, abs_eq hlength, ready_eq hsource hfolder]
  rfl

/-- What the disk has let through, cPanel lets through. -/
theorem sourceAndTarget_eq (h : Proper t source target) {emptyError path newPath : String}
    (hs : cleanRelative path = .ok source) (hd : cleanRelative newPath = .ok target) :
    sourceAndTarget t emptyError path newPath = .ok (source, target) := by
  have hexists : exists? t target = .ok false := by
    rw [exists?, abs_eq h.parent_bound, ensure, if_pos h.folder, h.target_free]
    rfl
  rw [sourceAndTarget, hs, hd, ok_bind, ok_bind, ensure,
    if_pos ⟨h.source_ne_nil, h.target_ne_nil⟩, h.named, hexists]
  rfl

end CpanelFiles

/-! ### From one folder to another -/

section

variable {t : Disk ℕ} {source target : Path}

@[simp] theorem parent_between (source target : Path) :
    parent (between source target) = parent target := parent_concat _ _

/-- With one name for both, the place between is the target. -/
theorem between_eq (h : Proper t source target) (hleaf : leaf source = leaf target) :
    between source target = target := by
  rw [between, hleaf, h.concat_leaf]

theorem not_target_prefix_between (h : Proper t source target)
    (hleaf : leaf source ≠ leaf target) : ¬target <+: between source target := by
  rw [← h.concat_leaf, between, parent_concat]
  exact not_prefix_of_leaf_ne (Ne.symm hleaf)

theorem not_source_prefix_between (h : Proper t source target) (hclosed : t.Closed)
    (hparent : parent source ≠ parent target) : ¬source <+: between source target := by
  intro hbegins
  rcases prefix_cases (by simp [between]) hbegins with heq | habove
  · exact hparent (by rw [heq, parent_between])
  · rw [parent_between] at habove
    exact h.not_source_prefix_parent hclosed habove

/-- The last step of cPanel, in a folder in which the source lies under its own name. -/
theorem CpanelFiles.renameLeaf_eq_ok_iff (h : Proper t source target) {t' e : Disk ℕ}
    (hat : t' (between source target) ≠ none) (hfolder : t' (parent target) = some .folder)
    (hsame : leaf source = leaf target → t' = e)
    (hfree : t (between source target) = none → t'.move (between source target) target = e)
    (htaken : leaf source ≠ leaf target → e (between source target) = t (between source target)) :
    renameLeaf t' (parent target) (leaf source) (leaf target) = .ok e ↔ Free t source target := by
  by_cases hleaf : leaf source = leaf target
  · rw [renameLeaf, if_neg (not_not_intro hleaf), hsame hleaf]
    exact iff_of_true rfl (Or.inl hleaf)
  by_cases hlength : pathLength (between source target) ≤ maxPathLength
  · have hrename := rename_eq (between source target) (leaf target) hlength hat
      (by rw [parent_between, hfolder])
    rw [parent_between, h.concat_leaf] at hrename
    rw [renameLeaf, if_pos hleaf, ← between, hrename]
    constructor
    · intro heq
      -- what was in the place between is gone
      refine Or.inr ⟨?_, hlength⟩
      rw [← htaken hleaf, ← Except.ok.inj heq]
      exact Disk.move_source (not_target_prefix_between h hleaf)
    · rintro (heq | ⟨hnone, -⟩)
      · exact absurd heq hleaf
      · rw [hfree hnone]
  · refine iff_of_false ?_ fun hfree => hfree.elim hleaf fun hfree => hlength hfree.2
    rw [renameLeaf, if_pos hleaf, ← between, rename, abs, ensure, if_neg hlength]
    exact nofun

/-- When cPanel moves and renames to the end. -/
theorem CpanelFiles.renamePath_eq_ok_iff (h : Proper t source target) (hclosed : t.Closed)
    {path newPath : String} (hs : cleanRelative path = .ok source)
    (hd : cleanRelative newPath = .ok target) :
    renamePath t path newPath = .ok (t.move source target)
      ↔ parent source = parent target ∨ Free t source target := by
  rw [renamePath, sourceAndTarget_eq h hs hd, ok_bind]
  by_cases hparent : parent source = parent target
  · have hrename := rename_eq source (leaf target) h.source_bounds.1 h.source_exists
      (by rw [hparent, h.folder])
    rw [hparent, h.concat_leaf] at hrename
    simp only [hparent, if_true, hrename, true_or]
  have hbetween := not_source_prefix_between h hclosed hparent
  simp only [hparent, if_false, false_or,
    move_eq source _ h.parent_bound h.source_bounds.1 h.source_exists h.folder, ok_bind]
  refine renameLeaf_eq_ok_iff h ?_ ?_ (fun hleaf => ?_) (fun hfree => ?_) fun hleaf => ?_
  · rw [← between, Disk.move_self]
    exact h.source_exists
  · rw [Disk.move_of_not_prefixed (not_concat_prefixed _ _) (h.not_source_prefix_parent hclosed),
      h.folder]
  · rw [← between, between_eq h hleaf]
  · exact Disk.move_move hclosed hfree
  · exact Disk.move_of_not_prefixed (not_target_prefix_between h hleaf) hbetween

/-- When cPanel copies under another name. -/
theorem CpanelFiles.copyPath_eq_ok_iff_of_ne (h : Proper t source target) (hclosed : t.Closed)
    {path newPath : String} (hs : cleanRelative path = .ok source)
    (hd : cleanRelative newPath = .ok target) (hparent : parent source ≠ parent target)
    (token : Token) :
    copyPath t token path newPath = .ok (t.copy source target) ↔ Free t source target := by
  rw [copyPath, sourceAndTarget_eq h hs hd, ok_bind]
  simp only [ne_eq, hparent, not_false_eq_true, if_true,
    copy_eq source _ h.parent_bound h.source_bounds.1 h.source_exists h.folder, ok_bind]
  refine renameLeaf_eq_ok_iff h ?_ ?_ (fun hleaf => ?_) (fun hfree => ?_) fun hleaf => ?_
  · rw [← between, Disk.copy_self]
    exact h.source_exists
  · rw [Disk.copy_of_not_prefixed (not_concat_prefixed _ _), h.folder]
  · rw [← between, between_eq h hleaf]
  · exact Disk.copy_move hclosed hfree
  · exact Disk.copy_of_not_prefixed (not_target_prefix_between h hleaf)

end

/-! ### A copy in the folder of its source -/

section

variable (token : Token)

/-- The name the temporary folder takes. -/
theorem leaf_scratch : leaf (CpanelFiles.scratch token) = "whpanel-copy-" ++ token.text := rfl

theorem pathLength_scratch : pathLength (CpanelFiles.scratch token) = 25 := by
  simp [pathLength, CpanelFiles.scratch, token.length_eq]

/-- It is a plain name. -/
theorem cleanName_scratch : cleanName (leaf (CpanelFiles.scratch token)) = .ok () := by
  have hplain : ∀ c ∈ ("whpanel-copy-" ++ token.text).toList,
      c ∈ "whpanel-copy-0123456789abcdef".toList := by
    intro c hc
    rw [String.toList_append, List.mem_append] at hc
    have hsplit : "whpanel-copy-0123456789abcdef".toList
        = "whpanel-copy-".toList ++ "0123456789abcdef".toList := by decide
    rw [hsplit, List.mem_append]
    exact hc.imp id (token.hex c)
  have hnone : ∀ p : Char → Bool, "whpanel-copy-0123456789abcdef".toList.any p = false →
      ∀ c ∈ ("whpanel-copy-" ++ token.text).toList, p c = false :=
    fun p hp c hc => Bool.eq_false_iff.mpr (List.any_eq_false.mp hp c (hplain c hc))
  have hstrip := strip_eq_self (hnone isSpace (by decide))
  have hlength : ("whpanel-copy-" ++ token.text).toList.length = 21 := by
    simp [token.length_eq]
  have hlong : ∀ name : String, name.toList.length ≠ 21 → "whpanel-copy-" ++ token.text ≠ name :=
    fun name hname heq => hname (heq ▸ hlength)
  have habsent : ∀ c, c ∉ "whpanel-copy-0123456789abcdef".toList →
      c ∉ ("whpanel-copy-" ++ token.text).toList := fun c hc h => hc (hplain c h)
  rw [leaf_scratch, cleanName, hstrip, ensure, if_pos, ensure, if_pos]
  · rfl
  · exact ⟨List.any_eq_false.mpr fun c hc => by simp [hnone isControl (by decide) c hc],
      by rw [hlength]; decide⟩
  · exact ⟨hlong _ (by decide), hlong _ (by decide), hlong _ (by decide),
      habsent _ (by decide), habsent _ (by decide), habsent _ (by decide)⟩

variable {t : Disk ℕ} {source target : Path}

@[simp] theorem parent_scratch : parent (CpanelFiles.scratch token) = ["tmp"] := rfl

/-- `make_directory` of the temporary folder. -/
theorem CpanelFiles.makeDirectory_scratch {made : Disk ℕ} :
    makeDirectory t (scratch token) = .ok made ↔ t ["tmp"] = some .folder
      ∧ t (scratch token) = none ∧ t.put (scratch token) Disk.emptyFolder = made := by
  have habs : abs (parent (scratch token)) = .ok () :=
    abs_eq (by rw [parent_scratch]; decide)
  simp only [makeDirectory, cleanName_scratch, habs, ok_bind, bind_eq_ok, ensure_eq_ok,
    pure_eq_ok, exists_const]
  rw [parent_scratch]

/-- There is a folder `tmp`, and a free name in it. -/
structure Spare (t : Disk ℕ) (scratch : Path) : Prop where
  folder : t (parent scratch) = some .folder
  free : t scratch = none
  ne_nil : scratch ≠ []

namespace Spare

variable {scratch : Path}

theorem not_prefixed (hspare : Spare t scratch) (hclosed : t.Closed) {p : Path} (hp : t p ≠ none) :
    ¬scratch <+: p := fun h => hp (hclosed.none_of_prefixed hspare.free h)

theorem closed (hspare : Spare t scratch) (hclosed : t.Closed) :
    (t.put scratch Disk.emptyFolder).Closed := by
  have := hclosed.put_emptyFolder (k := leaf scratch) hspare.folder
  rwa [parent_append_leaf hspare.ne_nil] at this

/-- Where there is something, there is the same with the new folder. -/
theorem put_eq (hspare : Spare t scratch) (hclosed : t.Closed) {p : Path} (hp : t p ≠ none) :
    (t.put scratch Disk.emptyFolder) p = t p :=
  Disk.put_of_not_prefixed (hspare.not_prefixed hclosed hp)

theorem put_concat (t : Disk ℕ) (scratch : Path) (name : String) :
    (t.put scratch Disk.emptyFolder) (scratch ++ [name]) = none := by
  rw [Disk.put_append]
  exact if_neg (by simp)

end Spare

/-- By way of the temporary folder, a copy is a copy. -/
theorem CpanelFiles.copyThrough_eq (h : Proper t source target) (hclosed : t.Closed)
    (hparent : parent source = parent target) (hspare : Spare t (scratch token)) :
    copyThrough (t.put (scratch token) Disk.emptyFolder) (scratch token) source target
      = .ok ((t.put (scratch token) Disk.emptyFolder).copy source target) := by
  generalize hmade : t.put (scratch token) Disk.emptyFolder = made
  have hmadeClosed : made.Closed := hmade ▸ hspare.closed hclosed
  have hnothing : ∀ name, made (scratch token ++ [name]) = none :=
    fun name => hmade ▸ Spare.put_concat t _ name
  have hsource : made source ≠ none := by
    rw [← hmade, hspare.put_eq hclosed h.source_exists]
    exact h.source_exists
  have hfolder : made (parent target) = some .folder := by
    rw [← hmade, hspare.put_eq hclosed (by rw [h.folder]; exact Option.some_ne_none _), h.folder]
  have hscratch : made (scratch token) = some .folder := by
    rw [← hmade, Disk.put_self]
    rfl
  have hlength : ∀ name : String, name.toList.length ≤ maxNameLength →
      pathLength (scratch token ++ [name]) ≤ maxPathLength := by
    intro name hname
    have hsum := pathLength_scratch token
    rw [pathLength] at hsum
    rw [pathLength_concat]
    unfold maxNameLength at hname
    unfold maxPathLength
    omega
  -- first under its own name, then under the new one, then in the target's folder
  have hcopy := copy_eq source (scratch token) (by rw [pathLength_scratch]; decide)
    h.source_bounds.1 hsource hscratch
  have hrename := rename_eq (t := made.copy source (scratch token ++ [leaf source]))
    (scratch token ++ [leaf source]) (leaf target) (hlength _ h.source_leaf)
    (by rw [Disk.copy_self]; exact hsource)
    (by rw [parent_concat, Disk.copy_of_not_prefixed (not_concat_prefixed _ _), hscratch])
  rw [parent_concat, Disk.copy_move hmadeClosed (hnothing _)] at hrename
  have hnotIn : ¬scratch token ++ [leaf target] <+: parent target := fun hp =>
    hspare.not_prefixed hclosed (by rw [h.folder]; exact Option.some_ne_none _)
      ((List.prefix_append _ _).trans hp)
  have hmove := move_eq (t := made.copy source (scratch token ++ [leaf target]))
    (scratch token ++ [leaf target]) (parent target) h.parent_bound (hlength _ h.target_leaf)
    (by rw [Disk.copy_self]; exact hsource) (by rw [Disk.copy_of_not_prefixed hnotIn, hfolder])
  rw [leaf_concat, h.concat_leaf, Disk.copy_move hmadeClosed (hnothing _)] at hmove
  rw [copyThrough, hcopy, ok_bind, renameLeaf, if_pos (h.leaf_ne hparent), hrename, ok_bind, hmove]

/-- What is above the target is above its folder, or the target itself. -/
theorem Spare.not_prefix_target {scratch : Path} (hspare : Spare t scratch) (hclosed : t.Closed)
    (h : Proper t source target) (hne : target ≠ scratch) : ¬scratch <+: target := by
  intro hbegins
  rcases prefix_cases h.target_ne_nil hbegins with heq | hparent
  · exact hne heq.symm
  · exact hspare.not_prefixed hclosed (by rw [h.folder]; exact Option.some_ne_none _) hparent

/-- The target is not above the temporary folder. -/
theorem Spare.not_target_prefixed {scratch : Path} (hspare : Spare t scratch) (hclosed : t.Closed)
    (h : Proper t source target) (hne : target ≠ scratch) : ¬target <+: scratch := by
  intro hbegins
  rcases prefix_cases hspare.ne_nil hbegins with heq | hparent
  · exact hne heq
  · exact absurd (hclosed.none_of_prefixed h.target_free hparent)
      (by rw [hspare.folder]; exact Option.some_ne_none _)

/-- **With the temporary folder gone again**, there is the copy and no more, exactly when the target
    was not that folder and the source did not hold it. -/
theorem erase_scratch_iff {scratch : Path} (hspare : Spare t scratch) (hclosed : t.Closed)
    (h : Proper t source target) :
    ((t.put scratch Disk.emptyFolder).copy source target).erase scratch = t.copy source target
      ↔ target ≠ scratch ∧ ¬source <+: scratch := by
  constructor
  · intro heq
    have hne : target ≠ scratch := by
      rintro rfl
      have hat := congrFun heq target
      rw [Disk.erase_of_prefixed (List.prefix_refl _), Disk.copy_self] at hat
      exact h.source_exists hat.symm
    refine ⟨hne, ?_⟩
    -- else the copy holds an empty folder that the source did not
    rintro ⟨r, rfl⟩
    have hat := congrFun heq (target ++ r)
    have hnot : ¬source ++ r <+: target ++ r := by
      intro hp
      rcases List.prefix_or_prefix_of_prefix hp (List.prefix_append target r) with hle | hle
      · exact hspare.not_prefix_target hclosed h hne hle
      · exact hspare.not_target_prefixed hclosed h hne hle
    rw [Disk.erase_of_not_prefixed hnot, Disk.copy_append, Disk.copy_append, Disk.put_self,
      hspare.free] at hat
    cases hat
  · rintro ⟨hne, hsource⟩
    funext q
    by_cases hq : scratch <+: q
    · -- nothing was there, and nothing is
      rw [Disk.erase_of_prefixed hq, Disk.copy_of_not_prefixed fun htarget => ?_,
        hclosed.none_of_prefixed hspare.free hq]
      rcases List.prefix_or_prefix_of_prefix hq htarget with hle | hle
      · exact hspare.not_prefix_target hclosed h hne hle
      · exact hspare.not_target_prefixed hclosed h hne hle
    rw [Disk.erase_of_not_prefixed hq]
    by_cases htarget : target <+: q
    · obtain ⟨r, rfl⟩ := htarget
      rw [Disk.copy_append, Disk.copy_append, Disk.put_of_not_prefixed fun hp => ?_]
      rcases List.prefix_or_prefix_of_prefix hp (List.prefix_append source r) with hle | hle
      · exact hspare.not_prefixed hclosed h.source_exists hle
      · exact hsource hle
    · rw [Disk.copy_of_not_prefixed htarget, Disk.copy_of_not_prefixed htarget,
        Disk.put_of_not_prefixed hq]

/-- Only the folder `tmp` holds the temporary one. -/
theorem prefix_scratch_iff (hspare : Spare t (CpanelFiles.scratch token))
    (h : Proper t source target) :
    source <+: CpanelFiles.scratch token ↔ source = ["tmp"] := by
  constructor
  · intro hbegins
    rcases prefix_cases hspare.ne_nil hbegins with heq | hparent
    · exact absurd hspare.free (heq ▸ h.source_exists)
    · rcases prefix_cases (by simp) hparent with heq | hroot
      · exact heq
      · exact absurd (List.prefix_nil.mp hroot) h.source_ne_nil
  · rintro rfl
    exact ⟨[leaf (CpanelFiles.scratch token)], rfl⟩

/-- When cPanel copies under the same name. -/
theorem CpanelFiles.copyPath_eq_ok_iff_of_eq (h : Proper t source target) (hclosed : t.Closed)
    {path newPath : String} (hs : cleanRelative path = .ok source)
    (hd : cleanRelative newPath = .ok target) (hparent : parent source = parent target) :
    copyPath t token path newPath = .ok (t.copy source target)
      ↔ t ["tmp"] = some .folder ∧ t (scratch token) = none ∧ target ≠ scratch token
        ∧ source ≠ ["tmp"] := by
  rw [copyPath, sourceAndTarget_eq h hs hd, ok_bind]
  simp only [hparent, ne_eq, not_true, if_false]
  by_cases hmade : t ["tmp"] = some .folder ∧ t (scratch token) = none
  · have hspare : Spare t (scratch token) := ⟨hmade.1, hmade.2, by simp [scratch]⟩
    have hunlink : unlink ((t.put (scratch token) Disk.emptyFolder).copy source target)
        (scratch token)
        = .ok (((t.put (scratch token) Disk.emptyFolder).copy source target).erase
            (scratch token)) := by
      rw [unlink, abs_eq (by rw [pathLength_scratch]; decide), ensure, if_pos]
      · rfl
      by_cases heq : target = scratch token
      · rw [← heq, Disk.copy_self, heq, hspare.put_eq hclosed h.source_exists]
        exact h.source_exists
      · rw [Disk.copy_of_not_prefixed (hspare.not_target_prefixed hclosed h heq), Disk.put_self]
        exact Option.some_ne_none _
    rw [(makeDirectory_scratch token).mpr ⟨hmade.1, hmade.2, rfl⟩, ok_bind,
      copyThrough_eq token h hclosed hparent hspare, ok_bind, hunlink]
    simp only [pure_eq_ok, erase_scratch_iff hspare hclosed h, prefix_scratch_iff token hspare h,
      hmade.1, hmade.2, true_and, ne_eq]
  · refine iff_of_false (fun heq => hmade ?_) fun hclear => hmade ⟨hclear.1, hclear.2.1⟩
    obtain ⟨made, hmake, -⟩ := bind_eq_ok.mp heq
    obtain ⟨htmp, hfree, -⟩ := (makeDirectory_scratch token).mp hmake
    exact ⟨htmp, hfree⟩

end

/-! ### The same tree -/

/-- The change that an operation is. -/
def Op.done (op : Op) (t : Disk ℕ) (source target : Path) : Disk ℕ :=
  match op with
  | .rename => t.move source target
  | .copy => t.copy source target

/-- What the disk does, once it has let both paths through. -/
theorem Op.sandbox_eq_ok {op : Op} {t e : Disk ℕ} {path newPath : String}
    (h : op.sandbox t path newPath = .ok e) :
    ∃ source target, cleanRelative path = .ok source ∧ cleanRelative newPath = .ok target
      ∧ Proper t source target ∧ e = op.done t source target := by
  cases op with
  | rename | copy =>
    obtain ⟨⟨source, target⟩, hchecks, he⟩ := bind_eq_ok.mp h
    obtain ⟨hs, hd, hproper⟩ := Sandbox.proper hchecks
    exact ⟨source, target, hs, hd, hproper, ((pure_eq_ok _ _).mp he).symm⟩

/-- **Where the disk renames or copies, cPanel leaves the same tree exactly when its way is
    clear.** -/
theorem cpanel_same_iff (op : Op) (token : Token) (t : Files) {path newPath : String} {e : Disk ℕ}
    (h : op.sandbox t.tree path newPath = .ok e) :
    op.cpanel token t.tree path newPath = .ok e
      ↔ ∀ source target, cleanRelative path = .ok source → cleanRelative newPath = .ok target →
        Clear op token t.tree source target := by
  obtain ⟨source, target, hs, hd, hproper, rfl⟩ := Op.sandbox_eq_ok h
  have hthe : (∀ source target, cleanRelative path = .ok source →
      cleanRelative newPath = .ok target → Clear op token t.tree source target)
      ↔ Clear op token t.tree source target := by
    refine ⟨fun hclear => hclear source target hs hd, fun hclear s d hs' hd' => ?_⟩
    rw [hs] at hs'
    rw [hd] at hd'
    rwa [← Except.ok.inj hs', ← Except.ok.inj hd']
  rw [hthe]
  cases op with
  | rename => exact CpanelFiles.renamePath_eq_ok_iff hproper t.closed hs hd
  | copy =>
    by_cases hparent : parent source = parent target
    · simp only [Clear, hparent, ne_eq, not_true, if_false]
      exact CpanelFiles.copyPath_eq_ok_iff_of_eq token hproper t.closed hs hd hparent
    · simp only [Clear, hparent, ne_eq, not_false_eq_true, if_true]
      exact CpanelFiles.copyPath_eq_ok_iff_of_ne hproper t.closed hs hd hparent token

/-! ### A file of the target's folder -/

/-- Two folders, with a file in each. -/
def twoFolders (second : String) : Disk ℕ := fun p =>
  if p = [] ∨ p = ["a"] ∨ p = ["b"] then some .folder
  else if p = ["a", "x.txt"] then some (.file 1)
  else if p = ["b", second] then some (.file 2)
  else none

theorem closed_twoFolders (second : String) : (twoFolders second).Closed where
  root := rfl
  around p k h := by
    have hparent : ∀ {q : Path}, p ++ [k] = q → p = parent q :=
      fun heq => (parent_concat p k).symm.trans (congrArg parent heq)
    have hp : p = [] ∨ p = ["a"] ∨ p = ["b"] := by
      unfold twoFolders at h
      split at h
      · next heq =>
        rcases heq with heq | heq | heq
        · simp at heq
        · exact Or.inl (hparent heq)
        · exact Or.inl (hparent heq)
      · split at h
        · next heq =>
          exact Or.inr (Or.inl (hparent heq))
        · split at h
          · next heq =>
            exact Or.inr (Or.inr (hparent heq))
          · exact absurd rfl h
    exact if_pos hp

/-- `a/x.txt` beside `b/<second>`. -/
def shelf (second : String) : Files := ⟨twoFolders second, closed_twoFolders second⟩

private theorem length_someToken : "0123abcd".toList.length = 8 := by decide

private theorem hex_someToken : ∀ c ∈ "0123abcd".toList, c ∈ "0123456789abcdef".toList :=
  fun c hc => List.contains_iff_mem.mp (List.all_eq_true.mp
    (by decide : "0123abcd".toList.all "0123456789abcdef".toList.contains = true) c hc)

def someToken : Token := ⟨"0123abcd", length_someToken, hex_someToken⟩

private theorem clean_x : cleanRelative "a/x.txt" = .ok ["a", "x.txt"] := by decide +kernel

private theorem clean_y : cleanRelative "b/y.txt" = .ok ["b", "y.txt"] := by decide +kernel

/-- A file that goes to another folder under another name. -/
private theorem sandbox_shelf (second : String) (h : second ≠ "y.txt") :
    Op.rename.sandbox (shelf second).tree "a/x.txt" "b/y.txt"
      = .ok ((shelf second).tree.move ["a", "x.txt"] ["b", "y.txt"]) := by
  have hfree : (shelf second).tree ["b", "y.txt"] = none := by
    simp [shelf, twoFolders, h.symm]
  have hname : cleanName "y.txt" = .ok () := by decide +kernel
  have hsource : Sandbox.resolve (shelf second).tree "a/x.txt" true = .ok ["a", "x.txt"] :=
    Sandbox.resolve_eq_ok.mpr ⟨clean_x, by decide, by simp [shelf, twoFolders]⟩
  have hdestination : Sandbox.resolve (shelf second).tree "b/y.txt" false = .ok ["b", "y.txt"] :=
    Sandbox.resolve_eq_ok.mpr ⟨clean_y, by decide, by simp⟩
  simp only [Op.sandbox, Sandbox.renamePath, Sandbox.sourceAndDestination, hsource, hdestination,
    clean_y, ok_bind, hfree, ensure]
  simp [hname, leaf, parent, shelf, twoFolders]

theorem cpanel_same_shelf : ∃ e,
    Op.rename.sandbox (shelf "z.txt").tree "a/x.txt" "b/y.txt" = .ok e
      ∧ Op.rename.cpanel someToken (shelf "z.txt").tree "a/x.txt" "b/y.txt" = .ok e := by
  have hsandbox := sandbox_shelf "z.txt" (by decide)
  refine ⟨_, hsandbox, (cpanel_same_iff .rename someToken (shelf "z.txt") hsandbox).mpr ?_⟩
  intro source target hs hd
  rw [clean_x] at hs
  rw [clean_y] at hd
  obtain rfl := Except.ok.inj hs
  obtain rfl := Except.ok.inj hd
  refine Or.inr (Or.inr ⟨?_, by decide⟩)
  simp [between, parent, leaf, shelf, twoFolders]

/-- **It is not always the same**: of `a/x.txt` renamed to `b/y.txt`, cPanel first makes
    `b/x.txt`, in the place of the file of that name. -/
theorem not_cpanel_same : ¬∀ (op : Op) (token : Token) (t : Files) (path newPath : String)
    (e : Disk ℕ), op.sandbox t.tree path newPath = .ok e →
      op.cpanel token t.tree path newPath = .ok e := by
  intro hall
  have hsandbox := sandbox_shelf "x.txt" (by decide)
  have hcpanel := hall .rename someToken (shelf "x.txt") _ _ _ hsandbox
  obtain ⟨source, target, hs, hd, hproper, he⟩ := Op.sandbox_eq_ok hsandbox
  rw [clean_x] at hs
  rw [clean_y] at hd
  obtain rfl := Except.ok.inj hs
  obtain rfl := Except.ok.inj hd
  rcases (CpanelFiles.renamePath_eq_ok_iff hproper (shelf "x.txt").closed clean_x clean_y).mp
    hcpanel with hparent | hleaf | ⟨hfree, -⟩
  · exact absurd hparent (by decide)
  · exact absurd hleaf (by decide)
  · simp [between, parent, leaf, shelf, twoFolders] at hfree

end WPanel.Hosting.Renaming
