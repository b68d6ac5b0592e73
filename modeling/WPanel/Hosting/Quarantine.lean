import WPanel.Hosting.Accounts
import WPanel.Lib.Machine
import WPanel.Lib.Paths
import Mathlib.Data.List.Nodup
import Mathlib.Data.List.Perm.Basic
import Mathlib.Logic.Function.Basic

namespace WPanel.Hosting.Quarantine

open WPanel.Lib

/-!
# Files moved aside

`quarantine_file` and `restore_file` of `hosting/care_tools.py` on one website: a file the last
scan flagged is moved into `.whp-quarantine`, and is put back from there.

* `Website` — the files, the folder they are moved into, and the list the panel keeps of it;
* `quarantineFile`, `restoreFile` — the two calls, and `panel` — any sequence of them, and of scans;
* `Kept` — every file in the folder has an entry of its own, and its entry puts it back;
* `Paired` — the invariant: the list and the folder name the same files in the same order;
* `always_kept_iff` — a website keeps it exactly when no file is moved aside while the list is full;
* `not_always_kept` — the entry of the first of a hundred and one files is gone, and the file stays
  in the folder.
-/

/-! ### The website -/

/-- A finding of the last scan. -/
structure Finding where
  path : String
  rule : String
  deriving DecidableEq, Repr

/-- An entry of `SiteCare.quarantine`. -/
structure Entry where
  path : String
  stored : String
  rule : String
  movedAt : ℕ
  deriving DecidableEq, Repr

/-- A file in the quarantine folder.  Where it came from is nowhere but in the list: `origin` is
    what the list is measured by, and nothing reads it. -/
structure Moved where
  name : String
  content : ℕ
  origin : List String
  deriving DecidableEq, Repr

/-- A website: its files and folders, the quarantine folder (newest first), the list the panel
    keeps, and what the last scan found. -/
structure Website where
  files : List String → Option ℕ
  folders : List String → Bool
  folder : List Moved := []
  quarantine : List Entry := []
  findings : List Finding := []

/-- The files and folders of a website nothing has been moved aside of. -/
structure Site where
  files : List String → Option ℕ
  folders : List String → Bool
  root : folders [] = true
  inside : ∀ parent name, files (parent ++ [name]) ≠ none → folders parent = true
  apart : ∀ path, files path ≠ none → folders path = false

def Site.website (site : Site) : Website := { files := site.files, folders := site.folders }

/-- `QUARANTINE_DIR`. -/
def quarantineDir : String := ".whp-quarantine"

/-- `SECURITY_CRITICAL_RULES`. -/
def securityCriticalRules : List String := ["core-file-modified"]

/-- How long the list may get. -/
def maxEntries : ℕ := 100

/-! ### Paths -/

/-- The names an adapter makes of the parts of a path (`clean_relative`). -/
def names (parts : List String) : List String := parts.filter fun p => p ≠ "" ∧ p ≠ "."

/-- Where the file of a path is. -/
def located (path : String) : List String := names (splitOn '/' path)

/-- `target.rsplit("/", 1)[0]`. -/
def parent (path : String) : List String := names (splitOn '/' path).dropLast

/-- `path.rsplit("/", 1)[-1]`. -/
def leaf (path : String) : String := (splitOn '/' path).getLastD ""

/-- `_clean_rel`. -/
def cleanRel (path : String) : Except Err String := do
  let path := stripChar '/' (strip path)
  let parts := splitOn '/' path
  ensure (path ≠ "" ∧ ".." ∉ parts ∧ '\\' ∉ path.toList ∧ '\x00' ∉ path.toList
      ∧ parts.headD "" ≠ quarantineDir)
    (serviceError "That location is not inside your website's folder." "bad_path")
  pure path

/-- `stored`: the time in seconds, and the path with its slashes replaced. -/
def storedName (now : ℕ) (rel : String) : String :=
  toString (now / 1000000) ++ "-" ++ replaceChar '/' "__" rel ++ ".quarantined"

example : storedName 1700000000000000 "blog/a.php" = "1700000000-blog__a.php.quarantined" := by
  decide +kernel

namespace Website

variable (s : Website)

/-! ### The two calls -/

/-- Something is at a path. -/
def Holds (path : List String) : Prop := s.files path ≠ none ∨ s.folders path = true

instance (path : List String) : Decidable (s.Holds path) := inferInstanceAs (Decidable (_ ∨ _))

/-- The listing of a folder is given. -/
def listed (path : List String) : Except Err Unit := do
  ensure (s.Holds path) (adapterError "That file or folder does not exist.")
  ensure (s.folders path = true) (adapterError "That is a file, not a folder.")

/-- What the provider makes of a call before it looks at the files: an outage, a path or a name it
    does not allow, a quarantine folder it does not make. -/
def answered (refused : Option Err) : Except Err Unit :=
  match refused with
  | some e => .error e
  | none => .ok ()

/-- `quarantine_file`, at a time in microseconds. -/
def quarantineFile (path : String) (now : ℕ) (refused : Option Err) : Except Err Website := do
  let rel ← cleanRel path
  match s.findings.find? fun f => f.path = rel with
  | none => .error (serviceError "Only a file the last scan flagged can be moved aside."
      "not_flagged")
  | some finding =>
    ensure (finding.rule ∉ securityCriticalRules)
      (serviceError ("This is one of WordPress's own files. Moving it aside would break the "
        ++ "website; reinstall WordPress core instead.") "critical")
    answered refused
    let stored := storedName now rel
    -- `rename_path` into the folder
    match s.files (located rel) with
    | none => .error (adapterError "That file or folder does not exist.")
    | some content =>
      ensure (stored ∉ s.folder.map Moved.name)
        (adapterError "Something with that name already exists.")
      pure { s with
        files := Function.update s.files (located rel) none
        folder := ⟨stored, content, located rel⟩ :: s.folder
        quarantine := (⟨rel, stored, finding.rule, now⟩ :: s.quarantine).take maxEntries
        findings := s.findings.filter fun f => f.path ≠ rel }

/-- `restore_file`. -/
def restoreFile (stored : String) (refused : Option Err) : Except Err Website := do
  match s.quarantine.find? fun q => q.stored = stored with
  | none => .error (serviceError "That file is not in quarantine any more." "not_found")
  | some entry =>
    answered refused
    s.listed (parent entry.path)
    ensure (¬s.Holds (parent entry.path ++ [leaf entry.path]))
      (serviceError "A file with that name exists again, so this one was not put back." "exists")
    -- `rename_path` out of the folder
    match s.folder.find? fun m => m.name = stored with
    | none => .error (adapterError "That file or folder does not exist.")
    | some m =>
      ensure (¬s.Holds (located entry.path))
        (adapterError "Something with that name already exists.")
      pure { s with
        files := Function.update s.files (located entry.path) (some m.content)
        folder := s.folder.filter fun m => m.name ≠ stored
        quarantine := s.quarantine.filter fun q => q.stored ≠ stored }

end Website

/-- What happens to a website: a scan is done, a file is moved aside, a file is put back. -/
inductive Call where
  | scan (findings : List Finding)
  | quarantine (path : String) (now : ℕ) (refused : Option Err)
  | restore (stored : String) (refused : Option Err)
  deriving DecidableEq, Repr

/-- One website, and the calls it receives. -/
def panel : Machine Website Call Empty Err where
  exec
    | .scan findings, s => .ok ({ s with findings }, [])
    | .quarantine path now refused, s => (s.quarantineFile path now refused).map (·, [])
    | .restore stored refused, s => (s.restoreFile stored refused).map (·, [])

/-! ### What the list is for -/

/-- **Nothing is lost**: every file in the quarantine folder has its own entry in the list, under a
    name no other file has, and putting it back on that entry puts that file where it came from. -/
structure Kept (s : Website) : Prop where
  entry : ∀ m ∈ s.folder, ∃ q ∈ s.quarantine, q.stored = m.name ∧ located q.path = m.origin
  distinct : (s.folder.map Moved.name).Nodup ∧ (s.quarantine.map Entry.stored).Nodup
  back : ∀ m ∈ s.folder, ∃ s', s.restoreFile m.name none = .ok s'
    ∧ s'.files m.origin = some m.content ∧ m.name ∉ s'.folder.map Moved.name

/-- A call that moves a file aside finds room in the list, and the path ends with the file's own
    name (not with `.`). -/
def Meets (s : Website) (call : Call) (_ : Website) : Prop :=
  match call with
  | .quarantine path _ _ => s.quarantine.length < maxEntries
      ∧ ∀ rel, cleanRel path = .ok rel → leaf rel ≠ "" ∧ leaf rel ≠ "."
  | _ => True

/-! ### What one call does -/

/-- The leaf of a path is the last of what stands between its slashes. -/
private theorem splitOn_eq_leaf (path : String) :
    splitOn '/' path = (splitOn '/' path).dropLast ++ [leaf path] := by
  have hne := splitOn_ne_nil '/' path
  rw [leaf, List.getLastD_eq_getLast?, List.getLast?_eq_some_getLast hne, Option.getD_some,
    List.dropLast_append_getLast hne]

/-- The names of a path are those of the folder it is in, and its own. -/
theorem located_eq {path : String} (h : leaf path ≠ "" ∧ leaf path ≠ ".") :
    located path = parent path ++ [leaf path] := by
  rw [located, splitOn_eq_leaf, names, List.filter_append, parent, names]
  simp [h]

/-- A path that does not end with a name is that of the folder it says it is in. -/
theorem located_eq_parent {path : String} (h : ¬(leaf path ≠ "" ∧ leaf path ≠ ".")) :
    located path = parent path := by
  rw [located, splitOn_eq_leaf, names, List.filter_append, parent, names]
  simp only [List.append_right_eq_self, List.filter_eq_nil_iff, List.mem_singleton]
  rintro _ rfl
  simpa using h

namespace Website

variable {s s' : Website}

/-- What moving a file aside does. -/
structure Aside (s s' : Website) (path : String) (now : ℕ) where
  rel : String
  finding : Finding
  content : ℕ
  clean : cleanRel path = .ok rel
  there : s.files (located rel) = some content
  free : storedName now rel ∉ s.folder.map Moved.name
  result : s' = { s with
    files := Function.update s.files (located rel) none
    folder := ⟨storedName now rel, content, located rel⟩ :: s.folder
    quarantine := (⟨rel, storedName now rel, finding.rule, now⟩ :: s.quarantine).take maxEntries
    findings := s.findings.filter fun f => f.path ≠ rel }

/-- The folder, the list and the files afterwards. -/
theorem Aside.folder_eq {path : String} {now : ℕ} (w : Aside s s' path now) :
    s'.folder = ⟨storedName now w.rel, w.content, located w.rel⟩ :: s.folder :=
  congrArg Website.folder w.result

theorem Aside.quarantine_eq {path : String} {now : ℕ} (w : Aside s s' path now) :
    s'.quarantine = (⟨w.rel, storedName now w.rel, w.finding.rule, now⟩ :: s.quarantine).take
      maxEntries := congrArg Website.quarantine w.result

theorem Aside.files_eq {path : String} {now : ℕ} (w : Aside s s' path now) :
    s'.files = Function.update s.files (located w.rel) none := congrArg Website.files w.result

theorem Aside.folders_eq {path : String} {now : ℕ} (w : Aside s s' path now) :
    s'.folders = s.folders := by
  have := congrArg Website.folders w.result
  exact this

theorem quarantineFile_eq_ok {path : String} {now : ℕ} {refused : Option Err}
    (h : s.quarantineFile path now refused = .ok s') : Nonempty (Aside s s' path now) := by
  unfold quarantineFile at h
  obtain ⟨rel, hclean, h⟩ := bind_eq_ok.mp h
  split at h
  · cases h
  · next finding _ =>
    obtain ⟨_, _, h⟩ := bind_eq_ok.mp h
    obtain ⟨_, _, h⟩ := bind_eq_ok.mp h
    simp only at h
    split at h
    · cases h
    · next content hthere =>
      obtain ⟨_, hfree, h⟩ := bind_eq_ok.mp h
      exact ⟨rel, finding, content, hclean, hthere, ensure_eq_ok.mp hfree,
        (Except.ok.inj h).symm⟩

/-- What putting a file back does. -/
structure Back (s s' : Website) (stored : String) where
  entry : Entry
  m : Moved
  found : s.quarantine.find? (fun q => q.stored = stored) = some entry
  there : s.folder.find? (fun m => m.name = stored) = some m
  free : ¬s.Holds (located entry.path)
  result : s' = { s with
    files := Function.update s.files (located entry.path) (some m.content)
    folder := s.folder.filter fun m => m.name ≠ stored
    quarantine := s.quarantine.filter fun q => q.stored ≠ stored }

theorem restoreFile_eq_ok {stored : String} {refused : Option Err}
    (h : s.restoreFile stored refused = .ok s') : Nonempty (Back s s' stored) := by
  unfold restoreFile at h
  split at h
  · cases h
  · next entry hfound =>
    obtain ⟨_, _, h⟩ := bind_eq_ok.mp h
    obtain ⟨_, _, h⟩ := bind_eq_ok.mp h
    obtain ⟨_, _, h⟩ := bind_eq_ok.mp h
    split at h
    · cases h
    · next m hthere =>
      obtain ⟨_, hfree, h⟩ := bind_eq_ok.mp h
      exact ⟨entry, m, hfound, hthere, ensure_eq_ok.mp hfree, (Except.ok.inj h).symm⟩

end Website

/-! ### The invariant -/

/-- Where no key is repeated, a key finds what has it. -/
private theorem find?_key {α : Type} {key : α → String} {l : List α} (hl : (l.map key).Nodup)
    {a : α} (ha : a ∈ l) : l.find? (fun b => key b = key a) = some a := by
  obtain ⟨b, hfind⟩ : ∃ b, l.find? (fun b => key b = key a) = some b :=
    Option.isSome_iff_exists.mp (List.find?_isSome.mpr ⟨a, ha, by simp⟩)
  have hkey : key b = key a := by simpa using List.find?_some hfind
  rw [hfind, List.inj_on_of_nodup_map hl (List.mem_of_find?_eq_some hfind) ha hkey]

/-- The list and the folder name the same files in the same order; each came from a place of its
    own that is still free, in a folder that is still there. -/
structure Paired (s : Website) : Prop where
  root : s.folders [] = true
  inside : ∀ parent name, s.files (parent ++ [name]) ≠ none → s.folders parent = true
  apart : ∀ path, s.files path ≠ none → s.folders path = false
  pairs : (s.quarantine.map fun q => (q.stored, located q.path))
    = s.folder.map fun m => (m.name, m.origin)
  distinct : (s.folder.map Moved.name).Nodup
  origins : (s.folder.map Moved.origin).Nodup
  free : ∀ m ∈ s.folder, ¬s.Holds m.origin
  leaves : ∀ q ∈ s.quarantine, leaf q.path ≠ "" ∧ leaf q.path ≠ "."
  parents : ∀ q ∈ s.quarantine, s.folders (parent q.path) = true

theorem Site.paired (site : Site) : Paired site.website where
  root := site.root
  inside := site.inside
  apart := site.apart
  pairs := rfl
  distinct := List.nodup_nil
  origins := List.nodup_nil
  free _ h := absurd h List.not_mem_nil
  leaves _ h := absurd h List.not_mem_nil
  parents _ h := absurd h List.not_mem_nil

namespace Paired

variable {s s' : Website}

theorem map_stored (h : Paired s) : s.quarantine.map Entry.stored = s.folder.map Moved.name := by
  have := congrArg (List.map Prod.fst) h.pairs
  rw [List.map_map, List.map_map] at this
  exact this

theorem length_eq (h : Paired s) : s.quarantine.length = s.folder.length := by
  have := congrArg List.length h.map_stored
  simpa only [List.length_map] using this

/-- The entry of a file, and the place it names. -/
theorem exists_entry (h : Paired s) {m : Moved} (hm : m ∈ s.folder) :
    ∃ q ∈ s.quarantine, q.stored = m.name ∧ located q.path = m.origin := by
  have hmem : (m.name, m.origin) ∈ s.folder.map fun m => (m.name, m.origin) :=
    List.mem_map_of_mem hm
  rw [← h.pairs] at hmem
  obtain ⟨q, hq, heq⟩ := List.mem_map.mp hmem
  exact ⟨q, hq, congrArg Prod.fst heq, congrArg Prod.snd heq⟩

/-- The file of an entry. -/
theorem exists_moved (h : Paired s) {q : Entry} (hq : q ∈ s.quarantine) :
    ∃ m ∈ s.folder, m.name = q.stored ∧ m.origin = located q.path := by
  have hmem : (q.stored, located q.path) ∈ s.quarantine.map fun q => (q.stored, located q.path) :=
    List.mem_map_of_mem hq
  rw [h.pairs] at hmem
  obtain ⟨m, hm, heq⟩ := List.mem_map.mp hmem
  exact ⟨m, hm, congrArg Prod.fst heq, congrArg Prod.snd heq⟩

theorem find?_folder (h : Paired s) {m : Moved} (hm : m ∈ s.folder) :
    s.folder.find? (fun m' => m'.name = m.name) = some m :=
  find?_key h.distinct hm

theorem find?_quarantine (h : Paired s) {q : Entry} (hq : q ∈ s.quarantine) :
    s.quarantine.find? (fun q' => q'.stored = q.stored) = some q :=
  find?_key (h.map_stored ▸ h.distinct) hq

/-- Under the invariant a file is put back where it came from. -/
theorem restoreFile (h : Paired s) {m : Moved} (hm : m ∈ s.folder) :
    ∃ s', s.restoreFile m.name none = .ok s' ∧ s'.files m.origin = some m.content
      ∧ m.name ∉ s'.folder.map Moved.name := by
  obtain ⟨q, hq, hname, horigin⟩ := h.exists_entry hm
  have hfree : ¬s.Holds (located q.path) := horigin ▸ h.free m hm
  have hparent : s.folders (parent q.path) = true := h.parents q hq
  have hheld : s.Holds (parent q.path) := .inr hparent
  have hplace : ¬s.Holds (parent q.path ++ [leaf q.path]) := by
    rw [← located_eq (h.leaves q hq)]
    exact hfree
  unfold Website.restoreFile
  rw [← hname, h.find?_quarantine hq, hname, h.find?_folder hm]
  simp only [Website.answered, Website.listed, ensure, hheld, hparent, hplace, hfree, if_true,
    not_false_eq_true, ok_bind]
  refine ⟨_, rfl, ?_, ?_⟩
  · simp [horigin]
  · simp

theorem kept (h : Paired s) : Kept s where
  entry _ hm := h.exists_entry hm
  distinct := ⟨h.distinct, h.map_stored ▸ h.distinct⟩
  back _ hm := h.restoreFile hm

/-- A file that is there was not moved aside. -/
theorem origin_ne (h : Paired s) {path : List String} {content : ℕ}
    (hfile : s.files path = some content) {m : Moved} (hm : m ∈ s.folder) : m.origin ≠ path := by
  rintro rfl
  exact h.free m hm (.inl (by rw [hfile]; exact Option.some_ne_none _))

/-- Moving a file aside while there is room keeps list and folder together. -/
theorem aside {path : String} {now : ℕ} (h : Paired s) (w : Website.Aside s s' path now)
    (hroom : s.quarantine.length < maxEntries)
    (hleaf : leaf w.rel ≠ "" ∧ leaf w.rel ≠ ".") : Paired s' := by
  have hfile : s.files (located w.rel) ≠ none := by
    rw [w.there]
    exact Option.some_ne_none _
  have hfolder := h.apart _ hfile
  -- there is room, so nothing falls off the end of the list
  have htake : (⟨w.rel, storedName now w.rel, w.finding.rule, now⟩ :: s.quarantine).take maxEntries
      = ⟨w.rel, storedName now w.rel, w.finding.rule, now⟩ :: s.quarantine :=
    List.take_of_length_le (Nat.succ_le_of_lt hroom)
  have hsub : ∀ p, Function.update s.files (located w.rel) none p ≠ none → s.files p ≠ none := by
    intro p hp
    by_cases heq : p = located w.rel
    · exact absurd (by rw [heq, Function.update_self]) hp
    · rwa [Function.update_of_ne heq] at hp
  rw [w.result]
  exact {
    root := h.root
    inside := fun parent name hp => h.inside parent name (hsub _ hp)
    apart := fun p hp => h.apart p (hsub p hp)
    pairs := by
      show ((List.take maxEntries _).map fun q : Entry => (q.stored, located q.path)) = _
      rw [htake, List.map_cons, List.map_cons, h.pairs]
    distinct := List.nodup_cons.mpr ⟨w.free, h.distinct⟩
    origins := by
      refine List.nodup_cons.mpr ⟨fun hmem => ?_, h.origins⟩
      obtain ⟨m, hm, horigin⟩ := List.mem_map.mp hmem
      exact h.origin_ne w.there hm horigin
    free := by
      intro m hm
      rcases List.mem_cons.mp hm with rfl | hm
      · rintro (hp | hp)
        · exact hp (Function.update_self _ _ _)
        · rw [show s.folders (located w.rel) = true from hp] at hfolder
          cases hfolder
      · rintro (hp | hp)
        · exact h.free m hm (.inl (hsub _ hp))
        · exact h.free m hm (.inr hp)
    leaves := by
      intro q hq
      rw [show (_ : List Entry) = _ from htake] at hq
      rcases List.mem_cons.mp hq with rfl | hq
      · exact hleaf
      · exact h.leaves q hq
    parents := by
      intro q hq
      rw [show (_ : List Entry) = _ from htake] at hq
      rcases List.mem_cons.mp hq with rfl | hq
      · exact h.inside _ (leaf w.rel) (by rwa [← located_eq hleaf])
      · exact h.parents q hq }

/-- Putting a file back does too. -/
theorem putBack {stored : String} (h : Paired s) (w : Website.Back s s' stored) : Paired s' := by
  have hentry : w.entry ∈ s.quarantine := List.mem_of_find?_eq_some w.found
  have hother : ∀ p, p ≠ located w.entry.path →
      Function.update s.files (located w.entry.path) (some w.m.content) p = s.files p :=
    fun p hp => Function.update_of_ne hp _ _
  have hname : w.entry.stored = stored := by simpa using List.find?_some w.found
  have hplace := located_eq (h.leaves _ hentry)
  rw [w.result]
  exact {
    root := h.root
    inside := by
      intro parent' name hp
      by_cases heq : parent' ++ [name] = located w.entry.path
      · rw [hplace] at heq
        rw [(List.append_inj' heq rfl).1]
        exact h.parents _ hentry
      · exact h.inside parent' name (by rwa [← hother _ heq])
    apart := by
      intro p hp
      by_cases heq : p = located w.entry.path
      · rw [heq]
        simpa using fun hf => w.free (.inr hf)
      · exact h.apart p (by rwa [← hother _ heq])
    pairs := by
      have hfilter := congrArg (List.filter fun p : String × List String => p.1 ≠ stored) h.pairs
      rw [List.filter_map, List.filter_map] at hfilter
      exact hfilter
    distinct := h.distinct.sublist (List.filter_sublist.map _)
    origins := h.origins.sublist (List.filter_sublist.map _)
    free := by
      intro m hm
      obtain ⟨hm, hne⟩ := List.mem_filter.mp hm
      have hne' : m.origin ≠ located w.entry.path := by
        obtain ⟨m', hm', hname', horigin⟩ := h.exists_moved hentry
        rw [← horigin]
        intro heq
        have := List.inj_on_of_nodup_map h.origins hm hm' heq
        rw [this, hname', hname] at hne
        simp at hne
      rintro (hp | hp)
      · exact h.free m hm (.inl (by rwa [← hother _ hne']))
      · exact h.free m hm (.inr hp)
    leaves := fun q hq => h.leaves q (List.mem_filter.mp hq).1
    parents := fun q hq => h.parents q (List.mem_filter.mp hq).1 }

end Paired

/-! ### Whole runs -/

/-- What a call does that commits. -/
def Did (s s' : Website) : Call → Prop
  | .scan findings => s' = { s with findings }
  | .quarantine path now _ => Nonempty (Website.Aside s s' path now)
  | .restore stored _ => Nonempty (Website.Back s s' stored)

theorem did_of_commits {call : Call} {s s' : Website} {out : List Empty}
    (h : panel.Commits call s s' out) : Did s s' call := by
  cases call with
  | scan findings => exact (Prod.mk.inj (Except.ok.inj h)).1.symm
  | quarantine path now refused =>
    simp only [Machine.Commits, panel] at h
    obtain ⟨s₁, hok, heq⟩ := map_eq_ok.mp h
    rw [(Prod.mk.inj heq).1] at hok
    exact Website.quarantineFile_eq_ok hok
  | restore stored refused =>
    simp only [Machine.Commits, panel] at h
    obtain ⟨s₁, hok, heq⟩ := map_eq_ok.mp h
    rw [(Prod.mk.inj heq).1] at hok
    exact Website.restoreFile_eq_ok hok

/-- A call that meets the condition keeps list and folder together. -/
theorem Paired.commits {call : Call} {s s' : Website} {out : List Empty} (hs : Paired s)
    (h : panel.Commits call s s' out) (hmeets : Meets s call s') : Paired s' := by
  have hcall := did_of_commits h
  cases call with
  | scan findings =>
    rw [show s' = _ from hcall]
    exact { hs with }
  | quarantine path now refused =>
    obtain ⟨w⟩ := hcall
    exact hs.aside w hmeets.1 (hmeets.2 w.rel w.clean)
  | restore stored refused =>
    obtain ⟨w⟩ := hcall
    exact hs.putBack w

/-- There are no more files in the folder than entries in the list. -/
theorem Kept.length_le {s : Website} (h : Kept s) : s.folder.length ≤ s.quarantine.length := by
  have hsub : s.folder.map Moved.name ⊆ s.quarantine.map Entry.stored := by
    intro name hname
    obtain ⟨m, hm, rfl⟩ := List.mem_map.mp hname
    obtain ⟨q, hq, hstored, _⟩ := h.entry m hm
    exact hstored ▸ List.mem_map_of_mem hq
  have hle := (List.subperm_of_subset h.distinct.1 hsub).length_le
  rwa [List.length_map, List.length_map] at hle

/-- With the list full, one more file leaves a file without an entry. -/
theorem Paired.room_of_kept {s s' : Website} {path : String} {now : ℕ} (hs : Paired s)
    (w : Website.Aside s s' path now) (hk : Kept s') : s.quarantine.length < maxEntries := by
  have hle := hk.length_le
  rw [w.folder_eq, List.length_cons, ← hs.length_eq, w.quarantine_eq, List.length_take] at hle
  exact Nat.lt_of_lt_of_le hle (Nat.min_le_left _ _)

/-- A file whose path does not end with its name is not put back. -/
theorem Paired.leaf_of_kept {s s' : Website} {path : String} {now : ℕ} (hs : Paired s)
    (w : Website.Aside s s' path now) (hk : Kept s') : leaf w.rel ≠ "" ∧ leaf w.rel ≠ "." := by
  refine Classical.byContradiction fun hleaf => ?_
  have hplace := located_eq_parent hleaf
  -- the entry of the file is the newest, and its folder is the place the file was at
  obtain ⟨s'', hok, -, -⟩ := hk.back ⟨storedName now w.rel, w.content, located w.rel⟩
    (by rw [w.folder_eq]; exact List.mem_cons_self)
  have hfind : s'.quarantine.find? (fun q => q.stored = storedName now w.rel)
      = some ⟨w.rel, storedName now w.rel, w.finding.rule, now⟩ := by
    rw [w.quarantine_eq]
    simp [maxEntries]
  have hfolder := hs.apart (located w.rel) (by rw [w.there]; exact Option.some_ne_none _)
  have hgone : ¬s'.Holds (parent w.rel) := by
    rw [← hplace, Website.Holds, w.files_eq, w.folders_eq, hfolder, Function.update_self]
    simp
  unfold Website.restoreFile at hok
  rw [hfind] at hok
  simp only [Website.answered, Website.listed, ensure, hgone, if_false, ok_bind, error_bind] at hok
  cases hok

/-- The list never gets longer than it may. -/
theorem length_quarantine_le : ∀ (calls : List Call) (s : Website),
    s.quarantine.length ≤ maxEntries → (panel.run calls s).quarantine.length ≤ maxEntries := by
  refine Machine.run_invariant fun call s s' out hs h => ?_
  have hcall := did_of_commits h
  cases call with
  | scan findings =>
    rw [show s' = _ from hcall]
    exact hs
  | quarantine path now refused =>
    obtain ⟨w⟩ := hcall
    rw [w.quarantine_eq, List.length_take]
    exact Nat.min_le_left _ _
  | restore stored refused =>
    obtain ⟨w⟩ := hcall
    rw [w.result]
    exact Nat.le_trans (List.length_filter_le _ _) hs

/-- **A website keeps every file that is moved aside exactly when** each is moved aside while the
    list has room for it, and under a path that ends with its name. -/
theorem always_kept_iff (site : Site) (calls : List Call) :
    panel.Always Kept calls site.website ↔ panel.EachStep Meets calls site.website := by
  refine Machine.always_iff_eachStep (I := Paired) (fun s hs => hs.kept)
    (fun call s s' out hs h hmeets => hs.commits h hmeets) (fun call s s' out hs h hk => ?_)
    calls site.website site.paired
  have hcall := did_of_commits h
  cases call with
  | scan findings => trivial
  | quarantine path now refused =>
    obtain ⟨w⟩ := hcall
    refine ⟨hs.room_of_kept w hk, fun rel hclean => ?_⟩
    rw [w.clean] at hclean
    rw [← Except.ok.inj hclean]
    exact hs.leaf_of_kept w hk
  | restore stored refused => trivial

/-! ### A list that is full -/

/-- The files of a website with a hundred and one. -/
private def manyNames : List String := (List.range 101).map fun i => "a" ++ toString i ++ ".php"

private theorem manyNames_inside (parent : List String) (name : String)
    (h : (if parent ++ [name] ∈ manyNames.map fun n => [n] then some 0 else none)
      ≠ (none : Option ℕ)) : decide (parent = []) = true := by
  split at h
  · next hmem =>
    obtain ⟨n, _, heq⟩ := List.mem_map.mp hmem
    rw [List.singleton_eq_append_iff] at heq
    simp at heq
    simp [heq]
  · exact absurd rfl h

private theorem manyNames_apart (path : List String)
    (h : (if path ∈ manyNames.map fun n => [n] then some 0 else none) ≠ (none : Option ℕ)) :
    decide (path = []) = false := by
  split at h
  · next hmem =>
    obtain ⟨n, _, rfl⟩ := List.mem_map.mp hmem
    rfl
  · exact absurd rfl h

/-- A website with a hundred and one files in its folder. -/
def manySite : Site where
  files path := if path ∈ manyNames.map fun n => [n] then some 0 else none
  folders path := decide (path = [])
  root := rfl
  inside := manyNames_inside
  apart := manyNames_apart

/-- They are flagged. -/
def manyFindings (l : List String) : List Finding := l.map fun n => ⟨n, "known-shell-name"⟩

/-- A scan flags them all, and all are moved aside in one second. -/
def manyCalls : List Call :=
  .scan (manyFindings manyNames) :: manyNames.map fun n => .quarantine n 1700000000000000 none

private theorem replaceChar_of_not_mem {c : Char} {n new : String} (h : c ∉ n.toList) :
    replaceChar c new n = n := by
  have : n.toList.flatMap (fun d => if d = c then new.toList else [d]) = n.toList := by
    have hcongr : n.toList.flatMap (fun d => if d = c then new.toList else [d])
        = n.toList.flatMap fun d => [d] := by
      refine List.flatMap_congr fun d hd => if_neg ?_
      rintro rfl
      exact h hd
    rw [hcongr, List.flatMap_singleton']
  rw [replaceChar, this, String.ofList_toList]

/-- Names without slashes are stored under names of their own. -/
private theorem storedName_inj {now : ℕ} {a b : String} (ha : '/' ∉ a.toList)
    (hb : '/' ∉ b.toList) (h : storedName now a = storedName now b) : a = b := by
  rw [storedName, storedName, replaceChar_of_not_mem ha, replaceChar_of_not_mem hb] at h
  have := congrArg String.toList h
  simp only [String.toList_append, List.append_assoc, List.append_cancel_left_eq,
    List.append_cancel_right_eq] at this
  exact String.toList_inj.mp this

/-- Flagged files of the website's own folder, moved aside one after the other, all get there. -/
theorem length_run_quarantine (now : ℕ) :
    ∀ (l : List String) (s : Website), l.Nodup → s.findings = manyFindings l →
      (∀ n ∈ l, '/' ∉ n.toList ∧ cleanRel n = .ok n ∧ located n = [n]) →
      (∀ n ∈ l, s.files [n] ≠ none) → (∀ n ∈ l, storedName now n ∉ s.folder.map Moved.name) →
      (panel.run (l.map fun n => .quarantine n now none) s).folder.length
        = s.folder.length + l.length := by
  intro l
  induction l with
  | nil => intro s _ _ _ _ _; rfl
  | cons n l ih =>
    intro s hnodup hfindings hplain hfiles hfree
    obtain ⟨hn, hl⟩ := List.nodup_cons.mp hnodup
    obtain ⟨hslash, hclean, hplace⟩ := hplain n List.mem_cons_self
    obtain ⟨content, hcontent⟩ := Option.ne_none_iff_exists'.mp (hfiles n List.mem_cons_self)
    have hfound : s.findings.find? (fun f => f.path = n) = some ⟨n, "known-shell-name"⟩ := by
      rw [hfindings]
      simp [manyFindings]
    have hstored := hfree n List.mem_cons_self
    have hcommit : panel.Commits (.quarantine n now none) s { s with
        files := Function.update s.files [n] none
        folder := ⟨storedName now n, content, [n]⟩ :: s.folder
        quarantine := (⟨n, storedName now n, "known-shell-name", now⟩ :: s.quarantine).take
          maxEntries
        findings := s.findings.filter fun f => f.path ≠ n } [] := by
      simp only [Machine.Commits, panel]
      unfold Website.quarantineFile
      simp only [hclean, ok_bind, hfound, Website.answered, hplace, hcontent, hstored, ensure,
        not_false_eq_true, if_true]
      rfl
    rw [List.map_cons, Machine.run, hcommit.next, ih _ hl]
    · simp only [List.length_cons]
      omega
    · simp only [hfindings, manyFindings, List.map_cons, ne_eq, not_true_eq_false, decide_false,
        Bool.false_eq_true, not_false_eq_true, List.filter_cons_of_neg]
      refine List.filter_eq_self.mpr fun f hf => ?_
      obtain ⟨m, hm, rfl⟩ := List.mem_map.mp hf
      simpa using fun heq : m = n => hn (heq ▸ hm)
    · exact fun m hm => hplain m (List.mem_cons_of_mem _ hm)
    · intro m hm
      have hne : [m] ≠ [n] := fun heq => hn (List.singleton_inj.mp heq ▸ hm)
      simpa [Function.update_of_ne hne] using hfiles m (List.mem_cons_of_mem _ hm)
    · intro m hm
      refine List.not_mem_cons_of_ne_of_not_mem (fun heq => ?_)
        (hfree m (List.mem_cons_of_mem _ hm))
      have := storedName_inj (hplain m (List.mem_cons_of_mem _ hm)).1 hslash heq
      exact hn (this ▸ hm)

private theorem manyNames_nodup : manyNames.Nodup := by
  refine List.Nodup.map (fun i j h => ?_) List.nodup_range
  have := congrArg String.toList h
  simp only [String.toList_append, List.append_cancel_left_eq, List.append_cancel_right_eq] at this
  exact toString_inj (String.toList_inj.mp this)

/-- A name of letters, digits and dots that begins and ends with a letter is a path of its own. -/
private theorem plain_of_letters {n : String} {rest : List Char}
    (hn : n.toList = 'a' :: (rest ++ ['p']))
    (hrest : ∀ c ∈ rest, c.isAlphanum = true ∨ c = '.') :
    '/' ∉ n.toList ∧ cleanRel n = .ok n ∧ located n = [n] := by
  have hnot : ∀ bad : Char, bad.isAlphanum = false → bad ≠ '.' → bad ∉ n.toList := by
    intro bad hbad hdot hmem
    rw [hn, List.mem_cons, List.mem_append, List.mem_singleton] at hmem
    rcases hmem with rfl | hmem | rfl
    · exact absurd hbad (by decide)
    · rcases hrest bad hmem with halnum | rfl
      · exact absurd (hbad.symm.trans halnum) (by decide)
      · exact hdot rfl
    · exact absurd hbad (by decide)
  have hfirst : ∀ other : String, other.toList.head? ≠ some 'a' → n ≠ other := by
    rintro other hother rfl
    rw [hn] at hother
    exact hother rfl
  have hslash : '/' ∉ n.toList := hnot '/' (by decide) (by decide)
  have hne : n ≠ "" := hfirst "" (by decide)
  have hdot : n ≠ "." := hfirst "." (by decide)
  have hsplit : splitOn '/' n = [n] := by
    have hposix : posix [n] = n := by simp [posix]
    have hback := splitOn_posix (List.cons_ne_nil n []) (by
      rw [List.forall_mem_singleton]
      exact ⟨hne, hslash⟩)
    rwa [hposix] at hback
  have hstrip : strip n = n := by
    apply strip_eq_self_of_ends
    · rw [hn]
      rintro _ ⟨⟩
      decide
    · rw [hn, ← List.cons_append, List.getLast?_concat]
      rintro _ ⟨⟩
      decide
  have hstripped : stripChar '/' n = n := by
    unfold stripChar
    rw [hn, List.dropWhile_cons_of_neg (by decide), ← List.cons_append, List.reverse_concat,
      List.dropWhile_cons_of_neg (by decide), ← List.reverse_concat, List.reverse_reverse,
      List.cons_append, ← hn, String.ofList_toList]
  refine ⟨hslash, ?_, ?_⟩
  · unfold cleanRel
    dsimp only
    rw [hstrip, hstripped, hsplit, ensure, if_pos]
    · rfl
    · refine ⟨hne, ?_, hnot _ (by decide) (by decide), hnot _ (by decide) (by decide),
        hfirst quarantineDir (by decide)⟩
      rw [List.mem_singleton]
      exact (hfirst ".." (by decide)).symm
  · rw [located, hsplit, names, List.filter_singleton, decide_eq_true ⟨hne, hdot⟩, cond_true]

private theorem manyNames_plain :
    ∀ n ∈ manyNames, '/' ∉ n.toList ∧ cleanRel n = .ok n ∧ located n = [n] := by
  intro n hn
  obtain ⟨i, -, rfl⟩ := List.mem_map.mp hn
  refine @plain_of_letters _ ((toString i).toList ++ ['.', 'p', 'h']) ?_ ?_
  · simp only [String.toList_append, List.append_assoc]
    rfl
  · intro c hc
    rcases List.mem_append.mp hc with hdigit | hend
    · left
      rw [Char.isAlphanum, isDigit_of_mem_toString hdigit, Bool.or_true]
    · simp only [List.mem_cons, List.not_mem_nil, or_false] at hend
      rcases hend with rfl | rfl | rfl
      · exact .inr rfl
      · exact .inl rfl
      · exact .inl rfl

/-- The hundred and first file moved aside takes the entry of the first. -/
theorem not_always_kept :
    ¬∀ (site : Site) (calls : List Call), panel.Always Kept calls site.website := by
  intro h
  have hkept : (panel.run manyCalls manySite.website).folder.length
      ≤ (panel.run manyCalls manySite.website).quarantine.length :=
    (h manySite manyCalls).last.length_le
  have hlist := length_quarantine_le manyCalls manySite.website (Nat.zero_le _)
  have hfolder : (panel.run manyCalls manySite.website).folder.length = 101 :=
    length_run_quarantine 1700000000000000 manyNames
      { manySite.website with findings := manyFindings manyNames } manyNames_nodup rfl
      manyNames_plain (fun n hn => by simp [manySite, Site.website, hn])
      (fun n _ => by simp [manySite, Site.website])
  have : maxEntries = 100 := rfl
  omega

end WPanel.Hosting.Quarantine
