import WPanel.Hosting.Sandbox
import WPanel.Lib.Machine

namespace WPanel.Hosting.Sandbox

open WPanel.Lib
open WPanel.Hosting.Renaming (Path cleanRelative parent leaf trashDir parent_append_leaf
  parent_concat prefix_cases)

/-!
# The permissions stay in step with the files

The permissions of a sandbox are kept under the texts of paths, beside the tree that the paths are
in.  Any operations, one after the other, keep the two in step.

* `Op`, `machine` — the operations, and runs of them; one that fails changes nothing, but for an
  extraction, which leaves what it has unpacked;
* `Sound` — every key is the path of a file or folder that is there, and once;
* `Effect` — what an operation does, in seven kinds; `effect_of_commits` finds the kind;
* `Effect.sound` — each of them keeps `Sound`;
* `permissions_in_step` — so in every run from an empty folder, what is new has the default
  permissions, and a rename or copy takes the permissions of everything along.
-/

variable {α : Type}

/-! ### Runs -/

/-- What `uuid.uuid4().hex[:12]` gives. -/
structure ItemId where
  text : String
  length_eq : text.toList.length = 12
  hex : ∀ c ∈ text.toList, c ∈ "0123456789abcdef".toList

inductive Op (α : Type) where
  | write (rel : String) (content : α) (overwrite : Bool)
  | makeDirectory (rel : String)
  | rename (rel newRel : String)
  | copy (rel newRel : String)
  | delete (rel : String)
  | setPermissions (rel mode : String)
  | archive (walk : Path → List Path) (rels : List String) (archiveRel : String)
  | extract (rel destRel : String)
  | trash (rel : String) (item : ItemId) (now : ℕ)
  | restore (item : String) (fuel : ℕ)
  | purge (item : Option String)

/-- An operation on a sandbox.  An id that is taken is not drawn. -/
def Op.exec (zip : Zip α) (b : Box α) : Op α → Except Err (Box α)
  | .write rel content overwrite => writeFile b rel content overwrite
  | .makeDirectory rel => Sandbox.makeDirectory b rel
  | .rename rel newRel => renamePath b rel newRel
  | .copy rel newRel => copyPath b rel newRel
  | .delete rel => deletePath b rel
  | .setPermissions rel mode => Sandbox.setPermissions b rel mode
  | .archive walk rels archiveRel => archivePaths zip b walk rels archiveRel
  | .extract rel destRel => .ok { b with tree := (extractArchive zip rel destRel b.tree).2 }
  | .trash rel item now => do
    ensure (present b.tree (stored item.text) = false) (.unexpected "no such id is drawn")
    trashPath zip.size b rel item.text now
  | .restore item fuel => (restoreTrash b item fuel).map Prod.fst
  | .purge item => purgeTrash b item

/-- The items of the trash that an operation takes out of it. -/
def Op.takesOut : Op α → String → Prop
  | .restore item _ => fun i => i = item
  | .purge (some item) => fun i => i = item
  | .purge none => fun _ => True
  | _ => fun _ => False

def machine (zip : Zip α) : Machine (Box α) (Op α) Unit Err where
  exec op b := (op.exec zip b).map fun b' => (b', [])

/-- A folder with nothing in it. -/
def newBox : Box α := { tree := Disk.emptyFolder }

theorem commits_iff {zip : Zip α} {op : Op α} {b b' : Box α} {out : List Unit} :
    (machine zip).Commits op b b' out ↔ op.exec zip b = .ok b' ∧ out = [] := by
  unfold Machine.Commits machine
  rw [map_eq_ok]
  constructor
  · rintro ⟨a, ha, heq⟩
    cases heq
    exact ⟨ha, rfl⟩
  · rintro ⟨h, rfl⟩
    exact ⟨b', h, rfl⟩

/-! ### The invariant -/

/-- All names are plain. -/
def Plainly (t : Disk α) : Prop := ∀ p, t p ≠ none → ∀ name ∈ p, Plain name

/-- A file or folder outside the trash. -/
structure Visible (t : Disk α) (p : Path) : Prop where
  ne_nil : p ≠ []
  outside : p.head? ≠ some trashDir
  there : t p ≠ none

/-- **Files and permissions in step**: the permissions that are kept are those of files and folders
    that are there. -/
structure Sound (b : Box α) : Prop where
  closed : b.tree.Closed
  plain : Plainly b.tree
  trash : b.tree [trashDir] = none ∨ b.tree [trashDir] = some .folder
  unique : b.modes.Unique
  keyed : ∀ key ∈ b.modes.keys, ∃ p, key = posix p ∧ Visible b.tree p
  named : ∀ item entry, b.index.get? item = some entry → Plain entry.name

section Trees

variable {t t' t'' s : Disk α} {p q x : Path}

theorem Source.visible (h : Source t p) : Visible t p := ⟨h.ne_nil, h.outside, h.there⟩

theorem Plainly.put (h : Plainly t) (hp : ∀ name ∈ p, Plain name)
    (hs : Plainly s) : Plainly (t.put p s) := by
  intro x hx name hname
  by_cases hpx : p <+: x
  · obtain ⟨r, rfl⟩ := hpx
    rw [Disk.put_append] at hx
    rcases List.mem_append.mp hname with hin | hin
    · exact hp name hin
    · exact hs r hx name hin
  · rw [Disk.put_of_not_prefixed hpx] at hx
    exact h x hx name hname

theorem Plainly.erase (h : Plainly t) (p : Path) : Plainly (t.erase p) := by
  intro x hx
  by_cases hpx : p <+: x
  · exact absurd (Disk.erase_of_prefixed hpx) hx
  · rw [Disk.erase_of_not_prefixed hpx] at hx
    exact h x hx

theorem Plainly.sub (h : Plainly t) (p : Path) : Plainly (t.sub p) :=
  fun r hr name hname => h (p ++ r) hr name (List.mem_append_right p hname)

theorem plainly_emptyFolder : Plainly (Disk.emptyFolder : Disk α) := by
  intro r hr name hname
  unfold Disk.emptyFolder at hr
  split at hr
  · next hnil =>
    rw [hnil] at hname
    cases hname
  · exact absurd rfl hr

/-! ### Trees that grow -/

/-- What is in a tree is still there afterwards, and the trash is as it was. -/
structure Grown (t t' : Disk α) : Prop where
  closed : t'.Closed
  plain : Plainly t → Plainly t'
  there : ∀ p, t p ≠ none → t' p ≠ none
  folders : ∀ p, t p = some .folder → t' p = some .folder
  trash : ∀ names, t' (trashDir :: names) = t (trashDir :: names)

theorem Grown.refl (h : t.Closed) : Grown t t :=
    ⟨h, fun h => h, fun _ h => h, fun _ h => h, fun _ => rfl⟩

theorem Grown.trans (h : Grown t t') (h' : Grown t' t'') : Grown t t'' :=
  ⟨h'.closed, fun hp => h'.plain (h.plain hp), fun p hp => h'.there p (h.there p hp),
    fun p hp => h'.folders p (h.folders p hp), fun names => (h'.trash names).trans (h.trash names)⟩

/-- A single file or folder in a place where no folder is. -/
theorem Grown.put (ht : t.Closed) (hp : Place t p) (hfolder : t p ≠ some .folder)
    (hs : ∀ r, s r ≠ none ↔ r = []) : Grown t (t.put p s) where
  closed := by
    have hput := ht.put (k := leaf p) (s := s) hp.folder fun r k hr =>
      absurd ((hs _).mp hr) (by simp)
    rwa [parent_append_leaf hp.ne_nil] at hput
  plain h := h.put hp.clean.plain fun r hr name hname => by
    rw [(hs r).mp hr] at hname
    cases hname
  there x hx := by
    by_cases hpx : p <+: x
    · -- nothing is below what is no folder
      have heq : p = x := by
        by_contra hne
        exact hfolder (ht.folder_of_prefixed hx hpx hne)
      rw [← heq, Disk.put_self]
      exact (hs []).mpr rfl
    · rwa [Disk.put_of_not_prefixed hpx]
  folders x hx := by
    by_cases hpx : p <+: x
    · by_cases heq : p = x
      · exact absurd (heq ▸ hx) hfolder
      · exact absurd (ht.folder_of_prefixed (hx ▸ Option.some_ne_none _) hpx heq) hfolder
    · rwa [Disk.put_of_not_prefixed hpx]
  trash names := Disk.put_of_not_prefixed (hp.not_prefix hp.ne_nil)

theorem fileOf_ne_none (content : α) (r : Path) : fileOf content r ≠ none ↔ r = [] := by
  by_cases hr : r = [] <;> simp [fileOf, hr]

theorem emptyFolder_ne_none (r : Path) : (Disk.emptyFolder : Disk α) r ≠ none ↔ r = [] := by
  by_cases hr : r = [] <;> simp [Disk.emptyFolder, hr]

/-! ### Archives -/

/-- The new archive is a file in a free place. -/
theorem archivePaths_eq_ok {zip : Zip α} {b b' : Box α} {walk : Path → List Path}
    {rels : List String} {archiveRel : String}
    (h : archivePaths zip b walk rels archiveRel = .ok b') :
    ∃ target content, Place b.tree target ∧ b.tree target = none
      ∧ b' = { b with tree := b.tree.put target (fileOf content) } := by
  simp only [archivePaths, bind_eq_ok, ensure_eq_ok, pure_eq_ok, exists_const] at h
  obtain ⟨archive, harchive, ⟨hne, -⟩, -, -, target, htarget, hfree, hdir, -, -, -, members, -,
    rfl⟩ := h
  have hclean := cleanPath_of_cleanRelative harchive
  obtain ⟨rfl, hout, -⟩ := (resolve_posix hclean).mp htarget
  exact ⟨target, _, ⟨⟨hclean, hout⟩, hne, isDir_iff.mp hdir⟩, present_eq_false.mp hfree, rfl⟩

/-- Folders made on the way to a path. -/
theorem Grown.withFolders (ht : t.Closed) (hp : Target p) : Grown t (withFolders t p) where
  closed := by
    refine ⟨if_pos List.nil_prefix, fun q k hq => ?_⟩
    unfold Sandbox.withFolders at hq ⊢
    split
    · rfl
    · next hnot =>
      rw [if_neg fun hin => hnot ((List.prefix_append q [k]).trans hin)] at hq
      exact ht.around q k hq
  plain h q hq := by
    unfold Sandbox.withFolders at hq
    split at hq
    · next hin => exact fun name hname => hp.clean.plain name (hin.subset hname)
    · exact h q hq
  there q hq := by
    unfold Sandbox.withFolders
    split
    · exact Option.some_ne_none _
    · exact hq
  folders q hq := by
    unfold Sandbox.withFolders
    split
    · rfl
    · exact hq
  trash names := if_neg fun hin => hp.not_below hin

/-- Either folders are made, or a file is in the way and nothing changes. -/
theorem makeFolders_post (p : Path) : (makeFolders p).Post t
    (fun _ t' => ¬Obstructed t p ∧ t' = Sandbox.withFolders t p) fun t' => t' = t := by
  by_cases h : Obstructed t p
  · rw [Routine.Post, show makeFolders p t = _ from if_pos h]
  · rw [Routine.Post, show makeFolders p t = _ from if_neg h]
    exact ⟨h, rfl⟩

theorem writeOver_post (p : Path) (content : α) : (writeOver p content).Post t
    (fun _ t' => t p ≠ some .folder ∧ t' = t.put p (fileOf content)) fun t' => t' = t := by
  by_cases h : isDir t p = true
  · rw [Routine.Post, show writeOver p content t = _ from if_pos h]
  · rw [Routine.Post, show writeOver p content t = _ from if_neg h]
    exact ⟨fun hfolder => h (isDir_iff.mpr hfolder), rfl⟩

theorem Target.parent (hp : Target p) (hne : p ≠ []) : Target (parent p) := by
  refine ⟨hp.clean.parent, fun hhead => hp.outside ?_⟩
  rw [← parent_append_leaf hne, List.head?_append, hhead]
  rfl

theorem Grown.unpackMember {planned : Planned α} (ht : t.Closed) (hp : Target planned.target)
    (hne : planned.target ≠ []) :
    (unpackMember planned).Post t (fun _ => Grown t) (Grown t) := by
  unfold Sandbox.unpackMember
  split
  · refine (makeFolders_post _).mono (fun _ t' h => ?_) fun t' h => ?_
    · exact h.2 ▸ Grown.withFolders ht hp
    · exact h.symm ▸ Grown.refl ht
  · refine Routine.post_bind ((makeFolders_post _).mono (fun _ s h => ?_) fun s h => ?_)
    · have hmade : Grown t s := h.2 ▸ Grown.withFolders ht (hp.parent hne)
      have hfolder : s (Renaming.parent planned.target) = some .folder := by
        rw [h.2]
        exact if_pos (List.prefix_refl _)
      refine (writeOver_post _ _).mono (fun _ s' h' => ?_) fun s' h' => ?_
      · exact h'.2 ▸ hmade.trans
          (Grown.put hmade.closed ⟨hp, hne, hfolder⟩ h'.1 (fileOf_ne_none _))
      · exact h' ▸ hmade
    · exact h.symm ▸ Grown.refl ht

theorem Grown.unpackAll {dest : Path} {planned : List (Planned α)} (ht : t.Closed)
    (hdest : Target dest) (hp : ∀ f ∈ planned, Target f.target ∧ f.target ≠ []) :
    (unpackAll dest planned).Post t (fun _ t' => Grown t t' ∧ t' dest = some .folder)
      (Grown t) := by
  refine Routine.post_bind ((makeFolders_post dest).mono (fun _ s h => ?_) fun s h => ?_)
  · have hmade : Grown t s := h.2 ▸ Grown.withFolders ht hdest
    have hfolder : s dest = some .folder := h.2 ▸ if_pos (List.prefix_refl dest)
    have hloop : (planned.forM Sandbox.unpackMember).Post s (fun _ => Grown s) (Grown s) := by
      refine Routine.post_forM (I := fun _ => Grown s) (fun done f rest hsplit s' hs' => ?_)
        (Grown.refl hmade.closed)
      obtain ⟨htarget, hne⟩ := hp f (hsplit ▸ by simp)
      exact (Grown.unpackMember hs'.closed htarget hne).mono (fun _ _ h => hs'.trans h)
        fun _ h => hs'.trans h
    refine Routine.post_bind (hloop.mono (fun _ s' hs' => ?_) fun _ hs' => hmade.trans hs')
    exact ⟨hmade.trans hs', hs'.folders dest hfolder⟩
  · exact h.symm ▸ Grown.refl ht

/-- What was planned is done. -/
theorem extractArchive_of_plan {zip : Zip α} {rel destRel : String}
    {todo : Path × List (Planned α)} (h : plan zip t rel destRel = .ok todo) :
    extractArchive zip rel destRel t = unpackAll todo.1 todo.2 t := by
  refine (Routine.bind_of_ok (Routine.read_apply _ t)).trans ?_
  exact Routine.bind_of_ok ((Routine.check_apply _ t).trans (by rw [h]))

/-- What was refused changes nothing. -/
theorem extractArchive_of_refused {zip : Zip α} {rel destRel : String} {e : Err}
    (h : plan zip t rel destRel = .error e) : extractArchive zip rel destRel t = (.error e, t) := by
  refine (Routine.bind_of_ok (Routine.read_apply _ t)).trans ?_
  exact Routine.bind_of_error ((Routine.check_apply _ t).trans (by rw [h]))

/-- Whatever becomes of an extraction, the tree only grows. -/
theorem Grown.extract (ht : t.Closed) (zip : Zip α) (rel destRel : String) :
    Grown t (extractArchive zip rel destRel t).2 := by
  cases hplan : plan zip t rel destRel with
  | error e =>
    rw [extractArchive_of_refused hplan]
    exact Grown.refl ht
  | ok todo =>
    have hready := plan_eq_ok hplan
    rw [extractArchive_of_plan hplan]
    exact ((Grown.unpackAll ht hready.allowed fun f hf => hready.target hf).mono
      (fun _ _ h => h.1) fun _ h => h).state

end Trees

/-! ### Permissions that are taken along -/

section Modes

variable {modes : Dict String} {old key k : String} {new : Option String} {keepOld : Bool}
  {p q r x : Path}

/-- Where a key comes from after a move, a copy or a removal. -/
theorem mem_keys_carryModes : k ∈ (carryModes modes old new keepOld).keys
    ↔ (k ∈ modes.keys ∧ (keepOld = true ∨ under old k = false))
      ∨ ∃ n, new = some n ∧ ∃ key ∈ modes.keys, under old key = true ∧ k = rebase old n key := by
  unfold carryModes
  rw [Dict.mem_keys_update]
  refine or_congr ?_ ?_
  · cases keepOld with
    | true => simp
    | false =>
      rw [if_neg Bool.false_ne_true, Dict.mem_keys_keep]
      simp
  · cases new with
    | none => simp [Dict.keys]
    | some n =>
      simp only [Dict.keys, Dict.keep, List.map_map, List.mem_map, List.mem_filter,
        Option.some.injEq, exists_eq_left', Function.comp_apply]
      constructor
      · rintro ⟨e, ⟨he, hu⟩, rfl⟩
        exact ⟨e.1, ⟨e, he, rfl⟩, hu, rfl⟩
      · rintro ⟨key, ⟨e, he, rfl⟩, hu, rfl⟩
        exact ⟨e, ⟨he, hu⟩, rfl⟩

theorem unique_carryModes (h : modes.Unique) (old : String) (new : Option String) (keepOld : Bool) :
    (carryModes modes old new keepOld).Unique := by
  refine Dict.Unique.update ?_ _
  split
  · exact h
  · exact h.keep _

/-- Every key is the text of a path. -/
def Keyed (modes : Dict String) : Prop :=
  ∀ key ∈ modes.keys, ∃ p, key = posix p ∧ p ≠ [] ∧ ∀ name ∈ p, Plain name

/-- **What is kept below one path is kept below the other afterwards**, where nothing was. -/
theorem get?_carryModes_below (hu : modes.Unique) (hk : Keyed modes) (hp : p ≠ []) (hq : q ≠ [])
    (hplain : ∀ name ∈ p, Plain name) (hqr : ∀ name ∈ q ++ r, Plain name)
    (hfree : ∀ key ∈ modes.keys, under (posix q) key = false) :
    (carryModes modes (posix p) (some (posix q)) keepOld).get? (posix (q ++ r))
      = modes.get? (posix (p ++ r)) := by
  -- the keys that are moved, as paths
  have hmoved : ∀ e ∈ modes.keep (under (posix p)), ∃ r', e.1 = posix (p ++ r')
      ∧ rebase (posix p) (posix q) e.1 = posix (q ++ r') ∧ ∀ name ∈ r', Plain name := by
    intro e he
    have hkey := Dict.mem_keys_keep.mp (List.mem_map.mpr ⟨e, he, rfl⟩)
    obtain ⟨x, hx, hxne, hxplain⟩ := hk e.1 hkey.1
    obtain ⟨r', rfl⟩ := (under_posix_iff hp hxne hplain hxplain).mp (hx ▸ hkey.2)
    exact ⟨r', hx, by rw [hx, rebase_posix hp hq], fun name hname =>
      hxplain name (List.mem_append_right p hname)⟩
  have hqplain : ∀ name ∈ q, Plain name := fun name hname => hqr name (List.mem_append_left r hname)
  have hsame : ∀ r', (∀ name ∈ r', Plain name) → posix (q ++ r') = posix (q ++ r) → r' = r := by
    intro r' hr' heq
    refine List.append_cancel_left (posix_inj (fun name hname => ?_) hqr heq)
    exact (List.mem_append.mp hname).elim (hqplain name) (hr' name)
  rw [carryModes]
  cases hget : modes.get? (posix (p ++ r)) with
  | some value =>
    have hmem := Dict.mem_of_get? hget
    have hrplain : ∀ name ∈ r, Plain name :=
      fun name hname => hqr name (List.mem_append_right q hname)
    refine Dict.get?_update_of_mem ?_ ?_
    · -- two keys that are moved to one place were one
      rw [Dict.Unique, Dict.keys, List.map_map]
      refine (List.Nodup.of_map Prod.fst ((hu.keep (under (posix p))))).map_on ?_
      intro e he e' he' heq
      obtain ⟨r₁, hr₁, hbase₁, hplain₁⟩ := hmoved e he
      obtain ⟨r₂, hr₂, hbase₂, hplain₂⟩ := hmoved e' he'
      change rebase (posix p) (posix q) e.1 = rebase (posix p) (posix q) e'.1 at heq
      rw [hbase₁, hbase₂] at heq
      have hrr : r₁ = r₂ := List.append_cancel_left (posix_inj
        (fun name hname => (List.mem_append.mp hname).elim (hqplain name) (hplain₁ name))
        (fun name hname => (List.mem_append.mp hname).elim (hqplain name) (hplain₂ name)) heq)
      have hkeys : e.1 = e'.1 := by rw [hr₁, hr₂, hrr]
      exact List.inj_on_of_nodup_map (hu.keep (under (posix p))) he he' hkeys
    · refine List.mem_map.mpr ⟨(posix (p ++ r), value), List.mem_filter.mpr ⟨hmem, ?_⟩, ?_⟩
      · refine (under_posix_iff hp (by simp [hp]) hplain fun name hname => ?_).mpr
          (List.prefix_append p r)
        exact (List.mem_append.mp hname).elim (hplain name) (hrplain name)
      · rw [rebase_posix hp hq]
  | none =>
    rw [Dict.get?_update_of_not_mem]
    · have hnot : posix (q ++ r) ∉ modes.keys := fun hin => by
        have hunder := (under_posix_iff hq (by simp [hq]) hqplain hqr).mpr (List.prefix_append q r)
        rw [hfree _ hin] at hunder
        cases hunder
      refine Dict.get?_eq_none.mpr fun hin => hnot ?_
      split at hin
      · exact hin
      · exact (Dict.mem_keys_keep.mp hin).1
    · intro hin
      rw [Dict.keys, List.map_map] at hin
      obtain ⟨e, he, heq⟩ := List.mem_map.mp hin
      obtain ⟨r', hr', hbase, hplain'⟩ := hmoved e he
      change rebase (posix p) (posix q) e.1 = posix (q ++ r) at heq
      have hrr := hsame r' hplain' (hbase ▸ heq)
      subst hrr
      refine Dict.get?_eq_none.mp hget ?_
      rw [← hr']
      exact (Dict.mem_keys_keep.mp (List.mem_map.mpr ⟨e, he, rfl⟩)).1

/-- What is not below the new path is kept as before, or no more. -/
theorem get?_carryModes_of_not_under (hk : Keyed modes) (hp : p ≠ []) (hq : q ≠ [])
    (hplain : ∀ name ∈ p, Plain name) (hqplain : ∀ name ∈ q, Plain name)
    (hxplain : ∀ name ∈ x, Plain name) (hx : x ≠ []) (hqx : ¬q <+: x) :
    (carryModes modes (posix p) (some (posix q)) keepOld).get? (posix x)
      = if keepOld = true ∨ ¬p <+: x then modes.get? (posix x) else none := by
  rw [carryModes, Dict.get?_update_of_not_mem]
  · cases keepOld with
    | true => simp
    | false =>
      rw [if_neg Bool.false_ne_true, Dict.get?_keep]
      by_cases hpx : p <+: x
      · simp [(under_posix_iff hp hx hplain hxplain).mpr hpx, hpx]
      · have hunder : under (posix p) (posix x) = false :=
          Bool.eq_false_iff.mpr fun h => hpx ((under_posix_iff hp hx hplain hxplain).mp h)
        simp [hunder, hpx]
  · -- a key that is moved is below the new path
    intro hin
    rw [Dict.keys, List.map_map] at hin
    obtain ⟨e, he, heq⟩ := List.mem_map.mp hin
    have hkey := Dict.mem_keys_keep.mp (List.mem_map.mpr ⟨e, he, rfl⟩)
    obtain ⟨y, hy, hyne, hyplain⟩ := hk e.1 hkey.1
    obtain ⟨r, rfl⟩ := (under_posix_iff hp hyne hplain hyplain).mp (hy ▸ hkey.2)
    change rebase (posix p) (posix q) e.1 = posix x at heq
    rw [hy, rebase_posix hp hq] at heq
    have hqr : ∀ name ∈ q ++ r, Plain name := fun name hname =>
      (List.mem_append.mp hname).elim (hqplain name) fun h => hyplain name
        (List.mem_append_right p h)
    exact hqx (posix_inj hqr hxplain heq ▸ List.prefix_append q r)

end Modes

/-! ### What the operations do -/

/-- The tree after a rename, or after a copy. -/
def carried (t : Disk α) (p q : Path) (keepOld : Bool) : Disk α :=
  if keepOld then t.copy p q else t.move p q

/-- What an operation does to a sandbox, and which items leave the trash by it. -/
inductive Effect (size : α → ℕ) (b : Box α) : (String → Prop) → Box α → Prop
  /-- `write`, `makeDirectory`, `archive`, `extract`. -/
  | grow (tree : Disk α) : Grown b.tree tree →
      Effect size b (fun _ => False) { b with tree }
  /-- `rename`, `copy`. -/
  | carry (p q : Path) (keepOld : Bool) : Route b.tree p q →
      Effect size b (fun _ => False) { b with
        tree := carried b.tree p q keepOld
        modes := carryModes b.modes (posix p) (some (posix q)) keepOld }
  | delete (p : Path) : Source b.tree p →
      Effect size b (fun _ => False) { b with
        tree := b.tree.erase p
        modes := carryModes b.modes (posix p) none false }
  | setPermissions (p : Path) (digits : String) : Source b.tree p →
      Effect size b (fun _ => False) { b with modes := b.modes.set (posix p) digits }
  | trash (p : Path) (item : ItemId) (now : ℕ) : Source b.tree p →
      b.tree (stored item.text) = none →
      Effect size b (fun _ => False) (trashed size b p item.text now)
  | restore (b' : Box α) (item : String) (entry : Trashed) (target : Path) :
      Restored b b' item entry target → Effect size b (fun i => i = item) b'
  | purge (item : String) :
      Effect size b (fun i => i = item) { b with
        tree := b.tree.erase (stored item), index := b.index.delete item }
  | purgeAll : Effect size b (fun _ => True) { b with tree := b.tree.erase [trashDir], index := [] }

section Effects

variable {zip : Zip α} {size : α → ℕ} {b b' : Box α} {op : Op α} {out : List Unit}
  {gone : String → Prop} {t : Disk α} {p q r x : Path}

/-- **Every operation has one of these effects.** -/
theorem effect_of_commits (hs : Sound b) (h : (machine zip).Commits op b b' out) :
    Effect zip.size b op.takesOut b' := by
  obtain ⟨h, -⟩ := commits_iff.mp h
  cases op with
  | write rel content overwrite =>
    obtain ⟨target, hplace, hfolder, rfl⟩ := writeFile_eq_ok h
    exact .grow _ (Grown.put hs.closed hplace hfolder (fileOf_ne_none content))
  | makeDirectory rel =>
    obtain ⟨target, hplace, hfree, rfl⟩ := makeDirectory_eq_ok h
    refine .grow _ (Grown.put hs.closed hplace ?_ emptyFolder_ne_none)
    exact hfree ▸ (Option.some_ne_none _).symm
  | rename rel newRel =>
    obtain ⟨source, destination, -, -, hroute, rfl⟩ := renamePath_eq_ok h
    exact .carry source destination false hroute
  | copy rel newRel =>
    obtain ⟨source, destination, -, -, hroute, rfl⟩ := copyPath_eq_ok h
    exact .carry source destination true hroute
  | delete rel =>
    obtain ⟨target, hsource, rfl⟩ := deletePath_eq_ok h
    exact .delete target hsource
  | setPermissions rel mode =>
    obtain ⟨target, digits, hsource, rfl⟩ := setPermissions_eq_ok h
    exact .setPermissions target digits hsource
  | archive walk rels archiveRel =>
    obtain ⟨target, content, hplace, hfree, rfl⟩ := archivePaths_eq_ok h
    refine .grow _ (Grown.put hs.closed hplace ?_ (fileOf_ne_none content))
    exact hfree ▸ (Option.some_ne_none _).symm
  | extract rel destRel =>
    cases h
    exact .grow _ (Grown.extract hs.closed zip rel destRel)
  | trash rel item now =>
    simp only [Op.exec, bind_eq_ok, ensure_eq_ok, exists_const] at h
    obtain ⟨hnew, h⟩ := h
    obtain ⟨source, hsource, hne, rfl⟩ := trashPath_eq_ok.mp h
    exact .trash source item now
      ⟨target_of_resolve hsource, hne, (resolve_eq_ok.mp hsource).2.2 rfl⟩
      (present_eq_false.mp hnew)
  | restore item fuel =>
    obtain ⟨⟨box, target⟩, hrestore, rfl⟩ := map_eq_ok.mp h
    obtain ⟨entry, hrestored⟩ := restoreTrash_eq_ok hrestore
    exact .restore box item entry target hrestored
  | purge item =>
    cases item with
    | none =>
      cases h
      exact .purgeAll
    | some item =>
      simp only [Op.exec, purgeTrash, bind_eq_ok, ensure_eq_ok, pure_eq_ok, exists_const] at h
      obtain ⟨-, rfl⟩ := h
      exact .purge item

/-! ### Each of them keeps the two in step -/

theorem Sound.keyedPlainly (hs : Sound b) : Keyed b.modes := by
  intro key hkey
  obtain ⟨p, hp, hvis⟩ := hs.keyed key hkey
  exact ⟨p, hp, hvis.ne_nil, hs.plain p hvis.there⟩

/-- What is kept is kept for something that is there. -/
theorem Sound.visible_of_mem (hs : Sound b) (hp : ∀ name ∈ p, Plain name)
    (h : posix p ∈ b.modes.keys) : Visible b.tree p := by
  obtain ⟨x, hx, hvis⟩ := hs.keyed _ h
  exact posix_inj hp (hs.plain x hvis.there) hx ▸ hvis

/-- A route does not lead into its own source. -/
theorem Route.not_into (h : Route t p q) (ht : t.Closed) : ¬p <+: q := by
  intro hpq
  refine h.elsewhere ⟨?_, hpq⟩
  have hfolder := h.place.folder
  rcases prefix_cases h.place.ne_nil hpq with heq | hparent
  · exact absurd h.free (heq ▸ h.source.there)
  · by_cases heq : p = parent q
    · exact heq ▸ hfolder
    · exact ht.folder_of_prefixed (hfolder ▸ Option.some_ne_none _) hparent heq

theorem Route.not_above (h : Route t p q) (ht : t.Closed) (hx : t x ≠ none) : ¬q <+: x :=
  fun hqx => hx (ht.none_of_prefixed h.free hqx)

theorem carried_append (r : Path) (keepOld : Bool) :
    carried t p q keepOld (q ++ r) = t (p ++ r) := by
  unfold carried
  split
  · exact Disk.copy_append r
  · exact Disk.move_append r

theorem carried_of_not_prefixed {keepOld : Bool} (hqx : ¬q <+: x) :
    carried t p q keepOld x = if keepOld = true ∨ ¬p <+: x then t x else none := by
  unfold carried
  cases keepOld with
  | true => simp [Disk.copy_of_not_prefixed hqx]
  | false =>
    by_cases hpx : p <+: x
    · simp [Disk.move, Disk.put_of_not_prefixed hqx, Disk.erase_of_prefixed hpx, hpx]
    · simp [Disk.move_of_not_prefixed hqx hpx, hpx]

theorem Route.closed (h : Route t p q) (ht : t.Closed) (keepOld : Bool) :
    (carried t p q keepOld).Closed := by
  have hinto : ¬p <+: parent q := fun hp =>
    h.not_into ht (hp.trans (List.dropLast_prefix q))
  have hq := parent_append_leaf h.place.ne_nil
  unfold carried
  split
  · exact hq ▸ ht.copy h.place.folder
  · exact hq ▸ ht.move h.source.ne_nil h.place.folder hinto

theorem Route.plain (h : Route t p q) (hp : Plainly t) (keepOld : Bool) :
    Plainly (carried t p q keepOld) := by
  unfold carried
  split
  · exact hp.put h.place.clean.plain (hp.sub p)
  · exact (hp.erase p).put h.place.clean.plain (hp.sub p)

/-- The trash is as it was. -/
theorem Route.trash (h : Route t p q) (keepOld : Bool) (names : Path) :
    carried t p q keepOld (trashDir :: names) = t (trashDir :: names) := by
  rw [carried_of_not_prefixed (h.place.not_prefix h.place.ne_nil),
    if_pos (.inr (h.source.not_prefix h.source.ne_nil))]

/-! ### The trash -/

theorem makeTrash_apply (ht : t.Closed)
    (htrash : t [trashDir] = none ∨ t [trashDir] = some .folder) (x : Path) :
    makeTrash t x = if x = [trashDir] then some .folder else t x := by
  unfold makeTrash
  split
  · next hthere =>
    split
    · next heq =>
      rw [heq]
      exact htrash.resolve_left (present_iff.mp hthere)
    · rfl
  · next hnone =>
    have hfree : t [trashDir] = none := present_eq_false.mp (Bool.not_eq_true _ ▸ hnone)
    by_cases hx : [trashDir] <+: x
    · -- there is nothing in a trash that is not there
      obtain ⟨rest, rfl⟩ := hx
      rw [Disk.put_append, Disk.emptyFolder]
      by_cases hrest : rest = []
      · simp [hrest]
      · rw [if_neg hrest, if_neg (by simpa using hrest)]
        exact (ht.none_of_prefixed hfree (List.prefix_append _ _)).symm
    · have hne : x ≠ [trashDir] := fun heq => hx (heq ▸ List.prefix_refl _)
      rw [Disk.put_of_not_prefixed hx, if_neg hne]

theorem closed_makeTrash (ht : t.Closed) : (makeTrash t).Closed := by
  unfold makeTrash
  split
  · exact ht
  · exact ht.put_emptyFolder (p := []) (k := trashDir) ht.root

theorem plain_trashDir : Plain trashDir := by decide

theorem ItemId.plain (item : ItemId) : Plain item.text := by
  constructor
  · intro hempty
    have hlength := item.length_eq
    rw [hempty] at hlength
    cases hlength
  · exact fun hslash => absurd (item.hex '/' hslash) (by decide)

theorem plainly_makeTrash (h : Plainly t) : Plainly (makeTrash t) := by
  unfold makeTrash
  split
  · exact h
  · refine h.put (fun name hname => ?_) plainly_emptyFolder
    rw [List.mem_singleton.mp hname]
    exact plain_trashDir

/-- A restored item has a plain name. -/
theorem plain_label {name : String} (h : Plain name) (n : ℕ) : Plain (label name n) := by
  have happend : ∀ suffix : String, '/' ∉ suffix.toList → Plain (name ++ suffix) := by
    intro suffix hsuffix
    constructor
    · intro hempty
      exact h.1 (String.append_eq_empty_iff.mp hempty).1
    · rw [String.toList_append, List.mem_append, not_or]
      exact ⟨h.2, hsuffix⟩
  rcases n with _ | _ | n
  · exact h
  · exact happend _ (by decide)
  · change Plain (name ++ " (restored " ++ toString (n + 2) ++ ")")
    rw [String.append_assoc, String.append_assoc]
    refine happend _ ?_
    simp only [String.toList_append, List.mem_append, not_or]
    exact ⟨by decide, fun hdigit => absurd (isDigit_of_mem_toString hdigit) (by decide), by decide⟩

/-! ### In step -/

/-- What is still kept after something has gone is not below it. -/
theorem Sound.keyed_outside (hs : Sound b) (hp : ∀ name ∈ p, Plain name) (hne : p ≠ [])
    {key : String} (hkey : key ∈ (carryModes b.modes (posix p) none false).keys) :
    ∃ x, key = posix x ∧ Visible b.tree x ∧ ¬p <+: x := by
  rcases mem_keys_carryModes.mp hkey with ⟨hold, hunder⟩ | ⟨n, hn, -⟩
  · obtain ⟨x, rfl, hvis⟩ := hs.keyed key hold
    refine ⟨x, rfl, hvis, fun hpx => ?_⟩
    have hin := (under_posix_iff hne hvis.ne_nil hp (hs.plain x hvis.there)).mpr hpx
    simp [hin] at hunder
  · cases hn

/-- Nothing outside the trash is in it. -/
theorem Visible.not_in_trash (h : Visible t x) {names : Path} : ¬trashDir :: names <+: x := by
  rintro ⟨rest, rfl⟩
  exact h.outside rfl

theorem Visible.of_there {t' : Disk α} (h : Visible t x) (hx : t' x ≠ none) : Visible t' x :=
  ⟨h.ne_nil, h.outside, hx⟩

/-- The invariant, of a sandbox that is put together. -/
theorem Sound.of {tree : Disk α} {modes : Dict String} {index : Dict Trashed}
    (closed : tree.Closed) (plain : Plainly tree)
    (trash : tree [trashDir] = none ∨ tree [trashDir] = some .folder) (unique : modes.Unique)
    (keyed : ∀ key ∈ modes.keys, ∃ p, key = posix p ∧ Visible tree p)
    (named : ∀ item entry, index.get? item = some entry → Plain entry.name) :
    Sound { tree, modes, index } :=
  ⟨closed, plain, trash, unique, keyed, named⟩

theorem Sound.grow {tree : Disk α} (hs : Sound b) (h : Grown b.tree tree) :
    Sound { b with tree } := by
  refine Sound.of h.closed (h.plain hs.plain) ?_ hs.unique (fun key hkey => ?_) hs.named
  · rw [h.trash []]
    exact hs.trash
  · obtain ⟨p, hp, hvis⟩ := hs.keyed key hkey
    exact ⟨p, hp, hvis.of_there (h.there p hvis.there)⟩

theorem Sound.carry {keepOld : Bool} (hs : Sound b) (h : Route b.tree p q) :
    Sound { b with
      tree := carried b.tree p q keepOld
      modes := carryModes b.modes (posix p) (some (posix q)) keepOld } := by
  have hp := h.source.clean.plain
  refine Sound.of (h.closed hs.closed keepOld) (h.plain hs.plain keepOld) ?_
    (unique_carryModes hs.unique _ _ _) (fun key hkey => ?_) hs.named
  · rw [h.trash keepOld []]
    exact hs.trash
  · rcases mem_keys_carryModes.mp hkey with ⟨hold, hkept⟩ | ⟨n, hn, old, hold, hunder, rfl⟩
    · obtain ⟨x, rfl, hvis⟩ := hs.keyed key hold
      refine ⟨x, rfl, hvis.of_there ?_⟩
      rw [carried_of_not_prefixed (h.not_above hs.closed hvis.there), if_pos]
      · exact hvis.there
      · refine hkept.imp_right fun hunder hpx => ?_
        have hin := (under_posix_iff h.source.ne_nil hvis.ne_nil hp
          (hs.plain x hvis.there)).mpr hpx
        simp [hin] at hunder
    · obtain ⟨x, rfl, hvis⟩ := hs.keyed old hold
      obtain ⟨r, rfl⟩ := (under_posix_iff h.source.ne_nil hvis.ne_nil hp
        (hs.plain x hvis.there)).mp hunder
      cases hn
      refine ⟨q ++ r, rebase_posix h.source.ne_nil h.place.ne_nil, ?_, ?_, ?_⟩
      · simp [h.place.ne_nil]
      · rw [List.head?_append_of_ne_nil _ h.place.ne_nil]
        exact h.place.outside
      · rw [carried_append]
        exact hvis.there

theorem Sound.delete (hs : Sound b) (h : Source b.tree p) :
    Sound { b with
      tree := b.tree.erase p
      modes := carryModes b.modes (posix p) none false } := by
  refine Sound.of (hs.closed.erase h.ne_nil) (hs.plain.erase p) ?_
    (unique_carryModes hs.unique _ _ _) (fun key hkey => ?_) hs.named
  · rw [Disk.erase_of_not_prefixed (h.not_prefix h.ne_nil)]
    exact hs.trash
  · obtain ⟨x, hx, hvis, hpx⟩ := hs.keyed_outside h.clean.plain h.ne_nil hkey
    refine ⟨x, hx, hvis.of_there ?_⟩
    rw [Disk.erase_of_not_prefixed hpx]
    exact hvis.there

theorem Sound.setPermissions (hs : Sound b) (h : Source b.tree p) (digits : String) :
    Sound { b with modes := b.modes.set (posix p) digits } := by
  refine Sound.of hs.closed hs.plain hs.trash (hs.unique.set _ _) (fun key hkey => ?_) hs.named
  rcases Dict.mem_keys_set.mp hkey with rfl | hold
  · exact ⟨p, rfl, h.visible⟩
  · exact hs.keyed key hold

theorem not_begins_stored (item : String) : ¬stored item <+: [trashDir] :=
  fun h => absurd h.length_le (Nat.not_succ_le_self 1)

/-- What is neither the item nor in the trash is where it was. -/
theorem trashed_tree (hs : Sound b) {item : String} {now : ℕ} (hp : ¬p <+: x)
    (hx : ¬stored item <+: x) : (trashed size b p item now).tree x
      = if x = [trashDir] then some .folder else b.tree x :=
  (Disk.move_of_not_prefixed hx hp).trans (makeTrash_apply hs.closed hs.trash x)

theorem Sound.trashPath (hs : Sound b) (h : Source b.tree p) (item : ItemId) (now : ℕ) :
    Sound (trashed size b p item.text now) := by
  have htree : ∀ x, ¬p <+: x → ¬stored item.text <+: x →
      (makeTrash b.tree).move p (stored item.text) x
        = if x = [trashDir] then some .folder else b.tree x :=
    fun x hp hx => @trashed_tree _ size b p x hs item.text now hp hx
  refine Sound.of ?_ ?_ ?_ (unique_carryModes hs.unique _ _ _) (fun key hkey => ?_)
    fun i entry hentry => ?_
  · have hfolder : makeTrash b.tree [trashDir] = some .folder := by
      rw [makeTrash_apply hs.closed hs.trash, if_pos rfl]
    exact (closed_makeTrash hs.closed).move h.ne_nil hfolder (h.not_prefix h.ne_nil)
  · refine ((plainly_makeTrash hs.plain).erase p).put (fun name hname => ?_)
      ((plainly_makeTrash hs.plain).sub p)
    rcases List.mem_cons.mp hname with rfl | hname
    · exact plain_trashDir
    · exact List.mem_singleton.mp hname ▸ item.plain
  · rw [htree _ (h.not_prefix h.ne_nil) (not_begins_stored item.text), if_pos rfl]
    exact .inr rfl
  · obtain ⟨x, hx, hvis, hpx⟩ := hs.keyed_outside h.clean.plain h.ne_nil hkey
    refine ⟨x, hx, hvis.of_there ?_⟩
    rw [htree x hpx hvis.not_in_trash]
    split
    · exact Option.some_ne_none _
    · exact hvis.there
  · rw [Dict.get?_set] at hentry
    split at hentry
    · cases hentry
      refine h.clean.plain _ ?_
      rw [leaf, List.getLastD_eq_getLast?, List.getLast?_eq_some_getLast h.ne_nil]
      exact List.getLast_mem h.ne_nil
    · exact hs.named i entry hentry

theorem Sound.restore {item : String} {entry : Trashed} (hs : Sound b)
    (h : Restored b b' item entry p) : Sound b' := by
  obtain ⟨original, n, hp⟩ := h.place
  obtain ⟨hfolder, htarget⟩ := homeFolder_folder hs.closed original
  have hstored : stored item ≠ [] := List.cons_ne_nil _ _
  -- the trash is there: its place is not the one that is free
  have htrash : b.tree [trashDir] = some .folder := by
    refine hs.trash.resolve_left fun hnone => h.there ?_
    exact hs.closed.none_of_prefixed hnone ⟨[item], rfl⟩
  have hfree : ∀ x, b.tree x ≠ none → ¬p <+: x :=
    fun x hx hin => hx (hs.closed.none_of_prefixed h.free hin)
  rw [h.result]
  refine Sound.of ?_ ?_ (.inr ?_) hs.unique (fun key hkey => ?_) fun i e he => ?_
  · exact hp ▸ hs.closed.move hstored hfolder htarget.not_below
  · refine (hs.plain.erase _).put (fun name hname => ?_) (hs.plain.sub _)
    rw [hp] at hname
    rcases List.mem_append.mp hname with hin | hin
    · exact htarget.clean.plain name hin
    · exact List.mem_singleton.mp hin ▸ plain_label (hs.named _ _ h.indexed) n
  · rw [Disk.move_of_not_prefixed (hfree _ (htrash ▸ Option.some_ne_none _))
      (not_begins_stored item)]
    exact htrash
  · obtain ⟨x, hx, hvis⟩ := hs.keyed key hkey
    refine ⟨x, hx, hvis.of_there ?_⟩
    have hout : ¬stored item <+: x := hvis.not_in_trash
    rw [Disk.move_of_not_prefixed (hfree x hvis.there) hout]
    exact hvis.there
  · rw [Dict.get?_delete] at he
    split at he
    · cases he
    · exact hs.named i e he

/-- Something that is erased in the trash, or the trash itself. -/
theorem Sound.purge {names : Path} (hs : Sound b) {index : Dict Trashed}
    (hindex : ∀ i entry, index.get? i = some entry → b.index.get? i = some entry) :
    Sound { b with tree := b.tree.erase (trashDir :: names), index } := by
  refine Sound.of (hs.closed.erase (List.cons_ne_nil _ _)) (hs.plain.erase _) ?_ hs.unique
    (fun key hkey => ?_) fun i entry hentry => hs.named i entry (hindex i entry hentry)
  · by_cases hin : trashDir :: names <+: [trashDir]
    · exact .inl (Disk.erase_of_prefixed hin)
    · rw [Disk.erase_of_not_prefixed hin]
      exact hs.trash
  · obtain ⟨x, hx, hvis⟩ := hs.keyed key hkey
    refine ⟨x, hx, hvis.of_there ?_⟩
    rw [Disk.erase_of_not_prefixed hvis.not_in_trash]
    exact hvis.there

/-- **Every effect keeps files and permissions in step.** -/
theorem Effect.sound (hs : Sound b) (h : Effect size b gone b') : Sound b' := by
  cases h with
  | grow tree hgrown => exact hs.grow hgrown
  | carry p q keepOld hroute => exact hs.carry hroute
  | delete p hsource => exact hs.delete hsource
  | setPermissions p digits hsource => exact hs.setPermissions hsource digits
  | trash p item now hsource hnew => exact hs.trashPath hsource item now
  | restore b' item entry target hrestored => exact hs.restore hrestored
  | purge item =>
    refine hs.purge fun i entry hentry => ?_
    rw [Dict.get?_delete] at hentry
    split at hentry
    · cases hentry
    · exact hentry
  | purgeAll => exact hs.purge fun i entry hentry => by cases hentry

theorem sound_newBox : Sound (newBox : Box α) := by
  have hroot : ∀ x : Path, x ≠ [] → (Disk.emptyFolder : Disk α) x = none := fun x hx => if_neg hx
  refine Sound.of ⟨if_pos rfl, fun p k h => absurd (hroot _ (by simp)) h⟩ plainly_emptyFolder
    (.inl (hroot _ (List.cons_ne_nil _ _))) List.nodup_nil (fun key hkey => ?_) fun i e he => ?_
  · cases hkey
  · cases he

/-- In every run, files and permissions are in step. -/
theorem sound_run (zip : Zip α) (ops : List (Op α)) (hs : Sound b) :
    Sound ((machine zip).run ops b) := by
  have hstep : ∀ (op : Op α) (b b' : Box α) (out : List Unit), Sound b →
      (machine zip).Commits op b b' out → Sound b' :=
    fun _ _ _ _ hs h => (effect_of_commits hs h).sound hs
  exact Machine.run_invariant hstep ops b hs

/-! ### What is new, and what is taken along -/

/-- Only a rename, a copy and a change of permissions keep something new. -/
def Op.keepsKeys : Op α → Bool
  | .rename _ _ | .copy _ _ | .setPermissions _ _ => false
  | _ => true

theorem keys_of_commits (hop : op.keepsKeys = true) (h : (machine zip).Commits op b b' out) :
    ∀ key ∈ b'.modes.keys, key ∈ b.modes.keys := by
  have hremoved : ∀ (p : String) (key : String),
      key ∈ (carryModes b.modes p none false).keys → key ∈ b.modes.keys := by
    intro p key hkey
    rcases mem_keys_carryModes.mp hkey with ⟨hold, -⟩ | ⟨n, hn, -⟩
    · exact hold
    · cases hn
  obtain ⟨h, -⟩ := commits_iff.mp h
  cases op with
  | rename rel newRel => cases hop
  | copy rel newRel => cases hop
  | setPermissions rel mode => cases hop
  | write rel content overwrite =>
    obtain ⟨target, -, -, rfl⟩ := writeFile_eq_ok h
    exact fun key hkey => hkey
  | makeDirectory rel =>
    obtain ⟨target, -, -, rfl⟩ := makeDirectory_eq_ok h
    exact fun key hkey => hkey
  | delete rel =>
    obtain ⟨target, -, rfl⟩ := deletePath_eq_ok h
    exact hremoved _
  | archive walk rels archiveRel =>
    obtain ⟨target, content, -, -, rfl⟩ := archivePaths_eq_ok h
    exact fun key hkey => hkey
  | extract rel destRel =>
    cases h
    exact fun key hkey => hkey
  | trash rel item now =>
    simp only [Op.exec, bind_eq_ok] at h
    obtain ⟨-, -, h⟩ := h
    obtain ⟨source, -, -, rfl⟩ := trashPath_eq_ok.mp h
    exact hremoved _
  | restore item fuel =>
    obtain ⟨⟨box, target⟩, hrestore, rfl⟩ := map_eq_ok.mp h
    obtain ⟨entry, hrestored⟩ := restoreTrash_eq_ok hrestore
    change ∀ key ∈ box.modes.keys, _
    rw [hrestored.result]
    exact fun key hkey => hkey
  | purge item =>
    cases item with
    | none =>
      cases h
      exact fun key hkey => hkey
    | some item =>
      simp only [Op.exec, purgeTrash, bind_eq_ok, pure_eq_ok] at h
      obtain ⟨-, -, rfl⟩ := h
      exact fun key hkey => hkey

/-- What is there now, and for which nothing is kept, has the default permissions. -/
theorem shown_of_not_mem (h : posix p ∉ b.modes.keys) : shown b p = defaultMode b.tree p := by
  rw [shown, Dict.get?_eq_none.mpr h, Option.getD_none]

/-- **What is new has the default permissions.** -/
theorem shown_new (hs : Sound b) (hs' : Sound b')
    (hkeys : ∀ key ∈ b'.modes.keys, key ∈ b.modes.keys) (hnew : b.tree p = none)
    (hthere : b'.tree p ≠ none) : shown b' p = defaultMode b'.tree p := by
  refine shown_of_not_mem fun hin => ?_
  exact (hs.visible_of_mem (hs'.plain p hthere) (hkeys _ hin)).there hnew

/-- What is at a path and what is kept for it decide what is shown. -/
theorem shown_congr (hnode : b'.tree q = b.tree p)
    (hmode : b'.modes.get? (posix q) = b.modes.get? (posix p)) : shown b' q = shown b p := by
  unfold shown defaultMode isDir
  rw [hmode, hnode]

/-- **A rename or a copy takes the permissions of everything along.** -/
theorem shown_carried (keepOld : Bool) (hs : Sound b) (h : Route b.tree p q)
    (hr : b.tree (p ++ r) ≠ none) (hb' : b' = { b with
      tree := carried b.tree p q keepOld
      modes := carryModes b.modes (posix p) (some (posix q)) keepOld }) :
    shown b' (q ++ r) = shown b (p ++ r)
      ∧ (keepOld = true → shown b' (p ++ r) = shown b (p ++ r)) := by
  have hplain := hs.plain (p ++ r) hr
  have hpr : p ++ r ≠ [] := by simp [h.source.ne_nil]
  have hqr : ∀ name ∈ q ++ r, Plain name := fun name hname =>
    (List.mem_append.mp hname).elim (h.place.clean.plain name) fun hin =>
      hplain name (List.mem_append_right p hin)
  rw [hb']
  constructor
  · refine shown_congr (carried_append r keepOld) ?_
    refine get?_carryModes_below hs.unique hs.keyedPlainly h.source.ne_nil h.place.ne_nil
      h.source.clean.plain hqr fun key hkey => ?_
    -- nothing is kept for a place that is free
    obtain ⟨y, rfl, hvis⟩ := hs.keyed key hkey
    refine Bool.eq_false_iff.mpr fun hunder => h.not_above hs.closed hvis.there ?_
    exact (under_posix_iff h.place.ne_nil hvis.ne_nil h.place.clean.plain
      (hs.plain y hvis.there)).mp hunder
  · intro hkeep
    refine shown_congr ?_ ?_
    · exact (carried_of_not_prefixed (h.not_above hs.closed hr)).trans (if_pos (.inl hkeep))
    · refine (get?_carryModes_of_not_under hs.keyedPlainly h.source.ne_nil h.place.ne_nil
        h.source.clean.plain h.place.clean.plain hplain hpr
        (h.not_above hs.closed hr)).trans (if_pos (.inl hkeep))

/-- What an operation does to permissions, as they are shown: a rename or a copy takes those of
    everything along, and whatever is new by another operation has the default ones. -/
def InStep (b : Box α) (op : Op α) (b' : Box α) : Prop :=
  match op with
  | .rename rel newRel => ∀ source destination r, cleanRelative rel = .ok source →
      cleanRelative newRel = .ok destination → b.tree (source ++ r) ≠ none →
      shown b' (destination ++ r) = shown b (source ++ r)
  | .copy rel newRel => ∀ source destination r, cleanRelative rel = .ok source →
      cleanRelative newRel = .ok destination → b.tree (source ++ r) ≠ none →
      shown b' (destination ++ r) = shown b (source ++ r)
        ∧ shown b' (source ++ r) = shown b (source ++ r)
  | _ => ∀ p, b.tree p = none → b'.tree p ≠ none → shown b' p = defaultMode b'.tree p

theorem inStep_of_commits (hs : Sound b) (h : (machine zip).Commits op b b' out) :
    InStep b op b' := by
  have hs' := (effect_of_commits hs h).sound hs
  have hnew (hop : op.keepsKeys = true) (p : Path) (hnew : b.tree p = none)
      (hthere : b'.tree p ≠ none) : shown b' p = defaultMode b'.tree p :=
    shown_new hs hs' (keys_of_commits hop h) hnew hthere
  have hexec := (commits_iff.mp h).1
  cases op with
  | rename rel newRel =>
    intro source destination r hsource hdest hr
    obtain ⟨p, q, hp, hq, hroute, hb'⟩ := renamePath_eq_ok hexec
    cases hp.symm.trans hsource
    cases hq.symm.trans hdest
    exact (shown_carried false hs hroute hr hb').1
  | copy rel newRel =>
    intro source destination r hsource hdest hr
    obtain ⟨p, q, hp, hq, hroute, hb'⟩ := copyPath_eq_ok hexec
    cases hp.symm.trans hsource
    cases hq.symm.trans hdest
    have hshown := shown_carried true hs hroute hr hb'
    exact ⟨hshown.1, hshown.2 rfl⟩
  | setPermissions rel mode =>
    intro p hnone hthere
    obtain ⟨target, digits, -, rfl⟩ := setPermissions_eq_ok hexec
    exact absurd hnone hthere
  | write rel content overwrite => exact hnew rfl
  | makeDirectory rel => exact hnew rfl
  | delete rel => exact hnew rfl
  | archive walk rels archiveRel => exact hnew rfl
  | extract rel destRel => exact hnew rfl
  | trash rel item now => exact hnew rfl
  | restore item fuel => exact hnew rfl
  | purge item => exact hnew rfl

/-- **The permissions stay in step with the files**: in every run from an empty folder, whatever is
    kept is kept for a file or folder that is there, and every operation shows what it should. -/
theorem permissions_in_step (zip : Zip α) (ops : List (Op α)) :
    (∀ key ∈ ((machine zip).run ops newBox).modes.keys,
      ∃ p, key = posix p ∧ ((machine zip).run ops newBox).tree p ≠ none)
    ∧ (machine zip).EachStep InStep ops newBox := by
  constructor
  · intro key hkey
    obtain ⟨p, hp, hvis⟩ := (sound_run zip ops sound_newBox).keyed key hkey
    exact ⟨p, hp, hvis.there⟩
  · have hstep : ∀ (op : Op α) (b b' : Box α) (out : List Unit), Sound b →
        (machine zip).Commits op b b' out → Sound b' :=
      fun _ _ _ _ hs h => (effect_of_commits hs h).sound hs
    exact Machine.eachStep_of_invariant hstep (fun _ _ _ _ hs h => inStep_of_commits hs h) ops
      newBox sound_newBox

end Effects

end WPanel.Hosting.Sandbox
