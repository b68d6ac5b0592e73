import WPanel.Hosting.SandboxRuns

namespace WPanel.Hosting.Sandbox

open WPanel.Lib
open WPanel.Hosting.Renaming (Path cleanRelative parent leaf trashDir parent_append_leaf
  parent_concat prefix_cases)

/-!
# Into the trash and back

What is put into the trash is to be listed as what it was, and to come back as it was, whatever
happens to other files in between.  The files do; that they were a folder, and their permissions,
are lost.

* `Kept` — an item is in the trash, with its entry and everything below it;
* `Effect.kept`, `kept_run` — it stays there until an operation takes it out;
* `restoreTrash_of_kept` — then it is put back in its place;
* `Restorable` — what the trash is to do with a file or folder;
* `restorable_iff` — it does so exactly for a file with the permissions every new file has.
-/

variable {α : Type}

/-! ### What stays in the trash -/

/-- An item is in the trash. -/
structure Kept (b : Box α) (item : String) (entry : Trashed) (held : Disk α) : Prop where
  indexed : b.index.get? item = some entry
  held : ∀ r, b.tree (stored item ++ r) = held r

section

variable {zip : Zip α} {size : α → ℕ} {b b' later : Box α} {gone : String → Prop}
  {item : String} {entry : Trashed} {held t : Disk α} {source x : Path}

theorem stored_not_begins {item item' : String} (h : item' ≠ item) (r : Path) :
    ¬stored item' <+: stored item ++ r := by
  intro hin
  have htail := (List.cons_prefix_cons.mp hin).2
  exact h (List.cons_prefix_cons.mp htail).1

/-- An item stays as it is until an operation takes it out of the trash. -/
theorem Effect.kept (hs : Sound b) (h : Effect size b gone b') (hk : Kept b item entry held)
    (hheld : held [] ≠ none) (hgone : ¬gone item) : Kept b' item entry held := by
  have hthere : b.tree (stored item) ≠ none := by
    have hnode := hk.held []
    rw [List.append_nil] at hnode
    rwa [hnode]
  cases h with
  | grow tree hgrown => exact ⟨hk.indexed, fun r => (hgrown.trash _).trans (hk.held r)⟩
  | carry p q keepOld hroute =>
    exact ⟨hk.indexed, fun r => (hroute.trash keepOld _).trans (hk.held r)⟩
  | delete p hsource =>
    refine ⟨hk.indexed, fun r => ?_⟩
    exact (Disk.erase_of_not_prefixed (hsource.not_prefix hsource.ne_nil)).trans (hk.held r)
  | setPermissions p digits hsource => exact ⟨hk.indexed, hk.held⟩
  | trash p new now hsource hnew =>
    have hne : new.text ≠ item := fun heq => hthere (heq ▸ hnew)
    refine ⟨?_, fun r => ?_⟩
    · exact (Dict.get?_set.trans (if_neg hne.symm)).trans hk.indexed
    · have hout : ¬p <+: stored item ++ r := hsource.not_prefix hsource.ne_nil
      have htrash : stored item ++ r ≠ [trashDir] := fun heq =>
        absurd (congrArg List.length heq) (by simp [stored])
      exact ((trashed_tree hs hout (stored_not_begins hne r)).trans (if_neg htrash)).trans
        (hk.held r)
  | restore b' other entry' target hrestored =>
    have hne : other ≠ item := fun heq => hgone heq.symm
    obtain ⟨original, n, htarget⟩ := hrestored.place
    -- the free place is not in the trash, and not the trash itself
    have hout : ∀ r, ¬target <+: stored item ++ r := by
      intro r hin
      have hfolder := (homeFolder_folder hs.closed original).2
      by_cases hroot : homeFolder b.tree original = []
      · rw [hroot] at htarget
        rw [htarget] at hin
        have hlabel := (List.cons_prefix_cons.mp hin).1
        have hfree := hrestored.free
        rw [htarget, hlabel] at hfree
        exact hthere (hs.closed.none_of_prefixed hfree ⟨[item], rfl⟩)
      · refine hfolder.not_prefix hroot ((List.prefix_append _ _).trans (htarget ▸ hin))
    rw [hrestored.result]
    refine ⟨?_, fun r => ?_⟩
    · exact (Dict.get?_delete.trans (if_neg hne.symm)).trans hk.indexed
    · exact (Disk.move_of_not_prefixed (hout r) (stored_not_begins hne r)).trans (hk.held r)
  | purge other =>
    have hne : other ≠ item := fun heq => hgone heq.symm
    refine ⟨?_, fun r => ?_⟩
    · exact (Dict.get?_delete.trans (if_neg hne.symm)).trans hk.indexed
    · exact (Disk.erase_of_not_prefixed (stored_not_begins hne r)).trans (hk.held r)
  | purgeAll => exact absurd trivial hgone

/-- **Operations on other files leave an item in the trash as it is.** -/
theorem kept_run (zip : Zip α) (hs : Sound b) (hk : Kept b item entry held) (hheld : held [] ≠ none)
    {ops : List (Op α)} (hops : ∀ op ∈ ops, ¬op.takesOut item) :
    Sound ((machine zip).run ops b) ∧ Kept ((machine zip).run ops b) item entry held := by
  have hstep : ∀ op ∈ ops, ∀ (b b' : Box α) (out : List Unit), Sound b ∧ Kept b item entry held →
      (machine zip).Commits op b b' out → Sound b' ∧ Kept b' item entry held := by
    intro op hop b b' out h hc
    have heffect := effect_of_commits h.1 hc
    exact ⟨heffect.sound h.1, heffect.kept h.1 h.2 hheld (hops op hop)⟩
  exact (Machine.always_of_invariant ops hstep b ⟨hs, hk⟩).last

/-! ### In, and back -/

/-- The item is in the trash, with all that is below it. -/
theorem kept_trashed (size : α → ℕ) (hs : Sound b) (h : Source b.tree source) (item : String)
    (now : ℕ) :
    ∃ entry, Kept (trashed size b source item now) item entry (b.tree.sub source)
      ∧ (∀ entry', (item, entry') ∈ (trashed size b source item now).index → entry' = entry)
      ∧ entry.name = leaf source ∧ entry.original = posix source ∧ entry.isDir = false := by
  refine ⟨_, ⟨Dict.get?_set.trans (if_pos rfl), fun r => ?_⟩,
    fun entry' hmem => Dict.eq_of_mem_set hmem, rfl, rfl, ?_⟩
  · refine (Disk.move_append r).trans ((makeTrash_apply hs.closed hs.trash _).trans (if_neg ?_))
    exact fun heq => h.not_prefix h.ne_nil (heq ▸ List.prefix_append source r)
  · have hgone : (makeTrash b.tree).move source (stored item) source = none :=
      Disk.move_source h.not_below
    exact isDir_eq_false.mpr (hgone ▸ (Option.some_ne_none _).symm)

/-- An item of the trash in its old place. -/
def putBack (later : Box α) (item : String) (source : Path) : Box α :=
  { later with
    tree := later.tree.move (stored item) source
    index := later.index.delete item }

/-- What is in the trash is put back in its place, if that is free. -/
theorem restoreTrash_of_kept {item : ItemId} {fuel : ℕ} (hfuel : 0 < fuel)
    (hk : Kept later item.text entry held) (hheld : held [] ≠ none) (hsource : Target source)
    (hne : source ≠ []) (hname : entry.name = leaf source)
    (horiginal : entry.original = posix source) (hfree : later.tree source = none)
    (hparent : later.tree (parent source) = some .folder) :
    restoreTrash later item.text fuel = .ok (putBack later item.text source, source) := by
  have hthere : present later.tree (stored item.text) = true := by
    have hnode := hk.held []
    rw [List.append_nil] at hnode
    rwa [present_iff, hnode]
  have hbackslash : '\\' ∉ item.text.toList :=
    fun hin => absurd (item.hex '\\' hin) (by decide)
  have hplace : parent source ++ [label (leaf source) 0] = source := parent_append_leaf hne
  have hcandidate : candidate later.tree (homeFolder later.tree source) entry.name fuel 0
      = some source := by
    rw [homeFolder_of_folder (hsource.parent hne) hparent, hname]
    have hfree' : later.tree (parent source ++ [label (leaf source) 0]) = none := by
      rwa [hplace]
    rw [candidate_of_free hfuel hfree', hplace]
  simp only [restoreTrash, hk.indexed, bind_eq_ok, ensure_eq_ok, exists_const]
  refine ⟨⟨item.plain.1, item.plain.2, hbackslash⟩, hthere, source, ?_, ?_⟩
  · rw [horiginal]
    exact cleanRelative_posix hsource.clean
  · rw [hcandidate]
    rfl

end

/-! ### What the trash is for -/

/-- The trash shows an item as the file or folder that was there. -/
def Listed (b : Box α) (item : String) (source : Path) (folder : Bool) : Prop :=
  ∃ entry, (item, entry) ∈ listTrash b ∧ entry.name = leaf source
    ∧ entry.original = posix source ∧ entry.isDir = folder

/-- What was there before is there again, and nothing else has changed. -/
structure BroughtBack (b later after : Box α) (item : String) (source : Path) : Prop where
  tree : ∀ r, after.tree (source ++ r) = b.tree (source ++ r)
  permissions : ∀ r, b.tree (source ++ r) ≠ none →
    shown after (source ++ r) = shown b (source ++ r)
  others : ∀ x, ¬source <+: x → ¬stored item <+: x →
    after.tree x = later.tree x ∧ shown after x = shown later x
  index : ∀ i, i ≠ item → after.index.get? i = later.index.get? i

/-- **What the trash is to do with a file or folder**: show it, and after any operations that leave
    it in the trash, and its place free in a folder that is there, bring it back. -/
def Restorable (zip : Zip α) (b : Box α) (rel : String) (source : Path) (item : ItemId)
    (now : ℕ) : Prop :=
  ∃ b', trashPath zip.size b rel item.text now = .ok b'
    ∧ Listed b' item.text source (isDir b.tree source)
    ∧ ∀ ops : List (Op α), (∀ op ∈ ops, ¬op.takesOut item.text) →
      ((machine zip).run ops b').tree source = none →
      ((machine zip).run ops b').tree (parent source) = some .folder →
      ∀ fuel, 0 < fuel → ∃ after,
        restoreTrash ((machine zip).run ops b') item.text fuel = .ok (after, source)
          ∧ BroughtBack b ((machine zip).run ops b') after item.text source

section

variable {zip : Zip α} {size : α → ℕ} {b later : Box α} {item : ItemId} {now fuel : ℕ}
  {entry : Trashed} {source : Path}

/-- The trash shows everything as a file. -/
theorem listed_trashed_iff (hs : Sound b) (h : Source b.tree source) {folder : Bool} :
    Listed (trashed size b source item.text now) item.text source folder ↔ folder = false := by
  obtain ⟨entry, hkept, honly, hname, horiginal, hdir⟩ :=
    kept_trashed size hs h item.text now
  constructor
  · rintro ⟨entry', hmem, -, -, hfolder⟩
    have hindex := (List.mem_filter.mp ((List.mem_mergeSort).mp hmem)).1
    rw [← hfolder, honly entry' hindex, hdir]
  · rintro rfl
    refine ⟨entry, List.mem_mergeSort.mpr (List.mem_filter.mpr
      ⟨Dict.mem_of_get? hkept.indexed, ?_⟩), hname, horiginal, hdir⟩
    have hnode := hkept.held []
    rw [List.append_nil] at hnode
    rw [present_iff, hnode, Disk.sub, List.append_nil]
    exact h.there

/-- What is brought back has the permissions of a new file or folder. -/
theorem broughtBack_iff (hlater : Sound later)
    (hplain : Plainly b.tree) (hk : Kept later item.text entry (b.tree.sub source))
    (hfree : later.tree source = none) :
    BroughtBack b later (putBack later item.text source) item.text source
      ↔ ∀ r, b.tree (source ++ r) ≠ none →
        defaultMode b.tree (source ++ r) = shown b (source ++ r) := by
  have htree : ∀ r, (putBack later item.text source).tree (source ++ r) = b.tree (source ++ r) :=
    fun r => (Disk.move_append r).trans (hk.held r)
  -- nothing is kept for a place that was free
  have hshown : ∀ r, b.tree (source ++ r) ≠ none →
      shown (putBack later item.text source) (source ++ r) = defaultMode b.tree (source ++ r) := by
    intro r hr
    refine (shown_of_not_mem fun hin => ?_).trans ?_
    · have hvis := hlater.visible_of_mem (hplain _ hr) hin
      exact hvis.there (hlater.closed.none_of_prefixed hfree (List.prefix_append source r))
    · unfold defaultMode isDir
      rw [htree r]
  constructor
  · intro hback r hr
    exact (hshown r hr).symm.trans (hback.permissions r hr)
  · intro hdefault
    refine ⟨htree, fun r hr => (hshown r hr).trans (hdefault r hr), fun x hx hstored => ?_,
      fun i hi => ?_⟩
    · have hsame : (putBack later item.text source).tree x = later.tree x :=
        Disk.move_of_not_prefixed hx hstored
      exact ⟨hsame, shown_congr hsame rfl⟩
    · exact Dict.get?_delete.trans (if_neg hi)

/-- Its folder is still there when an item has gone to the trash. -/
theorem folder_trashed (size : α → ℕ) (hs : Sound b) (h : Source b.tree source) (item : String)
    (now : ℕ) : (trashed size b source item now).tree (parent source) = some .folder := by
  have hfolder : b.tree (parent source) = some .folder :=
    hs.closed.around (parent source) (leaf source)
      (by rw [parent_append_leaf h.ne_nil]; exact h.there)
  rw [trashed_tree hs (not_prefix_parent h.ne_nil) (h.parent h.ne_nil).not_below]
  split
  · rfl
  · exact hfolder

end

/-- **The trash does what it is for exactly with a file that has the permissions of a new one.** -/
theorem restorable_iff (zip : Zip α) {b : Box α} (hs : Sound b) {rel : String} {source : Path}
    (hsource : resolve b.tree rel true = .ok source) (hne : source ≠ []) (item : ItemId) (now : ℕ) :
    Restorable zip b rel source item now
      ↔ isDir b.tree source = false ∧ shown b source = "0644" := by
  have h : Source b.tree source :=
    ⟨target_of_resolve hsource, hne, (resolve_eq_ok.mp hsource).2.2 rfl⟩
  have htrash : trashPath zip.size b rel item.text now
      = .ok (trashed zip.size b source item.text now) :=
    trashPath_eq_ok.mpr ⟨source, hsource, hne, rfl⟩
  have hsound : Sound (trashed zip.size b source item.text now) := hs.trashPath h item now
  obtain ⟨entry, hkept, -, hname, horiginal, -⟩ :
    ∃ entry, Kept (trashed zip.size b source item.text now) item.text entry (b.tree.sub source)
      ∧ _ := kept_trashed zip.size hs h item.text now
  have hheld : b.tree.sub source [] ≠ none := by
    rw [Disk.sub, List.append_nil]
    exact h.there
  have hself : source ++ [] = source := List.append_nil source
  constructor
  · rintro ⟨b', hb', hlisted, hback⟩
    cases hb'.symm.trans htrash
    have hdir : isDir b.tree source = false := (listed_trashed_iff hs h).mp hlisted
    -- also where nothing happens in between
    have hfree : (trashed zip.size b source item.text now).tree source = none :=
      Disk.move_source h.not_below
    have hparent := folder_trashed zip.size hs h item.text now
    obtain ⟨after, hafter, hbroughtBack⟩ := hback [] (fun _ h => by cases h) hfree hparent 1 one_pos
    have hrestore := restoreTrash_of_kept one_pos hkept hheld h.toTarget hne hname horiginal hfree
      hparent
    cases hafter.symm.trans hrestore
    have hmode := (broughtBack_iff hsound hs.plain hkept hfree).mp hbroughtBack []
      (hself.symm ▸ h.there)
    rw [hself, defaultMode, hdir] at hmode
    exact ⟨hdir, hmode.symm⟩
  · rintro ⟨hdir, hmode⟩
    refine ⟨_, htrash, (listed_trashed_iff hs h).mpr hdir,
      fun ops hops hfree hparent fuel hfuel => ?_⟩
    obtain ⟨hlater, hkeptLater⟩ := kept_run zip hsound hkept hheld hops
    refine ⟨_, restoreTrash_of_kept hfuel hkeptLater hheld h.toTarget hne hname horiginal hfree
      hparent, (broughtBack_iff hlater hs.plain hkeptLater hfree).mpr fun r hr => ?_⟩
    -- nothing is below a file
    have hr' : r = [] := by
      by_contra hnil
      have hfolder := hs.closed.folder_of_prefixed hr (List.prefix_append source r)
        fun heq => hnil (List.append_cancel_left (hself.trans heq)).symm
      exact (isDir_eq_false.mp hdir) hfolder
    rw [hr', hself, hmode, defaultMode, hdir]
    rfl

private theorem hex_item : ∀ c ∈ "0a1b2c3d4e5f".toList, c ∈ "0123456789abcdef".toList :=
  fun c hc => List.contains_iff_mem.mp (List.all_eq_true.mp
    (by decide : "0a1b2c3d4e5f".toList.all "0123456789abcdef".toList.contains = true) c hc)

private theorem length_item : "0a1b2c3d4e5f".toList.length = 12 := by decide +kernel

/-- An id. -/
def anItem : ItemId := ⟨"0a1b2c3d4e5f", length_item, hex_item⟩

/-- A folder with a file in it. -/
def withFile : Box Content := (machine contentZip).run [.write "a.txt" (.text "text") false] newBox

/-- A folder with another in it. -/
def withFolder : Box Content := (machine contentZip).run [.makeDirectory "images"] newBox

private theorem resolve_withFile : resolve withFile.tree "a.txt" true = .ok ["a.txt"] := by
  decide +kernel

theorem restorable_file : Restorable contentZip withFile "a.txt" ["a.txt"] anItem 0 :=
  (restorable_iff contentZip (sound_run contentZip _ sound_newBox) resolve_withFile
    (List.cons_ne_nil _ _) anItem 0).mpr ⟨by decide +kernel, by decide +kernel⟩

/-- A folder is listed as a file. -/
theorem not_restorable_folder : ¬Restorable contentZip withFolder "images" ["images"] anItem 0 := by
  rintro ⟨b', hb', hlisted, -⟩
  obtain ⟨source, hsource, hne, rfl⟩ := trashPath_eq_ok.mp hb'
  have hname : resolve withFolder.tree "images" true = .ok ["images"] := by decide +kernel
  cases hsource.symm.trans hname
  have hs : Sound withFolder := sound_run contentZip _ sound_newBox
  have hfile := (listed_trashed_iff hs
    ⟨target_of_resolve hsource, hne, (resolve_eq_ok.mp hsource).2.2 rfl⟩).mp hlisted
  have hdir : isDir withFolder.tree ["images"] = true := by decide +kernel
  exact absurd (hfile.symm.trans hdir) Bool.false_ne_true

end WPanel.Hosting.Sandbox
