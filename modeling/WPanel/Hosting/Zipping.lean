import WPanel.Hosting.Archives

namespace WPanel.Hosting.Sandbox

open WPanel.Lib
open WPanel.Hosting.Renaming (Path cleanRelative parent leaf trashDir parent_append_leaf
  leaf_concat maxPathLength)

/-!
# Packing, and unpacking elsewhere

The archive of a selection, unpacked in a new folder, is to give back everything that was selected.
In the archive every item has its last name only, and not every name is let through again.

* `Packs` — which member a file or folder becomes; `pack_spec` for the whole selection;
* `Trip` — an archive that was made, and a new folder;
* `Unzips` — what unpacking it there is to give back;
* `unzips_iff` — it does so exactly if no two items share their last name and all names are clean.
-/

variable {α : Type}

/-! ### Packing -/

/-- The member that a file or folder of a source becomes. -/
def Packs (zip : Zip α) (t : Disk α) (e : Path × Path) (m : Member α) : Prop :=
  (t e.2 = some .folder
    ∧ m = { filename := posix (archiveName e.1 e.2) ++ "/", content := zip.blank })
  ∨ ∃ content, t e.2 = some (.file content)
    ∧ m = { filename := posix (archiveName e.1 e.2), content }

private theorem forall_cons_exists {β γ : Type} {R : β → γ → Prop} {x : β} {y : γ} {l : List β}
    {l' : List γ} (h : R x y) (hl : ∀ a ∈ l, ∃ c ∈ l', R a c) :
    ∀ a ∈ x :: l, ∃ c ∈ y :: l', R a c := by
  intro a ha
  rcases List.mem_cons.mp ha with rfl | ha
  · exact ⟨y, List.mem_cons_self, h⟩
  · obtain ⟨c, hc, hac⟩ := hl a ha
    exact ⟨c, List.mem_cons_of_mem y hc, hac⟩

/-- **What is packed**: one member for each path, in as many as are allowed, and not too large. -/
theorem pack_spec {zip : Zip α} {t : Disk α} {l : List (Path × Path)} {count total : ℕ}
    {members : List (Member α)} (h : pack zip t l count total = .ok members)
    (hcount : count ≤ maxArchiveEntries) (htotal : total ≤ maxArchiveBytes) :
    (∀ e ∈ l, ∃ m ∈ members, Packs zip t e m) ∧ (∀ m ∈ members, ∃ e ∈ l, Packs zip t e m)
      ∧ count + members.length ≤ maxArchiveEntries
      ∧ total + (members.map fun m => zip.size m.content).sum ≤ maxArchiveBytes := by
  induction l generalizing count total members with
  | nil =>
    simp only [pack, pure_eq_ok] at h
    subst h
    exact ⟨fun e he => absurd he List.not_mem_nil, fun m hm => absurd hm List.not_mem_nil, hcount,
      htotal⟩
  | cons e l ih =>
    obtain ⟨source, path⟩ := e
    simp only [pack, bind_eq_ok, ensure_eq_ok, exists_const] at h
    obtain ⟨hmore, h⟩ := h
    split at h
    · cases h
    · next hfolder =>
      simp only [bind_eq_ok, pure_eq_ok] at h
      obtain ⟨rest, hrest, rfl⟩ := h
      obtain ⟨hevery, honly, hlength, hsum⟩ := ih hrest hmore htotal
      have hfirst : Packs zip t (source, path)
          { filename := posix (archiveName source path) ++ "/", content := zip.blank } :=
        .inl ⟨hfolder, rfl⟩
      refine ⟨forall_cons_exists hfirst hevery,
        forall_cons_exists (R := fun m e => Packs zip t e m) hfirst honly, ?_, ?_⟩
      · rw [List.length_cons]
        omega
      · rw [List.map_cons, List.sum_cons, zip.size_blank, Nat.zero_add]
        exact hsum
    · next content hfile =>
      simp only [bind_eq_ok, ensure_eq_ok, pure_eq_ok, exists_const] at h
      obtain ⟨hfits, rest, hrest, rfl⟩ := h
      obtain ⟨hevery, honly, hlength, hsum⟩ := ih hrest hmore hfits
      have hfirst : Packs zip t (source, path)
          { filename := posix (archiveName source path), content } := .inr ⟨content, hfile, rfl⟩
      refine ⟨forall_cons_exists hfirst hevery,
        forall_cons_exists (R := fun m e => Packs zip t e m) hfirst honly, ?_, ?_⟩
      · rw [List.length_cons]
        omega
      · rw [List.map_cons, List.sum_cons, ← Nat.add_assoc]
        exact hsum

section

variable {zip : Zip α} {t : Disk α} {e : Path × Path} {m : Member α} {p : Path} {name : String}

/-- A clean name has none of the characters an archive changes. -/
theorem CleanPath.not_mem (h : CleanPath p) {c : Char} (hslash : c ≠ '/')
    (hc : ∀ name, CleanName name → c ∉ name.toList) : c ∉ (posix p).toList := by
  intro hmem
  rcases mem_posix hmem with heq | ⟨name, hname, hin⟩
  · exact hslash heq
  · exact hc name (h.names name hname) hin

theorem CleanPath.no_backslash (h : CleanPath p) : '\\' ∉ (posix p).toList :=
  h.not_mem (by decide) fun name hname hin => (hname.chars _ hin).2.1 rfl

theorem CleanPath.no_null (h : CleanPath p) : Char.ofNat 0 ∉ (posix p).toList :=
  h.not_mem (by decide) fun name hname hin => by
    have hcontrol := (hname.chars _ hin).2.2.2
    revert hcontrol
    decide

/-- **A packed member is read as the file or folder it was.** -/
theorem Packs.read (h : Packs zip t e m) (hclean : CleanPath (archiveName e.1 e.2))
    (hne : archiveName e.1 e.2 ≠ []) : m.path = .ok (archiveName e.1 e.2)
      ∧ t e.2 = some m.node ∧ m.isLink = false ∧ Char.ofNat 0 ∉ m.filename.toList := by
  have hbackslash := hclean.no_backslash
  have hlast := getLast?_posix hne hclean.plain
  have hslash : "/".toList = ['/'] := rfl
  rcases h with ⟨hfolder, rfl⟩ | ⟨content, hfile, rfl⟩
  · have hname : replaceChar '\\' "/" (posix (archiveName e.1 e.2) ++ "/")
        = posix (archiveName e.1 e.2) ++ "/" := by
      refine replaceChar_of_not_mem ?_ _
      rw [String.toList_append, List.mem_append, not_or]
      exact ⟨hbackslash, by decide⟩
    have hends : endsWith (posix (archiveName e.1 e.2) ++ "/") "/" = true := by
      rw [endsWith_iff, String.toList_append]
      exact List.suffix_append _ _
    refine ⟨?_, ?_, rfl, ?_⟩
    · rw [Member.path, Member.name, hname, rstrip_concat _ hslash, rstrip_eq_self hlast]
      exact cleanRelative_posix hclean
    · rw [hfolder, Member.node, Member.isFolder, Member.name, hname, if_pos hends]
    · rw [String.toList_append, List.mem_append, not_or]
      exact ⟨hclean.no_null, by decide⟩
  · have hname := replaceChar_of_not_mem hbackslash "/"
    have hends : ¬endsWith (posix (archiveName e.1 e.2)) "/" = true := by
      rw [endsWith_iff]
      rintro ⟨front, hfront⟩
      refine hlast ?_
      rw [← hfront, hslash, List.getLast?_concat]
    refine ⟨?_, ?_, rfl, hclean.no_null⟩
    · rw [Member.path, Member.name, hname, rstrip_eq_self hlast]
      exact cleanRelative_posix hclean
    · rw [hfile, Member.node, Member.isFolder, Member.name, hname, if_neg hends]

end

/-! ### There and back -/

/-- A folder with nothing in it, or none yet, outside the trash. -/
structure NewFolder (t : Disk α) (dest : Path) : Prop where
  outside : dest.head? ≠ some trashDir
  ne_nil : dest ≠ []
  parent : t (parent dest) = some .folder
  folder : t dest ≠ none → t dest = some .folder
  empty : ∀ r, r ≠ [] → t (dest ++ r) = none

/-- **A selection that was archived, and a new folder**: `walk` finds everything below a source. -/
structure Trip (zip : Zip α) (b b' : Box α) (walk : Path → List Path) (rels : List String)
    (archiveRel destRel : String) (sources : List Path) (target dest : Path) : Prop where
  closed : b.tree.Closed
  made : archivePaths zip b walk rels archiveRel = .ok b'
  cleanTarget : cleanRelative archiveRel = .ok target
  cleanSources : rels.mapM cleanRelative = .ok sources
  walks : ∀ s ∈ sources, ∀ p, p ∈ walk s ↔ s <+: p ∧ p ≠ s ∧ (b.tree p ≠ none ∨ p = target)
  cleanDest : cleanRelative destRel = .ok dest
  folder : NewFolder b'.tree dest

/-- A file or folder that is selected, with the source it is in. -/
def Selected (b : Box α) (sources : List Path) (e : Path × Path) : Prop :=
  e.1 ∈ sources ∧ e.1 <+: e.2 ∧ b.tree e.2 ≠ none

/-- **What unpacking is to give back**: everything that was selected, nothing merged. -/
def Unzips (zip : Zip α) (b b' : Box α) (archiveRel destRel : String) (sources : List Path)
    (dest : Path) : Prop :=
  ∃ n t', extractArchive zip archiveRel destRel b'.tree = (.ok n, t')
    ∧ (∀ e, Selected b sources e → t' (dest ++ archiveName e.1 e.2) = b.tree e.2)
    ∧ ∀ e e', Selected b sources e → Selected b sources e' → e.2 ≠ e'.2 →
      archiveName e.1 e.2 ≠ archiveName e'.1 e'.2

/-- **The names that survive**: no two sources have the same last name, none is called as the trash
    is, and every path that is to be unpacked is clean. -/
structure Nameable (b : Box α) (sources : List Path) (dest : Path) : Prop where
  distinct : ∀ s ∈ sources, ∀ s' ∈ sources, leaf s = leaf s' → s = s'
  noTrash : ∀ s ∈ sources, leaf s ≠ trashDir
  clean : ∀ e, Selected b sources e → CleanPath (dest ++ archiveName e.1 e.2)

section

variable {zip : Zip α} {b b' : Box α} {walk : Path → List Path} {rels : List String}
  {archiveRel destRel : String} {sources : List Path} {target dest s p r : Path}
  {e : Path × Path} {t t' : Disk α} {planned : List (Planned α)}

theorem archiveName_append (hs : s ≠ []) (r : Path) : archiveName s (s ++ r) = leaf s :: r := by
  have hlength : s.length - 1 = (Renaming.parent s).length := by
    rw [Renaming.parent, List.length_dropLast]
  have hsplit : s ++ r = Renaming.parent s ++ (leaf s :: r) := by
    conv_lhs => rw [← parent_append_leaf hs, List.append_assoc]
    rfl
  rw [archiveName, hlength, hsplit, List.drop_left]

/-- What was checked when the archive was made. -/
structure Made (zip : Zip α) (b b' : Box α) (walk : Path → List Path) (sources : List Path)
    (target : Path) (members : List (Member α)) : Prop where
  place : Place b.tree target
  free : b.tree target = none
  zipped : endsWith (lower (posix target)) ".zip" = true
  source : ∀ s ∈ sources, Source b.tree s
  packed : pack zip (b.tree.put target (fileOf (zip.write [])))
    (walked (b.tree.put target (fileOf (zip.write []))) walk target sources) 0 0 = .ok members
  result : b' = { b with tree := b.tree.put target (fileOf (zip.write members)) }

theorem Trip.members (h : Trip zip b b' walk rels archiveRel destRel sources target dest) :
    ∃ members, Made zip b b' walk sources target members := by
  have hmade := h.made
  simp only [archivePaths, bind_eq_ok, ensure_eq_ok, pure_eq_ok, exists_const] at hmade
  obtain ⟨archive, harchive, ⟨hne, hzip⟩, -, -, target', htarget', hfree, hdir, sources', hsources',
    -, members, hmembers, rfl⟩ := hmade
  cases harchive.symm.trans h.cleanTarget
  have hclean := cleanPath_of_cleanRelative harchive
  obtain ⟨rfl, hout, -⟩ := (resolve_posix hclean).mp htarget'
  have hsame : rels.mapM cleanRelative = .ok sources' := by
    refine mapM_eq_ok_mono (fun rel s hs => ?_) hsources'
    simp only [bind_eq_ok, ensure_eq_ok, pure_eq_ok, exists_const] at hs
    obtain ⟨s', hs', -, rfl⟩ := hs
    exact (resolve_eq_ok.mp hs').1
  cases hsame.symm.trans h.cleanSources
  refine ⟨members, ⟨⟨hclean, hout⟩, hne, isDir_iff.mp hdir⟩, present_eq_false.mp hfree, hzip,
    fun s hs => ?_, hmembers, rfl⟩
  obtain ⟨rel, -, hrel⟩ := mapM_eq_ok hsources' s hs
  simp only [bind_eq_ok, ensure_eq_ok, pure_eq_ok, exists_const] at hrel
  obtain ⟨s', hs', hsne, rfl⟩ := hrel
  exact ⟨target_of_resolve hs', hsne, (resolve_eq_ok.mp hs').2.2 rfl⟩

/-- What is walked over is what is selected. -/
theorem mem_walked (h : Trip zip b b' walk rels archiveRel destRel sources target dest)
    {members : List (Member α)} (hmade : Made zip b b' walk sources target members) :
    e ∈ walked (b.tree.put target (fileOf (zip.write []))) walk target sources
      ↔ Selected b sources e := by
  obtain ⟨s, p⟩ := e
  have hopened : ∀ x, b.tree x ≠ none →
      b.tree.put target (fileOf (zip.write [])) x = b.tree x := fun x hx =>
    Disk.put_of_not_prefixed fun hin => hx (h.closed.none_of_prefixed hmade.free hin)
  rw [walked, List.mem_filter, List.mem_flatMap, decide_eq_true_iff]
  constructor
  · rintro ⟨⟨source, hsource, hmem⟩, htarget, -⟩
    obtain ⟨path, hpath, heq⟩ := List.mem_map.mp hmem
    obtain ⟨rfl, rfl⟩ := Prod.mk.inj heq
    rcases List.mem_cons.mp hpath with rfl | hbelow
    · exact ⟨hsource, List.prefix_refl _, (hmade.source _ hsource).there⟩
    · split at hbelow
      · obtain ⟨hin, -, hthere⟩ := (h.walks _ hsource path).mp hbelow
        exact ⟨hsource, hin, hthere.resolve_right htarget⟩
      · cases hbelow
  · rintro ⟨hs, hin, hthere⟩
    have hsource := hmade.source s hs
    have htarget : p ≠ target := fun heq => hthere (heq ▸ hmade.free)
    refine ⟨⟨s, hs, List.mem_map.mpr ⟨p, ?_, rfl⟩⟩, htarget, fun htrash => ?_⟩
    · by_cases heq : p = s
      · exact heq ▸ List.mem_cons_self
      · have hfolder := h.closed.folder_of_prefixed hthere hin (Ne.symm heq)
        have hdir : isDir (b.tree.put target (fileOf (zip.write []))) s = true :=
          isDir_iff.mpr ((hopened s hsource.there).trans hfolder)
        rw [if_pos hdir]
        exact List.mem_cons_of_mem _ ((h.walks s hs p).mpr ⟨hin, heq, .inl hthere⟩)
    · -- what is below a source is not in the trash
      obtain ⟨name, rest, rfl⟩ := List.exists_cons_of_ne_nil hsource.ne_nil
      obtain ⟨r, hr⟩ := hin
      change name :: (rest ++ r) = p at hr
      have htop : [trashDir] <+: p := htrash.1
      rw [← hr] at htop
      exact hsource.outside (congrArg some (List.cons_prefix_cons.mp htop).1.symm)

/-! ### What can be unpacked at all -/

/-- Whatever is new was on the way to a member, or to the destination. -/
theorem unpackMember_origin (f : Planned α) : (unpackMember f).Post t
    (fun _ t' => ∀ x, t' x ≠ none → t x ≠ none ∨ x <+: f.target) fun _ => True := by
  have hfolders : ∀ q x, withFolders t q x ≠ none → t x ≠ none ∨ x <+: q := by
    intro q x hx
    unfold withFolders at hx
    split at hx
    · next hin => exact .inr hin
    · exact .inl hx
  unfold unpackMember
  split
  · refine (makeFolders_post _).mono (fun _ s hs x hx => ?_) fun _ _ => trivial
    rw [hs.2] at hx
    exact hfolders _ x hx
  · refine Routine.post_bind ((makeFolders_post _).mono (fun _ s hs => ?_) fun _ _ => trivial)
    refine (writeOver_post _ _).mono (fun _ s' hs' x hx => ?_) fun _ _ => trivial
    rw [hs'.2] at hx
    by_cases hin : f.target <+: x
    · obtain ⟨r, rfl⟩ := hin
      rw [Disk.put_append, fileOf_ne_none] at hx
      rw [hx, List.append_nil]
      exact .inr (List.prefix_refl _)
    · rw [Disk.put_of_not_prefixed hin, hs.2] at hx
      exact (hfolders _ x hx).imp_right fun h => h.trans (List.dropLast_prefix _)

theorem unpackAll_origin (dest : Path) (planned : List (Planned α)) :
    (unpackAll dest planned).Post t
    (fun _ t' => ∀ x, t' x ≠ none → t x ≠ none ∨ x <+: dest ∨ ∃ f ∈ planned, x <+: f.target)
    fun _ => True := by
  refine Routine.post_bind ((makeFolders_post _).mono (fun _ s hs => ?_) fun _ _ => trivial)
  have hloop : (planned.forM unpackMember).Post s
      (fun _ s' => ∀ x, s' x ≠ none → s x ≠ none ∨ ∃ f ∈ planned, x <+: f.target)
      fun _ => True := by
    refine Routine.post_forM
      (I := fun _ (s' : Disk α) => ∀ x, s' x ≠ none →
        s x ≠ none ∨ ∃ f ∈ planned, x <+: f.target)
      (fun done f rest hsplit s' hs' => ?_) fun x hx => .inl hx
    refine (unpackMember_origin f).mono (fun _ s'' hs'' x hx => ?_) fun _ _ => trivial
    rcases hs'' x hx with hold | hnew
    · exact hs' x hold
    · exact .inr ⟨f, hsplit ▸ by simp, hnew⟩
  refine Routine.post_bind (hloop.mono (fun _ s' hs' x hx => ?_) fun _ _ => trivial)
  rcases hs' x hx with hold | hnew
  · rw [hs.2] at hold
    unfold withFolders at hold
    split at hold
    · next hin => exact .inr (.inl hin)
    · exact .inl hold
  · exact .inr (.inr hnew)

/-- **What comes back had names that survive.** -/
theorem nameable_of_unzips (h : Trip zip b b' walk rels archiveRel destRel sources target dest)
    (hback : Unzips zip b b' archiveRel destRel sources dest) : Nameable b sources dest := by
  obtain ⟨members, hmade⟩ := h.members
  obtain ⟨n, t', hrun, hsame, hapart⟩ := hback
  have hself : ∀ s ∈ sources, Selected b sources (s, s) := fun s hs =>
    ⟨hs, List.prefix_refl s, (hmade.source s hs).there⟩
  have hname : ∀ s ∈ sources, archiveName s s = [leaf s] := by
    intro s hs
    have happend := archiveName_append (hmade.source s hs).ne_nil []
    rwa [List.append_nil] at happend
  -- everything that is there was planned
  have horigin : ∀ e, Selected b sources e → ∃ path, path.head? ≠ some trashDir
      ∧ CleanPath (dest ++ path) ∧ archiveName e.1 e.2 <+: path := by
    intro e he
    cases hplan : plan zip b'.tree archiveRel destRel with
    | error err =>
      rw [extractArchive_of_refused hplan] at hrun
      cases hrun
    | ok todo =>
      obtain ⟨dest', planned⟩ := todo
      have hready := plan_eq_ok hplan
      cases hready.cleanDest.symm.trans h.cleanDest
      have hpost := unpackAll_origin (t := b'.tree) dest planned
      rw [extractArchive_of_plan hplan] at hrun
      rw [Routine.Post, hrun] at hpost
      obtain ⟨r, hr⟩ := he.2.1
      have hne := (hmade.source e.1 he.1).ne_nil
      have hcons : archiveName e.1 e.2 = leaf e.1 :: r := hr ▸ archiveName_append hne r
      have hthere : t' (dest ++ archiveName e.1 e.2) ≠ none := hsame e he ▸ he.2.2
      rcases hpost _ hthere with hold | habove | ⟨f, hf, hin⟩
      · exact absurd (h.folder.empty _ (by simp [hcons])) hold
      · exact absurd habove.length_le (by simp [hcons])
      · obtain ⟨path, htarget, -, hhead, hplace⟩ := hready.path hf
        exact ⟨path, hhead, hplace.clean, (List.prefix_append_right_inj dest).mp (htarget ▸ hin)⟩
  refine ⟨fun s hs s' hs' hleaf => ?_, fun s hs htrash => ?_, fun e he => ?_⟩
  · by_contra hne
    exact hapart (s, s) (s', s') (hself s hs) (hself s' hs') hne
      ((hname s hs).trans (hleaf ▸ (hname s' hs').symm))
  · obtain ⟨path, hhead, -, rest, rfl⟩ := horigin (s, s) (hself s hs)
    rw [hname s hs, htrash] at hhead
    exact hhead rfl
  · obtain ⟨path, -, hclean, hin⟩ := horigin e he
    exact hclean.of_prefix ((List.prefix_append_right_inj dest).mpr hin)

/-! ### What is unpacked when all names survive -/

theorem CleanPath.of_append {q : Path} (h : CleanPath (p ++ q)) : CleanPath q := by
  refine ⟨fun name hname => h.names name (List.mem_append_right p hname), ?_⟩
  by_cases hp : p = []
  · have hshort := h.short
    rwa [hp, List.nil_append] at hshort
  · by_cases hq : q = []
    · rw [hq]
      exact Nat.zero_le _
    · refine le_trans ?_ h.short
      rw [posix_append hp hq, String.toList_append (s := posix p ++ "/"), List.length_append]
      exact Nat.le_add_left _ _

/-- The last name of an archive ends as its path does. -/
theorem endsWith_leaf (hp : p ≠ []) (h : endsWith (lower (posix p)) ".zip" = true) :
    endsWith (lower (leaf p)) ".zip" = true := by
  have hone : posix [leaf p] = leaf p := by
    rw [← String.toList_inj, toList_posix]
    simp
  by_cases hparent : Renaming.parent p = []
  · have hp' := parent_append_leaf hp
    rw [hparent, List.nil_append] at hp'
    have hsame : posix p = leaf p := (congrArg posix hp').symm.trans hone
    rw [hsame] at h
    exact h
  · rw [← parent_append_leaf hp, posix_append hparent (by simp), hone, lower_append, lower_append,
      endsWith_iff, String.toList_append, String.toList_append, List.append_assoc] at h
    have hslash : (lower "/").toList = ['/'] := by decide
    have hnone : '/' ∉ ".zip".toList := by decide
    rw [hslash] at h
    rw [endsWith_iff]
    have hend : '/' :: (lower (leaf p)).toList
        <:+ (lower (posix (Renaming.parent p))).toList ++ (['/'] ++ (lower (leaf p)).toList) :=
      List.suffix_append _ _
    rcases List.suffix_or_suffix_of_suffix h hend with hin | hin
    · rcases List.suffix_cons_iff.mp hin with heq | hin
      · rw [heq] at hnone
        exact absurd List.mem_cons_self hnone
      · exact hin
    · exact absurd (hin.subset List.mem_cons_self) hnone

/-- What a piece of the archive needs below the new folder is what was selected. -/
theorem wants_selected (hclosed : b.tree.Closed) (hsource : ∀ s ∈ sources, s ≠ [])
    {node node' : Node α} {x : Path} (he : Selected b sources e) (hnode : b.tree e.2 = some node)
    (hwants : Piece.wants (dest ++ archiveName e.1 e.2, node) x = some node') :
    x <+: dest ∧ node' = .folder
      ∨ ∃ s ∈ sources, ∃ r, x = dest ++ leaf s :: r ∧ b.tree (s ++ r) = some node' := by
  obtain ⟨s, p⟩ := e
  obtain ⟨hs, ⟨r, hr⟩, hthere⟩ := he
  change s ++ r = p at hr
  have hname : archiveName s p = leaf s :: r := hr ▸ archiveName_append (hsource s hs) r
  change b.tree p = some node at hnode
  change Piece.wants (dest ++ archiveName s p, node) x = some node' at hwants
  rw [hname] at hwants
  have hin := Piece.prefix_of_wants hwants
  change x <+: dest ++ leaf s :: r at hin
  by_cases heq : x = dest ++ leaf s :: r
  · rw [heq, Piece.wants, if_pos rfl] at hwants
    refine .inr ⟨s, hs, r, heq, ?_⟩
    rw [hr, hnode]
    exact hwants
  · rw [Piece.wants_above hin heq] at hwants
    have hfolder : node' = .folder := (Option.some_inj.mp hwants).symm
    rcases List.prefix_or_prefix_of_prefix hin (List.prefix_append dest _) with habove | ⟨y, rfl⟩
    · exact .inl ⟨habove, hfolder⟩
    · have hy := (List.prefix_append_right_inj dest).mp hin
      cases y with
      | nil => exact .inl ⟨by rw [List.append_nil], hfolder⟩
      | cons name r₁ =>
        -- a folder on the way from the source to what is selected
        obtain ⟨rfl, hr₁⟩ := List.cons_prefix_cons.mp hy
        refine .inr ⟨s, hs, r₁, rfl, ?_⟩
        rw [hfolder]
        refine hclosed.folder_of_prefixed (q := s ++ r) (hr ▸ hthere)
          ((List.prefix_append_right_inj s).mpr hr₁) fun hsame => heq ?_
        rw [List.append_cancel_left hsame]

/-- Every selected file and folder is one member, which is read as it was. -/
structure Faithful (b : Box α) (sources : List Path) (members : List (Member α)) : Prop where
  every : ∀ e, Selected b sources e → ∃ m ∈ members,
    m.path = .ok (archiveName e.1 e.2) ∧ b.tree e.2 = some m.node
  only : ∀ m ∈ members, ∃ e, Selected b sources e ∧ m.path = .ok (archiveName e.1 e.2)
    ∧ b.tree e.2 = some m.node ∧ m.isLink = false ∧ Char.ofNat 0 ∉ m.filename.toList

theorem name_of_selected (hsource : ∀ s ∈ sources, s ≠ []) (he : Selected b sources e) :
    ∃ r, e.2 = e.1 ++ r ∧ archiveName e.1 e.2 = leaf e.1 :: r := by
  obtain ⟨hs, ⟨r, hr⟩, -⟩ := he
  exact ⟨r, hr.symm, hr ▸ archiveName_append (hsource e.1 hs) r⟩

theorem faithful_of_nameable
    (h : Trip zip b b' walk rels archiveRel destRel sources target dest)
    {members : List (Member α)} (hmade : Made zip b b' walk sources target members)
    (hn : Nameable b sources dest) : Faithful b sources members := by
  obtain ⟨hevery, honly, -, -⟩ := pack_spec hmade.packed (Nat.zero_le _) (Nat.zero_le _)
  have hread : ∀ e m, Selected b sources e →
      Packs zip (b.tree.put target (fileOf (zip.write []))) e m →
      m.path = .ok (archiveName e.1 e.2) ∧ b.tree e.2 = some m.node ∧ m.isLink = false
        ∧ Char.ofNat 0 ∉ m.filename.toList := by
    intro e m he hpacks
    obtain ⟨r, -, hcons⟩ := name_of_selected (fun s hs => (hmade.source s hs).ne_nil) he
    obtain ⟨hpath, hnode, hlink, hnull⟩ :=
      hpacks.read (hn.clean e he).of_append (hcons ▸ List.cons_ne_nil _ _)
    rw [Disk.put_of_not_prefixed fun hin =>
      he.2.2 (h.closed.none_of_prefixed hmade.free hin)] at hnode
    exact ⟨hpath, hnode, hlink, hnull⟩
  refine ⟨fun e he => ?_, fun m hm => ?_⟩
  · obtain ⟨m, hm, hpacks⟩ := hevery e ((mem_walked h hmade).mpr he)
    obtain ⟨hpath, hnode, -⟩ := hread e m he hpacks
    exact ⟨m, hm, hpath, hnode⟩
  · obtain ⟨e, he, hpacks⟩ := honly m hm
    have hselected := (mem_walked h hmade).mp he
    exact ⟨e, hselected, hread e m hselected hpacks⟩

/-- Nothing but folders is above a new folder. -/
theorem NewFolder.above {x : Path} {node : Node α} (h : NewFolder t dest) (ht : t.Closed)
    (hx : x <+: dest) (hnode : t x = some node) : node = .folder := by
  have hfolder : t x = some .folder := by
    by_cases heq : x = dest
    · exact heq ▸ h.folder (heq ▸ hnode ▸ Option.some_ne_none _)
    · have hparent := (Renaming.prefix_cases h.ne_nil hx).resolve_left heq
      by_cases hsame : x = Renaming.parent dest
      · exact hsame ▸ h.parent
      · exact ht.folder_of_prefixed (h.parent ▸ Option.some_ne_none _) hparent hsame
  exact Option.some_inj.mp (hnode.symm.trans hfolder)

/-- The members of such an archive agree, in a new folder. -/
theorem agree_of_faithful {members : List (Member α)} (hclosed : b.tree.Closed)
    (hsource : ∀ s ∈ sources, s ≠ []) (hfaithful : Faithful b sources members)
    (hn : Nameable b sources dest) (ht : t.Closed) (hfolder : NewFolder t dest) :
    Agree t (pieces dest members) := by
  -- above the new folder there are folders, and below it what was selected
  have hwants : ∀ piece ∈ pieces dest members, ∀ x node, piece.wants x = some node →
      x <+: dest ∧ node = .folder
        ∨ ∃ s ∈ sources, ∃ r, x = dest ++ leaf s :: r ∧ b.tree (s ++ r) = some node := by
    intro piece hpiece x node hwants
    rcases mem_pieces.mp hpiece with rfl | ⟨m, hm, path, hpath, rfl⟩
    · refine .inl ⟨Piece.prefix_of_wants hwants, ?_⟩
      unfold Piece.wants at hwants
      split at hwants
      · exact (Option.some_inj.mp hwants).symm
      · split at hwants
        · exact (Option.some_inj.mp hwants).symm
        · cases hwants
    · obtain ⟨e, he, hpath', hnode, -⟩ := hfaithful.only m hm
      cases hpath.symm.trans hpath'
      exact wants_selected hclosed hsource he hnode hwants
  have hbelow : ∀ (x r : Path) (name : String), x <+: dest → x ≠ dest ++ name :: r := by
    intro x r name hx heq
    have hlength := hx.length_le
    rw [heq, List.length_append, List.length_cons] at hlength
    omega
  intro piece hpiece x node hnode
  refine ⟨fun node' hnode' => ?_, fun piece' hpiece' node' hnode' => ?_⟩
  · rcases hwants piece hpiece x node hnode with ⟨hx, rfl⟩ | ⟨s, -, r, rfl, -⟩
    · exact hfolder.above ht hx hnode'
    · cases (hfolder.empty _ (List.cons_ne_nil _ _)).symm.trans hnode'
  · rcases hwants piece hpiece x node hnode with ⟨hx, rfl⟩ | ⟨s, hs, r, hx, htree⟩
    · rcases hwants piece' hpiece' x node' hnode' with ⟨-, hfolder'⟩ | ⟨s', -, r', hx', -⟩
      · exact hfolder'
      · exact absurd hx' (hbelow x r' _ hx)
    · rcases hwants piece' hpiece' x node' hnode' with ⟨hx', -⟩ | ⟨s', hs', r', hx', htree'⟩
      · exact absurd hx (hbelow x r _ hx')
      · obtain ⟨hleaf, rfl⟩ := List.cons_eq_cons.mp (List.append_cancel_left (hx.symm.trans hx'))
        rw [hn.distinct s hs s' hs' hleaf] at htree
        exact Option.some_inj.mp (htree'.symm.trans htree)

/-- Such an archive is not refused. -/
theorem plan_of_faithful (h : Trip zip b b' walk rels archiveRel destRel sources target dest)
    {members : List (Member α)} (hmade : Made zip b b' walk sources target members)
    (hn : Nameable b sources dest) (hfaithful : Faithful b sources members) :
    ∃ planned, plan zip b'.tree archiveRel destRel = .ok (dest, planned) := by
  obtain ⟨-, -, hlength, hsum⟩ := pack_spec hmade.packed (Nat.zero_le _) (Nat.zero_le _)
  have hcontent : b'.tree target = some (.file (zip.write members)) := by
    rw [hmade.result]
    exact Disk.put_self
  have hread : zip.read (zip.write members) = some members := zip.read_write members fun m hm => by
    obtain ⟨e, -, -, -, -, hnull⟩ := hfaithful.only m hm
    exact hnull
  have hdest := cleanPath_of_cleanRelative h.cleanDest
  obtain ⟨steps, hsteps⟩ := exists_mapM_eq_ok (f := planMember b'.tree dest) (l := members)
    fun m hm => by
      obtain ⟨e, he, hpath, -, hlink, -⟩ := hfaithful.only m hm
      obtain ⟨r, -, hcons⟩ := name_of_selected (fun s hs => (hmade.source s hs).ne_nil) he
      have hne : archiveName e.1 e.2 ≠ [] := hcons ▸ List.cons_ne_nil _ _
      refine ⟨_, planMember_of_target hpath hne ?_ hlink ⟨hn.clean e he, ?_⟩
        (h.folder.empty _ hne)⟩
      · rw [hcons, List.head?_cons]
        exact fun heq => hn.noTrash e.1 he.1 (Option.some_inj.mp heq)
      · rw [List.head?_append_of_ne_nil _ h.folder.ne_nil]
        exact h.folder.outside
  refine ⟨steps.filterMap id, ?_⟩
  simp only [plan, bind_eq_ok, ensure_eq_ok, pure_eq_ok, exists_const]
  refine ⟨target, resolve_eq_ok.mpr ⟨h.cleanTarget, hmade.place.outside, fun _ => hcontent ▸
    Option.some_ne_none _⟩, members, readArchive_eq_ok.mpr ⟨_, hcontent,
    endsWith_leaf hmade.place.ne_nil hmade.zipped, hread⟩, dest, h.cleanDest, dest,
    (resolve_posix hdest).mpr ⟨rfl, h.folder.outside, fun h => by cases h⟩, fun hthere => ?_,
    fun _ => isDir_iff.mpr h.folder.parent, ?_, ?_, steps, hsteps, rfl⟩
  · exact isDir_iff.mpr (h.folder.folder (present_iff.mp hthere))
  · rwa [Nat.zero_add] at hlength
  · rwa [Nat.zero_add] at hsum

/-- **What has names that survive comes back.** -/
theorem unzips_of_nameable (h : Trip zip b b' walk rels archiveRel destRel sources target dest)
    (hn : Nameable b sources dest) : Unzips zip b b' archiveRel destRel sources dest := by
  obtain ⟨members, hmade⟩ := h.members
  have hne : ∀ s ∈ sources, s ≠ [] := fun s hs => (hmade.source s hs).ne_nil
  have hfaithful := faithful_of_nameable h hmade hn
  obtain ⟨planned, hplan⟩ := plan_of_faithful h hmade hn hfaithful
  have hready := plan_eq_ok hplan
  have hclosed : b'.tree.Closed := by
    rw [hmade.result]
    refine (Grown.put h.closed hmade.place ?_ (fileOf_ne_none _)).closed
    exact hmade.free ▸ (Option.some_ne_none _).symm
  -- what was planned is what was packed
  obtain ⟨source, content, members', hsource, hcontent, hread, -, hplanned⟩ := hready.members
  cases hsource.symm.trans h.cleanTarget
  have hwritten : b'.tree target = some (.file (zip.write members)) := by
    rw [hmade.result]
    exact Disk.put_self
  cases hcontent.symm.trans hwritten
  cases hread.symm.trans (zip.read_write members fun m hm => by
    obtain ⟨e, -, -, -, -, hnull⟩ := hfaithful.only m hm
    exact hnull)
  have hpost := unpackAll_post hclosed hready.allowed (fun f hf => hready.target hf) hplanned
    (agree_of_faithful h.closed hne hfaithful hn hclosed h.folder)
  unfold Routine.Post at hpost
  split at hpost
  · next n t' hrun =>
    refine ⟨n, t', (extractArchive_of_plan hplan).trans hrun, fun e he => ?_,
      fun e e' he he' hapart hsame => hapart ?_⟩
    · obtain ⟨m, hm, hpath, hnode⟩ := hfaithful.every e he
      exact (hpost.members m hm _ hpath).trans hnode.symm
    · obtain ⟨r, hr, hcons⟩ := name_of_selected hne he
      obtain ⟨r', hr', hcons'⟩ := name_of_selected hne he'
      rw [hcons, hcons'] at hsame
      obtain ⟨hleaf, rfl⟩ := List.cons_eq_cons.mp hsame
      rw [hr, hr', hn.distinct e.1 he.1 e'.1 he'.1 hleaf]
  · exact hpost.elim

end

/-- **What was archived comes back from a new folder exactly if all its names survive.** -/
theorem unzips_iff (zip : Zip α) {b b' : Box α} {walk : Path → List Path} {rels : List String}
    {archiveRel destRel : String} {sources : List Path} {target dest : Path}
    (h : Trip zip b b' walk rels archiveRel destRel sources target dest) :
    Unzips zip b b' archiveRel destRel sources dest ↔ Nameable b sources dest :=
  ⟨nameable_of_unzips h, unzips_of_nameable h⟩

/-- A selection of files, in an archive. -/
def zipped (b : Box Content) (rels : List String) : Box Content :=
  (machine contentZip).run [.archive (fun _ => []) rels "all.zip"] b

private theorem trip_files {b : Box Content} (hs : Sound b) {rels : List String}
    {sources : List Path}
    (hmade : (archivePaths contentZip b (fun _ => []) rels "all.zip").toOption.isSome = true)
    (hsources : rels.mapM cleanRelative = .ok sources)
    (hfiles : ∀ s ∈ sources, isDir b.tree s = false ∧ ¬s <+: ["all.zip"])
    (hfree : present (zipped b rels).tree ["out"] = false) :
    Trip contentZip b (zipped b rels) (fun _ => []) rels "all.zip" "out" sources ["all.zip"]
      ["out"] := by
  have hclosed : (zipped b rels).tree.Closed := (sound_run contentZip _ hs).closed
  have hpaths : cleanRelative "all.zip" = .ok ["all.zip"] ∧ cleanRelative "out" = .ok ["out"] := by
    decide +kernel
  refine ⟨hs.closed, ?_, hpaths.1, hsources, fun s hsource p => ?_, hpaths.2, ?_⟩
  · cases hrun : archivePaths contentZip b (fun _ => []) rels "all.zip" with
    | error e =>
      rw [hrun] at hmade
      cases hmade
    | ok b' =>
      have hcommits :
          (machine contentZip).Commits (.archive (fun _ => []) rels "all.zip") b b' [] :=
        commits_iff.mpr ⟨hrun, rfl⟩
      exact congrArg Except.ok hcommits.next.symm
  · refine iff_of_false List.not_mem_nil ?_
    rintro ⟨hin, hne, hthere | rfl⟩
    · -- nothing is below a file
      have hfolder := hs.closed.folder_of_prefixed hthere hin (Ne.symm hne)
      exact isDir_eq_false.mp (hfiles s hsource).1 hfolder
    · exact (hfiles s hsource).2 hin
  · have hnone := present_eq_false.mp hfree
    exact ⟨by decide, List.cons_ne_nil _ _, hclosed.root, fun h => absurd hnone h,
      fun r _ => hclosed.none_of_prefixed hnone (List.prefix_append _ r)⟩

/-- Two texts of two names. -/
def twoNames : Box Content := (machine contentZip).run
  [.write "a.txt" (.text "one") false, .write "b.txt" (.text "two") false] newBox

/-- Both are files, and their paths are clean ones in the new folder too. -/
private theorem files_twoNames : ∀ s ∈ [["a.txt"], ["b.txt"]],
    isDir twoNames.tree s = false ∧ ¬s <+: ["all.zip"] ∧ s.getLastD "" ≠ ".trash"
    ∧ ∃ name, cleanRelative name = .ok (["out"] ++ archiveName s s) := by
  intro s hs
  rcases List.mem_pair.mp hs with rfl | rfl
  · exact ⟨by decide +kernel, by decide, by decide, "out/a.txt", by decide +kernel⟩
  · exact ⟨by decide +kernel, by decide, by decide, "out/b.txt", by decide +kernel⟩

private theorem sound_twoNames : Sound twoNames := sound_run contentZip _ sound_newBox

private theorem trip_twoNames : Trip contentZip twoNames (zipped twoNames ["a.txt", "b.txt"])
    (fun _ => []) ["a.txt", "b.txt"] "all.zip" "out" [["a.txt"], ["b.txt"]] ["all.zip"] ["out"] :=
  trip_files sound_twoNames (by decide +kernel) (by decide +kernel)
    (fun s hs => ⟨(files_twoNames s hs).1, (files_twoNames s hs).2.1⟩) (by decide +kernel)

/-- Both come back. -/
theorem unzips_twoNames : Unzips contentZip twoNames (zipped twoNames ["a.txt", "b.txt"]) "all.zip"
    "out" [["a.txt"], ["b.txt"]] ["out"] := by
  refine (unzips_iff contentZip trip_twoNames).mpr ⟨?_, ?_, ?_⟩
  · decide
  · decide
  · rintro ⟨s, p⟩ ⟨hs, hin, hthere⟩
    obtain ⟨hfile, -, -, name, hclean⟩ := files_twoNames s hs
    have heq : p = s := by
      by_contra hne
      have hfolder := sound_twoNames.closed.folder_of_prefixed hthere hin (Ne.symm hne)
      exact isDir_eq_false.mp hfile hfolder
    cases heq
    exact cleanPath_of_cleanRelative hclean

/-- Two texts of one name, in two folders. -/
def twoTexts : Box Content :=
  (machine contentZip).run [.makeDirectory "a", .makeDirectory "b",
    .write "a/x.txt" (.text "one") false, .write "b/x.txt" (.text "two") false] newBox

private theorem both_twoTexts : textAt twoTexts.tree ["a", "x.txt"] = some "one"
    ∧ textAt twoTexts.tree ["b", "x.txt"] = some "two" := by
  decide +kernel

private theorem first_twoTexts : textAt twoTexts.tree ["a", "x.txt"] = some "one" :=
  both_twoTexts.1

private theorem second_twoTexts : textAt twoTexts.tree ["b", "x.txt"] = some "two" :=
  both_twoTexts.2

private theorem there_of_textAt {t : Disk Content} {p : Path} {text : String}
    (h : textAt t p = some text) : t p ≠ none ∧ isDir t p = false := by
  unfold textAt at h
  split at h
  · next text' hfile =>
    exact ⟨hfile ▸ Option.some_ne_none _, isDir_eq_false.mpr (by simp [hfile])⟩
  · cases h

/-- One of two files of one name is lost. -/
theorem not_unzips_twoTexts :
    Trip contentZip twoTexts (zipped twoTexts ["a/x.txt", "b/x.txt"]) (fun _ => [])
      ["a/x.txt", "b/x.txt"] "all.zip" "out" [["a", "x.txt"], ["b", "x.txt"]] ["all.zip"] ["out"]
    ∧ ¬Unzips contentZip twoTexts (zipped twoTexts ["a/x.txt", "b/x.txt"]) "all.zip" "out"
      [["a", "x.txt"], ["b", "x.txt"]] ["out"] := by
  obtain ⟨hfirst, hfile⟩ := there_of_textAt first_twoTexts
  obtain ⟨hsecond, hfile'⟩ := there_of_textAt second_twoTexts
  constructor
  · refine trip_files (sound_run contentZip _ sound_newBox) (by decide +kernel) (by decide +kernel)
      (fun s hs => ?_) (by decide +kernel)
    rcases List.mem_pair.mp hs with rfl | rfl
    · exact ⟨hfile, by decide⟩
    · exact ⟨hfile', by decide⟩
  · rintro ⟨n, t', -, hsame, -⟩
    -- both are at `out/x.txt`
    have hone := hsame (["a", "x.txt"], ["a", "x.txt"])
      ⟨List.mem_cons_self, List.prefix_refl _, hfirst⟩
    have htwo := hsame (["b", "x.txt"], ["b", "x.txt"])
      ⟨List.mem_cons_of_mem _ List.mem_cons_self, List.prefix_refl _, hsecond⟩
    have hnode : twoTexts.tree ["a", "x.txt"] = twoTexts.tree ["b", "x.txt"] := hone.symm.trans htwo
    have htext := first_twoTexts
    rw [textAt, hnode] at htext
    exact absurd (htext.symm.trans second_twoTexts) (by decide)

end WPanel.Hosting.Sandbox
