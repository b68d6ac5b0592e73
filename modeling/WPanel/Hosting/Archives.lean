import Mathlib.Data.List.Infix
import WPanel.Hosting.SandboxRuns

namespace WPanel.Hosting.Sandbox

open WPanel.Lib
open WPanel.Hosting.Renaming (Path cleanRelative parent leaf trashDir parent_append_leaf
  prefix_cases)

/-!
# Unpacking all of an archive, or nothing

An extraction is to refuse an archive before it has changed anything, or to unpack every member and
leave every file as it was.  It compares each member with the tree, but none with another.

* `Piece`, `Piece.wants` — what a member needs at its path, and folders on the way to it;
* `Agree` — no two pieces need different things at one path, and none what the tree has otherwise;
* `unpackMember_post`, `unpack_post` — pieces that agree are all put there, and nothing else;
* `AllOrNothing` — what an extraction is to do;
* `allOrNothing_iff` — it does so exactly if the archive is refused, or its pieces agree.
-/

variable {α : Type}

-- whether a member is a folder is never computed by unification
attribute [local irreducible] Member.isFolder

/-! ### What is needed where -/

/-- Something that is to be at a path. -/
abbrev Piece (α : Type) := Path × Node α

/-- What is needed at a path for a piece to be in its place. -/
def Piece.wants (piece : Piece α) (x : Path) : Option (Node α) :=
  if x = piece.1 then some piece.2 else if x <+: piece.1 then some .folder else none

/-- What a member is. -/
def Member.node (m : Member α) : Node α := if m.isFolder then .folder else .file m.content

/-- The pieces of an archive: the folder it is unpacked in, and every member. -/
def pieces (dest : Path) (members : List (Member α)) : List (Piece α) :=
  (dest, .folder) :: members.filterMap fun m => m.path.toOption.map fun p => (dest ++ p, m.node)

/-- **The pieces agree**: what one of them needs at a path, the tree does not have otherwise, and no
    other one needs otherwise. -/
def Agree (t : Disk α) (l : List (Piece α)) : Prop :=
  ∀ piece ∈ l, ∀ x node, piece.wants x = some node →
    (∀ node', t x = some node' → node' = node)
      ∧ ∀ piece' ∈ l, ∀ node', piece'.wants x = some node' → node' = node

/-- The piece a planned member is. -/
def Planned.piece (f : Planned α) : Piece α :=
  (f.target, if f.isDir then .folder else .file f.member.content)

section

variable {zip : Zip α} {t s s' : Disk α} {piece : Piece α} {f : Planned α} {x dest : Path}
  {node : Node α} {planned : List (Planned α)}

theorem Piece.wants_self (piece : Piece α) : piece.wants piece.1 = some piece.2 := if_pos rfl

theorem Piece.wants_above (h : x <+: piece.1) (hne : x ≠ piece.1) :
    piece.wants x = some .folder := by
  rw [Piece.wants, if_neg hne, if_pos h]

theorem Piece.prefix_of_wants (h : piece.wants x = some node) : x <+: piece.1 := by
  unfold Piece.wants at h
  split at h
  · next heq => exact heq ▸ List.prefix_refl _
  · split at h
    · next hin => exact hin
    · cases h

/-- A piece is in its place in a closed tree that has it there. -/
theorem Piece.has_of_closed (hs : s.Closed) (h : s piece.1 = some piece.2)
    (hwants : piece.wants x = some node) : s x = some node := by
  by_cases heq : x = piece.1
  · rw [heq, Piece.wants_self] at hwants
    rw [heq, h, Option.some_inj.mp hwants]
  · have hin := Piece.prefix_of_wants hwants
    rw [Piece.wants_above hin heq] at hwants
    rw [← hwants]
    exact hs.folder_of_prefixed (h ▸ Option.some_ne_none _) hin heq

/-- A tree with a piece in its place. -/
def withPiece (s : Disk α) (piece : Piece α) : Disk α := fun x => (piece.wants x).or (s x)

theorem withPiece_iff (h : ∀ x node node', piece.wants x = some node → s x = some node' →
    node' = node) :
    withPiece s piece x = some node ↔ s x = some node ∨ piece.wants x = some node := by
  unfold withPiece
  cases hwants : piece.wants x with
  | none => simp
  | some node' =>
    rw [Option.some_or]
    constructor
    · exact .inr
    · rintro (hs | hw)
      · exact congrArg some (h x node' node hwants hs).symm
      · exact hw

/-! ### One member -/

/-- Folders are in no one's way where they are needed anyway. -/
theorem not_obstructed {p : Path} (h : ∀ x, x <+: p → ∀ node, s x = some node → node = .folder) :
    ¬Obstructed s p := by
  rintro ⟨q, hq, hthere, hdir⟩
  obtain ⟨node, hnode⟩ := Option.ne_none_iff_exists'.mp (present_iff.mp hthere)
  have hfolder := h q ((List.mem_inits q p).mp hq) node hnode
  exact isDir_eq_false.mp hdir (hnode.trans (congrArg some hfolder))

/-- **A member that agrees with the tree is put in its place, and nothing else changes.** -/
theorem unpackMember_post (hs : s.Closed) (htarget : Target f.target) (hne : f.target ≠ [])
    (h : ∀ x node node', f.piece.wants x = some node → s x = some node' → node' = node) :
    (unpackMember f).Post s (fun _ s' => s'.Closed ∧ s' = withPiece s f.piece)
      fun _ => False := by
  unfold unpackMember
  by_cases hdir : f.isDir = true
  · have hpiece : f.piece = (f.target, .folder) := by rw [Planned.piece, if_pos hdir]
    have hwants : ∀ x, f.piece.wants x = if x <+: f.target then some .folder else none := by
      intro x
      rw [hpiece, Piece.wants]
      by_cases hx : x = f.target
      · simp [hx]
      · simp [hx]
    have hfree : ¬Obstructed s f.target := not_obstructed fun x hx node hnode =>
      h x _ node ((hwants x).trans (if_pos hx)) hnode
    rw [if_pos hdir, Routine.Post, show makeFolders f.target s = _ from if_neg hfree]
    refine ⟨(Grown.withFolders hs htarget).closed, funext fun x => ?_⟩
    rw [withPiece, hwants, withFolders]
    split <;> rfl
  · have hpiece : f.piece = (f.target, .file f.member.content) := by
      rw [Planned.piece, if_neg hdir]
    have hparent : Target (parent f.target) := htarget.parent hne
    -- folders are needed above the file, and the tree has no file there
    have habove : ∀ x, x <+: parent f.target → f.piece.wants x = some .folder := by
      intro x hx
      rw [hpiece]
      exact Piece.wants_above (hx.trans (List.dropLast_prefix _)) fun (heq : x = f.target) =>
        not_prefix_parent hne (heq ▸ hx)
    have hfree : ¬Obstructed s (parent f.target) := not_obstructed fun x hx node hnode =>
      h x _ node (habove x hx) hnode
    have hmade : makeFolders (parent f.target) s = (.ok ⟨⟩, withFolders s (parent f.target)) :=
      if_neg hfree
    have hgrown := Grown.withFolders hs hparent
    have hsame : ∀ x, f.target <+: x → withFolders s (parent f.target) x = s x := fun x hx =>
      if_neg fun hin => not_prefix_parent hne (hx.trans hin)
    have hnot : withFolders s (parent f.target) f.target ≠ some .folder := by
      rw [hsame _ (List.prefix_refl _)]
      intro hfolder
      have hwants : f.piece.wants f.target = some (.file f.member.content) := by
        rw [hpiece]
        exact Piece.wants_self _
      cases h f.target _ _ hwants hfolder
    have hwritten : writeOver f.target f.member.content (withFolders s (parent f.target))
        = (.ok ⟨⟩, (withFolders s (parent f.target)).put f.target (fileOf f.member.content)) :=
      if_neg fun hin => hnot (isDir_iff.mp hin)
    rw [if_neg hdir, Routine.Post, (Routine.bind_of_ok hmade).trans hwritten]
    refine ⟨(Grown.put hgrown.closed ⟨htarget, hne, if_pos (List.prefix_refl _)⟩ hnot
      (fileOf_ne_none _)).closed, funext fun x => ?_⟩
    by_cases hx : f.target <+: x
    · obtain ⟨r, rfl⟩ := hx
      rw [Disk.put_append, withPiece, hpiece, Piece.wants]
      by_cases hr : r = []
      · simp [hr, fileOf]
      · -- nothing was below the file
        have hbelow : s (f.target ++ r) = none := by
          by_contra hthere
          have hfolder := hs.folder_of_prefixed hthere (List.prefix_append _ r) (by simpa using hr)
          exact hnot ((hsame _ (List.prefix_refl _)).trans hfolder)
        have hlong : ¬f.target ++ r <+: f.target := fun hin => hr (by
          have hlength := hin.length_le
          rw [List.length_append] at hlength
          exact List.eq_nil_of_length_eq_zero (by omega))
        simp [hr, hlong, hbelow, fileOf]
    · rw [Disk.put_of_not_prefixed hx, withPiece, hpiece, Piece.wants, withFolders]
      have hne' : x ≠ f.target := fun heq => hx (heq ▸ List.prefix_refl _)
      rw [if_neg hne']
      by_cases hin : x <+: f.target
      · have hparentIn := (prefix_cases hne hin).resolve_left hne'
        rw [if_pos hin, if_pos hparentIn]
        rfl
      · rw [if_neg hin, if_neg fun hp => hin (hp.trans (List.dropLast_prefix _))]
        rfl

/-! ### All of them -/

/-- A tree with the pieces of some members in it, and nothing else that is new. -/
structure Holds (s : Disk α) (done : List (Planned α)) (s' : Disk α) : Prop where
  closed : s'.Closed
  holds : ∀ x node, s' x = some node
    ↔ s x = some node ∨ ∃ f ∈ done, f.piece.wants x = some node

/-- **Pieces that agree are all put in their places, and nothing else is changed.** -/
theorem unpack_post (hs : s.Closed) (htarget : ∀ f ∈ planned, Target f.target ∧ f.target ≠ [])
    (h : Agree s (planned.map Planned.piece)) :
    (planned.forM unpackMember).Post s (fun _ => Holds s planned) fun _ => False := by
  refine Routine.post_forM (I := Holds s) (fun done f rest hsplit s' hs' => ?_)
    ⟨hs, fun x node => by simp⟩
  have hmem : ∀ g ∈ done ++ [f], g ∈ planned := by
    intro g hg
    rw [← hsplit]
    rcases List.mem_append.mp hg with hin | hin
    · exact List.mem_append_left _ hin
    · exact List.mem_append_right _ (List.mem_singleton.mp hin ▸ List.mem_cons_self)
  have hf := hmem f (List.mem_append_right _ List.mem_cons_self)
  have hagree : ∀ x node node', f.piece.wants x = some node → s' x = some node' → node' = node := by
    intro x node node' hwants hnode
    obtain ⟨htree, hother⟩ := h _ (List.mem_map_of_mem hf) x node hwants
    rcases (hs'.holds x node').mp hnode with hold | ⟨g, hg, hg'⟩
    · exact htree node' hold
    · exact hother _ (List.mem_map_of_mem (hmem g (List.mem_append_left _ hg))) node' hg'
  refine (unpackMember_post hs'.closed (htarget f hf).1 (htarget f hf).2 hagree).mono
    (fun _ s'' hs'' => ⟨hs''.1, fun x node => ?_⟩) fun _ hfalse => hfalse
  rw [hs''.2, withPiece_iff hagree, hs'.holds, or_assoc]
  refine or_congr_right ⟨?_, ?_⟩
  · rintro (⟨g, hg, hwants⟩ | hwants)
    · exact ⟨g, List.mem_append_left _ hg, hwants⟩
    · exact ⟨f, List.mem_append_right _ List.mem_cons_self, hwants⟩
  · rintro ⟨g, hg, hwants⟩
    rcases List.mem_append.mp hg with hin | hin
    · exact .inl ⟨g, hin, hwants⟩
    · exact .inr (List.mem_singleton.mp hin ▸ hwants)

/-! ### From an archive to its pieces -/

theorem mem_pieces {members : List (Member α)} : piece ∈ pieces dest members
    ↔ piece = (dest, .folder) ∨ ∃ m ∈ members, ∃ path, m.path = .ok path
      ∧ piece = (dest ++ path, m.node) := by
  rw [pieces, List.mem_cons, List.mem_filterMap]
  refine or_congr_right (exists_congr fun m => and_congr_right fun _ => ?_)
  cases hpath : m.path with
  | error e => simp [Except.toOption]
  | ok path => simp [Except.toOption, eq_comm]

/-- What has been planned are the members with a path. -/
theorem Ready.members {rel destRel : String} (h : Ready zip t rel destRel dest planned) :
    ∃ source content members, cleanRelative rel = .ok source ∧ t source = some (.file content)
      ∧ zip.read content = some members ∧ (∀ m ∈ members, ∃ path, m.path = .ok path)
      ∧ ∀ f, f ∈ planned ↔ ∃ m ∈ members, ∃ path, m.path = .ok path ∧ path ≠ []
        ∧ f = { member := m, target := dest ++ path, isDir := m.isFolder } := by
  obtain ⟨source, content, hsource, hcontent, members, hread, steps, hsteps, rfl⟩ := h.source
  have hnames := h.allowed.clean.names
  refine ⟨source, content, members, hsource, hcontent, hread, fun m hm => ?_, fun f => ?_⟩
  · obtain ⟨o, -, ho⟩ := mapM_eq_ok_of_mem hsteps m hm
    obtain ⟨path, hpath, -⟩ := planMember_eq_ok hnames ho
    exact ⟨path, hpath⟩
  · rw [List.mem_filterMap]
    constructor
    · rintro ⟨o, ho, hof⟩
      change o = some f at hof
      obtain ⟨m, hm, hplan⟩ := mapM_eq_ok hsteps o ho
      obtain ⟨path, hpath, ⟨-, hnone⟩ | ⟨hne, -, -, -, hsome⟩⟩ := planMember_eq_ok hnames hplan
      · cases hof.symm.trans hnone
      · exact ⟨m, hm, path, hpath, hne, Option.some_inj.mp (hof.symm.trans hsome)⟩
    · rintro ⟨m, hm, path, hpath, hne, rfl⟩
      obtain ⟨o, ho, hplan⟩ := mapM_eq_ok_of_mem hsteps m hm
      obtain ⟨path', hpath', ⟨hnil, -⟩ | ⟨-, -, -, -, hsome⟩⟩ := planMember_eq_ok hnames hplan
      · cases hpath.symm.trans hpath'
        exact absurd hnil hne
      · cases hpath.symm.trans hpath'
        exact ⟨o, ho, hsome⟩

theorem piece_planned (m : Member α) (p : Path) :
    Planned.piece { member := m, target := p, isDir := m.isFolder } = (p, m.node) := by
  simp only [Planned.piece, Member.node]

/-- A planned member is one of the pieces. -/
theorem piece_of_planned {members : List (Member α)}
    (hplanned : ∀ f, f ∈ planned ↔ ∃ m ∈ members, ∃ path, m.path = .ok path ∧ path ≠ []
      ∧ f = { member := m, target := dest ++ path, isDir := m.isFolder }) (hf : f ∈ planned) :
    f.piece ∈ pieces dest members := by
  obtain ⟨m, hm, path, hpath, -, rfl⟩ := (hplanned f).mp hf
  exact mem_pieces.mpr (.inr ⟨m, hm, path, hpath, piece_planned m _⟩)

/-- Errors the user is told of. -/
def Told (e : Err) : Prop := ∃ message, e = hostingError message

/-- Errors nothing in the code expects. -/
def Untold (e : Err) : Prop := ∃ message, e = .unexpected message

theorem raises_check {p : Prop} [Decidable p] (message : String) :
    Raises (ensure p (hostingError message)) Told := raises_ensure ⟨message, rfl⟩

theorem raises_cleanRelative (rel : String) : Raises (cleanRelative rel) Told :=
  (raises_check _).bind fun _ => (raises_check _).bind fun _ => (raises_check _).bind fun _ =>
    (raises_check _).bind fun _ => (raises_check _).bind fun _ => (raises_check _).bind fun _ =>
    raises_pure _

theorem raises_resolve (t : Disk α) (rel : String) (mustExist : Bool) :
    Raises (resolve t rel mustExist) Told :=
  (raises_cleanRelative rel).bind fun _ => (raises_check _).bind fun _ =>
    (raises_check _).bind fun _ => raises_pure _

theorem raises_planMember (t : Disk α) (dest : Path) (m : Member α) :
    Raises (planMember t dest m) Told := by
  unfold planMember
  split
  · exact raises_throw ⟨_, rfl⟩
  · split
    · exact raises_pure _
    · exact (raises_check _).bind fun _ => (raises_resolve _ _ _).bind fun _ =>
        (raises_check _).bind fun _ => raises_pure _

theorem raises_readArchive (zip : Zip α) (t : Disk α) (source : Path) :
    Raises (readArchive zip t source) Told := by
  unfold readArchive
  split
  · next content _ =>
    refine (raises_check _).bind fun _ => ?_
    cases zip.read content with
    | none => exact raises_throw ⟨_, rfl⟩
    | some members => exact raises_pure _
  · exact raises_throw ⟨_, rfl⟩

/-- Whatever is refused before the first change, the user is told. -/
theorem raises_plan (zip : Zip α) (t : Disk α) (rel destRel : String) :
    Raises (plan zip t rel destRel) Told :=
  (raises_resolve _ _ _).bind fun _ => (raises_readArchive _ _ _).bind fun _ =>
    (raises_cleanRelative _).bind fun _ => (raises_resolve _ _ _).bind fun _ =>
    (raises_check _).bind fun _ => (raises_check _).bind fun _ => (raises_check _).bind fun _ =>
    (raises_check _).bind fun _ => (raises_mapM (raises_planMember _ _)).bind fun _ =>
    raises_pure _

theorem raises_makeFolders (p : Path) :
    (makeFolders p : Routine (Disk α) Err PUnit).Raises Untold := by
  intro s e h
  unfold makeFolders at h
  split at h
  · cases h
    exact ⟨_, rfl⟩
  · cases h

theorem raises_writeOver (p : Path) (content : α) : (writeOver p content).Raises Untold := by
  intro s e h
  unfold writeOver at h
  split at h
  · cases h
    exact ⟨_, rfl⟩
  · cases h

/-- Whatever goes wrong afterwards, the user is not told. -/
theorem raises_unpackAll (dest : Path) (planned : List (Planned α)) :
    (unpackAll dest planned).Raises Untold := by
  refine (raises_makeFolders dest).bind fun _ => Routine.Raises.bind
    (Routine.raises_forM fun f _ => ?_) fun _ => Routine.raises_pure _
  unfold unpackMember
  split
  · exact raises_makeFolders _
  · exact (raises_makeFolders _).bind fun _ => raises_writeOver _ _

end

/-! ### All or nothing -/

/-- Every member has been unpacked, and every file is as it was. -/
structure Unpacked (t t' : Disk α) (dest : Path) (members : List (Member α)) : Prop where
  members : ∀ m ∈ members, ∀ path, m.path = .ok path → t' (dest ++ path) = some m.node
  files : ∀ x content, t x = some (.file content) → t' x = some (.file content)

/-- What is unpacked where: an archive that is there, and a path. -/
structure Request (zip : Zip α) (t : Disk α) (rel destRel : String) (dest : Path)
    (members : List (Member α)) : Prop where
  archive : ∃ source content, cleanRelative rel = .ok source ∧ t source = some (.file content)
    ∧ zip.read content = some members
  dest : cleanRelative destRel = .ok dest

/-- **What an extraction is to do**: tell the user why not, and change nothing; or unpack every
    member, and leave every file as it was. -/
def AllOrNothing (zip : Zip α) (t : Disk α) (rel destRel : String) : Prop :=
  (∃ message, extractArchive zip rel destRel t = (.error (hostingError message), t))
    ∨ (∃ n, (extractArchive zip rel destRel t).1 = .ok n)
      ∧ ∀ dest members, Request zip t rel destRel dest members →
        Unpacked t (extractArchive zip rel destRel t).2 dest members

section

variable {zip : Zip α} {t : Disk α} {rel destRel : String} {dest : Path}
  {planned : List (Planned α)} {members : List (Member α)}

/-- There is one archive and one destination. -/
theorem Request.unique {dest' : Path} {members' : List (Member α)}
    (h : Request zip t rel destRel dest members) (h' : Request zip t rel destRel dest' members') :
    dest = dest' ∧ members = members' := by
  obtain ⟨⟨source, content, hsource, hcontent, hread⟩, hdest⟩ := h
  obtain ⟨⟨source', content', hsource', hcontent', hread'⟩, hdest'⟩ := h'
  cases hsource.symm.trans hsource'
  cases hcontent.symm.trans hcontent'
  cases hread.symm.trans hread'
  cases hdest.symm.trans hdest'
  exact ⟨rfl, rfl⟩

/-- Where everything has been unpacked, the pieces agreed. -/
theorem agree_of_unpacked {t' : Disk α} (hgrown : Grown t t') (hdest : t' dest = some .folder)
    (h : Unpacked t t' dest members) : Agree t (pieces dest members) := by
  have hhas : ∀ piece ∈ pieces dest members, ∀ x node, piece.wants x = some node →
      t' x = some node := by
    intro piece hpiece x node hwants
    refine Piece.has_of_closed hgrown.closed ?_ hwants
    rcases mem_pieces.mp hpiece with rfl | ⟨m, hm, path, hpath, rfl⟩
    · exact hdest
    · exact h.members m hm path hpath
  intro piece hpiece x node hwants
  have hnode := hhas piece hpiece x node hwants
  refine ⟨fun node' hnode' => ?_, fun piece' hpiece' node' hwants' => ?_⟩
  · have hkept : t' x = some node' := by
      cases node' with
      | folder => exact hgrown.folders x hnode'
      | file content => exact h.files x content hnode'
    exact Option.some_inj.mp (hkept.symm.trans hnode)
  · exact Option.some_inj.mp ((hhas piece' hpiece' x node' hwants').symm.trans hnode)

/-- Pieces that agree are all unpacked. -/
theorem unpackAll_post (ht : t.Closed) (hdest : Target dest)
    (htarget : ∀ f ∈ planned, Target f.target ∧ f.target ≠ [])
    (hplanned : ∀ f, f ∈ planned ↔ ∃ m ∈ members, ∃ path, m.path = .ok path ∧ path ≠ []
      ∧ f = { member := m, target := dest ++ path, isDir := m.isFolder })
    (h : Agree t (pieces dest members)) :
    (unpackAll dest planned).Post t (fun _ t' => Unpacked t t' dest members) fun _ => False := by
  have hroot : (dest, .folder) ∈ pieces dest members := List.mem_cons_self
  have hwants : ∀ x, Piece.wants (α := α) (dest, .folder) x
      = if x <+: dest then some .folder else none := by
    intro x
    rw [Piece.wants]
    by_cases hx : x = dest <;> simp [hx]
  have hfree : ¬Obstructed t dest := not_obstructed fun x hx node hnode =>
    (h _ hroot x .folder ((hwants x).trans (if_pos hx))).1 node hnode
  have hmade : makeFolders dest t = (.ok ⟨⟩, withFolders t dest) := if_neg hfree
  have hclosed := (Grown.withFolders ht hdest).closed
  -- the tree with the destination in it
  have hstart : ∀ x node, withFolders t dest x = some node
      ↔ t x = some node ∨ Piece.wants (dest, .folder) x = some node := by
    intro x node
    have hsame : withFolders t dest = withPiece t (dest, .folder) := by
      funext y
      rw [withPiece, hwants, withFolders]
      split <;> rfl
    rw [hsame]
    exact withPiece_iff fun y n n' hn hn' => (h _ hroot y n hn).1 n' hn'
  have hagree : Agree (withFolders t dest) (planned.map Planned.piece) := by
    intro piece hpiece x node hwants
    obtain ⟨f, hf, rfl⟩ := List.mem_map.mp hpiece
    obtain ⟨htree, hother⟩ := h _ (piece_of_planned hplanned hf) x node hwants
    refine ⟨fun node' hnode' => ?_, fun piece' hpiece' node' hwants' => ?_⟩
    · rcases (hstart x node').mp hnode' with hold | hnew
      · exact htree node' hold
      · exact hother _ hroot node' hnew
    · obtain ⟨g, hg, rfl⟩ := List.mem_map.mp hpiece'
      exact hother _ (piece_of_planned hplanned hg) node' hwants'
  have hloop := unpack_post hclosed htarget hagree
  unfold unpackAll
  rw [Routine.Post, Routine.bind_of_ok hmade]
  refine Routine.post_bind (hloop.mono (fun _ t' ht' => ?_) fun _ hfalse => hfalse)
  refine ⟨fun m hm path hpath => (ht'.holds _ _).mpr ?_, fun x content hx => (ht'.holds _ _).mpr
    (.inl ((hstart _ _).mpr (.inl hx)))⟩
  by_cases hnil : path = []
  · -- a member without a path is the destination itself
    have hpiece : (dest ++ path, m.node) ∈ pieces dest members :=
      mem_pieces.mpr (.inr ⟨m, hm, path, hpath, rfl⟩)
    have hself := (h _ hpiece (dest ++ path) m.node (Piece.wants_self _)).2 _ hroot .folder (by
      rw [hwants, hnil, List.append_nil, if_pos (List.prefix_refl dest)])
    refine .inl ((hstart _ _).mpr (.inr ?_))
    rw [hwants, hnil, List.append_nil, if_pos (List.prefix_refl dest), hself]
  · refine .inr ⟨_, (hplanned _).mpr ⟨m, hm, path, hpath, hnil, rfl⟩, ?_⟩
    rw [piece_planned, Piece.wants, if_pos rfl]

end

/-- **An extraction unpacks all or nothing exactly if the archive is refused beforehand, or its
    pieces agree.** -/
theorem allOrNothing_iff (zip : Zip α) {t : Disk α} (ht : t.Closed) (rel destRel : String) :
    AllOrNothing zip t rel destRel ↔ (∃ e, plan zip t rel destRel = .error e)
      ∨ ∀ dest members, Request zip t rel destRel dest members → Agree t (pieces dest members) := by
  cases hplan : plan zip t rel destRel with
  | error e =>
    obtain ⟨message, rfl⟩ := raises_plan zip t rel destRel e hplan
    exact iff_of_true (.inl ⟨message, extractArchive_of_refused hplan⟩) (.inl ⟨_, rfl⟩)
  | ok todo =>
    obtain ⟨dest, planned⟩ := todo
    have hready := plan_eq_ok hplan
    obtain ⟨source, content, members, hsource, hcontent, hread, -, hplanned⟩ := hready.members
    have hrequest : Request zip t rel destRel dest members :=
      ⟨⟨source, content, hsource, hcontent, hread⟩, hready.cleanDest⟩
    have htarget : ∀ f ∈ planned, Target f.target ∧ f.target ≠ [] := fun f hf => hready.target hf
    have hrun : extractArchive zip rel destRel t = unpackAll dest planned t :=
      extractArchive_of_plan hplan
    rw [AllOrNothing, hrun]
    constructor
    · rintro (⟨message, herror⟩ | ⟨⟨n, hok⟩, hunpacked⟩)
      · -- an error after the first change is none the user is told of
        obtain ⟨_, hother⟩ := raises_unpackAll dest planned t _ (congrArg Prod.fst herror)
        cases hother
      · refine .inr fun dest' members' hrequest' => ?_
        obtain ⟨rfl, rfl⟩ := hrequest.unique hrequest'
        have hpost := Grown.unpackAll ht hready.allowed htarget
        rw [Routine.Post, show unpackAll dest planned t = (.ok n, _) from Prod.ext hok rfl] at hpost
        exact agree_of_unpacked hpost.1 hpost.2 (hunpacked dest members hrequest)
    · rintro (⟨e, he⟩ | hagree)
      · cases he
      · have hpost := unpackAll_post ht hready.allowed htarget hplanned
          (hagree dest members hrequest)
        unfold Routine.Post at hpost
        split at hpost
        · next n t' hresult =>
          rw [hresult]
          refine .inr ⟨⟨n, rfl⟩, fun dest' members' hrequest' => ?_⟩
          obtain ⟨rfl, rfl⟩ := hrequest.unique hrequest'
          exact hpost
        · exact hpost.elim

/-- A folder with an archive in it. -/
def withArchive (members : List (Member Content)) : Box Content :=
  (machine contentZip).run [.write "site.zip" (.archive members) false] newBox

/-- A text file. -/
def textFile (name text : String) : Member Content := { filename := name, content := .text text }

/-- Two texts under one name. -/
def twice : List (Member Content) := [textFile "a.txt" "one", textFile "a.txt" "two"]

/-- The text at a path. -/
def textAt (t : Disk Content) (p : Path) : Option String :=
  match t p with
  | some (.file (.text text)) => some text
  | _ => none

private theorem closed_withArchive (members : List (Member Content)) :
    (withArchive members).tree.Closed := (sound_run contentZip _ sound_newBox).closed

/-- Two texts under two names. -/
def apart : List (Member Content) := [textFile "a.txt" "one", textFile "b.txt" "two"]

/-- The names, as they are read, and that they are free. -/
private theorem plain_apart : ∀ name ∈ ["a.txt", "b.txt"],
    cleanRelative (rstrip '/' (replaceChar '\\' "/" name)) = .ok [name]
    ∧ endsWith (replaceChar '\\' "/" name) "/" = false
    ∧ present (withArchive apart).tree [name] = false := by
  decide +kernel

private theorem request_archive (members : List (Member Content)) :
    Request contentZip (withArchive members).tree "site.zip" "" [] members := by
  refine ⟨⟨["site.zip"], .archive members, by decide +kernel, ?_, rfl⟩, by decide +kernel⟩
  rfl

/-- The path and the node of a text. -/
private theorem member_text {name : String} (hname : name ∈ ["a.txt", "b.txt"]) (text : String) :
    (textFile name text).path = .ok [name]
      ∧ (textFile name text).node = .file (.text text) := by
  obtain ⟨hclean, hslash, -⟩ := plain_apart name hname
  have hfolder : (textFile name text).isFolder = false := by
    unfold Member.isFolder
    exact hslash
  refine ⟨hclean, ?_⟩
  rw [Member.node, hfolder]
  rfl

private theorem member_apart {m : Member Content} (hm : m ∈ apart) :
    m.path = .ok [m.filename] ∧ m.node = .file m.content
      ∧ (withArchive apart).tree [m.filename] = none := by
  rcases List.mem_pair.mp hm with rfl | rfl
  · obtain ⟨hpath, hnode⟩ := member_text (List.mem_cons_self : "a.txt" ∈ _) "one"
    exact ⟨hpath, hnode, present_eq_false.mp (plain_apart _ (by decide)).2.2⟩
  · obtain ⟨hpath, hnode⟩ := member_text (by decide : "b.txt" ∈ ["a.txt", "b.txt"]) "two"
    exact ⟨hpath, hnode, present_eq_false.mp (plain_apart _ (by decide)).2.2⟩

/-- What the pieces need: the folder itself, and each file at its own name. -/
private theorem wants_apart {piece : Piece Content} (hpiece : piece ∈ pieces [] apart) {x : Path}
    {node : Node Content} (h : piece.wants x = some node) :
    x = [] ∧ node = .folder ∨ ∃ m ∈ apart, x = [m.filename] ∧ node = .file m.content := by
  rcases mem_pieces.mp hpiece with rfl | ⟨m, hm, path, hpath, rfl⟩
  · have hx := List.prefix_nil.mp (Piece.prefix_of_wants h)
    rw [hx] at h
    exact .inl ⟨hx, (Option.some_inj.mp h).symm⟩
  · obtain ⟨hclean, hnode, -⟩ := member_apart hm
    cases hpath.symm.trans hclean
    rw [hnode] at h
    rcases List.prefix_concat_iff.mp (Piece.prefix_of_wants h : x <+: [] ++ [m.filename])
      with hx | hx
    · rw [hx] at h
      refine .inr ⟨m, hm, hx, ?_⟩
      rw [Piece.wants, if_pos rfl] at h
      exact (Option.some_inj.mp h).symm
    · have hnil := List.prefix_nil.mp hx
      rw [hnil] at h
      exact .inl ⟨hnil, (Option.some_inj.mp h).symm⟩

/-- A name is the name of one of the two. -/
private theorem content_apart {m m' : Member Content} (hm : m ∈ apart) (hm' : m' ∈ apart)
    (hname : m.filename = m'.filename) : m.content = m'.content := by
  rcases List.mem_pair.mp hm with rfl | rfl <;> rcases List.mem_pair.mp hm' with rfl | rfl
  · rfl
  · exact absurd hname (by decide)
  · exact absurd hname (by decide)
  · rfl

private theorem agree_apart : Agree (withArchive apart).tree (pieces [] apart) := by
  intro piece hpiece x node hwants
  rcases wants_apart hpiece hwants with ⟨rfl, rfl⟩ | ⟨m, hm, rfl, rfl⟩
  · refine ⟨fun node' hnode' => ?_, fun piece' hpiece' node' hwants' => ?_⟩
    · exact Option.some_inj.mp (hnode'.symm.trans (closed_withArchive apart).root)
    · rcases wants_apart hpiece' hwants' with ⟨-, hnode⟩ | ⟨_, -, hx, -⟩
      · exact hnode
      · cases hx
  · refine ⟨fun node' hnode' => ?_, fun piece' hpiece' node' hwants' => ?_⟩
    · cases hnode'.symm.trans (member_apart hm).2.2
    · rcases wants_apart hpiece' hwants' with ⟨hx, -⟩ | ⟨m', hm', hx, hnode⟩
      · cases hx
      · rw [hnode, content_apart hm hm' (List.singleton_inj.mp hx)]

/-- Two files of two names are unpacked. -/
theorem allOrNothing_apart : AllOrNothing contentZip (withArchive apart).tree "site.zip" "" := by
  refine (allOrNothing_iff contentZip (closed_withArchive apart) "site.zip" "").mpr
    (.inr fun dest members hrequest => ?_)
  obtain ⟨rfl, rfl⟩ := (request_archive apart).unique hrequest
  exact agree_apart

private theorem unpacked_twice :
    (extractArchive contentZip "site.zip" "" (withArchive twice).tree).1.toOption = some 2
    ∧ textAt (extractArchive contentZip "site.zip" "" (withArchive twice).tree).2 ["a.txt"]
      = some "two" := by
  decide +kernel

private theorem ok_twice :
    (extractArchive contentZip "site.zip" "" (withArchive twice).tree).1.toOption = some 2 :=
  unpacked_twice.1

private theorem text_twice :
    textAt (extractArchive contentZip "site.zip" "" (withArchive twice).tree).2 ["a.txt"]
      = some "two" :=
  unpacked_twice.2

/-- The first of two members of one name is lost. -/
theorem not_allOrNothing_twice :
    ¬AllOrNothing contentZip (withArchive twice).tree "site.zip" "" := by
  rintro (⟨message, herror⟩ | ⟨-, hunpacked⟩)
  · have hok := ok_twice
    rw [herror] at hok
    cases hok
  · obtain ⟨hpath, hnode⟩ := member_text (List.mem_cons_self : "a.txt" ∈ _) "one"
    have hfirst := (hunpacked [] twice (request_archive twice)).members _ List.mem_cons_self _ hpath
    have htext := text_twice
    rw [textAt, show (extractArchive contentZip "site.zip" "" (withArchive twice).tree).2 ["a.txt"]
      = some (.file (.text "one")) from hfirst.trans (congrArg some hnode)] at htext
    exact absurd (Option.some_inj.mp htext) (by decide)

end WPanel.Hosting.Sandbox
