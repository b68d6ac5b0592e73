import WPanel.Backups.Demo

namespace WPanel.Backups.Demo

open WPanel.Lib

/-!
# A backup and what it brings back

What `create`, `verify` and `restore` of `DemoBackups` do one after the other.  The trial restore
reads every `.json` file of a backup and opens every `.sqlite3` file, whether it is the provider's
or the customer's.

* `verify` — the trial restore, and its result in the index;
* `Named` — the files of a part have names of that part;
* `RoundTrips` — a new backup passes `verify`, and brings back what it was made of;
* `Readable` — no file of a backup has a name or a content that the trial restore refuses;
* `roundTrips_iff` — a backup goes round exactly if its files are readable and, when it is restored,
  the safety copy of the account as it is then is made and does not push it out of a full list.
-/

variable (lib : Library)

/-! ### The check of a backup -/

/-- What the entry of a backup says of its off-server copy after that was looked at too. -/
def offsiteNow (s : State) (row : Row) : Except Failure (Option String) :=
  if row.offsite.isSome then
    (checkFile lib (s.away row.id) row.sha256).map fun problem =>
      some (if problem.isNone then "ok" else "missing")
  else .ok row.offsite

/-- The entry of a backup after it was checked. -/
def checkedRow (row : Row) (offsite problem : Option String) (now : ℕ) : Row :=
  { row with
    offsite
    verified := if problem.isSome then "failed" else "ok"
    verifiedAt := some now }

/-- `verify` of a backup that is listed. -/
def verifyRow (now : ℕ) (row : Row) : Routine State Failure Row := do
  let problem ← soundCopy lib row
  let s ← Routine.read fun s => s
  let offsite ← Routine.check (offsiteNow lib s row)
  let checked := checkedRow row offsite problem now
  Routine.change fun s =>
    { s with rows := s.rows.map fun r => if r.id = row.id then checked else r }
  match problem with
  | some problem =>
    Routine.check (.error (.hosting
      (problem ++ " Do not rely on this backup; take a new one.")))
  | none => pure checked

/-- `verify`. -/
def verify (now : ℕ) (id : String) : Routine State Failure Row := do
  match ← Routine.read fun s => s.rows.find? (·.id = id) with
  | none => Routine.check (.error (.hosting "That backup no longer exists."))
  | some row => verifyRow lib now row

/-! ### Going round -/

/-- The files of a part have names of that part, each its own. -/
structure Named (s : State) : Prop where
  holds : ∀ p, ∀ member ∈ s.parts p, p.holds member.1 = true
  nodup : ∀ p, ((s.parts p).map Prod.fst).Nodup

/-- An account in which a backup is still there, whatever else has changed. -/
structure Later (s : State) (kind : Kind) (id : String) (later : State) : Prop where
  sound : Sound later
  listed : ∃ row ∈ later.rows, row.id = id ∧ row.kind = kind
    ∧ row.sha256 = lib.archiveSha256 (packed lib s kind)
  archive : later.archives id = some (packed lib s kind)

/-- **A backup goes round**: it passes `verify` as it was made, and restored into the account as it
    is later, it puts back the files it covers, and only these. -/
structure RoundTrips (s : State) (kind : Kind) (id newId : String) (now : ℕ) (later : State) :
    Prop where
  verified : ∃ row, (verify lib now id (make lib kind "manual" id now s).2).1 = .ok row
  restored : (restore lib newId now id later).1 = .ok ⟨⟩
  parts : ∀ p, (restore lib newId now id later).2.parts p
    = if kind.covers p then s.parts p else later.parts p

/-- The trial restore refuses none of the files: their names are safe, those that end in `.json` can
    be loaded, and those that end in `.sqlite3` are sound databases. -/
def Readable (files : Files) : Prop :=
  ∀ member ∈ files, safe member.1 = true
    ∧ (endsWith member.1 ".json" = true → lib.loads member.2 = .value)
    ∧ (endsWith member.1 ".json" = false → endsWith member.1 ".sqlite3" = true →
        lib.integrityCheck member.2 = some "ok")

section

variable {lib} {s : State} {kind : Kind} {id : String}

/-! ### What an archive holds of each part -/

/-- The names that are written out in full. -/
def fixedNames : List String := "state/databases.json" :: "state/email.json" :: settingNames

private theorem holds_fixed : ∀ name ∈ fixedNames, ∀ p ∈ [Part.files, .database, .email, .settings],
    ∀ q ∈ [Part.files, .database, .email, .settings],
      p.holds name = true → q.holds name = true → p = q := by decide

private theorem mem_parts (p : Part) : p ∈ [Part.files, .database, .email, .settings] := by
  cases p <;> decide

/-- Any other name belongs to its folder. -/
private theorem holds_folder {p : Part} {name : String} (hname : name ∉ fixedNames)
    (hp : p.holds name = true) : (p = .files ∧ startsWith name "files/" = true)
      ∨ (p = .database ∧ startsWith name "state/data/" = true) := by
  cases p with
  | files => exact .inl ⟨rfl, hp⟩
  | database =>
    refine .inr ⟨rfl, ((Bool.or_eq_true _ _).mp hp).resolve_left fun hfixed => hname ?_⟩
    rw [of_decide_eq_true hfixed]
    decide
  | email =>
    refine absurd ?_ hname
    rw [of_decide_eq_true hp]
    decide
  | settings =>
    exact absurd (List.mem_cons_of_mem _ (List.mem_cons_of_mem _ (of_decide_eq_true hp))) hname

/-- A name says which part it belongs to. -/
theorem holds_unique {p q : Part} {name : String} (hp : p.holds name = true)
    (hq : q.holds name = true) : p = q := by
  by_cases hname : name ∈ fixedNames
  · exact holds_fixed name hname p (mem_parts p) q (mem_parts q) hp hq
  · have hapart : startsWith name "files/" = true →
        startsWith name "state/data/" = true → False := by
      intro hfiles hdata
      rcases List.prefix_or_prefix_of_prefix (List.isPrefixOf_iff_prefix.mp hfiles)
        (List.isPrefixOf_iff_prefix.mp hdata) with h | h
      · exact absurd h (by decide)
      · exact absurd h (by decide)
    rcases holds_folder hname hp with ⟨rfl, hp'⟩ | ⟨rfl, hp'⟩
    · rcases holds_folder hname hq with ⟨rfl, -⟩ | ⟨rfl, hq'⟩
      · rfl
      · exact absurd (hapart hp' hq') id
    · rcases holds_folder hname hq with ⟨rfl, hq'⟩ | ⟨rfl, -⟩
      · exact absurd (hapart hq' hp') id
      · rfl

/-- Of one part, an archive holds what the account held. -/
theorem held_packed (hs : Named s) (p : Part) :
    (packed lib s kind).held p = if kind.covers p then s.parts p else [] := by
  have hpart : ∀ q, (if kind.covers q then s.parts q else []).filter (fun m => p.holds m.1)
      = if q = p then if kind.covers p then s.parts p else [] else [] := by
    intro q
    by_cases hq : q = p
    · subst hq
      rw [if_pos rfl]
      split
      · exact List.filter_eq_self.mpr fun m hm => hs.holds q m hm
      · rfl
    · rw [if_neg hq]
      refine List.filter_eq_nil_iff.mpr fun m hm hp => hq ?_
      split at hm
      · exact holds_unique (hs.holds q m hm) hp
      · cases hm
  show (members s kind).filter _ = _
  simp only [members, List.flatMap_cons, List.flatMap_nil, List.filter_append, hpart]
  cases p <;> simp

/-- No two files of an archive have one name. -/
theorem nodup_members (hs : Named s) : ((members s kind).map Prod.fst).Nodup := by
  have hcovered : ∀ p, ∀ m ∈ (if kind.covers p then s.parts p else []), p.holds m.1 = true := by
    intro p m hm
    split at hm
    · exact hs.holds p m hm
    · cases hm
  rw [members, List.map_flatMap, List.nodup_flatMap]
  constructor
  · intro p _
    split
    · exact hs.nodup p
    · exact List.nodup_nil
  · refine List.Pairwise.imp (R := (· ≠ ·)) ?_ (by decide)
    intro p q hne name hp hq
    obtain ⟨m, hm, rfl⟩ := List.mem_map.mp hp
    obtain ⟨m', hm', heq⟩ := List.mem_map.mp hq
    exact hne (holds_unique (hcovered p m hm) (heq ▸ hcovered q m' hm'))

/-! ### The trial restore of a new backup -/

theorem lookup_map_of_nodup {β γ : Type} {f : β → γ} {l : List (String × β)}
    (h : (l.map Prod.fst).Nodup) {m : String × β} (hm : m ∈ l) :
    (l.map fun m => (m.1, f m.2)).lookup m.1 = some (f m.2) := by
  induction l with
  | nil => cases hm
  | cons a l ih =>
    rw [List.map_cons, List.nodup_cons] at h
    rcases List.mem_cons.mp hm with rfl | hm
    · simp
    · have hne : (m.1 == a.1) = false := by
        rw [beq_eq_false_iff_ne]
        exact fun heq => h.1 (heq ▸ List.mem_map_of_mem hm)
      simp only [List.map_cons, List.lookup_cons, hne]
      exact ih h.2 hm

/-- The checksums are those of the files, so that only their contents are left to refuse. -/
theorem memberProblem_packed (hs : Named s) {member : String × Data}
    (hmember : member ∈ members s kind) :
    memberProblem lib (packed lib s kind) member = .ok none
      ↔ (endsWith member.1 ".json" = true → lib.loads member.2 = .value)
        ∧ (endsWith member.1 ".json" = false → endsWith member.1 ".sqlite3" = true →
            lib.integrityCheck member.2 = some "ok") := by
  have hsum : (packed lib s kind).checksums.lookup member.1 = some (lib.sha256 member.2) :=
    lookup_map_of_nodup (nodup_members hs) hmember
  unfold memberProblem
  dsimp only
  rw [if_neg (not_not.mpr hsum)]
  by_cases hjson : endsWith member.1 ".json" = true
  · cases hloads : lib.loads member.2 <;> simp [hjson]
  · rw [Bool.not_eq_true] at hjson
    by_cases hsqlite : endsWith member.1 ".sqlite3" = true
    · cases hcheck : lib.integrityCheck member.2 with
      | none => simp [hjson, hsqlite]
      | some answer => simp [hjson, hsqlite]
    · simp [hjson, hsqlite]

/-- **A new backup passes every check exactly if its files are readable.** -/
theorem checkFile_packed_iff (hs : Named s) :
    checkFile lib (some (packed lib s kind)) (lib.archiveSha256 (packed lib s kind)) = .ok none
      ↔ Readable lib (members s kind) := by
  have hsets : trialRestore lib (packed lib s kind)
      = (members s kind).findSomeM? (memberProblem lib (packed lib s kind)) := by
    have hnames : (packed lib s kind).checksums.map Prod.fst
        = (packed lib s kind).members.map Prod.fst := by
      show ((members s kind).map _).map _ = (members s kind).map _
      rw [List.map_map]
      rfl
    have hcomplete : (packed lib s kind).Complete := by
      unfold Archive.Complete
      rw [hnames]
      exact ⟨fun _ hin => hin, fun _ hin => hin⟩
    rw [trialRestore, if_neg (not_not.mpr hcomplete)]
    rfl
  have hintact : (packed lib s kind).intact = true := rfl
  have hmembers : (packed lib s kind).members = members s kind := rfl
  unfold checkFile
  dsimp only
  rw [if_neg (not_not.mpr rfl), if_neg (by rw [hintact]; decide), hmembers]
  by_cases hsafe : ∀ m ∈ members s kind, safe m.1 = true
  · have hnone : (members s kind).any (fun m => !safe m.1) ≠ true := by
      simpa using fun a b hm => hsafe (a, b) hm
    rw [if_neg hnone, hsets, findSomeM?_eq_ok_none]
    constructor
    · intro h m hm
      exact ⟨hsafe m hm, (memberProblem_packed hs hm).mp (h m hm)⟩
    · intro h m hm
      exact (memberProblem_packed hs hm).mpr (h m hm).2
  · have hany : (members s kind).any (fun m => !safe m.1) = true := by
      simpa using hsafe
    rw [if_pos hany]
    exact iff_of_false (fun h => by cases h) fun h => hsafe fun m hm => (h m hm).1

/-! ### Checking it where it was made -/

/-- The off-server copy of a new backup, where there is one, is the same archive. -/
theorem away_stored (hnew : id ∉ s.rows.map Row.id) {now : ℕ}
    (h : (newRow lib s kind "manual" id now).offsite.isSome = true) :
    (stored lib s kind "manual" id now).away id = some (packed lib s kind) := by
  have hoffsite : s.offsite = true := by
    by_contra hnot
    rw [Bool.not_eq_true] at hnot
    simp [newRow, hnot] at h
  show unlink (s.rows.drop (maxBackups - 1)) _ id = _
  rw [unlink, if_neg fun hin => hnew (List.map_subset _ (List.drop_subset _ _) hin), hoffsite,
    if_pos rfl, Function.update_self]

/-- A backup that passes `verify` has a sound copy. -/
theorem copyOf_of_verifyRow {row checked : Row} {now : ℕ}
    (h : (verifyRow lib now row s).1 = .ok checked) : copyOf lib s row ≠ none := by
  intro hcopy
  by_cases hends : Recurses lib s row
  · rw [verifyRow, Routine.bind_of_error (soundCopy_of_recurses hends).2] at h
    cases h
  · obtain ⟨problem, hsound⟩ := soundCopy_of_none hcopy hends
    rw [verifyRow, Routine.bind_of_ok hsound] at h
    simp only [Routine.bind_apply, Routine.read_apply, Routine.check_apply,
      Routine.change_apply] at h
    split at h
    · cases h
    · cases h

/-- A backup with a sound copy passes `verify` if the check of its off-server copy ends. -/
theorem verifyRow_of_copyOf {row : Row} {archive : Archive} {now : ℕ}
    (hcopy : copyOf lib s row = some archive) {offsite : Option String}
    (haway : offsiteNow lib (repaired s row archive) row = .ok offsite) :
    ∃ checked, (verifyRow lib now row s).1 = .ok checked := by
  refine ⟨checkedRow row offsite none now, ?_⟩
  rw [verifyRow, Routine.bind_of_ok (soundCopy_of_some hcopy)]
  simp only [Routine.bind_apply, Routine.read_apply, Routine.check_apply, Routine.change_apply,
    haway, Routine.pure_apply]

/-- A backup that was just made passes `verify` if its archive passes the checks. -/
theorem verify_made (hnew : id ∉ s.rows.map Row.id)
    (hfits : size (members s kind) ≤ maxBytes) (now : ℕ) :
    (∃ row, (verify lib now id (make lib kind "manual" id now s).2).1 = .ok row)
      ↔ checkFile lib (some (packed lib s kind)) (lib.archiveSha256 (packed lib s kind))
        = .ok none := by
  have hmake : (make lib kind "manual" id now s).2 = stored lib s kind "manual" id now := by
    simp only [make, Routine.bind_apply, Routine.read_apply, if_neg (not_lt.mpr hfits),
      Routine.check_apply, Routine.change_apply]
  have hverify : verify lib now id (stored lib s kind "manual" id now)
      = verifyRow lib now (newRow lib s kind "manual" id now)
        (stored lib s kind "manual" id now) := by
    have hfind : (stored lib s kind "manual" id now).rows.find? (·.id = id)
        = some (newRow lib s kind "manual" id now) :=
      List.find?_cons_of_pos (decide_eq_true rfl)
    refine (Routine.bind_of_ok (Routine.read_apply _ _)).trans ?_
    rw [hfind]
  have harchive : (stored lib s kind "manual" id now).archives id = some (packed lib s kind) :=
    archives_stored_new hnew
  rw [hmake, hverify]
  constructor
  · rintro ⟨row, hrow⟩
    obtain ⟨archive, hcopy⟩ := Option.ne_none_iff_exists'.mp (copyOf_of_verifyRow hrow)
    have hcheck := checkFile_copyOf hcopy
    -- whichever copy it is, it is the archive that was made
    have hsame : archive = packed lib s kind := by
      unfold copyOf at hcopy
      split at hcopy
      · cases hcopy
      · exact Option.some.inj (hcopy.symm.trans harchive)
      · split at hcopy
        · next hboth => exact Option.some.inj (hcopy.symm.trans (away_stored hnew hboth.1))
        · cases hcopy
    rwa [hsame] at hcheck
  · intro hcheck
    have hlocal := hcheck
    rw [← harchive] at hlocal
    have hcopy : copyOf lib (stored lib s kind "manual" id now)
        (newRow lib s kind "manual" id now) = some (packed lib s kind) :=
      (copyOf_of_local hlocal).trans harchive
    by_cases hoffsite : (newRow lib s kind "manual" id now).offsite.isSome = true
    · have haway := hcheck
      rw [← away_stored hnew hoffsite] at haway
      have hoffsiteNow : offsiteNow lib (repaired (stored lib s kind "manual" id now)
          (newRow lib s kind "manual" id now) (packed lib s kind))
          (newRow lib s kind "manual" id now) = .ok (some "ok") :=
        (if_pos hoffsite).trans (congrArg (Except.map _) haway)
      exact verifyRow_of_copyOf hcopy hoffsiteNow
    · exact verifyRow_of_copyOf hcopy (if_neg hoffsite)

end

/-- **A backup goes round exactly if the trial restore can read its files**, what it covers is
    within the limit when it is restored, and it is not the oldest of a full list then. -/
theorem roundTrips_iff {s later : State} {kind : Kind} {id newId : String} {now : ℕ}
    (hs : Named s) (hnew : id ∉ s.rows.map Row.id) (hfits : size (members s kind) ≤ maxBytes)
    (hlater : Later lib s kind id later) (hsafety : newId ∉ later.rows.map Row.id) :
    RoundTrips lib s kind id newId now later ↔ Readable lib (members s kind)
      ∧ size (members later kind) ≤ maxBytes
      ∧ ¬(later.rows.length = maxBackups ∧ later.rows.getLast?.map Row.id = some id) := by
  obtain ⟨row, hrow, rfl, rfl, hsha⟩ := hlater.listed
  have hlast : later.rows.getLast?.map Row.id = some row.id ↔ later.rows.getLast? = some row := by
    rw [Option.map_eq_some_iff]
    constructor
    · rintro ⟨last, hlast, hid⟩
      have hmem := List.mem_of_getLast? hlast
      rw [hlast, List.inj_on_of_nodup_map hlater.sound.nodup hmem hrow hid]
    · intro h
      exact ⟨row, h, rfl⟩
  have hchecked : checkFile lib (some (packed lib s row.kind))
      (lib.archiveSha256 (packed lib s row.kind)) = .ok none ↔ Readable lib (members s row.kind) :=
    checkFile_packed_iff hs
  have hcopy : Readable lib (members s row.kind) →
      copyOf lib later row = some (packed lib s row.kind) := by
    intro hreadable
    have hcheck := hchecked.mpr hreadable
    rw [← hsha, ← hlater.archive] at hcheck
    exact (copyOf_of_local hcheck).trans hlater.archive
  rw [hlast]
  constructor
  · intro h
    have hreadable := hchecked.mp ((verify_made hnew hfits now).mp h.verified)
    have hroom : ¬maxBytes < size (members later row.kind) := by
      intro hlarge
      obtain ⟨message, hrun⟩ : ∃ message, restoreRow lib newId now row later
          = (.error (.hosting message), repaired later row (packed lib s row.kind)) :=
        restoreRow_tooLarge (hcopy hreadable) hlarge
      have hrestored := h.restored
      rw [restore_eq hlater.sound hrow, hrun] at hrestored
      cases hrestored
    refine ⟨hreadable, not_lt.mp hroom, fun hdropped => ?_⟩
    have hgone : (restore lib newId now row.id later).1 = .error .fileNotFound :=
      restore_gone hlater.sound hrow hsafety (hcopy hreadable) hroom hdropped
    rw [h.restored] at hgone
    cases hgone
  · rintro ⟨hreadable, hroom, hkept⟩
    obtain ⟨s', hrun, hback⟩ : ∃ s', restore lib newId now row.id later = (.ok ⟨⟩, s')
        ∧ BringsBack lib later row (packed lib s row.kind) s' :=
      restore_done hlater.sound hrow hsafety (hcopy hreadable) (not_lt.mpr hroom) hkept
    refine ⟨(verify_made hnew hfits now).mpr (hchecked.mpr hreadable), by rw [hrun], fun p => ?_⟩
    rw [hrun]
    by_cases hp : row.kind.covers p = true
    · rw [if_pos hp]
      exact (hback.covered p hp).trans ((held_packed hs p).trans (if_pos hp))
    · rw [if_neg hp]
      exact hback.others p (by simpa using hp)

private theorem onePage_named : Named onePage where
  holds p := by cases p <;> decide +kernel
  nodup p := by cases p <;> decide +kernel

/-- The website of one page after its first backup, when the page is gone. -/
def pageGone : State :=
  { (make emptyFiles .files "manual" "first" 0 onePage).2 with parts := fun _ => [] }

private theorem pageGone_later : Later emptyFiles onePage .files "first" pageGone where
  sound := ⟨by decide +kernel, by decide +kernel⟩
  listed := ⟨newRow emptyFiles onePage .files "manual" "first" 0, by decide +kernel⟩
  archive := by decide +kernel

private theorem onePage_readable : Readable emptyFiles (members onePage .files) := by
  intro member hmember
  rw [show members onePage .files = [("files/index.html", [])] from rfl, List.mem_singleton]
    at hmember
  rw [hmember]
  decide +kernel

/-- The page is back. -/
theorem roundTrips_onePage : RoundTrips emptyFiles onePage .files "first" "safety" 1 pageGone :=
  (roundTrips_iff emptyFiles onePage_named (by decide) (by decide +kernel) pageGone_later
    (by decide +kernel)).mpr
    ⟨onePage_readable, by decide +kernel, fun h => absurd h.1 (by decide +kernel)⟩

/-- What the libraries say of a file that is one opening brace. -/
def openBrace : Library where
  sha256 _ := "021fb596db81e6d02bf3d2586ee3981fe519f275c0ac9ca76bbcf2ebb4097d96"
  archiveSha256 archive := "zip of " ++ toString archive.members.length
  loads _ := .malformed
  integrityCheck _ := none

/-- A website with a configuration file that is still being written. -/
def halfWritten : State := { onePage with
  parts := fun p => if p = .files then [("files/public_html/config.json", [0x7B])] else [] }

/-- Its backup does not pass `verify`. -/
theorem not_roundTrips_halfWritten :
    ¬RoundTrips openBrace halfWritten .files "first" "safety" 0
      (make openBrace .files "manual" "first" 0 halfWritten).2 := by
  intro h
  obtain ⟨row, hrow⟩ := h.verified
  have hfailed : (verify openBrace 0 "first"
      (make openBrace .files "manual" "first" 0 halfWritten).2).1
        = .error (.hosting
          "The backup cannot be read back. Do not rely on this backup; take a new one.") := by
    decide +kernel
  rw [hfailed] at hrow
  cases hrow

end WPanel.Backups.Demo
