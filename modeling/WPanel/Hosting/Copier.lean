import WPanel.Hosting.Accounts

namespace WPanel.Hosting

open WPanel.Lib

/-!
# The copier

The PHP file of `hosting/wp_clone.py` that copies a website into its staging copy (`create`) and
the staging copy back over the website (`push`), as far as the files go.

* `whpCopy` — copy a folder into another, except the names that are passed over;
* `clearLive` — what `push` deletes of the website first;
* `copier` — the run of the file, between two folders of the account;
* `whpCopy_get`, `whpCopy_ok_iff` — what a copy that ends well leaves, and when it does;
* `find?_clearLive` — what the clearing keeps.

The folder to copy from is read when the copying begins.  There are no symbolic links, and the
numbers of files and rows that the copier reports are left out.
-/

/-! ### What the server answers -/

/-- A file was copied, or it was not, and may be half there. -/
inductive Copied (α : Type) where
  | done
  | failed (left : Option α)

/-- What becomes of each call of the copier. -/
structure CopierAnswers (α : Type) where
  /-- Both databases were opened. -/
  connects : Except String Unit := .ok ()
  removed : (name : String) → Deletion α [name] := fun _ => .done
  made : Path → Bool := fun _ => true
  copied : Path → Copied α := fun _ => .done
  /-- The tables were copied. -/
  tables : Except String Unit := .ok ()
  /-- The configuration of the staging copy, when it could be written. -/
  config : Option α

section

variable {α : Type}

/-- `whp_finish(false, …)` and the exceptions of the copier, with their texts. -/
abbrev Copying (α : Type) := Routine (Folder α) String

/-- Take the step, unless it is passed over. -/
def passOver (skip : Bool) (step : Copying α Unit) : Copying α Unit :=
  if skip then return () else step

/-! ### Copying -/

/-- The names that are passed over in every folder: what WHPanel itself leaves in a website. -/
def skippedName (name : String) : Bool :=
  name = ".whp-quarantine" || name = "error_log"
    || (startsWith name "whp-" && [".php", ".json", ".php\n", ".json\n"].any (endsWith name))

/-- What a copy passes over. -/
structure Skips where
  exclude : List String
  keepConfig : Bool

/-- The name is passed over, at the top or further down. -/
def Skips.skips (sk : Skips) (top : Bool) (name : String) : Bool :=
  (top && name ∈ sk.exclude) || skippedName name || (top && sk.keepConfig && name = "wp-config.php")

variable (ans : CopierAnswers α) (sk : Skips)

/-- `copy($a, $b)`. -/
def copyFile (here : Path) (name : String) (content : α) : Copying α Unit := fun f =>
  match f.find? name, ans.copied here with
  | some (.inr _), _ => (.error ("Could not copy " ++ name ++ "."), f)
  | _, .done => (.ok (), f.put name (.inl content))
  | _, .failed none => (.error ("Could not copy " ++ name ++ "."), f)
  | _, .failed (some half) => (.error ("Could not copy " ++ name ++ "."), f.put name (.inl half))

/-- Work inside the folder of a name, which is made when there is none. -/
def inside (here : Path) (name : String) (step : Copying α Unit) : Copying α Unit := fun f =>
  match f.find? name with
  | some (.inl _) => (.error ("Could not create " ++ name ++ "."), f)
  | some (.inr g) => ((step g).1, f.put name (.inr (step g).2))
  | none =>
    if ans.made here then ((step .empty).1, f.put name (.inr (step .empty).2))
    else (.error ("Could not create " ++ name ++ "."), f)

/-- `whp_copy`, from a folder at `here`. -/
def whpCopy : (top : Bool) → (here : Path) → (source : Folder α) → Copying α Unit
  | _, _, .empty => return ()
  | top, here, .file name content rest => do
    passOver (sk.skips top name) (copyFile ans (here ++ [name]) name content)
    whpCopy top here rest
  | top, here, .sub name inner rest => do
    passOver (sk.skips top name)
      (inside ans (here ++ [name]) name (whpCopy false (here ++ [name]) inner))
    whpCopy top here rest

/-- A path whose files are copied: no name on it is passed over. -/
def Skips.Copies : Bool → Path → Prop
  | _, [] => True
  | top, name :: rest => sk.skips top name = false ∧ Skips.Copies false rest

instance decidableCopies : (top : Bool) → (path : Path) → Decidable (sk.Copies top path)
  | _, [] => isTrue trivial
  | top, name :: rest =>
    have := decidableCopies false rest
    inferInstanceAs (Decidable (sk.skips top name = false ∧ sk.Copies false rest))

/-! ### Clearing -/

/-- What `push` keeps of the website whatever the staging copy is. -/
def clearKeeps : List String :=
  ["wp-config.php", "cgi-bin", ".well-known", "error_log", ".whp-quarantine"]

/-- The clearing keeps the name. -/
def keptOnPush (exclude : List String) (name : String) : Bool :=
  name ∈ clearKeeps || name ∈ exclude || startsWith name "whp-"

/-- `whp_rm`, which says nothing when it fails. -/
def whpRm (name : String) : Copying α Unit := fun f =>
  match ans.removed name with
  | .done => (.ok (), f.erase name)
  | .failed after _ => (.ok (), after f)

/-- Clear the website's own files. -/
def clearLive (exclude : List String) : Copying α Unit := fun f =>
  (f.names.forM fun name => passOver (keptOnPush exclude name) (whpRm ans name)) f

/-! ### The run -/

/-- Work in a folder of the account. -/
def inFolder (path : Path) (step : Copying α Unit) : Copying α Unit := fun f =>
  match f.at? path with
  | none => (.error "The folders to copy between were not found.", f)
  | some g => ((step g).1, f.update path fun g => (step g).2)

/-- Both folders are there, and they are two. -/
def requireFolders (src dst : Path) : Copying α Unit := fun f =>
  (ensure ((f.at? src).isSome ∧ (f.at? dst).isSome ∧ src ≠ dst)
    "The folders to copy between were not found.", f)

/-- The configuration of a staging copy names its own database and address. -/
def writeConfig : Copying α Unit := fun f =>
  match ans.config with
  | none => (.error "Could not write the staging configuration.", f)
  | some config => (.ok (), f.put "wp-config.php" (.inl config))

/-- The run of the copier's file: the files, the tables, and for a new staging copy its
    configuration. -/
def copier (push : Bool) (exclude : List String) (src dst : Path) : Copying α Unit := do
  requireFolders src dst
  Routine.check ans.connects
  passOver (!push) (inFolder dst (clearLive ans exclude))
  let source ← Routine.read fun f => (f.at? src).getD .empty
  inFolder dst (whpCopy ans ⟨exclude, push⟩ true [] source)
  Routine.check ans.tables
  passOver push (inFolder dst (writeConfig ans))

/-! ### What a copy leaves alone -/

variable {ans sk}

theorem passOver_take (step : Copying α Unit) : passOver false step = step := rfl

/-- Copying a file writes that file, or nothing. -/
theorem copyFile_cases (here : Path) (name : String) (content : α) (f : Folder α) :
    (copyFile ans here name content f).2 = f
      ∨ (∀ g, f.find? name ≠ some (.inr g))
        ∧ ∃ c, (copyFile ans here name content f).2 = f.put name (.inl c) := by
  unfold copyFile
  split
  · exact .inl rfl
  · next h => exact .inr ⟨fun g hg => h g hg, _, rfl⟩
  · exact .inl rfl
  · next half _ h => exact .inr ⟨fun g hg => h g hg, half, rfl⟩

/-- Working inside a folder changes that folder, or nothing. -/
theorem inside_cases (here : Path) (name : String) (step : Copying α Unit) (f : Folder α) :
    (inside ans here name step f).2 = f
      ∨ ∃ g, (f.find? name = some (.inr g) ∨ f.find? name = none ∧ g = .empty)
        ∧ (inside ans here name step f).2 = f.put name (.inr (step g).2) := by
  unfold inside
  split
  · exact .inl rfl
  · next g h => exact .inr ⟨g, .inl h, rfl⟩
  · next h =>
    split
    · exact .inr ⟨.empty, .inr ⟨h, rfl⟩, rfl⟩
    · exact .inl rfl

theorem get_copyFile_of_ne {here : Path} {name : String} {content : α} {f : Folder α} {r : Path}
    (h : r ≠ [name]) : (copyFile ans here name content f).2.get r = f.get r := by
  rcases copyFile_cases here name content f with hf | ⟨hnot, c, hf⟩
  · rw [hf]
  · rw [hf]
    cases r with
    | nil => simp
    | cons m q =>
      by_cases hm : m = name
      · subst hm
        have hq : q ≠ [] := fun hq => h (by rw [hq])
        rw [Folder.get_put_file, if_neg hq, Folder.get_of_not_sub hnot hq]
      · exact Folder.get_put_of_ne _ _ _ hm

theorem find?_copyFile {here : Path} {name m : String} {content : α} {f : Folder α}
    (h : m ≠ name) : (copyFile ans here name content f).2.find? m = f.find? m := by
  rcases copyFile_cases here name content f with hf | ⟨-, c, hf⟩
  · rw [hf]
  · rw [hf, Folder.find?_put, if_neg h]

theorem find?_inside {here : Path} {name m : String} {step : Copying α Unit} {f : Folder α}
    (h : m ≠ name) : (inside ans here name step f).2.find? m = f.find? m := by
  rcases inside_cases here name step f with hf | ⟨g, -, hf⟩
  · rw [hf]
  · rw [hf, Folder.find?_put, if_neg h]

theorem find?_passOver {skip : Bool} {step : Copying α Unit} {f : Folder α} {m : String}
    (h : (step f).2.find? m = f.find? m) : (passOver skip step f).2.find? m = f.find? m := by
  cases skip with
  | true => rfl
  | false => exact h

theorem get_inside_of_step {here : Path} {name : String} {step : Copying α Unit} {f : Folder α}
    {q : Path} (h : ∀ g, (step g).2.get q = g.get q) :
    (inside ans here name step f).2.get (name :: q) = f.get (name :: q) := by
  rcases inside_cases here name step f with hf | ⟨g, hg, hf⟩
  · rw [hf]
  · rw [hf, Folder.get_put_sub, h]
    rcases hg with hg | ⟨hg, rfl⟩
    · rw [Folder.get_of_sub hg]
    · simp [Folder.get, hg]

/-- **A copy writes no file whose path has a name that is passed over.** -/
theorem whpCopy_other {source f : Folder α} {top : Bool} {here r : Path}
    (hr : ¬sk.Copies top r) : (whpCopy ans sk top here source f).2.get r = f.get r := by
  induction source generalizing top here f r with
  | empty => rfl
  | file name content rest ih =>
    refine Routine.bind_keeps (P := fun g : Folder α => g.get r = f.get r) ?_ fun _ g hg =>
      (ih hr).trans hg
    cases hskip : sk.skips top name with
    | true => rfl
    | false =>
      rw [passOver_take]
      refine get_copyFile_of_ne fun h => hr ?_
      rw [h]
      exact ⟨hskip, trivial⟩
  | sub name inner rest ihinner ih =>
    refine Routine.bind_keeps (P := fun g : Folder α => g.get r = f.get r) ?_ fun _ g hg =>
      (ih hr).trans hg
    cases hskip : sk.skips top name with
    | true => rfl
    | false =>
      rw [passOver_take]
      cases r with
      | nil => exact absurd trivial hr
      | cons m q =>
        by_cases hm : m = name
        · subst hm
          exact get_inside_of_step fun g => ihinner fun hq => hr ⟨hskip, hq⟩
        · exact Folder.get_congr (find?_inside hm) q

/-! ### What a copy that ends well leaves -/

theorem copyFile_ok {here : Path} {name : String} {content : α} {f : Folder α}
    (h : (copyFile ans here name content f).1 = .ok ()) :
    (∀ g, f.find? name ≠ some (.inr g))
      ∧ (copyFile ans here name content f).2 = f.put name (.inl content) := by
  unfold copyFile at h ⊢
  split at h
  · cases h
  · next hnot => exact ⟨fun g hg => hnot g hg, rfl⟩
  · cases h
  · cases h

theorem inside_ok {here : Path} {name : String} {step : Copying α Unit} {f : Folder α}
    (h : (inside ans here name step f).1 = .ok ()) :
    (∀ c, f.find? name ≠ some (.inl c)) ∧ (step (f.inner name)).1 = .ok ()
      ∧ (inside ans here name step f).2 = f.put name (.inr (step (f.inner name)).2) := by
  unfold inside Folder.inner at *
  cases hfind : f.find? name with
  | none =>
    rw [hfind] at h
    dsimp only at h ⊢
    split at h
    · next hmade =>
      rw [if_pos hmade]
      exact ⟨nofun, h, rfl⟩
    · cases h
  | some node =>
    rw [hfind] at h
    cases node with
    | inl c => cases h
    | inr g => exact ⟨nofun, h, rfl⟩

/-- The first entry of a folder that is copied well. -/
private theorem passOver_ok {skip : Bool} {step : Copying α Unit} {f : Folder α}
    (h : (passOver skip step f).1 = .ok ()) :
    skip = true ∧ (passOver skip step f).2 = f
      ∨ skip = false ∧ (step f).1 = .ok () ∧ (passOver skip step f).2 = (step f).2 := by
  cases skip with
  | true => exact .inl ⟨rfl, rfl⟩
  | false => exact .inr ⟨rfl, h, rfl⟩

/-- **A copy that ends well** has put every file of the folder that is not passed over in its
    place. -/
theorem whpCopy_get {source f : Folder α} {top : Bool} {here : Path} (htidy : source.Tidy)
    (hok : (whpCopy ans sk top here source f).1 = .ok ()) (r : Path) (hr : sk.Copies top r) :
    (whpCopy ans sk top here source f).2.get r = (source.get r).or (f.get r) := by
  induction source generalizing top here f r with
  | empty => simp [whpCopy]
  | file name content rest ih =>
    obtain ⟨_, hfirst, hrest, hstate⟩ := Routine.bind_ok_inv hok
    show ((_ >>= _ : Copying α Unit) f).2.get r = _
    rw [hstate, ih htidy.2 hrest r hr]
    cases r with
    | nil => simp
    | cons m q =>
      rw [Folder.get_file_cons]
      rcases passOver_ok hfirst with ⟨hskip, hf⟩ | ⟨hskip, hfile, hf⟩
      · have hm : m ≠ name := fun hm => by simp [hm ▸ hr.1] at hskip
        rw [hf, if_neg hm]
      · obtain ⟨hnot, hput⟩ := copyFile_ok hfile
        rw [hf, hput]
        by_cases hm : m = name
        · subst hm
          rw [Folder.get_of_not_mem htidy.1, Folder.get_put_file, if_pos rfl, Option.none_or]
          by_cases hq : q = []
          · rw [if_pos hq, Option.some_or]
          · rw [if_neg hq, Option.none_or, Folder.get_of_not_sub hnot hq]
        · rw [Folder.get_put_of_ne _ _ _ hm, if_neg hm]
  | sub name inner rest ihinner ih =>
    obtain ⟨_, hfirst, hrest, hstate⟩ := Routine.bind_ok_inv hok
    show ((_ >>= _ : Copying α Unit) f).2.get r = _
    rw [hstate, ih htidy.2.2 hrest r hr]
    cases r with
    | nil => simp
    | cons m q =>
      rw [Folder.get_sub_cons]
      rcases passOver_ok hfirst with ⟨hskip, hf⟩ | ⟨hskip, hinside, hf⟩
      · have hm : m ≠ name := fun hm => by simp [hm ▸ hr.1] at hskip
        rw [hf, if_neg hm]
      · obtain ⟨hnot, hstep, hput⟩ := inside_ok hinside
        rw [hf, hput]
        by_cases hm : m = name
        · subst hm
          rw [Folder.get_of_not_mem htidy.1, Folder.get_put_sub, if_pos rfl, Option.none_or,
            ihinner htidy.2.1 hstep q hr.2, Folder.get_inner hnot]
        · rw [Folder.get_put_of_ne _ _ _ hm, if_neg hm]

/-- A copy writes no file that the folder copied from lacks. -/
theorem whpCopy_absent {source f : Folder α} {top : Bool} {here r : Path} (htidy : source.Tidy)
    (hr : source.get r = none) : (whpCopy ans sk top here source f).2.get r = f.get r := by
  induction source generalizing top here f r with
  | empty => rfl
  | file name content rest ih =>
    cases r with
    | nil => simp
    | cons m q =>
      rw [Folder.get_file_cons] at hr
      have hrest : rest.get (m :: q) = none := by
        split at hr
        · next hm => rw [hm, Folder.get_of_not_mem htidy.1]
        · exact hr
      refine Routine.bind_keeps (P := fun g : Folder α => g.get (m :: q) = f.get (m :: q)) ?_
        fun _ g hg => (ih htidy.2 hrest).trans hg
      cases hskip : sk.skips top name with
      | true => rfl
      | false =>
        rw [passOver_take]
        refine get_copyFile_of_ne fun h => ?_
        obtain ⟨rfl, rfl⟩ := List.cons.inj h
        simp at hr
  | sub name inner rest ihinner ih =>
    cases r with
    | nil => simp
    | cons m q =>
      rw [Folder.get_sub_cons] at hr
      have hrest : rest.get (m :: q) = none := by
        split at hr
        · next hm => rw [hm, Folder.get_of_not_mem htidy.1]
        · exact hr
      refine Routine.bind_keeps (P := fun g : Folder α => g.get (m :: q) = f.get (m :: q)) ?_
        fun _ g hg => (ih htidy.2.2 hrest).trans hg
      cases hskip : sk.skips top name with
      | true => rfl
      | false =>
        rw [passOver_take]
        by_cases hm : m = name
        · subst hm
          rw [if_pos rfl] at hr
          exact get_inside_of_step fun g => ihinner htidy.2.1 hr
        · exact Folder.get_congr (find?_inside hm) q

theorem at?_copyFile {here : Path} {name : String} {content : α} {f : Folder α} {m : String}
    {q : Path} (h : (copyFile ans here name content f).2.at? (m :: q) ≠ none) :
    f.at? (m :: q) ≠ none := by
  rcases copyFile_cases here name content f with hf | ⟨-, c, hf⟩
  · rwa [hf] at h
  · rw [hf] at h
    by_cases hm : m = name
    · subst hm
      exact absurd (Folder.at?_put_file f m c q) h
    · rwa [Folder.at?_put_of_ne _ _ _ hm] at h

/-- A copy makes no folder that the folder copied from lacks. -/
theorem at?_whpCopy {source f : Folder α} {top : Bool} {here r : Path} (htidy : source.Tidy)
    (h : (whpCopy ans sk top here source f).2.at? r ≠ none) :
    f.at? r ≠ none ∨ sk.Copies top r ∧ source.at? r ≠ none := by
  induction source generalizing top here f r with
  | empty => exact .inl h
  | file name content rest ih =>
    cases r with
    | nil => exact .inl (by simp [Folder.at?])
    | cons m q =>
      -- a file makes no folder
      have hfirst : (passOver (sk.skips top name) (copyFile ans (here ++ [name]) name content)
          f).2.at? (m :: q) ≠ none → f.at? (m :: q) ≠ none := by
        cases sk.skips top name with
        | true => exact id
        | false => exact at?_copyFile
      rcases Routine.bind_state _ _ f with hs | ⟨_, hs⟩
      · exact .inl (hfirst (hs ▸ h))
      · rcases ih htidy.2 (hs ▸ h) with h | ⟨hcopies, h⟩
        · exact .inl (hfirst h)
        · refine .inr ⟨hcopies, ?_⟩
          rw [Folder.at?_file_cons]
          split
          · next hm => exact absurd (Folder.at?_of_not_mem (hm ▸ htidy.1) q) h
          · exact h
  | sub name inner rest ihinner ih =>
    cases r with
    | nil => exact .inl (by simp [Folder.at?])
    | cons m q =>
      -- a folder makes itself and what is copied into it
      have hfirst : (passOver (sk.skips top name) (inside ans (here ++ [name]) name
          (whpCopy ans sk false (here ++ [name]) inner)) f).2.at? (m :: q) ≠ none →
            f.at? (m :: q) ≠ none
              ∨ sk.Copies top (m :: q) ∧ (Folder.sub name inner rest).at? (m :: q) ≠ none := by
        cases hskip : sk.skips top name with
        | true => exact .inl
        | false =>
          rw [passOver_take]
          intro h
          rcases inside_cases (here ++ [name]) name
            (whpCopy ans sk false (here ++ [name]) inner) f with hf | ⟨g, hg, hf⟩
          · exact .inl (hf ▸ h)
          · rw [hf] at h
            by_cases hm : m = name
            · subst hm
              rw [Folder.at?_put_sub] at h
              rw [Folder.at?_sub_cons, if_pos rfl]
              rcases ihinner htidy.2.1 h with h | ⟨hcopies, h⟩
              · rcases hg with hg | ⟨-, rfl⟩
                · exact .inl (by rwa [Folder.at?_of_sub hg])
                · cases q with
                  | nil => exact .inr ⟨⟨hskip, trivial⟩, by simp [Folder.at?]⟩
                  | cons k q => exact absurd rfl h
              · exact .inr ⟨⟨hskip, hcopies⟩, h⟩
            · rw [Folder.at?_put_of_ne _ _ _ hm] at h
              exact .inl h
      rcases Routine.bind_state _ _ f with hs | ⟨_, hs⟩
      · exact hfirst (hs ▸ h)
      · rcases ih htidy.2.2 (hs ▸ h) with h | ⟨hcopies, h⟩
        · exact hfirst h
        · refine .inr ⟨hcopies, ?_⟩
          rw [Folder.at?_sub_cons]
          split
          · next hm => exact absurd (Folder.at?_of_not_mem (hm ▸ htidy.1) q) h
          · exact h

theorem tidy_whpCopy {source f : Folder α} {top : Bool} {here : Path} (hf : f.Tidy) :
    (whpCopy ans sk top here source f).2.Tidy := by
  induction source generalizing top here f with
  | empty => exact hf
  | file name content rest ih =>
    refine Routine.bind_keeps (P := Folder.Tidy) ?_ fun _ g hg => ih hg
    cases sk.skips top name with
    | true => exact hf
    | false =>
      rw [passOver_take]
      rcases copyFile_cases (here ++ [name]) name content f with h | ⟨-, c, h⟩
      · rwa [h]
      · rw [h]
        exact hf.put name nofun
  | sub name inner rest ihinner ih =>
    refine Routine.bind_keeps (P := Folder.Tidy) ?_ fun _ g hg => ih hg
    cases sk.skips top name with
    | true => exact hf
    | false =>
      rw [passOver_take]
      rcases inside_cases (here ++ [name]) name
        (whpCopy ans sk false (here ++ [name]) inner) f with h | ⟨g, hg, h⟩
      · rwa [h]
      · rw [h]
        refine hf.put name fun g' hg' => ?_
        cases hg'
        refine ihinner ?_
        rcases hg with hg | ⟨-, rfl⟩
        · exact hf.of_sub hg
        · exact trivial

/-! ### When a copy ends well -/

/-- A file and a folder of one path, one on each side of a copy. -/
def Skips.Clashes (sk : Skips) (top : Bool) (source f : Folder α) (r : Path) : Prop :=
  sk.Copies top r
    ∧ (source.get r ≠ none ∧ f.at? r ≠ none ∨ source.at? r ≠ none ∧ f.get r ≠ none)

/-- No call of the copier fails. -/
structure CopierAnswers.Obliging (ans : CopierAnswers α) : Prop where
  connects : ans.connects = .ok ()
  removed : ∀ name, ans.removed name = .done
  made : ∀ path, ans.made path = true
  copied : ∀ path, ans.copied path = .done

theorem copyFile_of_obliging (hans : ans.Obliging) {here : Path} {name : String} {content : α}
    {f : Folder α} (h : f.at? [name] = none) :
    copyFile ans here name content f = (.ok (), f.put name (.inl content)) := by
  unfold copyFile
  rw [hans.copied]
  cases hfind : f.find? name with
  | none => rfl
  | some node =>
    cases node with
    | inl c => rfl
    | inr g => simp [Folder.at?, hfind] at h

theorem inside_of_obliging (hans : ans.Obliging) {here : Path} {name : String}
    {step : Copying α Unit} {f : Folder α} (h : f.get [name] = none) :
    inside ans here name step f
      = ((step (f.inner name)).1, f.put name (.inr (step (f.inner name)).2)) := by
  unfold inside Folder.inner
  cases hfind : f.find? name with
  | none => exact if_pos (hans.made here)
  | some node =>
    cases node with
    | inl c => simp [Folder.get, hfind] at h
    | inr g => rfl

theorem not_clashes_nil (top : Bool) (source f : Folder α) : ¬sk.Clashes top source f [] := by
  rintro ⟨-, ⟨h, -⟩ | ⟨-, h⟩⟩
  · exact h (Folder.get_nil _)
  · exact h (Folder.get_nil _)

/-- Whether a path clashes depends on what is there on both sides. -/
theorem clashes_congr {source source' f f' : Folder α} {top : Bool} {r : Path}
    (hget : source.get r = source'.get r) (hat : source.at? r = source'.at? r)
    (hget' : f.get r = f'.get r) (hat' : f.at? r = f'.at? r) :
    sk.Clashes top source f r ↔ sk.Clashes top source' f' r := by
  rw [Skips.Clashes, Skips.Clashes, hget, hat, hget', hat']

/-- Nothing clashes under a name that is not there. -/
theorem not_clashes_of_not_mem {source f : Folder α} {top : Bool} {m : String} {q : Path}
    (h : m ∉ source.names) : ¬sk.Clashes top source f (m :: q) := by
  rintro ⟨-, ⟨hget, -⟩ | ⟨hat, -⟩⟩
  · exact hget (Folder.get_of_not_mem h q)
  · exact hat (Folder.at?_of_not_mem h q)

/-- Further down, a clash is one between the inner folders. -/
theorem clashes_inner {inner rest f : Folder α} {top : Bool} {name : String} {q : Path}
    (hskip : sk.skips top name = false) (hf : ∀ c, f.find? name ≠ some (.inl c)) :
    sk.Clashes top (.sub name inner rest) f (name :: q)
      ↔ sk.Clashes false inner (f.inner name) q := by
  cases q with
  | nil =>
    refine iff_of_false ?_ (not_clashes_nil _ _ _)
    rintro ⟨-, ⟨h, -⟩ | ⟨-, h⟩⟩
    · rw [Folder.get_sub_cons, if_pos rfl] at h
      exact h (Folder.get_nil _)
    · rw [← Folder.get_inner hf] at h
      exact h (Folder.get_nil _)
  | cons k q =>
    rw [Skips.Clashes, Skips.Clashes, Folder.get_sub_cons, if_pos rfl, Folder.at?_sub_cons,
      if_pos rfl, Folder.get_inner hf, Folder.at?_inner _ (List.cons_ne_nil k q)]
    exact and_congr_left fun _ => and_iff_right hskip

/-- The entries after the first clash with nothing either. -/
private theorem not_clashes_rest {node rest f f' : Folder α} {top : Bool} {name : String}
    (hfresh : name ∉ rest.names) (hnode : ∀ m q, m ≠ name →
      node.get (m :: q) = rest.get (m :: q) ∧ node.at? (m :: q) = rest.at? (m :: q))
    (hf : ∀ m q, m ≠ name → f.get (m :: q) = f'.get (m :: q) ∧ f.at? (m :: q) = f'.at? (m :: q))
    (h : ∀ r, ¬sk.Clashes top node f r) : ∀ r, ¬sk.Clashes top rest f' r := by
  intro r hr
  cases r with
  | nil => exact not_clashes_nil _ _ _ hr
  | cons m q =>
    have hm : m ≠ name := fun hm => not_clashes_of_not_mem (hm ▸ hfresh) hr
    obtain ⟨hget, hat⟩ := hnode m q hm
    exact h (m :: q) ((clashes_congr hget hat (hf m q hm).1 (hf m q hm).2).mpr hr)

/-- **When nothing fails and no path clashes, a copy ends well.** -/
theorem whpCopy_ok (hans : ans.Obliging) {source f : Folder α} {top : Bool} {here : Path}
    (htidy : source.Tidy) (h : ∀ r, ¬sk.Clashes top source f r) :
    (whpCopy ans sk top here source f).1 = .ok () := by
  induction source generalizing top here f with
  | empty => rfl
  | file name content rest ih =>
    have hrest : ∀ f' : Folder α, (∀ m q, m ≠ name → f.get (m :: q) = f'.get (m :: q)
        ∧ f.at? (m :: q) = f'.at? (m :: q)) → (whpCopy ans sk top here rest f').1 = .ok () := by
      refine fun f' hf' => ih htidy.2 (not_clashes_rest htidy.1 (fun m q hm => ?_) hf' h)
      rw [Folder.get_file_cons, Folder.at?_file_cons, if_neg hm, if_neg hm]
      exact ⟨rfl, rfl⟩
    show ((_ >>= _ : Copying α Unit) f).1 = _
    cases hskip : sk.skips top name with
    | true => exact hrest f fun _ _ _ => ⟨rfl, rfl⟩
    | false =>
      have hfree : f.at? [name] = none := by
        by_contra hne
        exact h [name] ⟨⟨hskip, trivial⟩, .inl ⟨by simp [Folder.get_file_cons], hne⟩⟩
      rw [passOver_take, Routine.bind_of_ok (copyFile_of_obliging hans hfree)]
      refine hrest _ fun m q hm => ?_
      rw [Folder.get_put_of_ne _ _ _ hm, Folder.at?_put_of_ne _ _ _ hm]
      exact ⟨rfl, rfl⟩
  | sub name inner rest ihinner ih =>
    have hrest : ∀ f' : Folder α, (∀ m q, m ≠ name → f.get (m :: q) = f'.get (m :: q)
        ∧ f.at? (m :: q) = f'.at? (m :: q)) → (whpCopy ans sk top here rest f').1 = .ok () := by
      refine fun f' hf' => ih htidy.2.2 (not_clashes_rest htidy.1 (fun m q hm => ?_) hf' h)
      rw [Folder.get_sub_cons, Folder.at?_sub_cons, if_neg hm, if_neg hm]
      exact ⟨rfl, rfl⟩
    show ((_ >>= _ : Copying α Unit) f).1 = _
    cases hskip : sk.skips top name with
    | true => exact hrest f fun _ _ _ => ⟨rfl, rfl⟩
    | false =>
      have hfree : f.get [name] = none := by
        by_contra hne
        exact h [name] ⟨⟨hskip, trivial⟩, .inr ⟨by simp [Folder.at?, Folder.find?], hne⟩⟩
      have hnot : ∀ c, f.find? name ≠ some (.inl c) := fun c hc => by
        simp [Folder.get, hc] at hfree
      have hstep := @ihinner (f.inner name) false (here ++ [name]) htidy.2.1
        fun q hq => h (name :: q) ((clashes_inner hskip hnot).mpr hq)
      have hinside := @inside_of_obliging _ _ hans (here ++ [name]) name
        (whpCopy ans sk false (here ++ [name]) inner) f hfree
      rw [hstep] at hinside
      rw [passOver_take, Routine.bind_of_ok hinside]
      refine hrest _ fun m q hm => ?_
      rw [Folder.get_put_of_ne _ _ _ hm, Folder.at?_put_of_ne _ _ _ hm]
      exact ⟨rfl, rfl⟩

/-- A copy that ended well met no clash. -/
theorem not_clashes {source f : Folder α} {top : Bool} {here : Path} (htidy : source.Tidy)
    (hok : (whpCopy ans sk top here source f).1 = .ok ()) (r : Path) :
    ¬sk.Clashes top source f r := by
  induction source generalizing top here f r with
  | empty =>
    rintro ⟨-, ⟨h, -⟩ | ⟨h, h'⟩⟩
    · exact h (Folder.get_empty r)
    · cases r with
      | nil => exact h' (Folder.get_nil _)
      | cons m q => exact h rfl
  | file name content rest ih =>
    obtain ⟨_, hfirst, hrest, -⟩ := Routine.bind_ok_inv hok
    cases r with
    | nil => exact not_clashes_nil _ _ _
    | cons m q =>
      by_cases hm : m = name
      · subst hm
        rintro ⟨hcopies, ⟨h, h'⟩ | ⟨h, -⟩⟩
        · rcases passOver_ok hfirst with ⟨hskip, -⟩ | ⟨-, hfile, -⟩
          · simp [hcopies.1] at hskip
          · rw [Folder.get_file_cons, if_pos rfl] at h
            have hq : q = [] := by
              by_contra hq
              exact h (if_neg hq)
            subst hq
            obtain ⟨hnot, -⟩ := copyFile_ok hfile
            cases hfind : f.find? m with
            | none => simp [Folder.at?, hfind] at h'
            | some node =>
              cases node with
              | inl c => simp [Folder.at?, hfind] at h'
              | inr g => exact hnot g hfind
        · exact h (by rw [Folder.at?_file_cons, if_pos rfl])
      · intro hclash
        refine ih htidy.2 hrest (m :: q) ((clashes_congr ?_ ?_ ?_ ?_).mp hclash)
        · rw [Folder.get_file_cons, if_neg hm]
        · rw [Folder.at?_file_cons, if_neg hm]
        · exact (Folder.get_congr (find?_passOver (find?_copyFile hm)) q).symm
        · exact (Folder.at?_congr (find?_passOver (find?_copyFile hm)) q).symm
  | sub name inner rest ihinner ih =>
    obtain ⟨_, hfirst, hrest, -⟩ := Routine.bind_ok_inv hok
    cases r with
    | nil => exact not_clashes_nil _ _ _
    | cons m q =>
      by_cases hm : m = name
      · subst hm
        intro hclash
        rcases passOver_ok hfirst with ⟨hskip, -⟩ | ⟨hskip, hinside, -⟩
        · simp [hclash.1.1] at hskip
        · obtain ⟨hnot, hstep, -⟩ := inside_ok hinside
          exact ihinner htidy.2.1 hstep q ((clashes_inner hskip hnot).mp hclash)
      · intro hclash
        refine ih htidy.2.2 hrest (m :: q) ((clashes_congr ?_ ?_ ?_ ?_).mp hclash)
        · rw [Folder.get_sub_cons, if_neg hm]
        · rw [Folder.at?_sub_cons, if_neg hm]
        · exact (Folder.get_congr (find?_passOver (find?_inside hm)) q).symm
        · exact (Folder.at?_congr (find?_passOver (find?_inside hm)) q).symm

/-! ### What the clearing keeps -/

/-- Only the name that is cleared changes. -/
theorem get_whpRm_of_ne {name m : String} {f : Folder α} {q : Path} (h : m ≠ name) :
    (whpRm ans name f).2.get (m :: q) = f.get (m :: q) := by
  unfold whpRm
  split
  · exact Folder.get_congr (by rw [Folder.find?_erase, if_neg h]) q
  · next after outside _ =>
    exact outside f (m :: q) fun hpre => h (List.cons_prefix_cons.mp hpre).1.symm

/-- **The clearing keeps what it is to keep.** -/
theorem get_clearLive_of_kept {exclude : List String} {f : Folder α} {m : String} {q : Path}
    (h : keptOnPush exclude m = true) :
    (clearLive ans exclude f).2.get (m :: q) = f.get (m :: q) := by
  have hturn : ∀ name ∈ f.names, (passOver (keptOnPush exclude name) (whpRm ans name)).Within
      (.fixing fun f : Folder α => f.get (m :: q)) := by
    intro name _ f
    by_cases hm : m = name
    · rw [← hm, h]
      rfl
    · cases keptOnPush exclude name with
      | true => rfl
      | false => exact get_whpRm_of_ne hm
  exact Routine.within_forM hturn f

theorem clearLive_ok (exclude : List String) (f : Folder α) :
    (clearLive ans exclude f).1 = .ok () := by
  refine Routine.forM_ok (fun name _ g => ?_) f
  cases keptOnPush exclude name with
  | true => rfl
  | false =>
    show (whpRm ans name g).1 = .ok ()
    unfold whpRm
    split <;> rfl

theorem whpRm_of_obliging (hans : ans.Obliging) (name : String) (f : Folder α) :
    whpRm ans name f = (.ok (), f.erase name) := by
  rw [whpRm, hans.removed]

/-- When nothing fails, what is not to be kept goes. -/
theorem find?_clearLive (hans : ans.Obliging) (exclude : List String) (f : Folder α) (m : String) :
    (clearLive ans exclude f).2.find? m
      = if keptOnPush exclude m = true then f.find? m else none := by
  have hloop : ∀ (names : List String) (f : Folder α),
      ((names.forM fun name => passOver (keptOnPush exclude name) (whpRm ans name)) f).2.find? m
        = if m ∈ names ∧ keptOnPush exclude m = false then none else f.find? m := by
    intro names
    induction names with
    | nil => simp
    | cons name rest ih =>
      intro f
      have hfirst : passOver (keptOnPush exclude name) (whpRm ans name) f
          = (.ok (), if keptOnPush exclude name = true then f else f.erase name) := by
        cases keptOnPush exclude name with
        | true => rfl
        | false => exact whpRm_of_obliging hans name f
      rw [Routine.forM_cons_of_ok (by rw [hfirst]), hfirst, ih]
      by_cases hm : m = name
      · subst hm
        cases hkept : keptOnPush exclude m <;> simp [Folder.find?_erase]
      · cases keptOnPush exclude name <;> simp [Folder.find?_erase, hm]
  unfold clearLive
  rw [hloop]
  cases keptOnPush exclude m with
  | true => simp
  | false =>
    by_cases hmem : m ∈ f.names
    · simp [hmem]
    · simp [hmem, Folder.find?_of_not_mem hmem]

theorem tidy_clearLive (hans : ans.Obliging) {exclude : List String} {f : Folder α} (hf : f.Tidy) :
    (clearLive ans exclude f).2.Tidy := by
  let fr : Frame (Folder α) :=
    { allows := fun f f' => f.Tidy → f'.Tidy
      refl := fun _ => id
      trans := fun _ _ _ h h' hf => h' (h hf) }
  have hturn : ∀ name ∈ f.names,
      (passOver (keptOnPush exclude name) (whpRm ans name)).Within fr := by
    intro name _ f hf
    cases keptOnPush exclude name with
    | true => exact hf
    | false =>
      rw [passOver_take, whpRm_of_obliging hans]
      exact hf.erase name
  exact Routine.within_forM hturn f hf

/-! ### The account after a run -/

theorem inFolder_of_at? {path : Path} {step : Copying α Unit} {f g : Folder α}
    (h : f.at? path = some g) :
    inFolder path step f = ((step g).1, f.update path fun g => (step g).2) := by
  rw [inFolder, h]

/-- A file of the folder that the step leaves alone, or one outside. -/
theorem get_inFolder {path p : Path} {step : Copying α Unit} {f : Folder α}
    (h : ∀ r, p = path ++ r → ∀ g, (step g).2.get r = g.get r) :
    (inFolder path step f).2.get p = f.get p := by
  cases hat : f.at? path with
  | none => rw [inFolder, hat]
  | some g =>
    rw [inFolder_of_at? hat]
    rcases Folder.get_update_cases f path (fun g => (step g).2)
      p with hsame | ⟨g, r, -, hr, h', h''⟩
    · exact hsame
    · exact h'.trans ((h r hr g).trans h''.symm)

/-- What `push` may overwrite or delete in the folder of the website. -/
def Overwritten (exclude : List String) : Path → Prop
  | [] => False
  | name :: rest => keptOnPush exclude name = false
      ∨ (⟨exclude, true⟩ : Skips).Copies true (name :: rest)

/-- The copier keeps to a frame that its steps on the files keep to. -/
theorem copier_within {fr : Frame (Folder α)} {push : Bool} {exclude : List String} {src dst : Path}
    (hclear : (passOver (!push) (inFolder dst (clearLive ans exclude))).Within fr)
    (hcopy : ∀ source, (inFolder dst (whpCopy ans ⟨exclude, push⟩ true [] source)).Within fr)
    (hconfig : (passOver push (inFolder dst (writeConfig ans))).Within fr) :
    (copier ans push exclude src dst).Within fr := by
  refine Routine.within_bind (fun f => fr.refl f) fun _ => ?_
  refine Routine.within_bind (Routine.within_check _) fun _ => ?_
  refine Routine.within_bind hclear fun _ => ?_
  refine Routine.within_bind (Routine.within_read _) fun source => ?_
  refine Routine.within_bind (hcopy source) fun _ => ?_
  exact Routine.within_bind (Routine.within_check _) fun _ => hconfig

/-- **`push` leaves every other file of the account alone.** -/
theorem copier_push_other {exclude : List String} {src dst p : Path} (f : Folder α)
    (hp : ∀ r, p = dst ++ r → ¬Overwritten exclude r) :
    (copier ans true exclude src dst f).2.get p = f.get p := by
  have hrun : (copier ans true exclude src dst).Within (.fixing (·.get p)) := by
    refine copier_within (fun f => get_inFolder fun r hr g => ?_)
      (fun source f => get_inFolder fun r hr g => ?_) (Routine.within_pure _)
    · cases r with
      | nil => simp
      | cons m q =>
        refine get_clearLive_of_kept ?_
        simpa using fun h => hp _ hr (.inl h)
    · cases r with
      | nil => simp
      | cons m q => exact whpCopy_other fun h => hp _ hr (.inr h)
  exact hrun f

/-- **The copier leaves every file outside the folder it copies to alone.** -/
theorem copier_outside {push : Bool} {exclude : List String} {src dst p : Path} (f : Folder α)
    (hp : ¬dst <+: p) : (copier ans push exclude src dst f).2.get p = f.get p := by
  have hin : ∀ step : Copying α Unit, (inFolder dst step).Within (.fixing (·.get p)) :=
    fun step f => get_inFolder fun r hr => absurd ⟨r, hr.symm⟩ hp
  have hpass : ∀ skip step,
      (passOver skip (inFolder dst step) : Copying α Unit).Within (.fixing (·.get p)) := by
    intro skip step
    cases skip with
    | true => exact Routine.within_pure _
    | false => exact hin step
  exact copier_within (hpass _ _) (fun _ => hin _) (hpass _ _) f

/-- The account after the website is cleared. -/
def cleared (ans : CopierAnswers α) (exclude : List String) (dst : Path) (f : Folder α) :
    Folder α :=
  f.update dst fun g => (clearLive ans exclude g).2

/-- **A `push` with no failing call** clears the website and copies what is then in the folder of
    the staging copy. -/
theorem get_copier_push (hans : ans.Obliging) {exclude : List String} {src dst : Path}
    {f s g : Folder α} (hsrc : f.at? src = some s) (hdst : f.at? dst = some g) (hne : src ≠ dst)
    (r : Path) : (copier ans true exclude src dst f).2.get (dst ++ r)
      = (whpCopy ans ⟨exclude, true⟩ true [] (((cleared ans exclude dst f).at? src).getD .empty)
          (clearLive ans exclude g).2).2.get r := by
  have hfolders : requireFolders src dst f = (.ok (), f) := by
    rw [requireFolders, ensure, if_pos ⟨by rw [hsrc]; rfl, by rw [hdst]; rfl, hne⟩]
  have hclear : inFolder dst (clearLive ans exclude) f = (.ok (), cleared ans exclude dst f) := by
    rw [inFolder_of_at? hdst, clearLive_ok]
    rfl
  have hat : (cleared ans exclude dst f).at? dst = some (clearLive ans exclude g).2 :=
    Folder.at?_update hdst _
  unfold copier
  rw [Routine.bind_of_ok hfolders, Routine.bind_of_ok (Routine.check_apply _ f |>.trans
    (by rw [hans.connects])), Bool.not_true, passOver_take, Routine.bind_of_ok hclear,
    Routine.bind_of_ok (Routine.read_apply _ _)]
  refine Routine.bind_keeps (P := fun h : Folder α => h.get (dst ++ r) = _) ?_ fun _ h hh => ?_
  · rw [inFolder_of_at? hat, Folder.get_update_append hat]
  · refine Routine.bind_keeps (P := fun h : Folder α => h.get (dst ++ r) = _) hh fun _ h hh => hh

/-! ### What a push does, when nothing fails -/

theorem get_clearLive (hans : ans.Obliging) (exclude : List String) (g : Folder α) (m : String)
    (q : Path) : (clearLive ans exclude g).2.get (m :: q)
      = if keptOnPush exclude m = true then g.get (m :: q) else none := by
  have hfind := find?_clearLive hans exclude g m
  by_cases hkept : keptOnPush exclude m = true
  · rw [if_pos hkept] at hfind ⊢
    exact Folder.get_congr hfind q
  · rw [if_neg hkept] at hfind ⊢
    simp only [Folder.get, hfind]

theorem get_of_clearLive (hans : ans.Obliging) {exclude : List String} {g : Folder α} {r : Path}
    (h : (clearLive ans exclude g).2.get r ≠ none) : g.get r ≠ none := by
  cases r with
  | nil => exact absurd (Folder.get_nil _) h
  | cons m q =>
    rw [get_clearLive hans] at h
    split at h
    · exact h
    · exact absurd rfl h

theorem at?_of_clearLive (hans : ans.Obliging) {exclude : List String} {g : Folder α} {r : Path}
    (h : (clearLive ans exclude g).2.at? r ≠ none) : g.at? r ≠ none := by
  cases r with
  | nil => simp [Folder.at?]
  | cons m q =>
    have hfind := find?_clearLive hans exclude g m
    split at hfind
    · rwa [Folder.at?_congr hfind] at h
    · exact absurd (by simp only [Folder.at?, hfind]) h

theorem get_of_cleared (hans : ans.Obliging) {exclude : List String} {dst x : Path} {f : Folder α}
    (h : (cleared ans exclude dst f).get x ≠ none) : f.get x ≠ none := by
  rcases f.get_update_cases dst (fun g => (clearLive ans exclude g).2) x with
    hx | ⟨g, r, -, -, hx, hx'⟩
  · rwa [cleared, hx] at h
  · rw [cleared, hx] at h
    rw [hx']
    exact get_of_clearLive hans h

theorem at?_of_cleared (hans : ans.Obliging) {exclude : List String} {dst x : Path} {f : Folder α}
    (h : (cleared ans exclude dst f).at? x ≠ none) : f.at? x ≠ none := by
  rcases Folder.at?_update_cases h with hx | ⟨g, r, hat, rfl, hx⟩
  · exact hx
  · rw [Folder.at?_append hat]
    exact at?_of_clearLive hans hx

theorem tidy_cleared (hans : ans.Obliging) {exclude : List String} {dst : Path} {f : Folder α}
    (hf : f.Tidy) : (cleared ans exclude dst f).Tidy :=
  hf.update dst fun _ hg => tidy_clearLive hans hg

/-- What the copier copies from, once the website is cleared. -/
def copySource (ans : CopierAnswers α) (exclude : List String) (src dst : Path) (f : Folder α) :
    Folder α :=
  ((cleared ans exclude dst f).at? src).getD .empty

theorem tidy_copySource (hans : ans.Obliging) {exclude : List String} {src dst : Path}
    {f : Folder α} (hf : f.Tidy) : (copySource ans exclude src dst f).Tidy := by
  unfold copySource
  cases hat : (cleared ans exclude dst f).at? src with
  | none => exact trivial
  | some s => exact (tidy_cleared hans hf).at? hat

theorem get_copySource {exclude : List String} {src dst : Path} {f : Folder α} (m : String)
    (q : Path) : (copySource ans exclude src dst f).get (m :: q)
      = (cleared ans exclude dst f).get (src ++ m :: q) := by
  unfold copySource
  cases hat : (cleared ans exclude dst f).at? src with
  | some s => exact (Folder.get_append hat _).symm
  | none =>
    rw [Option.getD_none, Folder.get_empty]
    by_contra hne
    obtain ⟨g, hg, -⟩ := Folder.at?_of_get (Ne.symm hne)
    rw [hat] at hg
    cases hg

theorem at?_copySource {exclude : List String} {src dst : Path} {f : Folder α} {m : String}
    {q : Path} (h : (copySource ans exclude src dst f).at? (m :: q) ≠ none) :
    (cleared ans exclude dst f).at? (src ++ m :: q) ≠ none := by
  unfold copySource at h
  cases hat : (cleared ans exclude dst f).at? src with
  | some s =>
    rw [hat, Option.getD_some] at h
    rwa [Folder.at?_append hat]
  | none =>
    rw [hat] at h
    exact absurd rfl h

/-- **What is not kept goes**, and is not put back when the staging copy has no such file. -/
theorem copier_push_gone (hans : ans.Obliging) {exclude : List String} {src dst rest : Path}
    {name : String} {f s g : Folder α} (hf : f.Tidy) (hsrc : f.at? src = some s)
    (hdst : f.at? dst = some g) (hne : src ≠ dst) (hkept : keptOnPush exclude name = false)
    (hfree : f.get (src ++ name :: rest) = none) :
    (copier ans true exclude src dst f).2.get (dst ++ name :: rest) = none := by
  have hsource : (copySource ans exclude src dst f).get (name :: rest) = none := by
    by_contra hne
    rw [get_copySource] at hne
    exact get_of_cleared hans hne hfree
  rw [get_copier_push hans hsrc hdst hne]
  refine (whpCopy_absent (tidy_copySource hans hf) hsource).trans ?_
  rw [get_clearLive hans, hkept, if_neg Bool.false_ne_true]

/-- **What is copied is overwritten**, when all files have one name that is no folder's. -/
theorem copier_push_copied (hans : ans.Obliging) {exclude : List String} {src dst rest : Path}
    {name leaf : String} {content : α} {f s g : Folder α} (hf : f.Tidy)
    (hsrc : f.at? src = some s) (hdst : f.at? dst = some g) (hne : src ≠ dst)
    (hcopies : Skips.Copies ⟨exclude, true⟩ true (name :: rest))
    (hfiles : ∀ x, f.get x ≠ none → ∃ p, x = p ++ [leaf])
    (hfolders : ∀ x, f.at? x ≠ none → leaf ∉ x)
    (hsource : (cleared ans exclude dst f).get (src ++ name :: rest) = some content) :
    (copier ans true exclude src dst f).2.get (dst ++ name :: rest) = some content := by
  have htidy : (copySource ans exclude src dst f).Tidy := tidy_copySource hans hf
  have hleaf : ∀ (base : Path) (m : String) (q : Path), f.get (base ++ m :: q) ≠ none →
      leaf ∈ m :: q := by
    intro base m q h
    obtain ⟨p, hp⟩ := hfiles _ h
    have hlast : [leaf] <:+ m :: q :=
      List.suffix_of_suffix_length_le ⟨p, hp.symm⟩ ⟨base, rfl⟩ (by simp)
    exact hlast.subset List.mem_cons_self
  -- a file has the one name last, and no folder has it on its path
  have hclash : ∀ r, ¬Skips.Clashes ⟨exclude, true⟩ true (copySource ans exclude src dst f)
      (clearLive ans exclude g).2 r := by
    intro r hr
    cases r with
    | nil => exact not_clashes_nil _ _ _ hr
    | cons m q =>
      rcases hr.2 with ⟨hget, hat⟩ | ⟨hat, hget⟩
      · rw [get_copySource] at hget
        have hat := at?_of_clearLive hans hat
        rw [← Folder.at?_append hdst] at hat
        exact hfolders _ hat (List.mem_append_right _ (hleaf _ m q (get_of_cleared hans hget)))
      · have hat := at?_of_cleared hans (at?_copySource hat)
        have hget := get_of_clearLive hans hget
        rw [← Folder.get_append hdst] at hget
        exact hfolders _ hat (List.mem_append_right _ (hleaf _ m q hget))
  rw [get_copier_push hans hsrc hdst hne]
  refine (whpCopy_get htidy (whpCopy_ok hans htidy hclash) _ hcopies).trans ?_
  rw [get_copySource, hsource, Option.some_or]

end

end WPanel.Hosting
