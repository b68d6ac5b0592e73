import WPanel.Lib.Routine
import WPanel.Lib.Text

namespace WPanel.Hosting.PanelBackups

open WPanel.Lib

/-!
# The backups the panel takes itself

`_panel_backup` of `hosting/care.py`, for an account whose provider does not schedule backups.  It
makes room first and takes the new backup then, each by a call of the provider that can fail, and
that may have been carried out all the same where its answer was lost.

* `takeBackup`, `panelBackup` — one run, with every call it makes;
* `kept` — the newest of the old backups, with the new one where there is one;
* `KeepsNewest` — what a run is for: these are what the account holds, and a backup that could not
  be taken has cost none;
* `Wasted` — room was made for a backup that was then not taken, or not even asked for;
* `keepsNewest_iff` — a run keeps the newest backups exactly if it did not waste the oldest.
-/

/-- A backup, as `list_backups` shows it. -/
structure Backup where
  id : String
  createdAt : Option String
  deriving DecidableEq, Repr

/-- The backups of an account, each with an id of its own. -/
structure Stored where
  backups : List Backup
  nodup : (backups.map Backup.id).Nodup

/-- `KEEP_PANEL_BACKUPS`. -/
def keepPanelBackups : ℕ := 3

/-- A call of the provider. -/
inductive Call where
  | backupOptions
  | listBackups
  | deleteBackup (id : String)
  | deletePath (path : String)
  | createBackup (kind : String)
  deriving DecidableEq, Repr

/-- The backup that a call made, answered or not. -/
def madeBy : Outcome String Backup → Option Backup
  | .done new => some new
  | .refused _ => none
  | .lost _ new => some new

/-- What the provider answers during one run, or the message of its `ServiceError`.  A call that
    changes something and is not answered in time may have been carried out.  A new backup has an id
    of its own. -/
structure Answers (old : List Backup) where
  /-- The keys of `kinds`. -/
  backupOptions : Except String (List String)
  listBackups : Except String Unit
  deleteBackup : String → Outcome String Unit
  deletePath : String → Outcome String Unit
  createBackup : Outcome String Backup
  fresh : ∀ new ∈ madeBy createBackup, new.id ∉ old.map Backup.id

/-- An account during a run: what it holds, and what was asked of its provider. -/
structure Account where
  backups : List Backup
  asked : List Call := []
  deriving DecidableEq

/-- The part of `SiteCare` a run writes. -/
structure Care where
  backupNote : String
  lastBackupAt : Option ℕ
  deriving DecidableEq, Repr

/-! ### One run -/

/-- `io.call(…)`, for a call that only asks. -/
def ask {α : Type} (call : Call) (answer : Except String α) : Routine Account String α := do
  Routine.change fun a => { a with asked := a.asked ++ [call] }
  Routine.check answer

/-- `io.call(…)`, for a call that changes the backups of the account. -/
def order {α : Type} (call : Call) (outcome : Outcome String α)
    (effect : α → List Backup → List Backup) : Routine Account String α := do
  Routine.change fun a => { a with asked := a.asked ++ [call] }
  Routine.remote id outcome fun answer a => { a with backups := effect answer a.backups }

/-- The backups without the one of this id. -/
def without (id : String) (backups : List Backup) : List Backup := backups.filter (·.id ≠ id)

/-- `sorted(existing, key=lambda b: b.created_at or "")`. -/
def oldestFirst (backups : List Backup) : List Backup :=
  backups.mergeSort fun a b => decide (a.createdAt.getD "" ≤ b.createdAt.getD "")

/-- The backups that are deleted to make room for another. -/
def oldest (existing : List Backup) : List Backup :=
  if keepPanelBackups ≤ existing.length then
    (oldestFirst existing).take (existing.length - keepPanelBackups + 1)
  else []

/-- Either way of deleting a backup. -/
def deleteOne {old : List Backup} (answers : Answers old) (backup : Backup) :
    Routine Account String PUnit := do
  let id := backup.id
  match ← (order (.deleteBackup id) (answers.deleteBackup id) fun _ => without id).attempt with
  | .ok _ => pure ⟨⟩
  -- the server's archives sit in the home folder as plain files
  | .error _ => order (.deletePath id) (answers.deletePath id) fun _ => without id

/-- The calls of `_panel_backup`. -/
def takeBackup {old : List Backup} (answers : Answers old) : Routine Account String PUnit := do
  let kinds ← ask .backupOptions answers.backupOptions
  ask .listBackups answers.listBackups
  let existing ← Routine.read Account.backups
  (oldest existing).forM (deleteOne answers)
  let _ ← order (.createBackup (kinds.headD "full")) answers.createBackup List.cons
  pure ⟨⟩

/-- `_panel_backup`. -/
def panelBackup (stored : Stored) (answers : Answers stored.backups) (now : ℕ) :
    Account × Care × String :=
  match takeBackup answers { backups := stored.backups } with
  | (.error message, a) =>
    (a, { backupNote := clip 300 ("The last automatic backup did not run: " ++ message)
          lastBackupAt := some now }, "failed")
  | (.ok _, a) => (a, { backupNote := "", lastBackupAt := some now }, "ok")

/-! ### What a run is for -/

/-- `create_backup` was asked for. -/
def Created (a : Account) : Prop := ∃ kind, Call.createBackup kind ∈ a.asked

/-- The newest `KEEP_PANEL_BACKUPS` of the old backups and the new one. -/
def kept (old : List Backup) (made : Option Backup) : List Backup :=
  made.toList
    ++ (oldestFirst old).drop (old.length - (keepPanelBackups - made.toList.length))

/-- **After a run the account holds the newest backups**: these alone where a new one was made, and
    where it could not be made, every one that was there. -/
structure KeepsNewest {old : List Backup} (answers : Answers old) (a : Account) : Prop where
  made : Created a → ∀ new, answers.createBackup = .done new →
    ∀ b, b ∈ a.backups ↔ b ∈ kept old (some new)
  failed : Created a → (∀ new, answers.createBackup ≠ .done new) → ∀ b ∈ old, b ∈ a.backups
  stopped : ¬Created a → ∀ b ∈ kept old none, b ∈ a.backups

section

variable {old : List Backup}

/-- One of the two ways of deleting a backup succeeds. -/
def Deletable (answers : Answers old) (backup : Backup) : Prop :=
  answers.deleteBackup backup.id = .done () ∨ answers.deletePath backup.id = .done ()

/-- One of them is carried out, answered or not. -/
def Removed (answers : Answers old) (backup : Backup) : Prop :=
  (answers.deleteBackup backup.id).carriedOut = true
    ∨ (answers.deletePath backup.id).carriedOut = true

instance (answers : Answers old) (backup : Backup) : Decidable (Removed answers backup) :=
  inferInstanceAs (Decidable (_ ∨ _))

/-- Room was made for a backup that is then not taken: the account is full, nothing fails before
    the last of the oldest is deleted, that one goes, and then the run does not hear that it went,
    or `create_backup` fails. -/
structure Wasted (answers : Answers old) : Prop where
  full : keepPanelBackups ≤ old.length
  options : ∃ kinds, answers.backupOptions = .ok kinds
  listed : answers.listBackups = .ok ()
  deleted : ∀ b ∈ (oldest old).dropLast, Deletable answers b
  gone : ∀ b ∈ (oldest old).getLast?, Removed answers b
  refused : (∃ b ∈ (oldest old).getLast?, ¬Deletable answers b)
    ∨ ∀ new, answers.createBackup ≠ .done new

end

/-! ### The loop that makes room -/

/-- No backup is asked for. -/
def Quiet (calls : List Call) : Prop := ∀ kind, Call.createBackup kind ∉ calls

section

variable {old : List Backup} {answers : Answers old} {s : Account} {b : Backup}

@[simp] theorem ask_ok {α : Type} {call : Call} {a : α} :
    ask call (.ok a) s = (.ok a, { s with asked := s.asked ++ [call] }) := rfl

@[simp] theorem ask_error {α : Type} {call : Call} {message : String} :
    ask (α := α) call (.error message) s
      = (.error message, { s with asked := s.asked ++ [call] }) := rfl

section

variable {α : Type} {call : Call} {effect : α → List Backup → List Backup} {message : String}
  {a : α}

@[simp] theorem order_done :
    order call (.done a) effect s = (.ok a, ⟨effect a s.backups, s.asked ++ [call]⟩) := rfl

@[simp] theorem order_refused :
    order call (.refused message) effect s
      = (.error message, { s with asked := s.asked ++ [call] }) := rfl

@[simp] theorem order_lost :
    order call (.lost message a) effect s
      = (.error message, ⟨effect a s.backups, s.asked ++ [call]⟩) := rfl

end

/-- What is left of a list once a backup is gone from it, it is once. -/
@[simp] theorem without_without (id : String) (backups : List Backup) :
    without id (without id backups) = without id backups := by
  simp [without, List.filter_filter]

/-- A backup that can be deleted is. -/
theorem deleteOne_of_deletable (h : Deletable answers b) :
    ∃ calls, Quiet calls ∧ deleteOne answers b s
      = (.ok ⟨⟩, ⟨without b.id s.backups, s.asked ++ calls⟩) := by
  unfold deleteOne
  cases hdelete : answers.deleteBackup b.id with
  | done u =>
    refine ⟨[.deleteBackup b.id], fun kind => by simp, ?_⟩
    simp [Routine.bind_apply]
  | refused message =>
    -- the archive is deleted as a file instead
    have hpath : answers.deletePath b.id = .done () := h.resolve_left (by simp [hdelete])
    refine ⟨[.deleteBackup b.id, .deletePath b.id], fun kind => by simp, ?_⟩
    simp [Routine.bind_apply, hpath]
  | lost message u =>
    have hpath : answers.deletePath b.id = .done () := h.resolve_left (by simp [hdelete])
    refine ⟨[.deleteBackup b.id, .deletePath b.id], fun kind => by simp, ?_⟩
    simp [Routine.bind_apply, hpath]

/-- Where both ways fail the run stops, and the backup may be gone all the same. -/
theorem deleteOne_of_not (h : ¬Deletable answers b) :
    ∃ calls message, Quiet calls ∧ deleteOne answers b s = (.error message,
      ⟨if Removed answers b then without b.id s.backups else s.backups, s.asked ++ calls⟩) := by
  obtain ⟨hdelete, hpath⟩ := not_or.mp h
  cases hp : answers.deletePath b.id with
  | done u => exact absurd hp hpath
  | refused message | lost message u =>
    refine ⟨[.deleteBackup b.id, .deletePath b.id], message, fun kind => by simp, ?_⟩
    cases hd : answers.deleteBackup b.id with
    | done u => exact absurd hd hdelete
    | refused _ => simp [deleteOne, Routine.bind_apply, Removed, hd, hp, Outcome.carriedOut]
    | lost _ _ => simp [deleteOne, Routine.bind_apply, Removed, hd, hp, Outcome.carriedOut]

theorem Quiet.append {calls calls' : List Call} (h : Quiet calls) (h' : Quiet calls') :
    Quiet (calls ++ calls') := fun kind hmem =>
  (List.mem_append.mp hmem).elim (h kind) (h' kind)

/-- What is left once the backups of a list are deleted. -/
def withoutAll (backups gone : List Backup) : List Backup :=
  backups.filter fun b => b.id ∉ gone.map Backup.id

theorem mem_withoutAll {backups gone : List Backup} :
    b ∈ withoutAll backups gone ↔ b ∈ backups ∧ b.id ∉ gone.map Backup.id := by
  rw [withoutAll, List.mem_filter, decide_eq_true_iff]

@[simp] theorem withoutAll_nil (backups : List Backup) : withoutAll backups [] = backups :=
  List.filter_eq_self.mpr fun _ _ => decide_eq_true List.not_mem_nil

theorem withoutAll_cons (backups gone : List Backup) (b : Backup) :
    withoutAll (without b.id backups) gone = withoutAll backups (b :: gone) := by
  rw [withoutAll, withoutAll, without, List.filter_filter]
  refine List.filter_congr fun x _ => ?_
  by_cases hx : x.id = b.id <;> simp [hx]

/-- Backups that can all be deleted are. -/
theorem deleteAll_of_deletable {l : List Backup} (h : ∀ b ∈ l, Deletable answers b)
    (s : Account) : ∃ calls, Quiet calls ∧ l.forM (deleteOne answers) s
      = (.ok ⟨⟩, ⟨withoutAll s.backups l, s.asked ++ calls⟩) := by
  induction l generalizing s with
  | nil =>
    refine ⟨[], fun kind => by simp, ?_⟩
    show (_, s) = _
    rw [withoutAll_nil, List.append_nil]
  | cons b l ih =>
    obtain ⟨calls, hquiet, hone⟩ := deleteOne_of_deletable (s := s) (h b List.mem_cons_self)
    obtain ⟨calls', hquiet', hrest⟩ := ih (fun x hx => h x (List.mem_cons_of_mem _ hx))
      ⟨without b.id s.backups, s.asked ++ calls⟩
    refine ⟨calls ++ calls', hquiet.append hquiet', ?_⟩
    refine (Routine.bind_of_ok hone).trans ?_
    rw [hrest]
    simp only [withoutAll_cons, List.append_assoc]

/-- Where one cannot be deleted, the loop stops at it, and it is gone or not. -/
theorem deleteAll_of_not {l : List Backup} (h : ¬∀ b ∈ l, Deletable answers b) (s : Account) :
    ∃ calls message first b rest, Quiet calls ∧ l = first ++ b :: rest
      ∧ (∀ x ∈ first, Deletable answers x) ∧ ¬Deletable answers b
      ∧ l.forM (deleteOne answers) s = (.error message,
        ⟨withoutAll s.backups (first ++ if Removed answers b then [b] else []),
          s.asked ++ calls⟩) := by
  induction l generalizing s with
  | nil => exact absurd (fun b hb => absurd hb List.not_mem_nil) h
  | cons b l ih =>
    by_cases hb : Deletable answers b
    · obtain ⟨calls, hquiet, hone⟩ := deleteOne_of_deletable (s := s) hb
      have hrest : ¬∀ x ∈ l, Deletable answers x := fun hall =>
        h (List.forall_mem_cons.mpr ⟨hb, hall⟩)
      obtain ⟨calls', message, first, b', rest, hquiet', rfl, hfirst, hb', heq⟩ := ih hrest
        ⟨without b.id s.backups, s.asked ++ calls⟩
      refine ⟨calls ++ calls', message, b :: first, b', rest, hquiet.append hquiet', rfl,
        List.forall_mem_cons.mpr ⟨hb, hfirst⟩, hb', ?_⟩
      refine (Routine.bind_of_ok hone).trans ?_
      rw [heq]
      simp only [withoutAll_cons, List.append_assoc, List.cons_append]
    · obtain ⟨calls, message, hquiet, hone⟩ := deleteOne_of_not (s := s) hb
      refine ⟨calls, message, [], b, l, hquiet, rfl, nofun, hb, ?_⟩
      refine (Routine.bind_of_error hone).trans ?_
      by_cases hremoved : Removed answers b
      · rw [if_pos hremoved, if_pos hremoved, List.nil_append, ← withoutAll_cons, withoutAll_nil]
      · rw [if_neg hremoved, if_neg hremoved, List.nil_append, withoutAll_nil]

end

/-! ### The oldest and the newest -/

section

variable {old : List Backup} {b : Backup}

theorem oldestFirst_perm (old : List Backup) : (oldestFirst old).Perm old :=
  List.mergeSort_perm _ _

/-- A backup is among the first of the list if its id is. -/
theorem mem_take_iff (h : (old.map Backup.id).Nodup) (n : ℕ) (hb : b ∈ old) :
    b.id ∈ ((oldestFirst old).take n).map Backup.id ↔ b ∉ (oldestFirst old).drop n := by
  have hids : ((oldestFirst old).map Backup.id).Nodup :=
    ((oldestFirst_perm old).map Backup.id).nodup_iff.mpr h
  rw [← List.take_append_drop n (oldestFirst old), List.map_append, List.nodup_append] at hids
  constructor
  · intro htake hdrop
    exact hids.2.2 _ htake _ (List.mem_map_of_mem hdrop) rfl
  · intro hdrop
    have hmem : b ∈ oldestFirst old := (oldestFirst_perm old).mem_iff.mpr hb
    rw [← List.take_append_drop n (oldestFirst old)] at hmem
    exact List.mem_map_of_mem ((List.mem_append.mp hmem).resolve_right hdrop)

/-- Without the oldest, the newest are left. -/
theorem mem_withoutAll_take (h : (old.map Backup.id).Nodup) (n : ℕ) :
    b ∈ withoutAll old ((oldestFirst old).take n) ↔ b ∈ (oldestFirst old).drop n := by
  rw [mem_withoutAll]
  constructor
  · rintro ⟨hb, hout⟩
    exact Classical.byContradiction fun hdrop => hout ((mem_take_iff h n hb).mpr hdrop)
  · intro hdrop
    have hb : b ∈ old := (oldestFirst_perm old).mem_iff.mp (List.mem_of_mem_drop hdrop)
    exact ⟨hb, fun hin => (mem_take_iff h n hb).mp hin hdrop⟩

end

/-! ### A run and its calls -/

section

variable {old : List Backup} {answers : Answers old} {calls : List Call} {b : Backup}

theorem account_panelBackup (stored : Stored) (answers : Answers stored.backups) (now : ℕ) :
    (panelBackup stored answers now).1 = (takeBackup answers ⟨stored.backups, []⟩).2 := by
  unfold panelBackup
  split
  · next h => rw [h]
  · next h => rw [h]

theorem kept_subset {new : Option Backup} (h : b ∈ kept old new) : b ∈ new.toList ∨ b ∈ old := by
  refine (List.mem_append.mp h).imp_right fun hdrop => ?_
  exact (oldestFirst_perm old).mem_iff.mp (List.mem_of_mem_drop hdrop)

/-- A run that stopped before anything was deleted. -/
theorem KeepsNewest.of_untouched (h : Quiet calls) : KeepsNewest answers ⟨old, calls⟩ where
  made hcreated := absurd hcreated fun ⟨kind, hkind⟩ => h kind hkind
  failed hcreated := absurd hcreated fun ⟨kind, hkind⟩ => h kind hkind
  stopped _ _ hb := (kept_subset hb).resolve_left (by simp)

/-- A run that stopped while it made room: what it deleted is older than the newest. -/
theorem KeepsNewest.of_stopped (hids : (old.map Backup.id).Nodup) (h : Quiet calls) {j : ℕ}
    (hj : j < (oldest old).length) :
    KeepsNewest answers ⟨withoutAll old ((oldest old).take j), calls⟩ where
  made hcreated := absurd hcreated fun ⟨kind, hkind⟩ => h kind hkind
  failed hcreated := absurd hcreated fun ⟨kind, hkind⟩ => h kind hkind
  stopped _ b hb := by
    unfold oldest at hj ⊢
    split at hj
    · next hfull =>
      rw [if_pos hfull]
      rw [List.length_take] at hj
      have hkept : b ∈ (oldestFirst old).drop (old.length - keepPanelBackups) := by
        simpa [kept] using hb
      rw [List.take_take, Nat.min_eq_left (by omega), mem_withoutAll_take hids]
      exact List.drop_subset_drop_left _ (by omega) hkept
    · cases hj

/-- A run that made all the room and then stopped has lost one of the newest. -/
theorem not_keepsNewest_of_stopped (hfull : keepPanelBackups ≤ old.length) (h : Quiet calls) :
    ¬KeepsNewest answers ⟨withoutAll old (oldest old), calls⟩ := by
  intro hkeeps
  have hlen : old.length - keepPanelBackups < (oldestFirst old).length := by
    rw [(oldestFirst_perm old).length_eq]
    unfold keepPanelBackups at hfull ⊢
    omega
  -- the last that is deleted is the first that should stay
  have hkept : (oldestFirst old)[old.length - keepPanelBackups] ∈ kept old none := by
    refine List.mem_append_right _ ?_
    rw [Option.toList_none, List.length_nil, Nat.sub_zero, List.mem_drop_iff_getElem]
    exact ⟨0, by simpa using hlen, by simp⟩
  have hheld := hkeeps.stopped (fun ⟨kind, hkind⟩ => h kind hkind) _ hkept
  rw [oldest, if_pos hfull, mem_withoutAll] at hheld
  refine hheld.2 (List.mem_map_of_mem ?_)
  rw [List.mem_take_iff_getElem]
  exact ⟨old.length - keepPanelBackups, by omega, rfl⟩

/-- A run that took a backup holds it and the newest of the others. -/
theorem KeepsNewest.of_made (hids : (old.map Backup.id).Nodup) {new : Backup} {kind : String}
    (hcreated : .createBackup kind ∈ calls) (hnew : answers.createBackup = .done new) :
    KeepsNewest answers ⟨new :: withoutAll old (oldest old), calls⟩ where
  made _ new' hnew' b := by
    obtain rfl : new = new' := Outcome.done.inj (hnew.symm.trans hnew')
    simp only [kept, Option.toList_some, List.singleton_append, List.mem_cons]
    refine or_congr_right ?_
    unfold oldest
    split
    · next hfull =>
      rw [mem_withoutAll_take hids]
      have : old.length - keepPanelBackups + 1 = old.length - (keepPanelBackups - 1) := by
        unfold keepPanelBackups at hfull ⊢
        omega
      rw [this]
      rfl
    · next hfew =>
      -- there is room already
      have : old.length - (keepPanelBackups - 1) = 0 := by
        unfold keepPanelBackups at hfew ⊢
        omega
      rw [withoutAll_nil, List.length_singleton, this, List.drop_zero,
        (oldestFirst_perm old).mem_iff]
  failed _ herror := absurd hnew (herror new)
  stopped hnot := absurd ⟨kind, hcreated⟩ hnot

/-- A run whose backup was not taken, as far as it hears, has lost the oldest; whether the backup is
    there all the same makes no difference. -/
theorem keepsNewest_refused_iff {backups : List Backup} {kind : String}
    (hcreated : .createBackup kind ∈ calls) (hrefused : ∀ new, answers.createBackup ≠ .done new)
    (hold : ∀ b ∈ withoutAll old (oldest old), b ∈ backups)
    (hbackups : ∀ b ∈ backups, b ∈ old → b ∈ withoutAll old (oldest old)) :
    KeepsNewest answers ⟨backups, calls⟩ ↔ ¬keepPanelBackups ≤ old.length := by
  constructor
  · intro h hfull
    have hlen : 0 < (oldestFirst old).length := by
      rw [(oldestFirst_perm old).length_eq]
      exact lt_of_lt_of_le (by decide) hfull
    -- the first of the list was deleted
    have hfirst := (oldestFirst_perm old).mem_iff.mp (List.getElem_mem hlen)
    have hheld := hbackups _ (h.failed ⟨kind, hcreated⟩ hrefused _ hfirst) hfirst
    rw [oldest, if_pos hfull, mem_withoutAll] at hheld
    refine hheld.2 (List.mem_map_of_mem ?_)
    rw [List.mem_take_iff_getElem]
    exact ⟨0, by omega, rfl⟩
  · intro hfew
    rw [oldest, if_neg hfew, withoutAll_nil] at hold
    exact
      { made := fun _ new hnew => absurd hnew (hrefused new)
        failed := fun _ _ => hold
        stopped := fun hnot => absurd ⟨kind, hcreated⟩ hnot }

/-- The loop stopped at a backup that cannot be deleted: the newest are there unless it was the last
    of the oldest and is gone. -/
theorem keepsNewest_stopped_iff (hids : (old.map Backup.id).Nodup) (h : Quiet calls)
    {first rest : List Backup} (hsplit : oldest old = first ++ b :: rest)
    (hfirst : ∀ x ∈ first, Deletable answers x) (hb : ¬Deletable answers b) {kinds : List String}
    (hoptions : answers.backupOptions = .ok kinds) (hlisted : answers.listBackups = .ok ()) :
    KeepsNewest answers
        ⟨withoutAll old (first ++ if Removed answers b then [b] else []), calls⟩
      ↔ ¬Wasted answers := by
  have hlen : (oldest old).length = first.length + 1 + rest.length := by
    rw [hsplit, List.length_append, List.length_cons]
    omega
  by_cases hlast : rest = [] ∧ Removed answers b
  · obtain ⟨rfl, hremoved⟩ := hlast
    have hgetLast : (oldest old).getLast? = some b := by rw [hsplit, List.getLast?_concat]
    have hfull : keepPanelBackups ≤ old.length := by
      by_contra hfew
      rw [oldest, if_neg hfew] at hsplit
      exact List.cons_ne_nil b [] (List.append_eq_nil_iff.mp hsplit.symm).2
    rw [if_pos hremoved, ← hsplit]
    refine iff_of_false (not_keepsNewest_of_stopped hfull h) (not_not_intro ?_)
    refine ⟨hfull, ⟨kinds, hoptions⟩, hlisted, ?_, ?_, .inl ⟨b, hgetLast, hb⟩⟩
    · rw [hsplit, List.dropLast_concat]
      exact hfirst
    · rintro x hx
      rw [hgetLast] at hx
      exact Option.some.inj hx ▸ hremoved
  · -- fewer than all of the oldest are gone
    obtain ⟨j, hj, htake⟩ : ∃ j < (oldest old).length,
        first ++ (if Removed answers b then [b] else []) = (oldest old).take j := by
      by_cases hremoved : Removed answers b
      · have hrest : rest ≠ [] := fun hnil => hlast ⟨hnil, hremoved⟩
        have hpos := List.length_pos_iff.mpr hrest
        refine ⟨first.length + 1, by omega, ?_⟩
        rw [if_pos hremoved, hsplit, List.take_append, List.take_of_length_le (by omega)]
        simp
      · refine ⟨first.length, by omega, ?_⟩
        rw [if_neg hremoved, hsplit, List.append_nil, List.take_left']
        rfl
    rw [htake]
    refine iff_of_true (.of_stopped hids h hj) fun hwasted => ?_
    cases rest with
    | nil =>
      have hgetLast : (oldest old).getLast? = some b := by rw [hsplit, List.getLast?_concat]
      exact hlast ⟨rfl, hwasted.gone b hgetLast⟩
    | cons c rest =>
      refine hb (hwasted.deleted b ?_)
      rw [hsplit, List.dropLast_append_cons, List.dropLast_cons_cons]
      exact List.mem_append_right _ List.mem_cons_self

end

/-- **A run keeps the newest backups exactly if it did not waste the oldest**: it deletes them
    before it asks for the new one, so that they are gone where that is refused, or where the run
    stops because it did not hear that the last of them went. -/
theorem keepsNewest_iff (stored : Stored) (answers : Answers stored.backups) (now : ℕ) :
    KeepsNewest answers (panelBackup stored answers now).1 ↔ ¬Wasted answers := by
  obtain ⟨old, hids⟩ := stored
  rw [account_panelBackup]
  dsimp only at answers ⊢
  cases hoptions : answers.backupOptions with
  | error message =>
    have hrun : (takeBackup answers ⟨old, []⟩).2 = ⟨old, [.backupOptions]⟩ := by
      simp [takeBackup, Routine.bind_apply, hoptions]
    rw [hrun]
    refine iff_of_true (.of_untouched fun kind => by simp) fun hwasted => ?_
    obtain ⟨kinds, hkinds⟩ := hwasted.options
    rw [hoptions] at hkinds
    cases hkinds
  | ok kinds =>
    cases hlist : answers.listBackups with
    | error message =>
      have hrun : (takeBackup answers ⟨old, []⟩).2 = ⟨old, [.backupOptions, .listBackups]⟩ := by
        simp [takeBackup, Routine.bind_apply, hoptions, hlist]
      rw [hrun]
      refine iff_of_true (.of_untouched fun kind => by simp) fun hwasted => ?_
      rw [hwasted.listed] at hlist
      cases hlist
    | ok u =>
      -- both answered: the loop runs, and the new backup is asked for if it ends well
      have hrun : takeBackup answers ⟨old, []⟩
          = ((oldest old).forM (deleteOne answers) >>= fun _ =>
              order (.createBackup (kinds.headD "full")) answers.createBackup List.cons
                >>= fun _ => pure ⟨⟩) ⟨old, [.backupOptions, .listBackups]⟩ := by
        simp [takeBackup, Routine.bind_apply, hoptions, hlist]
      by_cases hall : ∀ b ∈ oldest old, Deletable answers b
      · obtain ⟨calls, hquiet, hloop⟩ :=
          deleteAll_of_deletable hall ⟨old, [.backupOptions, .listBackups]⟩
        rw [hrun, Routine.bind_of_ok hloop]
        have hwasted : (∀ new, answers.createBackup ≠ .done new) →
            (Wasted answers ↔ keepPanelBackups ≤ old.length) := by
          refine fun hrefused => ⟨Wasted.full, fun hfull => ?_⟩
          refine ⟨hfull, ⟨kinds, hoptions⟩, hlist, fun b hb => hall b (List.dropLast_subset _ hb),
            fun b hb => ?_, .inr hrefused⟩
          exact (hall b (List.mem_of_mem_getLast? hb)).imp (congrArg Outcome.carriedOut)
            (congrArg Outcome.carriedOut)
        cases hcreate : answers.createBackup with
        | done new =>
          simp only [Routine.bind_apply, order_done, Routine.pure_apply]
          refine iff_of_true (.of_made hids (List.mem_concat_self) hcreate) fun hwasted => ?_
          rcases hwasted.refused with ⟨b, hb, hnot⟩ | hrefused
          · exact hnot (hall b (List.mem_of_mem_getLast? hb))
          · exact hrefused new hcreate
        | refused message =>
          have hrefused : ∀ new, answers.createBackup ≠ .done new := by
            rw [hcreate]
            exact nofun
          simp only [Routine.bind_apply, order_refused]
          rw [keepsNewest_refused_iff List.mem_concat_self hrefused (fun _ hb => hb)
            (fun _ hb _ => hb), hwasted hrefused]
        | lost message new =>
          have hrefused : ∀ new, answers.createBackup ≠ .done new := by
            rw [hcreate]
            exact nofun
          simp only [Routine.bind_apply, order_lost]
          -- the new backup is there, and is none of the old ones
          have hfresh := answers.fresh new (by rw [hcreate]; rfl)
          rw [keepsNewest_refused_iff List.mem_concat_self hrefused
            (fun _ hb => List.mem_cons_of_mem _ hb) (fun b hb hold => ?_), hwasted hrefused]
          rcases List.mem_cons.mp hb with rfl | hb
          · exact absurd (List.mem_map_of_mem hold) hfresh
          · exact hb
      · obtain ⟨calls, message, first, b, rest, hquiet, hsplit, hfirst, hb, hloop⟩ :=
          deleteAll_of_not hall ⟨old, [.backupOptions, .listBackups]⟩
        rw [hrun, Routine.bind_of_error hloop]
        exact keepsNewest_stopped_iff hids (Quiet.append (fun kind => by simp) hquiet) hsplit hfirst
          hb hoptions hlist

/-- Three backups, one a day. -/
def threeBackups : List Backup :=
  [⟨"monday", some "2026-06-01"⟩, ⟨"tuesday", some "2026-06-02"⟩,
    ⟨"wednesday", some "2026-06-03"⟩]

private theorem threeBackups_nodup : (threeBackups.map Backup.id).Nodup := by decide

/-- A provider that deletes a backup, and then does not take another. -/
def createRefused : Answers threeBackups where
  backupOptions := .ok ["full"]
  listBackups := .ok ()
  deleteBackup _ := .done ()
  deletePath _ := .done ()
  createBackup := .refused "A backup is already running."
  fresh := nofun

/-- The oldest of three backups is deleted for one that is then not taken. -/
theorem not_keepsNewest :
    ¬KeepsNewest createRefused
      (panelBackup ⟨threeBackups, threeBackups_nodup⟩ createRefused 0).1 := by
  have hsorted : oldestFirst threeBackups = threeBackups :=
    List.mergeSort_of_pairwise (by decide +kernel)
  have holdest : oldest threeBackups = [⟨"monday", some "2026-06-01"⟩] := by
    rw [oldest, if_pos (by decide), hsorted]
    rfl
  have hrun : takeBackup createRefused ⟨threeBackups, []⟩
      = ((oldest threeBackups).forM (deleteOne createRefused) >>= fun _ =>
          order (.createBackup "full") createRefused.createBackup List.cons >>= fun _ => pure ⟨⟩)
        ⟨threeBackups, [.backupOptions, .listBackups]⟩ := rfl
  intro h
  rw [account_panelBackup, hrun, holdest] at h
  have hmonday := h.failed ⟨"full", by decide⟩ nofun
    ⟨"monday", some "2026-06-01"⟩ List.mem_cons_self
  exact absurd hmonday (by decide)

end WPanel.Hosting.PanelBackups
