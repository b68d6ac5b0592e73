import WPanel.Core
import WPanel.Lib.Machine
import WPanel.Lib.Routine
import Mathlib.Data.List.Perm.Subperm
import Mathlib.Data.List.Sort

namespace WPanel.Backups.Nightly

open WPanel.Lib

/-!
# The nightly backup of the panel

`make_backup` and `run_backup` of `core/management/commands/backup_panel.py`: the file is written,
the oldest files beyond `keep` are deleted, and only then is the new one read back.

* `BackupFile`, `makeBackup`, `runBackup` — the files of the folder, and one run;
* `nightly` — one run after the other, each file modified later than the last;
* `Retained` — as many whole backups are there as were made, or `keep` of them;
* `CostsNone` — a run whose own file cannot be read back leaves every whole file where it is;
* `PrunesFairly` — no whole file is deleted while an unreadable one stays;
* `retained_iff` — the runs keep the first two promises exactly when each of them does this;
* `not_retained` — with one file kept, one bad run deletes the only whole backup.
-/

/-! ### The folder -/

/-- A file `panel-<database>-<stamp>-full.bak.enc`. -/
structure BackupFile where
  /-- The second its name tells. -/
  stamp : ℕ
  /-- When it was last modified. -/
  mtime : ℕ
  /-- `verify_backup` finds it sound. -/
  whole : Bool
  deriving DecidableEq, Repr

/-- The first second from `moment` on that no name tells yet. -/
def freeMoment (taken : List ℕ) : ℕ → ℕ → ℕ
  | 0, moment => moment
  | fuel + 1, moment => if moment ∈ taken then freeMoment taken fuel (moment + 1) else moment

/-- `sorted(…, key=lambda p: p.stat().st_mtime)`. -/
def oldestFirst (folder : List BackupFile) : List BackupFile :=
  folder.mergeSort fun a b => a.mtime ≤ b.mtime

/-- Delete the oldest files beyond `keep`; 0 keeps all. -/
def prune (keep : ℕ) (folder : List BackupFile) : List BackupFile :=
  if keep = 0 then folder else (oldestFirst folder).drop (folder.length - keep)

/-- What a run finds: the time, when its file is modified, and whether that can be read back. -/
structure Run where
  moment : ℕ
  mtime : ℕ
  whole : Bool
  deriving DecidableEq, Repr

/-- The file a run writes. -/
def newFile (folder : List BackupFile) (run : Run) : BackupFile where
  stamp := freeMoment (folder.map BackupFile.stamp) (folder.length + 1) run.moment
  mtime := run.mtime
  whole := run.whole

/-- `make_backup`: a file of the same name would be written over. -/
def makeBackup (keep : ℕ) (run : Run) : Routine (List BackupFile) Err BackupFile := do
  let target ← Routine.read fun folder => newFile folder run
  Routine.change fun folder => folder.filter (·.stamp ≠ target.stamp) ++ [target]
  Routine.change (prune keep)
  return target

/-- `verify_backup`. -/
def verifyBackup (file : BackupFile) : Except Err Unit :=
  ensure (file.whole = true) (.unexpected "CommandError: the backup cannot be read back")

/-- `run_backup`, with no off-site storage set. -/
def runBackup (keep : ℕ) (run : Run) : Routine (List BackupFile) Err BackupFile := do
  let target ← makeBackup keep run
  Routine.check (verifyBackup target)
  return target

/-! ### Night after night -/

/-- The time of the last run, the folder, and how many whole backups were made so far. -/
structure Server where
  clock : ℕ := 0
  folder : List BackupFile := []
  made : ℕ := 0
  deriving DecidableEq

/-- A night: how long after the last run, what the clock of the panel says, and whether the file
    can be read back. -/
structure Night where
  wait : ℕ
  moment : ℕ
  whole : Bool
  deriving DecidableEq, Repr

/-- The run of a night: modification times increase. -/
def Server.runOf (s : Server) (night : Night) : Run where
  moment := night.moment
  mtime := s.clock + night.wait + 1
  whole := night.whole

/-- The server after a night, however its run ended. -/
def Server.after (keep : ℕ) (night : Night) (s : Server) : Server where
  clock := s.clock + night.wait + 1
  folder := (runBackup keep (s.runOf night) s.folder).2
  made := s.made + night.whole.toNat

/-- One nightly run after the other; what one raises stops only that run. -/
def nightly (keep : ℕ) : Machine Server Night PUnit Err where
  exec night s := .ok (s.after keep night, [])

/-- The whole backups of a folder. -/
def wholes (folder : List BackupFile) : ℕ := folder.countP (·.whole)

/-- **No backup is lost**: the folder holds every whole backup made so far, or `keep` of them. -/
def Retained (keep : ℕ) (s : Server) : Prop := min keep s.made ≤ wholes s.folder

/-- A run whose own file cannot be read back costs no older one. -/
def CostsNone (s : Server) (night : Night) (s' : Server) : Prop :=
  night.whole = false → ∀ file ∈ s.folder, file.whole = true → file ∈ s'.folder

/-- The files of a night, oldest first. -/
def Server.withNew (s : Server) (night : Night) : List BackupFile :=
  oldestFirst (s.folder ++ [newFile s.folder (s.runOf night)])

/-- No whole file is deleted while an unreadable one stays: those beyond `keep` are all
    unreadable, or the newest `keep` are all whole. -/
def PrunesFairly (keep : ℕ) (s : Server) (night : Night) : Prop :=
  (∀ file ∈ (s.withNew night).take (s.folder.length + 1 - keep), file.whole = false)
    ∨ ∀ file ∈ (s.withNew night).drop (s.folder.length + 1 - keep), file.whole = true

instance (keep : ℕ) (s : Server) : Decidable (Retained keep s) :=
  inferInstanceAs (Decidable (_ ≤ _))

instance (keep : ℕ) (s : Server) (night : Night) : Decidable (PrunesFairly keep s night) :=
  inferInstanceAs (Decidable (_ ∨ _))

/-! ### The name of the new file -/

/-- A free second is found before there are more seconds than files. -/
theorem freeMoment_not_mem (taken : List ℕ) (moment : ℕ) :
    freeMoment taken (taken.length + 1) moment ∉ taken := by
  -- where it is not, every second looked at is taken
  have hall : ∀ fuel moment, freeMoment taken fuel moment ∈ taken →
      ∀ k < fuel, moment + k ∈ taken := by
    intro fuel
    induction fuel with
    | zero => exact fun _ _ k hk => absurd hk (Nat.not_lt_zero k)
    | succ fuel ih =>
      intro moment h k hk
      rw [freeMoment] at h
      split at h
      · next hmem =>
        cases k with
        | zero => exact hmem
        | succ k =>
          have hnext := ih (moment + 1) h k (by omega)
          rwa [show moment + 1 + k = moment + (k + 1) by omega] at hnext
      · next hfree => exact absurd h hfree
  intro h
  have hsub : (List.range' moment (taken.length + 1)) ⊆ taken := by
    intro n hn
    rw [List.mem_range'_1] at hn
    obtain ⟨k, rfl⟩ := Nat.exists_eq_add_of_le hn.1
    exact hall _ moment h k (by omega)
  have hle := (List.subperm_of_subset (List.nodup_range' 1) hsub).length_le
  rw [List.length_range'] at hle
  omega

/-- No file is written over. -/
theorem filter_newFile (folder : List BackupFile) (run : Run) :
    folder.filter (·.stamp ≠ (newFile folder run).stamp) = folder := by
  refine List.filter_eq_self.mpr fun file hfile => decide_eq_true fun heq => ?_
  have hfree := freeMoment_not_mem (folder.map BackupFile.stamp) run.moment
  rw [List.length_map] at hfree
  exact hfree (List.mem_map.mpr ⟨file, hfile, heq⟩)

/-- What a run leaves, however it ends. -/
theorem folder_runBackup (keep : ℕ) (run : Run) (folder : List BackupFile) :
    (runBackup keep run folder).2 = prune keep (folder ++ [newFile folder run]) := by
  have hmake : makeBackup keep run folder
      = (.ok (newFile folder run), prune keep (folder ++ [newFile folder run])) := by
    simp only [makeBackup, Routine.bind_apply, Routine.read_apply, Routine.change_apply,
      Routine.pure_apply, filter_newFile]
  unfold runBackup
  rw [Routine.bind_of_ok hmake]
  cases verifyBackup (newFile folder run) <;> rfl

/-! ### One night -/

/-- Between two runs: the files are in the order of their times, there are no more than `keep`,
    none is whole that was not made so, and no backup is lost. -/
structure InOrder (keep : ℕ) (s : Server) : Prop where
  sorted : s.folder.Pairwise fun a b => a.mtime ≤ b.mtime
  past : ∀ file ∈ s.folder, file.mtime ≤ s.clock
  few : s.folder.length ≤ keep
  counted : wholes s.folder ≤ s.made
  retained : Retained keep s

theorem inOrder_empty (keep : ℕ) : InOrder keep {} :=
  ⟨List.Pairwise.nil, by simp, Nat.zero_le _, Nat.zero_le _, by simp [Retained]⟩

section

variable {keep : ℕ} {s s' : Server} {night : Night}

/-- The new file is the newest. -/
theorem InOrder.withNew (h : InOrder keep s) (night : Night) :
    s.withNew night = s.folder ++ [newFile s.folder (s.runOf night)] := by
  refine List.mergeSort_of_pairwise ?_
  rw [List.pairwise_append]
  refine ⟨h.sorted.imp fun hab => decide_eq_true hab, List.pairwise_singleton _ _, ?_⟩
  intro file hfile new hnew
  obtain rfl := List.mem_singleton.mp hnew
  have hpast := h.past file hfile
  exact decide_eq_true (show file.mtime ≤ s.clock + night.wait + 1 by omega)

/-- The folder after a night. -/
theorem folder_after (hkeep : 1 ≤ keep) (s : Server) (night : Night) :
    (s.after keep night).folder = (s.withNew night).drop (s.folder.length + 1 - keep) := by
  show (runBackup keep (s.runOf night) s.folder).2 = _
  rw [folder_runBackup, prune, if_neg (by omega), List.length_append, List.length_singleton]
  rfl

/-- What is deleted and what stays are the whole files there were, and the new one. -/
theorem InOrder.wholes_withNew (h : InOrder keep s) (night : Night) (n : ℕ) :
    wholes ((s.withNew night).take n) + wholes ((s.withNew night).drop n)
      = wholes s.folder + night.whole.toNat := by
  rw [wholes, wholes, ← List.countP_append, List.take_append_drop, h.withNew,
    List.countP_append, List.countP_singleton]
  show _ + (if night.whole = true then 1 else 0) = _
  cases night.whole <;> rfl

theorem InOrder.length_withNew (h : InOrder keep s) (night : Night) :
    (s.withNew night).length = s.folder.length + 1 := by
  rw [h.withNew, List.length_append, List.length_singleton]

/-- **A night that prunes fairly keeps the order**, and loses no backup. -/
theorem InOrder.after (hkeep : 1 ≤ keep) (h : InOrder keep s) (hfair : PrunesFairly keep s night) :
    InOrder keep (s.after keep night) := by
  have hfolder := folder_after hkeep s night
  have hsplit := h.wholes_withNew night (s.folder.length + 1 - keep)
  have hlength := h.length_withNew night
  have hretained : min keep s.made ≤ wholes s.folder := h.retained
  constructor
  · rw [hfolder]
    have hsorted : (s.withNew night).Pairwise fun a b => a.mtime ≤ b.mtime := by
      refine (List.pairwise_mergeSort ?_ ?_ _).imp fun hab => of_decide_eq_true hab
      · intro a b c hab hbc
        rw [decide_eq_true_eq] at *
        omega
      · intro a b
        rw [Bool.or_eq_true, decide_eq_true_eq, decide_eq_true_eq]
        omega
    exact hsorted.sublist (List.drop_sublist _ _)
  · intro file hfile
    rw [hfolder] at hfile
    have hmem := List.mem_of_mem_drop hfile
    rw [h.withNew, List.mem_append, List.mem_singleton] at hmem
    show file.mtime ≤ s.clock + night.wait + 1
    rcases hmem with hold | rfl
    · have := h.past file hold
      omega
    · exact Nat.le_refl _
  · rw [hfolder, List.length_drop, hlength]
    omega
  · show wholes (s.after keep night).folder ≤ s.made + night.whole.toNat
    rw [hfolder]
    have := h.counted
    omega
  · show min keep (s.made + night.whole.toNat) ≤ wholes (s.after keep night).folder
    rw [hfolder]
    rcases hfair with hgone | hkept
    · -- nothing whole is deleted
      have hzero : wholes ((s.withNew night).take (s.folder.length + 1 - keep)) = 0 :=
        List.countP_eq_zero.mpr fun file hfile => by simp [hgone file hfile]
      omega
    · by_cases hnone : s.folder.length + 1 - keep = 0
      · rw [hnone] at hsplit ⊢
        have hzero : wholes ((s.withNew night).take 0) = 0 := rfl
        omega
      · -- all that stays is whole, and that is `keep` files
        have hall : wholes ((s.withNew night).drop (s.folder.length + 1 - keep))
            = ((s.withNew night).drop (s.folder.length + 1 - keep)).length :=
          List.countP_eq_length.mpr hkept
        rw [List.length_drop, hlength] at hall
        omega

/-- A night that loses no backup prunes fairly. -/
theorem InOrder.fair_of_retained (hkeep : 1 ≤ keep) (h : InOrder keep s)
    (hretained : Retained keep (s.after keep night)) : PrunesFairly keep s night := by
  by_contra hunfair
  simp only [PrunesFairly, not_or, not_forall] at hunfair
  obtain ⟨⟨gone, hgone, hwhole⟩, kept, hkept, hbad⟩ := hunfair
  have hsplit := h.wholes_withNew night (s.folder.length + 1 - keep)
  have hone : 0 < wholes ((s.withNew night).take (s.folder.length + 1 - keep)) :=
    List.countP_pos_iff.mpr ⟨gone, hgone, by simpa using hwhole⟩
  have hfew : wholes ((s.withNew night).drop (s.folder.length + 1 - keep))
      < ((s.withNew night).drop (s.folder.length + 1 - keep)).length := by
    refine Nat.lt_of_le_of_ne List.countP_le_length fun hall => hbad ?_
    exact List.countP_eq_length.mp hall kept hkept
  rw [List.length_drop, h.length_withNew night] at hfew
  have hcounted := h.counted
  have hmin : min keep (s.made + night.whole.toNat) ≤ wholes (s.after keep night).folder :=
    hretained
  rw [folder_after hkeep] at hmin
  omega

/-- A fair night whose own file cannot be read back costs no older one. -/
theorem InOrder.costsNone (hkeep : 1 ≤ keep) (h : InOrder keep s)
    (hfair : PrunesFairly keep s night) : CostsNone s night (s.after keep night) := by
  intro hnight file hfile hwhole
  rw [folder_after hkeep]
  have hmem : file ∈ s.withNew night := by
    rw [h.withNew]
    exact List.mem_append_left _ hfile
  rw [← List.take_append_drop (s.folder.length + 1 - keep) (s.withNew night),
    List.mem_append] at hmem
  refine hmem.resolve_left fun htake => ?_
  rcases hfair with hgone | hkept
  · rw [hgone file htake] at hwhole
    cases hwhole
  · -- the new file stays, and is not whole
    have hnew : newFile s.folder (s.runOf night)
        ∈ (s.withNew night).drop (s.folder.length + 1 - keep) := by
      rw [h.withNew, List.drop_append_of_le_length (by omega)]
      exact List.mem_append_right _ List.mem_cons_self
    have hbad := hkept _ hnew
    rw [show (newFile s.folder (s.runOf night)).whole = night.whole from rfl, hnight] at hbad
    cases hbad

theorem eq_after {out : List PUnit} (h : (nightly keep).Commits night s s' out) :
    s' = s.after keep night := (Prod.mk.inj (Except.ok.inj h)).1.symm

end

/-- **The nightly runs lose no backup exactly when each prunes fairly**: from an empty folder, in
    any order of good and bad runs, as many whole backups are there as were made or `keep` of
    them, and a bad run costs none, exactly when no run deletes a whole file while an unreadable
    one stays. -/
theorem retained_iff (keep : ℕ) (hkeep : 1 ≤ keep) (nights : List Night) :
    (nightly keep).Always (Retained keep) nights {} ∧ (nightly keep).EachStep CostsNone nights {}
      ↔ (nightly keep).EachStep (fun s night _ => PrunesFairly keep s night) nights {} := by
  have hgood : ∀ night s s' out, InOrder keep s → (nightly keep).Commits night s s' out →
      PrunesFairly keep s night → InOrder keep s' := by
    intro night s s' out h hcommits hfair
    rw [eq_after hcommits]
    exact h.after hkeep hfair
  have hiff := Machine.always_iff_eachStep (m := nightly keep) (I := InOrder keep)
    (P := Retained keep) (R := fun s night _ => PrunesFairly keep s night)
    (fun _ h => h.retained) hgood
    (fun night s s' out h hcommits hretained =>
      h.fair_of_retained hkeep (eq_after hcommits ▸ hretained)) nights {} (inOrder_empty keep)
  refine ⟨fun h => hiff.mp h.1, fun h => ⟨hiff.mpr h, ?_⟩⟩
  refine Machine.eachStep_of_eachStep (I := InOrder keep) hgood ?_ nights {} (inOrder_empty keep) h
  intro night s s' out hs hcommits hfair
  rw [eq_after hcommits]
  exact hs.costsNone hkeep hfair

/-- Three good runs and a bad one. -/
def fourNights : List Night := [⟨0, 0, true⟩, ⟨0, 0, true⟩, ⟨0, 0, true⟩, ⟨0, 0, false⟩]

/-- With two files kept, the third run deletes the first file, and the fourth the second. -/
theorem retained_iff_fourNights :
    (nightly 2).Always (Retained 2) fourNights {} ∧ (nightly 2).EachStep CostsNone fourNights {}
      ↔ (nightly 2).EachStep (fun s night _ => PrunesFairly 2 s night) fourNights {} :=
  retained_iff 2 (by decide) fourNights

/-- **A bad run costs the only whole backup**: with one file kept it is deleted before the new one
    is read back. -/
theorem not_retained :
    ¬((nightly 1).Always (Retained 1) [⟨0, 0, true⟩, ⟨0, 0, false⟩] {}
      ∧ (nightly 1).EachStep CostsNone [⟨0, 0, true⟩, ⟨0, 0, false⟩] {}) := by
  rintro ⟨h, -⟩
  have hlast : Retained 1 ((({} : Server).after 1 ⟨0, 0, true⟩).after 1 ⟨0, 0, false⟩) := h.last
  have hfirst : InOrder 1 (({} : Server).after 1 ⟨0, 0, true⟩) :=
    (inOrder_empty 1).after (by decide) (.inl fun file hfile => absurd hfile (by simp))
  have hfolder : (({} : Server).after 1 ⟨0, 0, true⟩).folder = [⟨0, 1, true⟩] := by
    rw [folder_after (by decide), (inOrder_empty 1).withNew]
    rfl
  have hfair := hfirst.fair_of_retained (by decide) hlast
  rw [PrunesFairly, hfirst.withNew, hfolder] at hfair
  revert hfair
  decide

end WPanel.Backups.Nightly
