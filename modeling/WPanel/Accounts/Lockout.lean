import WPanel.Core
import WPanel.Lib.Interleaving

namespace WPanel.Accounts

open WPanel.Lib

/-!
# Locking out guesses

`is_locked_out` and `register_failed_attempt` of `accounts/services.py`.  The counter of wrong
tries and the lock are two keys of the cache, whose operations are atomic one by one: the counter
is read, and written back one higher, in two of them.

* `lockKeys`, `isLockedOut`, `Attempt` — the two keys, the look at the lock, and a failing
  attempt operation by operation;
* `guessing` — any number of failing attempts on one subject, in any order, while the rest of the
  cache changes;
* `Guarded` — until the subject is locked no more than the threshold of tries have been
  completed, and the counter shows every try that was written to it;
* `CountsAlone` — the counter is not read while another attempt has read it and not yet written
  it back;
* `guarded_of_countsAlone` — a run that keeps to this is guarded;
* `not_guarded` — six attempts that read the counter together count as one.
-/

/-- A value under each key of the cache; `True` is the number 1. -/
abbrev Cache := String → Option ℕ

/-- `cache.set(key, value)`, or `cache.delete(key)` for no value. -/
def Cache.write (cache : Cache) (key : String) (value : Option ℕ) : Cache :=
  fun k => if k = key then value else cache k

@[simp] theorem Cache.write_self (cache : Cache) (key : String) (value : Option ℕ) :
    cache.write key value key = value := if_pos rfl

theorem Cache.write_of_ne {cache : Cache} {key k : String} {value : Option ℕ} (h : k ≠ key) :
    cache.write key value k = cache k := if_neg h

/-! ### The lock -/

/-- How many wrong tries lock a subject. -/
def LOGIN_LOCK_THRESHOLD : ℕ := 5

/-- `_lock_keys`: the key of the counter, and of the lock. -/
def lockKeys (scope subject : String) : String × String :=
  ("lockout:" ++ scope ++ ":attempts:" ++ lower (strip subject),
    "lockout:" ++ scope ++ ":locked:" ++ lower (strip subject))

theorem lockKeys_ne (scope subject : String) :
    (lockKeys scope subject).1 ≠ (lockKeys scope subject).2 := by
  intro h
  have hlength := congrArg String.length h
  simp only [lockKeys, String.length_append] at hlength
  have hattempts : ":attempts:".length = 10 := rfl
  have hlocked : ":locked:".length = 8 := rfl
  omega

/-- `is_locked_out`. -/
def isLockedOut (scope subject : String) (cache : Cache) : Bool :=
  (cache (lockKeys scope subject).2).getD 0 != 0

/-- The wrong tries the counter shows. -/
def attempts (scope subject : String) (cache : Cache) : ℕ :=
  (cache (lockKeys scope subject).1).getD 0

/-- How far a failing attempt has come. -/
inductive Attempt.Phase where
  /-- It has not looked at the lock. -/
  | begun
  /-- The subject was not locked: the secret is checked, and is wrong. -/
  | checking
  /-- It has read the counter, and added one. -/
  | counted (count : ℕ)
  /-- It has written the counter back. -/
  | stored (count : ℕ)
  /-- It has locked the subject. -/
  | locked (count : ℕ)
  /-- `register_failed_attempt` has returned. -/
  | completed (count : ℕ) (justLocked : Bool)
  /-- The subject was locked. -/
  | refused
  deriving DecidableEq, Repr

/-- A failing attempt, with the subject as it was typed. -/
structure Attempt where
  subject : String
  phase : Attempt.Phase := .begun
  deriving DecidableEq, Repr

/-- The next cache operation of an attempt: `is_locked_out`, and then, when the secret was wrong,
    `register_failed_attempt`. -/
def Attempt.next (threshold : ℕ) (scope : String) (cache : Cache) (t : Attempt) :
    Except Err (Cache × Attempt) :=
  let keys := lockKeys scope t.subject
  match t.phase with
  | .begun =>
    if isLockedOut scope t.subject cache then pure (cache, { t with phase := .refused })
    else pure (cache, { t with phase := .checking })
  | .checking => pure (cache, { t with phase := .counted ((cache keys.1).getD 0 + 1) })
  | .counted count => pure (cache.write keys.1 (some count), { t with phase := .stored count })
  | .stored count =>
    if threshold ≤ count then
      pure (cache.write keys.2 (some 1), { t with phase := .locked count })
    else pure (cache, { t with phase := .completed count false })
  | .locked count => pure (cache.write keys.1 none, { t with phase := .completed count true })
  | .completed _ _ => throw (.unexpected "the attempt is over")
  | .refused => throw (.unexpected "the attempt is over")

/-- Failing attempts on one subject, however it is typed, while other keys of the cache change. -/
def guessing (threshold : ℕ) (scope subject : String) :
    Interleaving Cache Attempt String Unit (String × Option ℕ) Err where
  start typed cache := do
    ensure (lockKeys scope typed = lockKeys scope subject) (.unexpected "another subject")
    return (cache, { subject := typed })
  step _ cache t := t.next threshold scope cache
  outside write cache := do
    ensure (write.1 ≠ (lockKeys scope subject).1 ∧ write.1 ≠ (lockKeys scope subject).2)
      (.unexpected "a key of this subject")
    return cache.write write.1 write.2
  absent := .unexpected "there is no such attempt"

/-! ### What is counted -/

/-- The count an attempt has written. -/
def Attempt.written (t : Attempt) : Option ℕ :=
  match t.phase with
  | .stored count => some count
  | .locked count => some count
  | .completed count _ => some count
  | _ => none

/-- `register_failed_attempt` has returned. -/
def Attempt.isCompleted (t : Attempt) : Bool :=
  match t.phase with
  | .completed _ _ => true
  | _ => false

/-- The count an attempt has read and is about to write. -/
def Attempt.pending (t : Attempt) : Option ℕ :=
  match t.phase with
  | .counted count => some count
  | _ => none

/-- Until the subject is locked no more than the threshold of tries have been completed, and no
    try that was written is lost from the counter. -/
def Guarded (threshold : ℕ) (scope subject : String) (s : System Cache Attempt) : Prop :=
  isLockedOut scope subject s.shared = false →
    s.workers.count Attempt.isCompleted ≤ threshold
      ∧ s.workers.count (·.written.isSome) = attempts scope subject s.shared

instance (threshold : ℕ) (scope subject : String) (s : System Cache Attempt) :
    Decidable (Guarded threshold scope subject s) :=
  inferInstanceAs (Decidable (_ → _))

/-- The counter is not read while another attempt has read it and not yet written it back. -/
def CountsAlone : Discipline Cache Attempt Unit (String × Option ℕ) where
  step _ t _ other := t.phase = .checking → other.pending = none
  outside _ _ _ := True

instance (cache : Cache) (t : Attempt) (a : Unit) (other : Attempt) :
    Decidable (CountsAlone.step cache t a other) :=
  inferInstanceAs (Decidable (_ → _))

instance (cache : Cache) (write : String × Option ℕ) (other : Attempt) :
    Decidable (CountsAlone.outside cache write other) := isTrue trivial

/-! ### Why the counter is right -/

/-- What an operation of an attempt does. -/
inductive Attempt.Did (threshold : ℕ) (scope : String) :
    Attempt → Cache → Cache → Attempt → Prop
  | looked {cache : Cache} {t : Attempt} {phase : Attempt.Phase} :
      t.phase = .begun → phase = .refused ∨ phase = .checking →
      Did threshold scope t cache cache { t with phase }
  | counted {cache : Cache} {t : Attempt} : t.phase = .checking →
      Did threshold scope t cache cache
        { t with phase := .counted (attempts scope t.subject cache + 1) }
  | stored {cache : Cache} {t : Attempt} {count : ℕ} : t.phase = .counted count →
      Did threshold scope t cache (cache.write (lockKeys scope t.subject).1 (some count))
        { t with phase := .stored count }
  | locked {cache : Cache} {t : Attempt} {count : ℕ} : t.phase = .stored count →
      Did threshold scope t cache (cache.write (lockKeys scope t.subject).2 (some 1))
        { t with phase := .locked count }
  | completed {cache : Cache} {t : Attempt} {count : ℕ} : t.phase = .stored count →
      count < threshold → Did threshold scope t cache cache
        { t with phase := .completed count false }
  | forgot {cache : Cache} {t : Attempt} {count : ℕ} : t.phase = .locked count →
      Did threshold scope t cache (cache.write (lockKeys scope t.subject).1 none)
        { t with phase := .completed count true }

section

variable {threshold : ℕ} {scope subject : String} {cache cache' : Cache} {t t' : Attempt}

theorem Attempt.did (h : t.next threshold scope cache = .ok (cache', t')) :
    t.Did threshold scope cache cache' t' := by
  unfold Attempt.next at h
  split at h
  · next hphase =>
    split at h
    · cases (pure_eq_ok _ _).mp h
      exact .looked hphase (.inl rfl)
    · cases (pure_eq_ok _ _).mp h
      exact .looked hphase (.inr rfl)
  · next hphase =>
    cases (pure_eq_ok _ _).mp h
    exact .counted hphase
  · next hphase =>
    cases (pure_eq_ok _ _).mp h
    exact .stored hphase
  · next count hphase =>
    split at h
    · cases (pure_eq_ok _ _).mp h
      exact .locked hphase
    · next hbelow =>
      cases (pure_eq_ok _ _).mp h
      exact .completed hphase (Nat.lt_of_not_le hbelow)
  · next hphase =>
    cases (pure_eq_ok _ _).mp h
    exact .forgot hphase
  · cases h
  · cases h

/-- An attempt that has written a count below the threshold. -/
def Attempt.isBelow (threshold : ℕ) (t : Attempt) : Bool := t.written.any (· < threshold)

/-- The counting so far: what was written is what the counter shows, one attempt at most is about
    to write the next count, and who has completed was below the threshold. -/
structure Tally (threshold : ℕ) (scope subject : String) (s : System Cache Attempt) : Prop where
  written : s.workers.count (·.written.isSome) = attempts scope subject s.shared
  below : s.workers.count (Attempt.isBelow threshold)
    = min (attempts scope subject s.shared) (threshold - 1)
  pending : s.workers.Forall fun _ t =>
    ∀ count ∈ t.pending, count = attempts scope subject s.shared + 1
  alone : s.workers.AtMostOne (·.pending.isSome)
  completed : s.workers.Forall fun _ t => t.isCompleted = true → t.isBelow threshold = true
  unlocked : s.workers.Forall fun _ t => ∀ count, t.phase ≠ .locked count

section

variable {s : System Cache Attempt} {i : ℕ}

/-- A step that writes no count. -/
private theorem Tally.of_unwritten (h : Tally threshold scope subject s)
    (hget : s.workers.get? i = some t) (hwritten : t'.written = t.written)
    (hpending : ∀ count ∈ t'.pending, count = attempts scope subject s.shared + 1
      ∧ ∀ j other, j ≠ i → s.workers.get? j = some other → other.pending = none)
    (hcompleted : t'.isCompleted = true → t'.isBelow threshold = true)
    (hunlocked : ∀ count, t'.phase ≠ .locked count) :
    Tally threshold scope subject ⟨s.shared, s.workers.put i t'⟩ where
  written := (Table.count_put_same hget (by rw [hwritten])).trans h.written
  below := by
    refine (Table.count_put_same hget ?_).trans h.below
    rw [Attempt.isBelow, Attempt.isBelow, hwritten]
  pending := h.pending.put fun count hcount => (hpending count hcount).1
  alone := h.alone.put hget fun hsome => .inr fun j other hj hother => by
    rw [(hpending _ (Option.get_mem hsome)).2 j other hj hother]
    rfl
  completed := h.completed.put hcompleted
  unlocked := h.unlocked.put hunlocked

/-- The step that writes the next count. -/
private theorem Tally.of_stored {count : ℕ} (h : Tally threshold scope subject s)
    (hget : s.workers.get? i = some t) (hphase : t.phase = .counted count) :
    Tally threshold scope subject
      ⟨s.shared.write (lockKeys scope subject).1 (some count),
        s.workers.put i { t with phase := .stored count }⟩ := by
  have hpending : t.pending = some count := by rw [Attempt.pending, hphase]
  have hcount : count = attempts scope subject s.shared + 1 := h.pending i t hget count hpending
  have hunwritten : t.written = none := by rw [Attempt.written, hphase]
  have hattempts : attempts scope subject
      (s.shared.write (lockKeys scope subject).1 (some count)) = count := by
    rw [attempts, Cache.write_self]
    rfl
  constructor
  · show (s.workers.put i _).count _ = attempts scope subject _
    rw [hattempts, Table.count_put_succ hget (by rw [hunwritten]; rfl) rfl, h.written, hcount]
  · show (s.workers.put i _).count _ = min (attempts scope subject _) _
    rw [hattempts]
    have hbelow := h.below
    have hold : t.isBelow threshold = false := by rw [Attempt.isBelow, hunwritten]; rfl
    have hnew : Attempt.isBelow threshold { t with phase := .stored count }
        = decide (count < threshold) := rfl
    by_cases hlt : count < threshold
    · rw [Table.count_put_succ hget hold (hnew.trans (decide_eq_true hlt)), hbelow]
      omega
    · rw [Table.count_put_same hget (by rw [hold, hnew]; exact decide_eq_false hlt), hbelow]
      omega
  · -- nobody else was about to write
    intro j other hother c hc
    rw [Table.get?_put hget] at hother
    split at hother
    · cases hother
      cases hc
    · next hj =>
      have hnone := h.alone.others hget (by rw [hpending]; rfl) j other hj hother
      rw [Option.mem_def.mp hc] at hnone
      cases hnone
  · exact h.alone.put hget nofun
  · exact h.completed.put nofun
  · exact h.unlocked.put nofun

/-- **One step keeps the count right**, or locks the subject. -/
theorem Tally.did (h : Tally threshold scope subject s) (hget : s.workers.get? i = some t)
    (hkeys : lockKeys scope t.subject = lockKeys scope subject)
    (hdid : t.Did threshold scope s.shared cache' t')
    (halone : ∀ j other, j ≠ i → s.workers.get? j = some other →
      t.phase = .checking → other.pending = none) :
    isLockedOut scope subject cache' = true
      ∨ Tally threshold scope subject ⟨cache', s.workers.put i t'⟩ := by
  cases hdid with
  | @looked _ _ phase hphase hnew =>
    right
    refine h.of_unwritten hget ?_ ?_ ?_ ?_ <;> rcases hnew with rfl | rfl
    · simp only [Attempt.written, hphase]
    · simp only [Attempt.written, hphase]
    · exact nofun
    · exact nofun
    · exact nofun
    · exact nofun
    · exact nofun
    · exact nofun
  | counted hphase =>
    right
    refine h.of_unwritten hget ?_ ?_ nofun nofun
    · simp only [Attempt.written, hphase]
    · intro count hcount
      cases hcount
      refine ⟨?_, fun j other hj hother => halone j other hj hother hphase⟩
      rw [attempts, attempts, hkeys]
  | stored hphase =>
    right
    rw [hkeys]
    exact h.of_stored hget hphase
  | locked hphase =>
    left
    rw [isLockedOut, hkeys, Cache.write_self]
    rfl
  | @completed _ _ count hphase hlt =>
    right
    refine h.of_unwritten hget ?_ nofun ?_ nofun
    · simp only [Attempt.written, hphase]
    · exact fun _ => decide_eq_true hlt
  | forgot hphase => exact absurd hphase (h.unlocked i t hget _)

/-- A lock stays, whatever an attempt does. -/
theorem isLockedOut_of_did (h : isLockedOut scope subject cache = true)
    (hkeys : lockKeys scope t.subject = lockKeys scope subject)
    (hdid : t.Did threshold scope cache cache' t') : isLockedOut scope subject cache' = true := by
  have hcounter : ∀ value, isLockedOut scope subject
      (cache.write (lockKeys scope subject).1 value) = true := fun value => by
    rw [isLockedOut, Cache.write_of_ne (lockKeys_ne scope subject).symm]
    exact h
  cases hdid with
  | looked _ _ => exact h
  | counted _ => exact h
  | stored _ =>
    rw [hkeys]
    exact hcounter _
  | locked _ =>
    rw [isLockedOut, hkeys, Cache.write_self]
    rfl
  | completed _ _ => exact h
  | forgot _ =>
    rw [hkeys]
    exact hcounter _

end

/-- All attempts are on one subject, which is locked, or the count is right. -/
structure Counting (threshold : ℕ) (scope subject : String) (s : System Cache Attempt) : Prop where
  keys : s.workers.Forall fun _ t => lockKeys scope t.subject = lockKeys scope subject
  tally : isLockedOut scope subject s.shared = true ∨ Tally threshold scope subject s

variable {s s' : System Cache Attempt} {out : List PUnit}

theorem Counting.guarded (h : Counting threshold scope subject s) :
    Guarded threshold scope subject s := by
  intro hopen
  rcases h.tally with hlocked | htally
  · rw [hopen] at hlocked
    cases hlocked
  · refine ⟨?_, htally.written⟩
    have hle := Table.count_le_count htally.completed
    rw [htally.below] at hle
    omega

/-- An attempt that begins is not counted. -/
private theorem Tally.start (h : Tally threshold scope subject s) (typed : String) :
    Tally threshold scope subject ⟨s.shared, s.workers.insert { subject := typed }⟩ where
  written := (Table.count_insert _ _ _).trans h.written
  below := (Table.count_insert _ _ _).trans h.below
  pending := h.pending.insert nofun
  alone := h.alone.insert rfl
  completed := h.completed.insert nofun
  unlocked := h.unlocked.insert nofun

/-- The counting is about one key. -/
private theorem Tally.of_eq (h : Tally threshold scope subject s)
    (hattempts : attempts scope subject cache = attempts scope subject s.shared) :
    Tally threshold scope subject ⟨cache, s.workers⟩ where
  written := h.written.trans hattempts.symm
  below := h.below.trans (by rw [hattempts])
  pending := fun i t hget count hcount => (h.pending i t hget count hcount).trans
    (by rw [hattempts])
  alone := h.alone
  completed := h.completed
  unlocked := h.unlocked

theorem Counting.step {turn : Turn String Unit (String × Option ℕ)}
    (h : Counting threshold scope subject s)
    (hcommits : (guessing threshold scope subject).machine.Commits turn s s' out)
    (halone : CountsAlone.Respected s turn) : Counting threshold scope subject s' := by
  obtain ⟨cache, workers⟩ := s'
  cases turn with
  | start typed =>
    obtain ⟨t, hstart, hworkers⟩ := Interleaving.start_eq_ok hcommits
    obtain ⟨_, hsame, hstart⟩ := bind_eq_ok.mp hstart
    have hsame := ensure_eq_ok.mp hsame
    obtain ⟨hshared, rfl⟩ := Prod.mk.inj ((pure_eq_ok _ _).mp hstart)
    dsimp only at hshared hworkers
    subst hshared hworkers
    exact ⟨h.keys.insert hsame, h.tally.imp id fun htally => htally.start typed⟩
  | step i a =>
    obtain ⟨t, t', hget, hstep, hworkers⟩ := Interleaving.step_eq_ok hcommits
    dsimp only at hstep hworkers
    subst hworkers
    have hkeys := h.keys i t hget
    have hdid := Attempt.did hstep
    have hkeys' : lockKeys scope t'.subject = lockKeys scope subject := by
      cases hdid <;> exact hkeys
    refine ⟨h.keys.put hkeys', ?_⟩
    rcases h.tally with hlocked | htally
    · exact .inl (isLockedOut_of_did hlocked hkeys hdid)
    · exact htally.did hget hkeys hdid fun j other hj hother =>
        halone t hget j other hj hother
  | outside write =>
    obtain ⟨houtside, hworkers⟩ := Interleaving.outside_eq_ok hcommits
    obtain ⟨_, hother, houtside⟩ := bind_eq_ok.mp houtside
    obtain ⟨hcounter, hlock⟩ := ensure_eq_ok.mp hother
    have hshared := (pure_eq_ok _ _).mp houtside
    dsimp only at hshared hworkers
    subst hshared hworkers
    refine ⟨h.keys, ?_⟩
    rcases h.tally with hlocked | htally
    · left
      show isLockedOut scope subject (s.shared.write write.1 write.2) = true
      rw [isLockedOut, Cache.write_of_ne hlock.symm]
      exact hlocked
    · right
      apply htally.of_eq
      rw [attempts, Cache.write_of_ne hcounter.symm]
      rfl

end

/-- **No guess is lost**: a run in which the counter is never read between another attempt's
    reading and writing it is guarded in each of its states. -/
theorem guarded_of_countsAlone (threshold : ℕ) (scope subject : String)
    (turns : List (Turn String Unit (String × Option ℕ))) (cache : Cache)
    (hcounter : cache (lockKeys scope subject).1 = none)
    (halone : (guessing threshold scope subject).machine.EachStep
      (fun s turn _ => CountsAlone.Respected s turn) turns ⟨cache, {}⟩) :
    (guessing threshold scope subject).machine.Always (Guarded threshold scope subject) turns
      ⟨cache, {}⟩ := by
  have hattempts : attempts scope subject cache = 0 := by rw [attempts, hcounter]; rfl
  have hstart : Counting threshold scope subject ⟨cache, {}⟩ := by
    refine ⟨.empty, .inr ⟨?_, ?_, .empty, .empty, .empty, .empty⟩⟩
    · rw [hattempts]
      rfl
    · rw [hattempts, Nat.zero_min]
      rfl
  exact Machine.always_of_eachStep (m := (guessing threshold scope subject).machine)
    (I := Counting threshold scope subject) (fun _ h => h.guarded)
    (fun _ _ _ _ h hcommits hstep => h.step hcommits hstep) turns _ hstart halone

/-- Two wrong passwords one after the other, typed in two ways. -/
def twoGuesses : List (Turn String Unit (String × Option ℕ)) :=
  [.start "alice@example.com", .step 0 (), .step 0 (), .step 0 (), .step 0 (),
    .start " Alice@example.com", .step 1 (), .step 1 (), .step 1 (), .step 1 ()]

theorem guarded_of_countsAlone_twoGuesses :
    (guessing LOGIN_LOCK_THRESHOLD "login" "alice@example.com").machine.Always
      (Guarded LOGIN_LOCK_THRESHOLD "login" "alice@example.com") twoGuesses
      ⟨fun _ => none, {}⟩ :=
  guarded_of_countsAlone _ _ _ _ _ rfl (Machine.eachStep_of_trace (by decide +kernel))

/-- Six wrong passwords that are checked at the same time: each takes its next operation before
    any takes the one after. -/
def sixGuesses : List (Turn String Unit (String × Option ℕ)) :=
  List.replicate 6 (Turn.start "alice@example.com")
    ++ (List.replicate 4 ((List.range 6).map fun i => Turn.step i ())).flatten

/-- **Guesses made at once count as one**: six wrong passwords have been completed, the email is
    not locked, and the counter shows one try. -/
theorem not_guarded :
    ¬(guessing LOGIN_LOCK_THRESHOLD "login" "alice@example.com").machine.Always
      (Guarded LOGIN_LOCK_THRESHOLD "login" "alice@example.com") sixGuesses ⟨fun _ => none, {}⟩
      ∧ attempts "login" "alice@example.com" ((guessing LOGIN_LOCK_THRESHOLD "login"
        "alice@example.com").machine.run sixGuesses ⟨fun _ => none, {}⟩).shared = 1 := by
  refine ⟨fun h => ?_, by decide +kernel⟩
  have hlast : ¬Guarded LOGIN_LOCK_THRESHOLD "login" "alice@example.com"
      ((guessing LOGIN_LOCK_THRESHOLD "login" "alice@example.com").machine.run sixGuesses
        ⟨fun _ => none, {}⟩) := by decide +kernel
  exact hlast h.last

end WPanel.Accounts
