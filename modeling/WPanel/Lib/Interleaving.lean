import WPanel.Lib.Checked
import WPanel.Lib.Machine
import WPanel.Lib.Table

namespace WPanel.Lib

/-!
# Workers that interleave over shared state

Any number of workers run one program over shared state, one atomic step at a time and in any
order; the surroundings may change the shared state between any two steps.  A worker that takes
no further step has died.

* `Interleaving` — what a worker is when it starts, what its steps do, and what the surroundings
  do;
* `Interleaving.machine` — every interleaving, as a machine;
* `Discipline` — a condition on a step that looks at the other workers one at a time;
* `Outline` — a proof outline: what holds of the shared state, of each worker and of each two of
  them, with what each step has to keep;
* `Outline.always` / `Outline.eachStep` — an outline holds in every state of a run that keeps to
  the discipline, and speaks about each of its steps;
* `Turn.Meets`, `Interleaving.under`, `Outline.always_under` — conditions on a step that look at
  the state it finds, and outlines that rely on them.
-/

universe u

/-- The shared state, and where each worker is. -/
structure System (σ φ : Type u) where
  shared : σ
  workers : Table φ := {}
  deriving DecidableEq

/-- One atomic step of a run. -/
inductive Turn (β α γ : Type u) where
  /-- A new worker starts. -/
  | start (b : β)
  /-- A worker takes a step. -/
  | step (worker : Nat) (a : α)
  /-- The surroundings change the shared state. -/
  | outside (c : γ)

/-- A program for any number of workers. -/
structure Interleaving (σ φ β α γ ε : Type u) where
  start : β → σ → Except ε (σ × φ)
  step : α → σ → φ → Except ε (σ × φ)
  outside : γ → σ → Except ε σ
  /-- The answer to a worker that is not there. -/
  absent : ε

namespace Interleaving

variable {σ φ β α γ ε : Type u} (m : Interleaving σ φ β α γ ε)

def exec : Turn β α γ → System σ φ → Except ε (System σ φ × List PUnit.{u + 1})
  | .start b, s => do
    let (shared, w) ← m.start b s.shared
    return (⟨shared, s.workers.insert w⟩, [])
  | .step i a, s =>
    match s.workers.get? i with
    | none => .error m.absent
    | some w => do
      let (shared, w') ← m.step a s.shared w
      return (⟨shared, s.workers.put i w'⟩, [])
  | .outside c, s => do
    let shared ← m.outside c s.shared
    return ({ s with shared }, [])

/-- Every interleaving of the workers and their surroundings. -/
def machine : Machine (System σ φ) (Turn β α γ) PUnit ε := ⟨m.exec⟩

variable {m} {s s' : System σ φ} {out : List PUnit}

/-- What a start commits: a new worker. -/
theorem start_eq_ok {b : β} (h : m.machine.Commits (.start b) s s' out) :
    ∃ w, m.start b s.shared = .ok (s'.shared, w) ∧ s'.workers = s.workers.insert w := by
  simp only [Machine.Commits, machine, exec, bind_eq_ok, pure_eq_ok, Prod.exists,
    Prod.mk.injEq] at h
  obtain ⟨shared, w, hstart, rfl, _⟩ := h
  exact ⟨w, hstart, rfl⟩

/-- What a step commits: the worker after it. -/
theorem step_eq_ok {i : Nat} {a : α} (h : m.machine.Commits (.step i a) s s' out) :
    ∃ w w', s.workers.get? i = some w ∧ m.step a s.shared w = .ok (s'.shared, w')
      ∧ s'.workers = s.workers.put i w' := by
  simp only [Machine.Commits, machine, exec] at h
  split at h
  · cases h
  · next w hw =>
    simp only [bind_eq_ok, pure_eq_ok, Prod.exists, Prod.mk.injEq] at h
    obtain ⟨shared, w', hstep, rfl, _⟩ := h
    exact ⟨w, w', hw, hstep, rfl⟩

/-- What goes on outside leaves the workers as they are. -/
theorem outside_eq_ok {c : γ} (h : m.machine.Commits (.outside c) s s' out) :
    m.outside c s.shared = .ok s'.shared ∧ s'.workers = s.workers := by
  simp only [Machine.Commits, machine, exec, bind_eq_ok, pure_eq_ok, Prod.mk.injEq] at h
  obtain ⟨shared, houtside, rfl, _⟩ := h
  exact ⟨houtside, rfl⟩

end Interleaving

/-! ### Disciplines -/

/-- A condition on what a worker, or the surroundings, may do while another worker is where
    it is. -/
structure Discipline (σ φ α γ : Type u) where
  step : σ → φ → α → φ → Prop
  outside : σ → γ → φ → Prop

/-- The next step keeps to the discipline, whichever other worker is looked at. -/
def Discipline.Respected {σ φ β α γ : Type u} (d : Discipline σ φ α γ) (s : System σ φ) :
    Turn β α γ → Prop
  | .start _ => True
  | .step i a => ∀ w, s.workers.get? i = some w → ∀ j other, j ≠ i →
      s.workers.get? j = some other → d.step s.shared w a other
  | .outside c => ∀ j other, s.workers.get? j = some other → d.outside s.shared c other

/-- A discipline is checked on the workers there are. -/
instance Discipline.decidableRespected {σ φ β α γ : Type u} (d : Discipline σ φ α γ)
    [∀ s w a other, Decidable (d.step s w a other)] [∀ s c other, Decidable (d.outside s c other)]
    (s : System σ φ) (t : Turn β α γ) : Decidable (d.Respected s t) :=
  match t with
  | .start _ => isTrue trivial
  | .step i a => decidable_of_iff (∀ entry ∈ s.workers.entries, entry.1 = i →
      ∀ other ∈ s.workers.entries, other.1 ≠ i → d.step s.shared entry.2 a other.2) <| by
    constructor
    · intro h w hw j other hj hother
      exact h (i, w) (Table.mem_entries.mpr hw) rfl (j, other) (Table.mem_entries.mpr hother) hj
    · rintro h ⟨_, w⟩ hw rfl ⟨j, other⟩ hother hj
      exact h w (Table.mem_entries.mp hw) j other hj (Table.mem_entries.mp hother)
  | .outside c => decidable_of_iff (∀ other ∈ s.workers.entries, d.outside s.shared c other.2) <| by
    constructor
    · exact fun h j other hother => h (j, other) (Table.mem_entries.mpr hother)
    · exact fun h other hother => h other.1 other.2 (Table.mem_entries.mp hother)

/-! ### Proof outlines -/

/-- What holds of the shared state, of each worker and of each two workers, and that every step
    within the discipline keeps it: the worker that takes the step keeps its own part, and
    disturbs no other worker. -/
structure Outline {σ φ β α γ ε : Type u} (m : Interleaving σ φ β α γ ε)
    (d : Discipline σ φ α γ) where
  shared : σ → Prop
  own : σ → φ → Prop
  pair : φ → φ → Prop
  pair_symm : ∀ w w', pair w w' → pair w' w
  start_own : ∀ b s s' w, m.start b s = .ok (s', w) → shared s → shared s' ∧ own s' w
  start_other : ∀ b s s' w other, m.start b s = .ok (s', w) → shared s → own s other →
    own s' other ∧ pair w other
  step_own : ∀ a s s' w w', m.step a s w = .ok (s', w') → shared s → own s w →
    shared s' ∧ own s' w'
  step_other : ∀ a s s' w w' other, m.step a s w = .ok (s', w') → shared s → own s w →
    own s other → pair w other → d.step s w a other → own s' other ∧ pair w' other
  outside_shared : ∀ c s s', m.outside c s = .ok s' → shared s → shared s'
  outside_other : ∀ c s s' other, m.outside c s = .ok s' → shared s → own s other →
    d.outside s c other → own s' other

namespace Outline

variable {σ φ β α γ ε : Type u} {m : Interleaving σ φ β α γ ε} {d : Discipline σ φ α γ}

/-- The outline holds in a state. -/
structure Holds (o : Outline m d) (s : System σ φ) : Prop where
  shared : o.shared s.shared
  own : s.workers.Forall fun _ w => o.own s.shared w
  pair : ∀ i j w w', i ≠ j → s.workers.get? i = some w → s.workers.get? j = some w' → o.pair w w'

/-- An outline holds before any worker has started. -/
theorem Holds.start (o : Outline m d) {s : σ} (hs : o.shared s) : o.Holds ⟨s, {}⟩ := by
  refine ⟨hs, .empty, fun i j w w' _ hw => ?_⟩
  rw [Table.get?_empty] at hw
  cases hw

/-- The pairs of a table one row of which was written. -/
private theorem pair_of_written {o : Outline m d} {t t' : Table φ} {i : Nat} {w : φ}
    (hget : ∀ j w', t'.get? j = some w' → (j = i ∧ w' = w) ∨ (j ≠ i ∧ t.get? j = some w'))
    (hpair : ∀ i j w w', i ≠ j → t.get? i = some w → t.get? j = some w' → o.pair w w')
    (hnew : ∀ j w', j ≠ i → t.get? j = some w' → o.pair w w') :
    ∀ i j w w', i ≠ j → t'.get? i = some w → t'.get? j = some w' → o.pair w w' := by
  intro j k a b hne ha hb
  rcases hget j a ha with ⟨rfl, rfl⟩ | ⟨hj, ha⟩ <;> rcases hget k b hb with ⟨rfl, rfl⟩ | ⟨hk, hb⟩
  · exact absurd rfl hne
  · exact hnew k b hk hb
  · exact o.pair_symm _ _ (hnew j a hj ha)
  · exact hpair j k a b hne ha hb

/-- **One step keeps an outline**, within the discipline. -/
theorem Holds.step {o : Outline m d} {s s' : System σ φ} {t : Turn β α γ} {out : List PUnit}
    (hs : o.Holds s) (h : m.machine.Commits t s s' out) (hrespected : d.Respected s t) :
    o.Holds s' := by
  cases t with
  | start b =>
    obtain ⟨w, hstart, hworkers⟩ := Interleaving.start_eq_ok h
    obtain ⟨hshared, hown⟩ := o.start_own b _ _ w hstart hs.shared
    have hother := fun j w' (hw' : s.workers.get? j = some w') =>
      o.start_other b _ _ w w' hstart hs.shared (hs.own j w' hw')
    have hget : ∀ j w', s'.workers.get? j = some w' →
        (j = s.workers.nextPk ∧ w' = w) ∨ (j ≠ s.workers.nextPk ∧ s.workers.get? j = some w') := by
      intro j w' hw'
      rw [hworkers, Table.get?_insert] at hw'
      split at hw'
      · next hj => exact .inl ⟨hj, (Option.some.inj hw').symm⟩
      · next hj => exact .inr ⟨hj, hw'⟩
    refine ⟨hshared, fun j w' hw' => ?_,
      pair_of_written hget hs.pair fun j w' _ hw' => (hother j w' hw').2⟩
    rcases hget j w' hw' with ⟨_, rfl⟩ | ⟨_, hw'⟩
    · exact hown
    · exact (hother j w' hw').1
  | step i a =>
    obtain ⟨w, w₁, hw, hstep, hworkers⟩ := Interleaving.step_eq_ok h
    have hownBefore := hs.own i w hw
    obtain ⟨hshared, hown⟩ := o.step_own a _ _ w w₁ hstep hs.shared hownBefore
    have hother := fun j w' (hj : j ≠ i) (hw' : s.workers.get? j = some w') =>
      o.step_other a _ _ w w₁ w' hstep hs.shared hownBefore (hs.own j w' hw')
        (hs.pair i j w w' (Ne.symm hj) hw hw') (hrespected w hw j w' hj hw')
    have hget : ∀ j w', s'.workers.get? j = some w' →
        (j = i ∧ w' = w₁) ∨ (j ≠ i ∧ s.workers.get? j = some w') := by
      intro j w' hw'
      rw [hworkers] at hw'
      exact Table.get?_put_cases hw hw'
    refine ⟨hshared, fun j w' hw' => ?_,
      pair_of_written hget hs.pair fun j w' hj hw' => (hother j w' hj hw').2⟩
    rcases hget j w' hw' with ⟨_, rfl⟩ | ⟨hj, hw'⟩
    · exact hown
    · exact (hother j w' hj hw').1
  | outside c =>
    obtain ⟨houtside, hworkers⟩ := Interleaving.outside_eq_ok h
    refine ⟨o.outside_shared c _ _ houtside hs.shared, fun j w' hw' => ?_, ?_⟩
    · rw [hworkers] at hw'
      exact o.outside_other c _ _ w' houtside hs.shared (hs.own j w' hw') (hrespected j w' hw')
    · rw [hworkers]
      exact hs.pair

/-- **An outline holds in every state of a run that keeps to the discipline.** -/
theorem always (o : Outline m d) {P : System σ φ → Prop} (hP : ∀ s, o.Holds s → P s)
    (ts : List (Turn β α γ)) (s : System σ φ) (hs : o.Holds s)
    (hrespected : m.machine.EachStep (fun s t _ => d.Respected s t) ts s) :
    m.machine.Always P ts s :=
  Machine.always_of_eachStep (m := m.machine) (I := o.Holds) hP
    (fun _ _ _ _ hI hcommits hstep => hI.step hcommits hstep) ts s hs hrespected

/-- What an outline says of every step, every step of a run that keeps to the discipline
    does. -/
theorem eachStep (o : Outline m d) {R : System σ φ → Turn β α γ → System σ φ → Prop}
    (hR : ∀ t s s' out, o.Holds s → m.machine.Commits t s s' out → d.Respected s t → R s t s')
    (ts : List (Turn β α γ)) (s : System σ φ) (hs : o.Holds s)
    (hrespected : m.machine.EachStep (fun s t _ => d.Respected s t) ts s) :
    m.machine.EachStep R ts s := by
  induction ts generalizing s with
  | nil => trivial
  | cons t ts ih =>
    obtain ⟨hstep, htail⟩ := hrespected
    refine ⟨fun s' out h => hR t s s' out hs h (hstep s' out h), ih _ ?_ htail⟩
    exact Machine.next_invariant t hs fun s' out h => hs.step h (hstep s' out h)

end Outline

/-! ### Conditions on a step and what it finds -/

/-- The step meets a condition on the shared state it finds and on its own worker. -/
def Turn.Meets {σ φ β α γ : Type u} (own : σ → φ → α → Prop) (s : System σ φ) :
    Turn β α γ → Prop
  | .start _ => True
  | .step i a => ∀ w ∈ s.workers.get? i, own s.shared w a
  | .outside _ => True

instance Turn.decidableMeets {σ φ β α γ : Type u} (own : σ → φ → α → Prop)
    [∀ s w a, Decidable (own s w a)] (s : System σ φ) (t : Turn β α γ) :
    Decidable (t.Meets own s) :=
  match t with
  | .start _ => isTrue trivial
  | .step i a => inferInstanceAs (Decidable (∀ w ∈ s.workers.get? i, own s.shared w a))
  | .outside _ => isTrue trivial

namespace Interleaving

variable {σ φ β α γ ε : Type u} {m : Interleaving σ φ β α γ ε} {own : σ → φ → α → Prop}

open Classical in
/-- The program in which a step that does not meet the condition fails. -/
noncomputable def under (m : Interleaving σ φ β α γ ε) (own : σ → φ → α → Prop) :
    Interleaving σ φ β α γ ε :=
  { m with step := fun a s w => if own s w a then m.step a s w else .error m.absent }

theorem under_step_eq_ok {a : α} {s : σ} {w : φ} {r : σ × φ} :
    (m.under own).step a s w = .ok r ↔ own s w a ∧ m.step a s w = .ok r := by
  classical
  show (if own s w a then m.step a s w else .error m.absent) = .ok r ↔ _
  split
  · next h => exact ⟨fun hstep => ⟨h, hstep⟩, fun hstep => hstep.2⟩
  · next h => exact ⟨nofun, fun hstep => absurd hstep.1 h⟩

/-- A step that meets the condition is the same in both. -/
theorem exec_under {s : System σ φ} {t : Turn β α γ} (h : t.Meets own s) :
    (m.under own).exec t s = m.exec t s := by
  classical
  cases t with
  | start b => rfl
  | step i a =>
    unfold exec
    dsimp only
    cases hw : s.workers.get? i with
    | none => rfl
    | some w =>
      have hstep : (m.under own).step a s.shared w = m.step a s.shared w := if_pos (h w hw)
      dsimp only
      rw [hstep]
  | outside c => rfl

end Interleaving

/-- **An outline under a condition on steps, and what its steps keep beside it**, hold in every
    state of a run whose steps meet the condition and keep to the discipline. -/
theorem Outline.always_under_with {σ φ β α γ ε : Type u} {m : Interleaving σ φ β α γ ε}
    {own : σ → φ → α → Prop} {d : Discipline σ φ α γ} (o : Outline (m.under own) d)
    {I P : System σ φ → Prop}
    (hI : ∀ t s s' out, o.Holds s → I s → (m.under own).machine.Commits t s s' out → I s')
    (hP : ∀ s, o.Holds s → I s → P s) (ts : List (Turn β α γ)) (s : System σ φ)
    (hs : o.Holds s) (hinit : I s)
    (hmeets : m.machine.EachStep (fun s t _ => t.Meets own s ∧ d.Respected s t) ts s) :
    m.machine.Always P ts s := by
  refine Machine.always_of_eachStep (m := m.machine) (I := fun s => o.Holds s ∧ I s)
    (fun s h => hP s h.1 h.2) (fun t s s' out h hcommits hstep => ?_) ts s ⟨hs, hinit⟩ hmeets
  have hsame : (m.under own).machine.Commits t s s' out :=
    (Interleaving.exec_under hstep.1).trans hcommits
  exact ⟨h.1.step hsame hstep.2, hI t s s' out h.1 h.2 hsame⟩

/-- **An outline under a condition on steps** holds in every state of a run whose steps meet the
    condition and keep to the discipline. -/
theorem Outline.always_under {σ φ β α γ ε : Type u} {m : Interleaving σ φ β α γ ε}
    {own : σ → φ → α → Prop} {d : Discipline σ φ α γ} (o : Outline (m.under own) d)
    {P : System σ φ → Prop} (hP : ∀ s, o.Holds s → P s) (ts : List (Turn β α γ)) (s : System σ φ)
    (hs : o.Holds s)
    (hmeets : m.machine.EachStep (fun s t _ => t.Meets own s ∧ d.Respected s t) ts s) :
    m.machine.Always P ts s :=
  o.always_under_with (I := fun _ => True) (fun _ _ _ _ _ _ _ => trivial) (fun s h _ => hP s h)
    ts s hs trivial hmeets

/-- No condition on the other workers. -/
def Discipline.free {σ φ α γ : Type u} : Discipline σ φ α γ where
  step _ _ _ _ := True
  outside _ _ _ := True

theorem Discipline.respected_free {σ φ β α γ : Type u} (s : System σ φ) (t : Turn β α γ) :
    Discipline.free.Respected s t :=
  match t with
  | .start _ => trivial
  | .step _ _ => fun _ _ _ _ _ _ => trivial
  | .outside _ => fun _ _ _ => trivial

end WPanel.Lib
