namespace WPanel.Lib

/-!
# Transactional machines

A machine takes calls one after the other.  A call either commits, with a new state and
the messages it sent, or fails and leaves the state as it was.

* `run`, `log` — the state after a list of calls, and every message sent on the way;
* `run_invariant` — what every committed call keeps holds after every run;
* `Always` / `EachStep` — a property of every state of a run, and of every committed call;
* `always_iff_eachStep` — where a call keeps the property exactly when it meets a
  condition, a run keeps it exactly when each of its calls does;
* `recorded` — the machine that carries its own log along, so that a property of states
  may speak about what was sent so far.
-/

universe u

/-- Calls `α` on states `σ`, sending messages `ω`, failing with `ε`. -/
structure Machine (σ α ω ε : Type u) where
  exec : α → σ → Except ε (σ × List ω)

namespace Machine

variable {σ α ω ε : Type u} (m : Machine σ α ω ε)

/-- The call `a` on `s` commits with `s'` and the messages `out`. -/
def Commits (a : α) (s s' : σ) (out : List ω) : Prop := m.exec a s = .ok (s', out)

/-- The state after a call: a failed one is rolled back. -/
def next (a : α) (s : σ) : σ :=
  match m.exec a s with
  | .ok (s', _) => s'
  | .error _ => s

/-- The messages of a call: a failed one sends none. -/
def sent (a : α) (s : σ) : List ω :=
  match m.exec a s with
  | .ok (_, out) => out
  | .error _ => []

/-- The state after a list of calls. -/
def run : List α → σ → σ
  | [], s => s
  | a :: as, s => run as (m.next a s)

/-- The messages of a list of calls. -/
def log : List α → σ → List ω
  | [], _ => []
  | a :: as, s => m.sent a s ++ log as (m.next a s)

/-- `P` holds in every state of the run, the first and the last included. -/
def Always (P : σ → Prop) : List α → σ → Prop
  | [], s => P s
  | a :: as, s => P s ∧ Always P as (m.next a s)

/-- Every call of the run that commits satisfies `R`. -/
def EachStep (R : σ → α → σ → Prop) : List α → σ → Prop
  | [], _ => True
  | a :: as, s => (∀ s' out, m.Commits a s s' out → R s a s') ∧ EachStep R as (m.next a s)

/-- The calls of a run, each with the state it finds. -/
def trace : List α → σ → List (σ × α)
  | [], _ => []
  | a :: as, s => (s, a) :: trace as (m.next a s)

variable {m}

theorem Commits.next {a : α} {s s' : σ} {out : List ω} (h : m.Commits a s s' out) :
    m.next a s = s' := by
  unfold Machine.next
  rw [show m.exec a s = .ok (s', out) from h]

/-- A call commits, or it changes nothing and sends nothing. -/
theorem commits_or_unchanged (a : α) (s : σ) :
    (∃ s' out, m.Commits a s s' out) ∨ (m.next a s = s ∧ m.sent a s = []) := by
  cases h : m.exec a s with
  | error e => exact .inr ⟨by simp [Machine.next, h], by simp [Machine.sent, h]⟩
  | ok p => exact .inl ⟨p.1, p.2, h⟩

/-- What every committed call keeps, one call keeps. -/
theorem next_invariant {I : σ → Prop} {s : σ} (a : α) (hs : I s)
    (hstep : ∀ s' out, m.Commits a s s' out → I s') : I (m.next a s) := by
  rcases commits_or_unchanged (m := m) a s with ⟨s', out, h⟩ | ⟨h, _⟩
  · rw [h.next]; exact hstep s' out h
  · rw [h]; exact hs

/-- **Invariants.** What every committed call keeps holds after every run. -/
theorem run_invariant {I : σ → Prop}
    (hstep : ∀ a s s' out, I s → m.Commits a s s' out → I s') :
    ∀ (as : List α) (s : σ), I s → I (m.run as s) := by
  intro as
  induction as with
  | nil => intro s hs; exact hs
  | cons a as ih =>
    intro s hs
    exact ih _ (next_invariant a hs fun s' out h => hstep a s s' out hs h)

/-- What the calls of a run keep holds in every state of it. -/
theorem always_of_invariant {I : σ → Prop} (as : List α)
    (hstep : ∀ a ∈ as, ∀ s s' out, I s → m.Commits a s s' out → I s') :
    ∀ s : σ, I s → m.Always I as s := by
  induction as with
  | nil => intro s hs; exact hs
  | cons a as ih =>
    intro s hs
    have hnext := next_invariant a hs fun s' out h => hstep a List.mem_cons_self s s' out hs h
    exact ⟨hs, ih (fun b hb => hstep b (List.mem_cons_of_mem _ hb)) _ hnext⟩

/-- The first state is one of the run. -/
theorem Always.head {P : σ → Prop} {as : List α} {s : σ} (h : m.Always P as s) : P s := by
  cases as with
  | nil => exact h
  | cons a as => exact h.1

theorem Always.mono {P Q : σ → Prop} {as : List α} {s : σ} (hP : m.Always P as s)
    (h : ∀ s, P s → Q s) : m.Always Q as s := by
  induction as generalizing s with
  | nil => exact h s hP
  | cons a as ih => exact ⟨h s hP.1, ih hP.2⟩

/-- Two properties of states that agree under an invariant agree on runs. -/
theorem Always.congr {I P Q : σ → Prop} {as : List α} {s : σ} (hI : m.Always I as s)
    (h : ∀ s, I s → (P s ↔ Q s)) : m.Always P as s ↔ m.Always Q as s := by
  induction as generalizing s with
  | nil => exact h s hI
  | cons a as ih => exact and_congr (h s hI.1) (ih hI.2)

/-- The last state is one of the run. -/
theorem Always.last {P : σ → Prop} {as : List α} {s : σ} (h : m.Always P as s) :
    P (m.run as s) := by
  induction as generalizing s with
  | nil => exact h
  | cons a as ih => exact ih h.2

/-- The last call is one of the run. -/
theorem EachStep.last {R : σ → α → σ → Prop} {as : List α} {a : α} {s : σ}
    (h : m.EachStep R (as ++ [a]) s) (hok : (m.exec a (m.run as s)).isOk = true) :
    R (m.run as s) a (m.next a (m.run as s)) := by
  induction as generalizing s with
  | nil =>
    cases hexec : m.exec a s with
    | error e =>
      rw [show m.exec a (m.run [] s) = .error e from hexec] at hok
      cases hok
    | ok r =>
      have hc : m.Commits a s r.1 r.2 := hexec
      show R s a (m.next a s)
      rw [hc.next]
      exact h.1 r.1 r.2 hc
  | cons b as ih => exact ih h.2 hok

/-- Two properties of committed calls that both hold on a run hold together. -/
theorem eachStep_and {R R' : σ → α → σ → Prop} {as : List α} {s : σ} :
    m.EachStep R as s ∧ m.EachStep R' as s
      ↔ m.EachStep (fun s a s' => R s a s' ∧ R' s a s') as s := by
  induction as generalizing s with
  | nil => exact and_self_iff
  | cons a as ih =>
    constructor
    · rintro ⟨⟨h, htail⟩, h', htail'⟩
      exact ⟨fun s' out hc => ⟨h s' out hc, h' s' out hc⟩, ih.mp ⟨htail, htail'⟩⟩
    · rintro ⟨h, htail⟩
      obtain ⟨htail, htail'⟩ := ih.mpr htail
      exact ⟨⟨fun s' out hc => (h s' out hc).1, htail⟩, fun s' out hc => (h s' out hc).2, htail'⟩

/-- What every call keeps under the invariant, every call of a run keeps. -/
theorem eachStep_of_invariant {I : σ → Prop} {R : σ → α → σ → Prop}
    (hI : ∀ a s s' out, I s → m.Commits a s s' out → I s')
    (hR : ∀ a s s' out, I s → m.Commits a s s' out → R s a s') :
    ∀ (as : List α) (s : σ), I s → m.EachStep R as s := by
  intro as
  induction as with
  | nil => intro s _; trivial
  | cons a as ih =>
    intro s hs
    exact ⟨fun s' out h => hR a s s' out hs h,
      ih _ (next_invariant a hs fun s' out h => hI a s s' out hs h)⟩

/-- Two properties of committed calls that agree under an invariant agree on runs. -/
theorem eachStep_iff_eachStep {I : σ → Prop} {R R' : σ → α → σ → Prop}
    (hI : ∀ a s s' out, I s → m.Commits a s s' out → I s')
    (hR : ∀ a s s' out, I s → m.Commits a s s' out → (R s a s' ↔ R' s a s')) :
    ∀ (as : List α) (s : σ), I s → (m.EachStep R as s ↔ m.EachStep R' as s) := by
  intro as
  induction as with
  | nil => intro s _; rfl
  | cons a as ih =>
    intro s hs
    have hrest := ih _ (next_invariant a hs fun s' out h => hI a s s' out hs h)
    constructor
    · rintro ⟨h, htail⟩
      exact ⟨fun s' out hc => (hR a s s' out hs hc).mp (h s' out hc), hrest.mp htail⟩
    · rintro ⟨h, htail⟩
      exact ⟨fun s' out hc => (hR a s s' out hs hc).mpr (h s' out hc), hrest.mpr htail⟩

/-- **A run keeps `P` exactly when each of its calls meets the condition** `R`: under the
    invariant `I`, which implies `P`, a call that meets the condition keeps `I`, and one that
    does not breaks `P`. -/
theorem always_iff_eachStep {I P : σ → Prop} {R : σ → α → σ → Prop} (hP : ∀ s, I s → P s)
    (hgood : ∀ a s s' out, I s → m.Commits a s s' out → R s a s' → I s')
    (hbad : ∀ a s s' out, I s → m.Commits a s s' out → P s' → R s a s') :
    ∀ (as : List α) (s : σ), I s → (m.Always P as s ↔ m.EachStep R as s) := by
  intro as
  induction as with
  | nil => intro s hs; exact ⟨fun _ => trivial, fun _ => hP s hs⟩
  | cons a as ih =>
    intro s hs
    constructor
    · rintro ⟨_, htail⟩
      have hstep : ∀ s' out, m.Commits a s s' out → R s a s' := fun s' out h =>
        hbad a s s' out hs h (h.next ▸ htail.head)
      have hnext := next_invariant a hs fun s' out h => hgood a s s' out hs h (hstep s' out h)
      exact ⟨hstep, (ih _ hnext).mp htail⟩
    · rintro ⟨hstep, htail⟩
      have hnext := next_invariant a hs fun s' out h => hgood a s s' out hs h (hstep s' out h)
      exact ⟨hP s hs, (ih _ hnext).mpr htail⟩

/-- A run whose calls all meet the condition `R` keeps `P`: under the invariant `I`, which
    implies `P`, a call that meets it keeps `I`. -/
theorem always_of_eachStep {I P : σ → Prop} {R : σ → α → σ → Prop} (hP : ∀ s, I s → P s)
    (hgood : ∀ a s s' out, I s → m.Commits a s s' out → R s a s' → I s') :
    ∀ (as : List α) (s : σ), I s → m.EachStep R as s → m.Always P as s := by
  intro as
  induction as with
  | nil => intro s hs _; exact hP s hs
  | cons a as ih =>
    rintro s hs ⟨hstep, htail⟩
    refine ⟨hP s hs, ih _ (next_invariant a hs fun s' out h => ?_) htail⟩
    exact hgood a s s' out hs h (hstep s' out h)

/-- Every call of such a run does what a call that meets `R` does under the invariant. -/
theorem eachStep_of_eachStep {I : σ → Prop} {R R' : σ → α → σ → Prop}
    (hgood : ∀ a s s' out, I s → m.Commits a s s' out → R s a s' → I s')
    (hstep : ∀ a s s' out, I s → m.Commits a s s' out → R s a s' → R' s a s') :
    ∀ (as : List α) (s : σ), I s → m.EachStep R as s → m.EachStep R' as s := by
  intro as
  induction as with
  | nil => intro s _ _; trivial
  | cons a as ih =>
    rintro s hs ⟨hhead, htail⟩
    refine ⟨fun s' out h => hstep a s s' out hs h (hhead s' out h),
      ih _ (next_invariant a hs fun s' out h => ?_) htail⟩
    exact hgood a s s' out hs h (hhead s' out h)

/-- A condition on a call and the state it finds can be checked along the trace. -/
theorem eachStep_of_trace {R : σ → α → Prop} {as : List α} {s : σ}
    (h : ∀ p ∈ m.trace as s, R p.1 p.2) : m.EachStep (fun s a _ => R s a) as s := by
  induction as generalizing s with
  | nil => trivial
  | cons a as ih =>
    refine ⟨fun _ _ _ => h (s, a) List.mem_cons_self, ih fun p hp => ?_⟩
    exact h p (List.mem_cons_of_mem _ hp)

variable (m)

/-- The machine that keeps its own log. -/
def recorded : Machine (σ × List ω) α ω ε where
  exec a p := (m.exec a p.1).map fun r => ((r.1, p.2 ++ r.2), r.2)

variable {m}

theorem recorded_commits {a : α} {p p' : σ × List ω} {out : List ω} :
    m.recorded.Commits a p p' out ↔ m.Commits a p.1 p'.1 out ∧ p'.2 = p.2 ++ out := by
  unfold Commits recorded
  cases h : m.exec a p.1 with
  | error e => simp [h, Except.map]
  | ok r =>
    obtain ⟨s, l⟩ := p'
    simp only [h, Except.map, Except.ok.injEq, Prod.mk.injEq]
    constructor
    · rintro ⟨⟨h1, h2⟩, h3⟩
      exact ⟨by rw [← h1, ← h3], by rw [← h2, h3]⟩
    · rintro ⟨h1, h2⟩
      rw [h1]
      exact ⟨⟨rfl, h2.symm⟩, rfl⟩

/-- The recorded machine reaches the same states and carries the log. -/
theorem run_recorded :
    ∀ (as : List α) (s : σ) (l : List ω),
      m.recorded.run as (s, l) = (m.run as s, l ++ m.log as s) := by
  intro as
  induction as with
  | nil => intro s l; simp [run, log]
  | cons a as ih =>
    intro s l
    have hnext : m.recorded.next a (s, l) = (m.next a s, l ++ m.sent a s) := by
      unfold Machine.next Machine.sent recorded
      cases h : m.exec a s <;> simp [h, Except.map]
    simp only [run, log]
    rw [hnext, ih, List.append_assoc]

end Machine

end WPanel.Lib
