import WPanel.Lib.Interleaving

namespace WPanel.Lib

/-!
# Transactions that lock rows

Transactions of a database run at the same time.  Each locks rows one after the other and keeps
them locked until it commits or rolls back; a row that another has locked has to be waited for.
What a transaction writes is seen by the others at once when it commits, and never when it rolls
back.

* `Transactions` — the rows a transaction holds where it is, and what its steps come to;
* `Transactions.interleaving` — every interleaving of them, with other changes that wait for
  locked rows too;
* `Transactions.run_related` — what every commit keeps, every run keeps;
* `Transactions.Rules` — what holds of the committed records, what a transaction knows of them
  while it runs, and what each step has to keep of both;
* `Transactions.Rules.always` — it holds in every state of every run.
-/

universe u

/-- What a step of a transaction comes to. -/
inductive Stage (σ φ : Type u) where
  /-- It goes on, perhaps with more rows. -/
  | goes (t : φ)
  /-- Everything it wrote is there. -/
  | commits (s : σ)
  /-- Nothing it wrote is there. -/
  | rollsBack

/-- The records as they are committed, and the rows that are locked. -/
structure Database (σ ρ : Type u) where
  committed : σ
  locked : List ρ := []

/-- A program for any number of transactions. -/
structure Transactions (σ ρ φ β α γ ε : Type u) where
  start : β → φ
  /-- The rows a transaction has locked. -/
  holds : φ → List ρ
  holds_start : ∀ b, holds (start b) = []
  step : α → σ → φ → Except ε (Stage σ φ)
  /-- Another change, which is committed at once. -/
  outside : γ → σ → Except ε σ
  /-- The rows another change has to lock. -/
  touches : γ → List ρ
  /-- A row is locked by someone else. -/
  busy : ε
  /-- There is no such transaction, or it is over. -/
  gone : ε

namespace Transactions

variable {σ ρ φ β α γ ε : Type u} [DecidableEq ρ] (m : Transactions σ ρ φ β α γ ε)

/-- The rows that stay locked once a transaction lets go of its own. -/
def others (db : Database σ ρ) (t : φ) : List ρ := db.locked.filter (· ∉ m.holds t)

/-- What a step of a transaction leaves. -/
def settle (db : Database σ ρ) (t : φ) : Stage σ φ → Except ε (Database σ ρ × Option φ)
  | .goes t' =>
    if ∀ r ∈ m.holds t', r ∈ m.holds t ∨ r ∉ db.locked then
      .ok ({ db with locked := m.holds t' ++ m.others db t }, some t')
    else .error m.busy
  | .commits s => .ok ({ committed := s, locked := m.others db t }, none)
  | .rollsBack => .ok ({ db with locked := m.others db t }, none)

/-- Every interleaving of the transactions, and of other changes. -/
def interleaving : Interleaving (Database σ ρ) (Option φ) β α γ ε where
  start b db := .ok (db, some (m.start b))
  step a db
    | none => .error m.gone
    | some t => do
      let stage ← m.step a db.committed t
      m.settle db t stage
  outside c db :=
    if ∀ r ∈ m.touches c, r ∉ db.locked then
      (m.outside c db.committed).map fun committed => { db with committed }
    else .error m.busy
  absent := m.gone

variable {m} {db : Database σ ρ} {t : φ} {r : ρ}

theorem mem_others : r ∈ m.others db t ↔ r ∈ db.locked ∧ r ∉ m.holds t := by
  simp [others, List.mem_filter]

/-- A transaction goes on once no one else holds the rows it asks for. -/
theorem settle_goes {t' : φ} {db' : Database σ ρ} {w : Option φ}
    (h : m.settle db t (.goes t') = .ok (db', w)) :
    (∀ r ∈ m.holds t', r ∈ m.holds t ∨ r ∉ db.locked)
      ∧ db' = { db with locked := m.holds t' ++ m.others db t } ∧ w = some t' := by
  unfold settle at h
  dsimp only at h
  split at h
  · next hfree =>
    cases h
    exact ⟨hfree, rfl, rfl⟩
  · cases h

/-- So does another change. -/
theorem outside_eq_ok {c : γ} {db' : Database σ ρ} (h : m.interleaving.outside c db = .ok db') :
    (∀ r ∈ m.touches c, r ∉ db.locked)
      ∧ ∃ s, m.outside c db.committed = .ok s ∧ db' = { db with committed := s } := by
  unfold interleaving at h
  dsimp only at h
  split at h
  · next hfree =>
    obtain ⟨s, hs, rfl⟩ := map_eq_ok.mp h
    exact ⟨hfree, s, hs, rfl⟩
  · cases h

/-- A transaction that is open after a turn has just begun, has gone on, or stands where it did. -/
theorem worker_of_commits {turn : Turn β α γ} {out : List PUnit}
    {x x' : System (Database σ ρ) (Option φ)} (h : m.interleaving.machine.Commits turn x x' out)
    {i : ℕ} {t' : φ} (ht' : x'.workers.get? i = some (some t')) :
    (∃ b, t' = m.start b)
      ∨ (∃ a t, m.step a x.shared.committed t = .ok (.goes t')
          ∧ x'.shared.committed = x.shared.committed)
      ∨ x.workers.get? i = some (some t') ∧ ∀ a, turn ≠ .step i a := by
  cases turn with
  | start b =>
    obtain ⟨w, hstart, hworkers⟩ := Interleaving.start_eq_ok h
    obtain ⟨-, rfl⟩ := Prod.mk.inj (Except.ok.inj hstart)
    rw [hworkers] at ht'
    rw [Table.get?_insert] at ht'
    split at ht'
    · exact .inl ⟨b, (Option.some.inj (Option.some.inj ht')).symm⟩
    · exact .inr (.inr ⟨ht', nofun⟩)
  | step j a =>
    obtain ⟨w, w', hw, hstep, hworkers⟩ := Interleaving.step_eq_ok h
    rw [hworkers] at ht'
    by_cases hj : i = j
    · subst hj
      rw [Table.get?_put_self hw] at ht'
      obtain rfl := Option.some.inj ht'
      cases w with
      | none => cases hstep
      | some t =>
        obtain ⟨stage, hstage, hsettle⟩ := bind_eq_ok.mp hstep
        cases stage with
        | goes t'' =>
          obtain ⟨-, hdb, hw'⟩ := settle_goes hsettle
          cases Option.some.inj hw'
          exact .inr (.inl ⟨a, t, hstage, by rw [hdb]⟩)
        | commits s => cases (Prod.mk.inj (Except.ok.inj hsettle)).2
        | rollsBack => cases (Prod.mk.inj (Except.ok.inj hsettle)).2
    · rw [Table.get?_put_of_ne hj] at ht'
      refine .inr (.inr ⟨ht', fun a' heq => hj ?_⟩)
      cases heq
      rfl
  | outside c =>
    obtain ⟨-, hworkers⟩ := Interleaving.outside_eq_ok h
    rw [hworkers] at ht'
    exact .inr (.inr ⟨ht', nofun⟩)

/-- What is committed changes by a transaction that commits, or by another change. -/
theorem committed_of_commits {turn : Turn β α γ} {out : List PUnit}
    {x x' : System (Database σ ρ) (Option φ)} (h : m.interleaving.machine.Commits turn x x' out) :
    x'.shared.committed = x.shared.committed
      ∨ (∃ a t, m.step a x.shared.committed t = .ok (.commits x'.shared.committed))
      ∨ ∃ c, m.outside c x.shared.committed = .ok x'.shared.committed := by
  cases turn with
  | start b =>
    obtain ⟨w, hstart, -⟩ := Interleaving.start_eq_ok h
    obtain ⟨hdb, -⟩ := Prod.mk.inj (Except.ok.inj hstart)
    exact .inl (congrArg Database.committed hdb.symm)
  | step i a =>
    obtain ⟨w, w', -, hstep, -⟩ := Interleaving.step_eq_ok h
    cases w with
    | none => cases hstep
    | some t =>
      obtain ⟨stage, hstage, hsettle⟩ := bind_eq_ok.mp hstep
      cases stage with
      | goes t' =>
        obtain ⟨-, hdb, -⟩ := settle_goes hsettle
        left
        rw [hdb]
      | commits s =>
        obtain ⟨hdb, -⟩ := Prod.mk.inj (Except.ok.inj hsettle)
        refine .inr (.inl ⟨a, t, ?_⟩)
        rw [← hdb]
        exact hstage
      | rollsBack =>
        obtain ⟨hdb, -⟩ := Prod.mk.inj (Except.ok.inj hsettle)
        left
        rw [← hdb]
  | outside c =>
    obtain ⟨houtside, -⟩ := Interleaving.outside_eq_ok h
    obtain ⟨-, s, hs, hdb⟩ := outside_eq_ok houtside
    refine .inr (.inr ⟨c, ?_⟩)
    rw [hdb]
    exact hs

/-- **What every commit keeps of what was committed before it, every run keeps.** -/
theorem run_related {R : σ → σ → Prop} (hrefl : ∀ s, R s s)
    (htrans : ∀ s₁ s₂ s₃, R s₁ s₂ → R s₂ s₃ → R s₁ s₃)
    (hcommits : ∀ a s t s', m.step a s t = .ok (.commits s') → R s s')
    (houtside : ∀ c s s', m.outside c s = .ok s' → R s s') (turns : List (Turn β α γ))
    (x : System (Database σ ρ) (Option φ)) :
    R x.shared.committed (m.interleaving.machine.run turns x).shared.committed := by
  refine Machine.run_invariant (I := fun y => R x.shared.committed y.shared.committed)
    (fun turn y y' out hy h => ?_) turns x (hrefl _)
  rcases committed_of_commits h with hsame | ⟨a, t, hstep⟩ | ⟨c, hchange⟩
  · rw [hsame]
    exact hy
  · exact htrans _ _ _ hy (hcommits a _ t _ hstep)
  · exact htrans _ _ _ hy (houtside c _ _ hchange)

/-! ### Rules -/

/-- What holds of the committed records, and what a transaction knows of them while it runs.
    A transaction may rely on its rows: whoever else commits holds none of them. -/
structure Rules (m : Transactions σ ρ φ β α γ ε) where
  sound : σ → Prop
  knows : σ → φ → Prop
  knows_start : ∀ s b, sound s → knows s (m.start b)
  knows_goes : ∀ a s t t', m.step a s t = .ok (.goes t') → sound s → knows s t → knows s t'
  sound_commits : ∀ a s t s', m.step a s t = .ok (.commits s') → sound s → knows s t → sound s'
  knows_commits : ∀ a s t s' other, m.step a s t = .ok (.commits s') → sound s → knows s t →
    knows s other → (m.holds t).Disjoint (m.holds other) → knows s' other
  sound_outside : ∀ c s s', m.outside c s = .ok s' → sound s → sound s'
  knows_outside : ∀ c s s' other, m.outside c s = .ok s' → sound s → knows s other →
    (m.touches c).Disjoint (m.holds other) → knows s' other

namespace Rules

variable (rules : m.Rules)

/-- A running transaction knows what it knows, and its rows are locked. -/
def Own (db : Database σ ρ) (w : Option φ) : Prop :=
  ∀ t ∈ w, rules.knows db.committed t ∧ ∀ r ∈ m.holds t, r ∈ db.locked

/-- No two running transactions hold the same row. -/
def Apart (m : Transactions σ ρ φ β α γ ε) (w w' : Option φ) : Prop :=
  ∀ t ∈ w, ∀ t' ∈ w', (m.holds t).Disjoint (m.holds t')

variable {rules} {other : Option φ}

/-- What a transaction's own step keeps. -/
private theorem settled_own {a : α} {stage : Stage σ φ} {db' : Database σ ρ} {w : Option φ}
    (hstep : m.step a db.committed t = .ok stage) (hsettle : m.settle db t stage = .ok (db', w))
    (hs : rules.sound db.committed) (hknows : rules.knows db.committed t) :
    rules.sound db'.committed ∧ rules.Own db' w := by
  cases stage with
  | goes t' =>
    obtain ⟨-, rfl, rfl⟩ := settle_goes hsettle
    refine ⟨hs, fun t'' ht'' => ?_⟩
    cases Option.some.inj ht''
    exact ⟨rules.knows_goes a _ t t' hstep hs hknows, fun r hr => List.mem_append_left _ hr⟩
  | commits s =>
    cases hsettle
    exact ⟨rules.sound_commits a _ t s hstep hs hknows, fun t'' ht'' => by cases ht''⟩
  | rollsBack =>
    cases hsettle
    exact ⟨hs, fun t'' ht'' => by cases ht''⟩

/-- What it keeps of the others: their rows stay theirs, and what they know stays true. -/
private theorem settled_other {a : α} {stage : Stage σ φ} {db' : Database σ ρ} {w : Option φ}
    (hstep : m.step a db.committed t = .ok stage) (hsettle : m.settle db t stage = .ok (db', w))
    (hs : rules.sound db.committed) (hknows : rules.knows db.committed t)
    (hother : rules.Own db other) (hapart : Apart m (some t) other) :
    rules.Own db' other ∧ Apart m w other := by
  -- the rows of another transaction are locked, and are not those of this one
  have hrow : ∀ t' ∈ other, ∀ r ∈ m.holds t', r ∈ m.others db t := fun t' ht' r hr =>
    mem_others.mpr ⟨(hother t' ht').2 r hr, fun hmine => hapart t rfl t' ht' hmine hr⟩
  cases stage with
  | goes t' =>
    obtain ⟨hfree, rfl, rfl⟩ := settle_goes hsettle
    refine ⟨fun x hx => ⟨(hother x hx).1, fun r hr => List.mem_append_right _ (hrow x hx r hr)⟩, ?_⟩
    intro t'' ht'' x hx r hr hr'
    cases Option.some.inj ht''
    rcases hfree r hr with hmine | hunlocked
    · exact hapart t rfl x hx hmine hr'
    · exact hunlocked ((hother x hx).2 r hr')
  | commits s =>
    cases hsettle
    refine ⟨fun x hx => ⟨?_, hrow x hx⟩, fun t'' ht'' => by cases ht''⟩
    exact rules.knows_commits a _ t s x hstep hs hknows (hother x hx).1 (hapart t rfl x hx)
  | rollsBack =>
    cases hsettle
    exact ⟨fun x hx => ⟨(hother x hx).1, hrow x hx⟩, fun t'' ht'' => by cases ht''⟩

variable (rules)

/-- Rules are a proof outline of the interleaving. -/
def outline : Outline m.interleaving Discipline.free where
  shared db := rules.sound db.committed
  own := rules.Own
  pair := Apart m
  pair_symm _ _ h t ht t' ht' := List.disjoint_symm (h t' ht' t ht)
  start_own b db db' w h hs := by
    cases h
    refine ⟨hs, fun t ht => ?_⟩
    cases Option.some.inj ht
    refine ⟨rules.knows_start _ b hs, fun r hr => ?_⟩
    rw [m.holds_start] at hr
    cases hr
  start_other b db db' w other h _ hother := by
    cases h
    refine ⟨hother, fun t ht t' _ r hr => ?_⟩
    cases Option.some.inj ht
    rw [m.holds_start] at hr
    cases hr
  step_own a db db' w w' h hs hown := by
    cases w with
    | none => cases h
    | some t =>
      obtain ⟨stage, hstep, hsettle⟩ := bind_eq_ok.mp h
      exact settled_own hstep hsettle hs (hown t rfl).1
  step_other a db db' w w' other h hs hown hother hapart _ := by
    cases w with
    | none => cases h
    | some t =>
      obtain ⟨stage, hstep, hsettle⟩ := bind_eq_ok.mp h
      exact settled_other hstep hsettle hs (hown t rfl).1 hother hapart
  outside_shared c db db' h hs := by
    obtain ⟨-, s, houtside, rfl⟩ := outside_eq_ok h
    exact rules.sound_outside c _ _ houtside hs
  outside_other c db db' other h hs hother _ := by
    obtain ⟨hfree, s, houtside, rfl⟩ := outside_eq_ok h
    refine fun t ht => ⟨rules.knows_outside c _ _ t houtside hs (hother t ht).1 ?_, (hother t ht).2⟩
    exact fun r hr hr' => hfree r hr ((hother t ht).2 r hr')

/-- **What rules say of the committed records holds in every state of every run.** -/
theorem always (ts : List (Turn β α γ)) {s : σ} (hs : rules.sound s) :
    m.interleaving.machine.Always (fun x => rules.sound x.shared.committed) ts ⟨⟨s, []⟩, {}⟩ :=
  rules.outline.always (fun _ h => h.shared) ts _ (.start rules.outline hs)
    (Machine.eachStep_of_invariant (I := fun _ => True) (fun _ _ _ _ _ _ => trivial)
      (fun t x _ _ _ _ => Discipline.respected_free x t) ts _ trivial)

end Rules

end Transactions

end WPanel.Lib
