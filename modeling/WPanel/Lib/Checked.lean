namespace WPanel.Lib

/-!
# Code that checks and then acts

Small facts about `Except` for reading a `do` block backwards: from the fact that a
computation ended `.ok` to the checks it passed and the values it went through.

* `ensure` — a guard that raises;
* `bind_eq_ok`, `ensure_eq_ok` — what the steps of a successful block did;
* `Raises` — of which kind the errors of a block are.
-/

universe u v

variable {ε : Type u} {α β : Type v}

/-- Raise `e` unless `p` holds. -/
def ensure (p : Prop) [Decidable p] (e : ε) : Except ε Unit := if p then .ok () else .error e

@[simp] theorem ok_bind (a : α) (f : α → Except ε β) : (Except.ok a >>= f) = f a := rfl

@[simp] theorem error_bind (e : ε) (f : α → Except ε β) : (Except.error e >>= f) = .error e := rfl

@[simp] theorem pure_eq_ok (a b : α) : (pure a : Except ε α) = .ok b ↔ a = b := by
  simp [pure, Except.pure]

@[simp] theorem throw_ne_ok (e : ε) (a : α) : (throw e : Except ε α) ≠ .ok a := nofun

/-- A block that succeeded went through a value. -/
theorem bind_eq_ok {x : Except ε α} {f : α → Except ε β} {b : β} :
    x >>= f = .ok b ↔ ∃ a, x = .ok a ∧ f a = .ok b := by
  cases x with
  | error e => simp
  | ok a => simp

@[simp] theorem ensure_eq_ok {p : Prop} [Decidable p] {e : ε} {u : Unit} :
    ensure p e = .ok u ↔ p := by
  unfold ensure
  split <;> simp [*]

/-- A block that raised stopped at its first step or after it. -/
theorem bind_eq_error {x : Except ε α} {f : α → Except ε β} {e : ε} :
    x >>= f = .error e ↔ x = .error e ∨ ∃ a, x = .ok a ∧ f a = .error e := by
  cases x with
  | error e' => simp
  | ok a => simp

@[simp] theorem ensure_eq_error {p : Prop} [Decidable p] {e e' : ε} :
    ensure p e = .error e' ↔ ¬p ∧ e = e' := by
  unfold ensure
  split <;> simp [*]

@[simp] theorem pure_ne_error (a : α) (e : ε) : (pure a : Except ε α) ≠ .error e := nofun

/-- A block that only reshapes its first step raises where that does. -/
theorem bind_pure_eq_error {x : Except ε α} {f : α → β} {e : ε} :
    (x >>= fun a => pure (f a)) = .error e ↔ x = .error e := by
  cases x with
  | error e' => exact ⟨fun h => by cases h; rfl, fun h => by cases h; rfl⟩
  | ok a => exact ⟨nofun, nofun⟩

/-- A computation raises exactly when it does not succeed. -/
theorem exists_error_iff {x : Except ε α} : (∃ e, x = .error e) ↔ ¬∃ a, x = .ok a := by
  cases x <;> simp

/-- Every error of a computation is of a kind. -/
def Raises (x : Except ε α) (P : ε → Prop) : Prop := ∀ e, x = .error e → P e

theorem raises_pure {P : ε → Prop} (a : α) : Raises (pure a : Except ε α) P :=
  fun _ h => by cases h

theorem raises_throw {P : ε → Prop} {e : ε} (h : P e) : Raises (throw e : Except ε α) P :=
  fun _ heq => by cases heq; exact h

theorem raises_ensure {P : ε → Prop} {p : Prop} [Decidable p] {e : ε} (h : P e) :
    Raises (ensure p e) P := fun _ heq => (ensure_eq_error.mp heq).2 ▸ h

theorem Raises.bind {P : ε → Prop} {x : Except ε α} {f : α → Except ε β} (hx : Raises x P)
    (hf : ∀ a, Raises (f a) P) : Raises (x >>= f) P := by
  intro e h
  rcases bind_eq_error.mp h with h | ⟨a, -, h⟩
  · exact hx e h
  · exact hf a e h

theorem raises_mapM {P : ε → Prop} {f : α → Except ε β} {l : List α} (h : ∀ a, Raises (f a) P) :
    Raises (l.mapM f) P := by
  induction l with
  | nil => exact raises_pure _
  | cons a l ih =>
    rw [List.mapM_cons]
    exact (h a).bind fun _ => ih.bind fun _ => raises_pure _

/-- Every result of a successful `mapM` comes from one of the inputs. -/
theorem mapM_eq_ok {f : α → Except ε β} {l : List α} {l' : List β} (h : l.mapM f = .ok l') :
    ∀ b ∈ l', ∃ a ∈ l, f a = .ok b := by
  induction l generalizing l' with
  | nil =>
    simp only [List.mapM_nil, pure_eq_ok] at h
    subst h
    simp
  | cons a l ih =>
    simp only [List.mapM_cons, bind_eq_ok, pure_eq_ok] at h
    obtain ⟨b, hb, bs, hbs, rfl⟩ := h
    intro c hc
    rcases List.mem_cons.mp hc with rfl | hc
    · exact ⟨a, List.mem_cons_self, hb⟩
    · obtain ⟨a', ha', hfa⟩ := ih hbs c hc
      exact ⟨a', List.mem_cons_of_mem _ ha', hfa⟩

/-- Every input of a successful `mapM` has its result. -/
theorem mapM_eq_ok_of_mem {f : α → Except ε β} {l : List α} {l' : List β} (h : l.mapM f = .ok l') :
    ∀ a ∈ l, ∃ b ∈ l', f a = .ok b := by
  induction l generalizing l' with
  | nil => simp
  | cons a l ih =>
    simp only [List.mapM_cons, bind_eq_ok, pure_eq_ok] at h
    obtain ⟨b, hb, bs, hbs, rfl⟩ := h
    intro c hc
    rcases List.mem_cons.mp hc with rfl | hc
    · exact ⟨b, List.mem_cons_self, hb⟩
    · obtain ⟨b', hb', hfc⟩ := ih hbs c hc
      exact ⟨b', List.mem_cons_of_mem _ hb', hfc⟩

/-- A `mapM` whose inputs all have a result has one. -/
theorem exists_mapM_eq_ok {f : α → Except ε β} {l : List α} (h : ∀ a ∈ l, ∃ b, f a = .ok b) :
    ∃ l', l.mapM f = .ok l' := by
  induction l with
  | nil => exact ⟨[], rfl⟩
  | cons a l ih =>
    obtain ⟨b, hb⟩ := h a List.mem_cons_self
    obtain ⟨bs, hbs⟩ := ih fun c hc => h c (List.mem_cons_of_mem a hc)
    refine ⟨b :: bs, ?_⟩
    simp only [List.mapM_cons, bind_eq_ok, pure_eq_ok]
    exact ⟨b, hb, bs, hbs, rfl⟩

/-- A `mapM` with fewer checks has the same results. -/
theorem mapM_eq_ok_mono {f g : α → Except ε β} {l : List α} {l' : List β}
    (h : ∀ a b, f a = .ok b → g a = .ok b) (hf : l.mapM f = .ok l') : l.mapM g = .ok l' := by
  induction l generalizing l' with
  | nil => exact hf
  | cons a l ih =>
    simp only [List.mapM_cons, bind_eq_ok, pure_eq_ok] at hf ⊢
    obtain ⟨b, hb, bs, hbs, rfl⟩ := hf
    exact ⟨b, h a b hb, bs, ih hbs, rfl⟩

/-- A `mapM` fails with its first input that does. -/
theorem mapM_eq_error {f : α → Except ε β} {l : List α} {e : ε} :
    l.mapM f = .error e
      ↔ ∃ front a back, l = front ++ a :: back ∧ (∀ b ∈ front, ∃ c, f b = .ok c)
        ∧ f a = .error e := by
  induction l with
  | nil =>
    refine iff_of_false nofun ?_
    rintro ⟨front, a, back, hl, -⟩
    simp at hl
  | cons a l ih =>
    rw [List.mapM_cons, bind_eq_error]
    constructor
    · rintro (ha | ⟨b, hb, h⟩)
      · exact ⟨[], a, l, rfl, by simp, ha⟩
      · rcases bind_eq_error.mp h with h | ⟨_, -, h⟩
        · obtain ⟨front, c, back, rfl, hfront, hc⟩ := ih.mp h
          refine ⟨a :: front, c, back, rfl, ?_, hc⟩
          exact List.forall_mem_cons.mpr ⟨⟨b, hb⟩, hfront⟩
        · cases h
    · rintro ⟨front, c, back, hl, hfront, hc⟩
      cases front with
      | nil =>
        obtain ⟨rfl, rfl⟩ := List.cons.inj hl
        exact .inl hc
      | cons d front =>
        obtain ⟨rfl, rfl⟩ := List.cons.inj hl
        obtain ⟨b, hb⟩ := hfront a List.mem_cons_self
        refine .inr ⟨b, hb, bind_eq_error.mpr (.inl (ih.mpr ⟨front, c, back, rfl, ?_, hc⟩))⟩
        exact fun x hx => hfront x (List.mem_cons_of_mem _ hx)

/-- A computation whose result is reshaped. -/
theorem map_eq_ok {x : Except ε α} {f : α → β} {b : β} :
    x.map f = .ok b ↔ ∃ a, x = .ok a ∧ f a = b := by
  cases x <;> simp [Except.map]

/-- Raise another error for the one that was raised. -/
@[simp] theorem mapError_eq_ok {ε' : Type u} {x : Except ε α} {f : ε → ε'} {a : α} :
    x.mapError f = .ok a ↔ x = .ok a := by
  cases x with
  | error e => exact ⟨nofun, nofun⟩
  | ok b => exact ⟨fun h => by cases h; rfl, fun h => by cases h; rfl⟩

end WPanel.Lib
