import WPanel.Lib.Checked

namespace WPanel.Lib

/-!
# Routines that change what they cannot roll back

A routine works on a state one change at a time.  An error stops it and undoes nothing: the
state stays as the changes before it left it.

* `Routine` — such code, with `do` notation; `attempt` goes on after an error;
* `Outcome`, `Routine.remote` — a call to another system, which may be carried out there although it
  fails here;
* `Frame` — what may be different after a change;
* `Routine.Within` — a routine that keeps to a frame, whether it succeeds or stops;
* `within_bind`, `within_forM`, … — the steps of a routine keep to a frame, so it does;
* `Routine.bestEffort` — steps that are all taken, whatever becomes of each;
* `Routine.Total` — a routine that no error stops, so that what comes after it is reached;
* `forM_reaches` — a loop that no error stops takes every turn;
* `Routine.Post` — what a routine leaves, with a rule for each way to build one, and `post_forM`
  for loops;
* `Routine.Raises` — every error of a routine is of a kind;
* `Routine.onFst` — a routine on one part of the state, beside an object in memory.
-/

universe u

/-- Code on states `σ` that ends with a result or with an error, and with a state either way. -/
def Routine (σ ε α : Type u) : Type u := σ → Except ε α × σ

/-- What comes of a call to another system. -/
inductive Outcome (κ α : Type u) where
  | done (a : α)
  /-- The call fails, and nothing has changed. -/
  | refused (e : κ)
  /-- The call fails here, its answer lost, and has been carried out there. -/
  | lost (e : κ) (a : α)
  deriving DecidableEq, Repr

/-- The call was carried out, be it that its answer was lost. -/
def Outcome.carriedOut {κ α : Type u} : Outcome κ α → Bool
  | .done _ => true
  | .refused _ => false
  | .lost _ _ => true

namespace Routine

variable {σ ε α β γ : Type u}

instance : Monad (Routine σ ε) where
  pure a s := (.ok a, s)
  bind r k s :=
    match r s with
    | (.ok a, s') => k a s'
    | (.error e, s') => (.error e, s')

/-- A check that looks at nothing of the state. -/
def check (x : Except ε α) : Routine σ ε α := fun s => (x, s)

/-- Look at the state. -/
def read (f : σ → α) : Routine σ ε α := fun s => (.ok (f s), s)

/-- Change the state. -/
def change (f : σ → σ) : Routine σ ε PUnit := fun s => (.ok ⟨⟩, f s)

/-- `try: … except: …`: do it, and go on whether it succeeded. -/
def attempt (r : Routine σ ε α) : Routine σ ε (Except ε α) := fun s =>
  let (x, s') := r s
  (.ok x, s')

/-- Take every step, whatever becomes of the ones before. -/
def bestEffort (steps : List (Routine σ ε PUnit)) : Routine σ ε PUnit :=
  steps.forM fun step => step.attempt >>= fun _ => pure ⟨⟩

/-- A call to another system, with what it does there. -/
def remote {κ : Type u} (toErr : κ → ε) (x : Outcome κ α) (effect : α → σ → σ) : Routine σ ε α :=
  fun s =>
    match x with
    | .done a => (.ok a, effect a s)
    | .refused e => (.error (toErr e), s)
    | .lost e a => (.error (toErr e), effect a s)

@[simp] theorem pure_apply (a : α) (s : σ) : (pure a : Routine σ ε α) s = (.ok a, s) := rfl

theorem bind_apply (r : Routine σ ε α) (k : α → Routine σ ε β) (s : σ) :
    (r >>= k) s = match r s with
      | (.ok a, s') => k a s'
      | (.error e, s') => (.error e, s') := rfl

/-- The step succeeded: the rest runs on the state it left. -/
theorem bind_of_ok {r : Routine σ ε α} {k : α → Routine σ ε β} {s s' : σ} {a : α}
    (h : r s = (.ok a, s')) : (r >>= k) s = k a s' := by
  rw [bind_apply, h]

/-- The step stopped: so does the whole. -/
theorem bind_of_error {r : Routine σ ε α} {k : α → Routine σ ε β} {s s' : σ} {e : ε}
    (h : r s = (.error e, s')) : (r >>= k) s = (.error e, s') := by
  rw [bind_apply, h]

/-- A sequence ended well: so did both parts. -/
theorem bind_ok_inv {r : Routine σ ε α} {k : α → Routine σ ε β} {s : σ} {b : β}
    (h : ((r >>= k) s).1 = .ok b) :
    ∃ a, (r s).1 = .ok a ∧ (k a (r s).2).1 = .ok b ∧ (r >>= k) s = k a (r s).2 := by
  rcases hr : r s with ⟨e | a, s'⟩
  · rw [bind_of_error hr] at h
    cases h
  · rw [bind_of_ok hr] at h ⊢
    exact ⟨a, rfl, h, rfl⟩

/-- What a sequence leaves is what the first part left, or the second. -/
theorem bind_state (r : Routine σ ε α) (k : α → Routine σ ε β) (s : σ) :
    ((r >>= k) s).2 = (r s).2 ∨ ∃ a, ((r >>= k) s).2 = (k a (r s).2).2 := by
  rcases hr : r s with ⟨e | a, s'⟩
  · exact .inl (by rw [bind_of_error hr])
  · exact .inr ⟨a, by rw [bind_of_ok hr]⟩

/-- The step only looked. -/
theorem bind_of_still {r : Routine σ ε α} {k : α → Routine σ ε β} {s : σ} (h : (r s).2 = s) :
    (r >>= k) s = match (r s).1 with
      | .ok a => k a s
      | .error e => (.error e, s) := by
  rw [bind_apply]
  rcases hr : r s with ⟨_ | _, s'⟩
  · rw [hr] at h
    cases h
    rfl
  · rw [hr] at h
    cases h
    rfl

@[simp] theorem check_apply (x : Except ε α) (s : σ) : (check x : Routine σ ε α) s = (x, s) := rfl

@[simp] theorem read_apply (f : σ → α) (s : σ) : (read f : Routine σ ε α) s = (.ok (f s), s) := rfl

@[simp] theorem change_apply (f : σ → σ) (s : σ) :
    (change f : Routine σ ε PUnit) s = (.ok ⟨⟩, f s) := rfl

@[simp] theorem attempt_apply (r : Routine σ ε α) (s : σ) :
    (attempt r) s = (.ok (r s).1, (r s).2) := rfl

end Routine

/-- What a change may do: nothing is allowed, and two allowed changes make an allowed one. -/
structure Frame (σ : Type u) where
  allows : σ → σ → Prop
  refl : ∀ s, allows s s
  trans : ∀ s s' s'', allows s s' → allows s' s'' → allows s s''

/-- Nothing changes. -/
def Frame.still (σ : Type u) : Frame σ where
  allows s s' := s' = s
  refl _ := rfl
  trans _ _ _ h h' := h'.trans h

/-- What is read off a state stays. -/
def Frame.fixing {σ τ : Type u} (f : σ → τ) : Frame σ where
  allows s s' := f s' = f s
  refl _ := rfl
  trans _ _ _ h h' := h'.trans h

namespace Routine

variable {σ ε α β γ : Type u} {fr : Frame σ}

/-- Whatever becomes of the routine, it keeps to the frame. -/
def Within (r : Routine σ ε α) (fr : Frame σ) : Prop := ∀ s, fr.allows s (r s).2

theorem within_pure (a : α) : (pure a : Routine σ ε α).Within fr := fun s => fr.refl s

theorem within_check (x : Except ε α) : (check x : Routine σ ε α).Within fr := fun s => fr.refl s

theorem within_read (f : σ → α) : (read f : Routine σ ε α).Within fr := fun s => fr.refl s

/-- One step after the other keeps to a frame. -/
theorem within_bind {r : Routine σ ε α} {k : α → Routine σ ε β} (hr : r.Within fr)
    (hk : ∀ a, (k a).Within fr) : (r >>= k).Within fr := by
  intro s
  have hs := hr s
  rw [bind_apply]
  split
  · next a s' h =>
    rw [h] at hs
    exact fr.trans _ _ _ hs (hk a s')
  · next e s' h =>
    rw [h] at hs
    exact hs

theorem within_attempt {r : Routine σ ε α} (hr : r.Within fr) : r.attempt.Within fr := hr

theorem within_ite {p : Prop} [Decidable p] {r r' : Routine σ ε α} (hr : p → r.Within fr)
    (hr' : ¬p → r'.Within fr) : (if p then r else r').Within fr := by
  split
  · next h => exact hr h
  · next h => exact hr' h

/-- A loop keeps to a frame that each turn of it keeps to. -/
theorem within_forM {l : List γ} {body : γ → Routine σ ε PUnit}
    (h : ∀ c ∈ l, (body c).Within fr) : (l.forM body).Within fr := by
  induction l with
  | nil => exact within_pure _
  | cons c l ih =>
    refine within_bind (h c List.mem_cons_self) fun _ => ih fun d hd => ?_
    exact h d (List.mem_cons_of_mem _ hd)

theorem within_bestEffort {l : List (Routine σ ε PUnit)} (h : ∀ step ∈ l, step.Within fr) :
    (bestEffort l).Within fr :=
  within_forM fun step hstep => within_bind (within_attempt (h step hstep)) fun _ => within_pure _

/-- What the first step brings about, and the rest keeps. -/
theorem bind_keeps {r : Routine σ ε α} {k : α → Routine σ ε β} {P : σ → Prop} {s : σ}
    (hr : P (r s).2) (hk : ∀ a s, P s → P (k a s).2) : P ((r >>= k) s).2 := by
  rw [bind_apply]
  split
  · next a s' h =>
    rw [h] at hr
    exact hk a s' hr
  · next e s' h =>
    rw [h] at hr
    exact hr

/-- A check stops the routine, or the rest goes on from the same state. -/
theorem check_bind {x : Except ε α} {k : α → Routine σ ε β} {P : σ → Prop} {s : σ} (hs : P s)
    (hk : ∀ a, x = .ok a → P (k a s).2) : P ((check x >>= k) s).2 := by
  cases x with
  | error e => exact hs
  | ok a => exact hk a rfl

/-! ### Routines that never stop -/

/-- No error stops the routine. -/
def Total (r : Routine σ ε α) : Prop := ∀ s, ∃ a, (r s).1 = .ok a

theorem total_pure (a : α) : (pure a : Routine σ ε α).Total := fun _ => ⟨a, rfl⟩

theorem total_attempt (r : Routine σ ε α) : r.attempt.Total := fun s => ⟨(r s).1, rfl⟩

theorem total_bind {r : Routine σ ε α} {k : α → Routine σ ε β} (hr : r.Total)
    (hk : ∀ a, (k a).Total) : (r >>= k).Total := by
  intro s
  obtain ⟨a, ha⟩ := hr s
  rw [bind_of_ok (Prod.ext ha rfl)]
  exact hk a _

theorem total_ite {p : Prop} [Decidable p] {r r' : Routine σ ε α} (hr : p → r.Total)
    (hr' : ¬p → r'.Total) : (if p then r else r').Total := by
  split
  · next h => exact hr h
  · next h => exact hr' h

/-- What comes after a routine that never stops is reached. -/
theorem Total.bind_reaches {r : Routine σ ε α} (hr : r.Total) {k : α → Routine σ ε β}
    {P : σ → Prop} (s : σ) (hk : ∀ a, P (k a (r s).2).2) : P ((r >>= k) s).2 := by
  obtain ⟨a, ha⟩ := hr s
  rw [bind_of_ok (Prod.ext ha rfl)]
  exact hk a

/-! ### Loops that run to their end -/

theorem forM_cons_of_ok {c : γ} {l : List γ} {body : γ → Routine σ ε PUnit} {s : σ}
    (h : (body c s).1 = .ok ⟨⟩) : (c :: l).forM body s = l.forM body (body c s).2 :=
  bind_of_ok (Prod.ext h rfl)

/-- **A loop that no error stops takes every turn**: what one turn brings about, and no other
    undoes, holds at the end. -/
theorem forM_reaches {l : List γ} {body : γ → Routine σ ε PUnit}
    (hok : ∀ c ∈ l, ∀ s, (body c s).1 = .ok ⟨⟩) {c : γ} (hc : c ∈ l) {P : σ → Prop}
    (hP : ∀ s, P (body c s).2) (hkeep : ∀ d ∈ l, ∀ s, P s → P (body d s).2) (s : σ) :
    P (l.forM body s).2 := by
  have hrest : ∀ l' : List γ, (∀ d ∈ l', d ∈ l) → ∀ s, P s → P (l'.forM body s).2 := by
    intro l'
    induction l' with
    | nil => exact fun _ s hs => hs
    | cons d l' ih =>
      intro hl' s hs
      have hd := hl' d List.mem_cons_self
      rw [forM_cons_of_ok (hok d hd s)]
      exact ih (fun e he => hl' e (List.mem_cons_of_mem _ he)) _ (hkeep d hd s hs)
  induction l generalizing s with
  | nil => cases hc
  | cons d l ih =>
    rw [forM_cons_of_ok (hok d List.mem_cons_self s)]
    rcases List.mem_cons.mp hc with rfl | hc
    · exact hrest l (fun e he => List.mem_cons_of_mem _ he) _ (hP s)
    · refine ih (fun e he => hok e (List.mem_cons_of_mem _ he)) hc
        (fun e he => hkeep e (List.mem_cons_of_mem _ he)) _ fun l' hl' => ?_
      exact hrest l' fun e he => List.mem_cons_of_mem _ (hl' e he)

/-- A loop whose turns all end well ends well. -/
theorem forM_ok {l : List γ} {body : γ → Routine σ ε PUnit}
    (hok : ∀ c ∈ l, ∀ s, (body c s).1 = .ok ⟨⟩) (s : σ) : (l.forM body s).1 = .ok ⟨⟩ := by
  induction l generalizing s with
  | nil => rfl
  | cons d l ih =>
    rw [forM_cons_of_ok (hok d List.mem_cons_self s)]
    exact ih (fun e he => hok e (List.mem_cons_of_mem _ he)) _

theorem bestEffort_ok (l : List (Routine σ ε PUnit)) (s : σ) : (bestEffort l s).1 = .ok ⟨⟩ :=
  forM_ok (fun _ _ _ => rfl) s

/-- Every step of a best effort is taken. -/
theorem bestEffort_reaches {l : List (Routine σ ε PUnit)} {step : Routine σ ε PUnit}
    (hstep : step ∈ l) {P : σ → Prop} (hP : ∀ s, P (step s).2)
    (hkeep : ∀ other ∈ l, ∀ s, P s → P (other s).2) (s : σ) : P (bestEffort l s).2 :=
  have hok : ∀ c ∈ l, ∀ s, ((c.attempt >>= fun _ => pure PUnit.unit : Routine σ ε PUnit) s).1
      = .ok ⟨⟩ := fun _ _ _ => rfl
  forM_reaches hok hstep hP hkeep s

theorem bestEffort_cons (step : Routine σ ε PUnit) (l : List (Routine σ ε PUnit)) (s : σ) :
    (bestEffort (step :: l) s).2 = (bestEffort l (step s).2).2 := rfl

theorem bestEffort_append (l l' : List (Routine σ ε PUnit)) (s : σ) :
    (bestEffort (l ++ l') s).2 = (bestEffort l' (bestEffort l s).2).2 := by
  induction l generalizing s with
  | nil => rfl
  | cons step l ih => rw [List.cons_append, bestEffort_cons, bestEffort_cons, ih]

/-! ### What a routine leaves -/

/-- What holds when the routine ends well, and what holds when an error stops it. -/
def Post (r : Routine σ ε α) (s : σ) (good : α → σ → Prop) (bad : σ → Prop) : Prop :=
  match r s with
  | (.ok a, s') => good a s'
  | (.error _, s') => bad s'

variable {r : Routine σ ε α} {k : α → Routine σ ε β} {s : σ} {good : α → σ → Prop}
  {last : β → σ → Prop} {bad : σ → Prop}

theorem post_pure {a : α} (h : good a s) : (pure a : Routine σ ε α).Post s good bad := h

theorem post_check {x : Except ε α} (hok : ∀ a, x = .ok a → good a s)
    (hbad : ∀ e, x = .error e → bad s) : (check x).Post s good bad := by
  cases x with
  | ok a => exact hok a rfl
  | error e => exact hbad e rfl

theorem post_read {f : σ → α} (h : good (f s) s) : (read f : Routine σ ε α).Post s good bad := h

theorem post_change {f : σ → σ} {good : PUnit → σ → Prop} (h : good ⟨⟩ (f s)) :
    (change f : Routine σ ε PUnit).Post s good bad := h

/-- A call to another system: carried out, refused, or carried out and not answered. -/
theorem post_remote {κ : Type u} {toErr : κ → ε} {x : Outcome κ α} {effect : α → σ → σ}
    (hdone : ∀ a, x = .done a → good a (effect a s)) (hrefused : ∀ e, x = .refused e → bad s)
    (hlost : ∀ e a, x = .lost e a → bad (effect a s)) :
    (remote toErr x effect).Post s good bad := by
  cases x with
  | done a => exact hdone a rfl
  | refused e => exact hrefused e rfl
  | lost e a => exact hlost e a rfl

/-- One step after the other: the second starts from what the first left. -/
theorem post_bind (h : r.Post s (fun a s' => (k a).Post s' last bad) bad) :
    (r >>= k).Post s last bad := by
  unfold Post at h ⊢
  rw [bind_apply]
  rcases hr : r s with ⟨e | a, s'⟩
  · rw [hr] at h
    exact h
  · rw [hr] at h
    exact h

/-- A routine that never stops. -/
theorem Total.post (hr : r.Total) (h : ∀ a s', good a s') : r.Post s good bad := by
  obtain ⟨a, ha⟩ := hr s
  unfold Post
  rw [show r s = (.ok a, (r s).2) from Prod.ext ha rfl]
  exact h a _

theorem Post.mono {good' : α → σ → Prop} {bad' : σ → Prop} (h : r.Post s good bad)
    (hgood : ∀ a s, good a s → good' a s) (hbad : ∀ s, bad s → bad' s) : r.Post s good' bad' := by
  unfold Post at h ⊢
  split <;> rename_i hrs <;> rw [hrs] at h
  · exact hgood _ _ h
  · exact hbad _ h

/-- What holds however the routine ends. -/
theorem Post.state {P : σ → Prop} (h : r.Post s (fun _ => P) P) : P (r s).2 := by
  unfold Post at h
  split at h <;> rename_i hrs <;> rw [hrs] <;> exact h

/-- **Loops**: what holds after some turns holds after the next, or an error stops that turn. -/
theorem post_forM {l : List γ} {body : γ → Routine σ ε PUnit} {I : List γ → σ → Prop}
    (h : ∀ done c rest, done ++ c :: rest = l → ∀ s, I done s →
      (body c).Post s (fun _ => I (done ++ [c])) bad) (hs : I [] s) :
    (l.forM body).Post s (fun _ => I l) bad := by
  have hrest : ∀ rest done : List γ, done ++ rest = l → ∀ s, I done s →
      (rest.forM body).Post s (fun _ => I l) bad := by
    intro rest
    induction rest with
    | nil =>
      intro done hdone s hs
      rw [List.append_nil] at hdone
      exact post_pure (hdone ▸ hs)
    | cons c rest ih =>
      intro done hdone s hs
      refine post_bind ((h done c rest hdone s hs).mono (fun _ s' hs' => ?_) fun _ hbad => hbad)
      exact ih (done ++ [c]) (by rw [List.append_assoc]; exact hdone) s' hs'
  exact hrest l [] rfl s hs

/-- Every error of the routine is of a kind. -/
def Raises (r : Routine σ ε α) (P : ε → Prop) : Prop := ∀ s e, (r s).1 = .error e → P e

theorem raises_pure {P : ε → Prop} (a : α) : (pure a : Routine σ ε α).Raises P :=
  fun _ _ h => by cases h

/-- One step after the other raises what either raises. -/
theorem Raises.bind {P : ε → Prop} (hr : r.Raises P) (hk : ∀ a, (k a).Raises P) :
    (r >>= k).Raises P := by
  intro s e h
  rcases hrun : r s with ⟨e' | a, s'⟩
  · rw [bind_of_error hrun] at h
    cases h
    exact hr s e (congrArg Prod.fst hrun)
  · rw [bind_of_ok hrun] at h
    exact hk a s' e h

theorem raises_forM {P : ε → Prop} {l : List γ} {body : γ → Routine σ ε PUnit}
    (h : ∀ c ∈ l, (body c).Raises P) : (l.forM body).Raises P := by
  induction l with
  | nil => exact raises_pure _
  | cons c l ih =>
    refine (h c List.mem_cons_self).bind fun _ => ih fun d hd => ?_
    exact h d (List.mem_cons_of_mem c hd)

/-- What an error leaves. -/
theorem Post.of_error {e : ε} {s' : σ} (h : r.Post s good bad) (hr : r s = (.error e, s')) :
    bad s' := by
  rw [Post, hr] at h
  exact h

/-! ### Beside an object in memory -/

/-- A routine that works on the first part of the state. -/
def onFst {τ : Type u} (r : Routine σ ε α) : Routine (σ × τ) ε α := fun s =>
  let (x, s') := r s.1
  (x, (s', s.2))

theorem post_onFst {τ : Type u} {r : Routine σ ε α} {s : σ × τ} {good : α → σ × τ → Prop}
    {bad : σ × τ → Prop}
    (h : r.Post s.1 (fun a s' => good a (s', s.2)) fun s' => bad (s', s.2)) :
    (onFst r).Post s good bad := by
  unfold Post at h ⊢
  unfold onFst
  rcases hr : r s.1 with ⟨e | a, s'⟩
  · rw [hr] at h
    exact h
  · rw [hr] at h
    exact h

end Routine

end WPanel.Lib
