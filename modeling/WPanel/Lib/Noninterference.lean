namespace WPanel.Lib

/-!
# Two runs that look alike

A system some of whose calls are hidden from an observer.  Two runs that differ only in hidden
calls are to look alike to it.

* `Observed` — the system, and what the observer sees of it;
* `Observed.known` — the calls of a run that are not hidden;
* `Observed.trace` — what a run shows, call by call;
* `view_run` — hidden calls leave the view as it is;
* `trace_eq_iff` — where a known call shows the same from two states of one view exactly when a mark
  of it agrees, two runs that differ only in hidden calls look alike exactly when the marks do.
-/

universe u

/-- A system and an observer: the calls hidden from it, what it sees of a state, and what a call
    that is not hidden shows it. -/
structure Observed (σ α ν ο : Type u) where
  next : α → σ → σ
  hidden : α → Bool
  view : σ → ν
  shown : α → σ → ο

namespace Observed

variable {σ α ν ο : Type u} (o : Observed σ α ν ο)

/-- The calls the observer knows of. -/
def known (as : List α) : List α := as.filter fun a => !o.hidden a

/-- The state after a list of calls. -/
def run : List α → σ → σ
  | [], s => s
  | a :: as, s => run as (o.next a s)

/-- What a run shows: of each known call what it shows, and the view it leaves. -/
def trace : List α → σ → List (ο × ν)
  | [], _ => []
  | a :: as, s =>
    if o.hidden a then trace as (o.next a s)
    else (o.shown a s, o.view (o.next a s)) :: trace as (o.next a s)

/-- A mark of each known call, in the state it finds. -/
def marks (mark : α → σ → Bool) : List α → σ → List Bool
  | [], _ => []
  | a :: as, s =>
    if o.hidden a then marks mark as (o.next a s) else mark a s :: marks mark as (o.next a s)

variable {o}

/-- Hidden calls leave the view as it is, and show nothing. -/
theorem view_run (hhidden : ∀ a s, o.hidden a = true → o.view (o.next a s) = o.view s) :
    ∀ (as : List α) (s : σ), (∀ a ∈ as, o.hidden a = true) → o.view (o.run as s) = o.view s := by
  intro as
  induction as with
  | nil => intro s _; rfl
  | cons a as ih =>
    intro s h
    rw [run, ih _ fun b hb => h b (List.mem_cons_of_mem _ hb)]
    exact hhidden a s (h a List.mem_cons_self)

theorem trace_append {as : List α} (h : ∀ a ∈ as, o.hidden a = true) (bs : List α) (s : σ) :
    o.trace (as ++ bs) s = o.trace bs (o.run as s) := by
  induction as generalizing s with
  | nil => rfl
  | cons a as ih =>
    rw [List.cons_append, trace, if_pos (h a List.mem_cons_self), run]
    exact ih (fun b hb => h b (List.mem_cons_of_mem _ hb)) _

theorem marks_append {mark : α → σ → Bool} {as : List α} (h : ∀ a ∈ as, o.hidden a = true)
    (bs : List α) (s : σ) : o.marks mark (as ++ bs) s = o.marks mark bs (o.run as s) := by
  induction as generalizing s with
  | nil => rfl
  | cons a as ih =>
    rw [List.cons_append, marks, if_pos (h a List.mem_cons_self), run]
    exact ih (fun b hb => h b (List.mem_cons_of_mem _ hb)) _

/-- The next known call, after the hidden ones in front of it. -/
theorem exists_of_known_eq_cons {a : α} {as bs : List α} (h : o.known bs = a :: as) :
    ∃ front back, bs = front ++ a :: back ∧ (∀ b ∈ front, o.hidden b = true)
      ∧ o.known back = as := by
  obtain ⟨front, back, rfl, hfront, -, hback⟩ := List.filter_eq_cons_iff.mp h
  exact ⟨front, back, rfl, fun b hb => by simpa using hfront b hb, hback⟩

theorem hidden_of_known_eq_nil {bs : List α} (h : o.known bs = []) :
    ∀ b ∈ bs, o.hidden b = true := by
  intro b hb
  simpa using List.filter_eq_nil_iff.mp h b hb

/-- **Two runs that differ only in hidden calls look alike exactly when their marks agree.** -/
theorem trace_eq_iff {mark : α → σ → Bool}
    (hhidden : ∀ a s, o.hidden a = true → o.view (o.next a s) = o.view s)
    (hknown : ∀ a s t, o.hidden a = false → o.view s = o.view t →
      ((o.shown a s, o.view (o.next a s)) = (o.shown a t, o.view (o.next a t))
        ↔ mark a s = mark a t)) :
    ∀ (as bs : List α) (s t : σ), o.known as = o.known bs → o.view s = o.view t →
      (o.trace as s = o.trace bs t ↔ o.marks mark as s = o.marks mark bs t) := by
  intro as
  induction as with
  | nil =>
    intro bs s t h _
    have hbs := hidden_of_known_eq_nil h.symm
    rw [← List.append_nil bs, trace_append hbs, marks_append hbs]
    exact iff_of_true rfl rfl
  | cons a as ih =>
    intro bs s t h hview
    cases ha : o.hidden a with
    | true =>
      rw [trace, if_pos ha, marks, if_pos ha]
      refine ih bs _ t ?_ ((hhidden a s ha).trans hview)
      rw [← h, known, known, List.filter_cons_of_neg (by simp [ha])]
    | false =>
      have hcons : o.known bs = a :: o.known as := by
        rw [← h, known, List.filter_cons_of_pos (by simp [ha])]
        rfl
      obtain ⟨front, back, rfl, hfront, hback⟩ := exists_of_known_eq_cons hcons
      have hsame : o.view s = o.view (o.run front t) :=
        hview.trans (view_run hhidden front t hfront).symm
      have hone := hknown a s (o.run front t) ha hsame
      rw [trace_append hfront, marks_append hfront, trace, trace, marks, marks, ha,
        if_neg Bool.false_ne_true, if_neg Bool.false_ne_true, if_neg Bool.false_ne_true,
        if_neg Bool.false_ne_true, List.cons.injEq, List.cons.injEq, hone]
      -- once the marks of this call agree, it leaves two states of one view
      refine and_congr_right fun hmark => ?_
      exact ih back _ _ hback.symm (Prod.mk.inj (hone.mpr hmark)).2

end Observed

end WPanel.Lib
