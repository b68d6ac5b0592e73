import Mathlib.Data.List.Nodup

namespace WPanel.Lib

/-!
# A pass over a list of items

A job that does something with one item after another, where each item has its own part of the
state.

* `inTurn` — one item after the other, with what each reports;
* `OwnPart` — an item reads and writes only the part under its own key;
* `inTurn_reports`, `view_inTurn_of_mem` — then a pass does with each item what it would have done
  with it alone.
-/

universe u

variable {ι σ ω κ ν : Type u}

/-- One item after the other, with what each reports. -/
def inTurn (step : ι → σ → σ × ω) : List ι → σ → σ × List ω
  | [], s => (s, [])
  | i :: rest, s =>
    let (s, report) := step i s
    let (s, reports) := inTurn step rest s
    (s, report :: reports)

/-- What every item keeps, a pass keeps. -/
theorem inTurn_invariant {step : ι → σ → σ × ω} {P : σ → Prop}
    (hstep : ∀ i s, P s → P (step i s).1) (items : List ι) (s : σ) (hs : P s) :
    P (inTurn step items s).1 := by
  induction items generalizing s with
  | nil => exact hs
  | cons i rest ih => exact ih _ (hstep i s hs)

/-- An item reads and writes only what is seen under its own key. -/
structure OwnPart (key : ι → κ) (view : κ → σ → ν) (step : ι → σ → σ × ω) : Prop where
  reads : ∀ i s t, view (key i) s = view (key i) t →
    (step i s).2 = (step i t).2 ∧ view (key i) (step i s).1 = view (key i) (step i t).1
  writes : ∀ i k s, k ≠ key i → view k (step i s).1 = view k s

section

variable {key : ι → κ} {view : κ → σ → ν} {step : ι → σ → σ × ω} (h : OwnPart key view step)

include h

/-- What no item has as its key is left alone. -/
theorem view_inTurn_of_not_mem {k : κ} (items : List ι) (s : σ) (hk : ∀ i ∈ items, k ≠ key i) :
    view k (inTurn step items s).1 = view k s := by
  induction items generalizing s with
  | nil => rfl
  | cons i rest ih =>
    have hrest := ih (step i s).1 fun j hj => hk j (List.mem_cons_of_mem i hj)
    exact hrest.trans (h.writes i k s (hk i List.mem_cons_self))

/-- The items after the first find their parts as they were. -/
private theorem view_step {i : ι} {rest : List ι} (hnodup : ((i :: rest).map key).Nodup) (s : σ) :
    ∀ j ∈ rest, view (key j) (step i s).1 = view (key j) s := by
  intro j hj
  refine h.writes i (key j) s fun heq => ?_
  obtain ⟨hnot, _⟩ := List.nodup_cons.mp hnodup
  exact hnot (heq ▸ List.mem_map_of_mem hj)

/-- **Every item reports what it would have reported alone.** -/
theorem inTurn_reports (items : List ι) (hnodup : (items.map key).Nodup) (s : σ) :
    (inTurn step items s).2 = items.map fun i => (step i s).2 := by
  induction items generalizing s with
  | nil => rfl
  | cons i rest ih =>
    have hview := view_step h hnodup s
    show (step i s).2 :: (inTurn step rest (step i s).1).2 = _
    rw [ih (List.nodup_cons.mp hnodup).2, List.map_cons]
    congr 1
    exact List.map_congr_left fun j hj => (h.reads j _ _ (hview j hj)).1

/-- **Every item leaves its part as it would have left it alone.** -/
theorem view_inTurn_of_mem {i : ι} (items : List ι) (hnodup : (items.map key).Nodup)
    (hi : i ∈ items)
    (s : σ) : view (key i) (inTurn step items s).1 = view (key i) (step i s).1 := by
  induction items generalizing s with
  | nil => exact absurd hi List.not_mem_nil
  | cons j rest ih =>
    show view (key i) (inTurn step rest (step j s).1).1 = _
    obtain ⟨hnot, hrest⟩ := List.nodup_cons.mp hnodup
    rcases List.mem_cons.mp hi with rfl | hi
    · exact view_inTurn_of_not_mem h rest _ fun j hj heq =>
        hnot (heq ▸ List.mem_map_of_mem hj)
    · rw [ih hrest hi]
      exact (h.reads i _ _ (view_step h hnodup s i hi)).2

end

end WPanel.Lib
