import Mathlib.Data.Finset.Card
import Mathlib.Data.Finset.Dedup
import Mathlib.Logic.Relation

namespace WPanel.Lib

/-!
# Searching a graph for a way back

A worklist search over a list of edges: it takes the last vertex off the list of work, looks at the
edges that leave it, and stops as soon as one of them leads back to where the search began.

* `Edge`, `Cyclic` — an edge of the graph, and a way from a vertex back to it;
* `scanEdges`, `searchBack` — one round, and the rounds;
* `searchBack_ends` — there are no more rounds than edges, and two more;
* `searchBack_iff` — the search finds a way back exactly when there is one;
* `cyclic_append_iff` — an edge closes a cycle in a graph without one exactly when there is a way
  back to where it begins.
-/

universe u

section

variable {α : Type u}

/-- There is an edge from the one to the other. -/
def Edge (edges : List (α × α)) (a b : α) : Prop := (a, b) ∈ edges

/-- There is a way from some vertex back to it. -/
def Cyclic (edges : List (α × α)) : Prop := ∃ a, Relation.TransGen (Edge edges) a a

theorem Edge.mono {edges edges' : List (α × α)} (h : edges ⊆ edges') {a b : α} :
    Edge edges a b → Edge edges' a b := fun hab => h hab

/-- Edges can be taken away. -/
theorem Cyclic.mono {edges edges' : List (α × α)} (hcyclic : Cyclic edges)
    (h : edges ⊆ edges') : Cyclic edges' := by
  obtain ⟨a, ha⟩ := hcyclic
  exact ⟨a, ha.lift id fun _ _ => Edge.mono h⟩

theorem not_cyclic_nil : ¬Cyclic ([] : List (α × α)) := by
  rintro ⟨a, ha⟩
  obtain ⟨b, hab, -⟩ := Relation.TransGen.head'_iff.mp ha
  exact absurd hab List.not_mem_nil

/-- A way that uses the new edge goes through where it begins. -/
private theorem transGen_append {edges : List (α × α)} {source destination a b : α}
    (h : Relation.TransGen (Edge (edges ++ [(source, destination)])) a b) :
    Relation.TransGen (Edge edges) a b
      ∨ (Relation.ReflTransGen (Edge (edges ++ [(source, destination)])) a source
        ∧ Relation.TransGen (Edge (edges ++ [(source, destination)])) source b) := by
  induction h with
  | @single b hab =>
    rcases List.mem_append.mp hab with hold | hnew
    · exact .inl (.single hold)
    · cases List.mem_singleton.mp hnew
      exact .inr ⟨.refl, .single hab⟩
  | @tail b c hpath hbc ih =>
    rcases ih with hold | ⟨hto, hfrom⟩
    · rcases List.mem_append.mp hbc with hedge | hnew
      · exact .inl (hold.tail hedge)
      · cases List.mem_singleton.mp hnew
        exact .inr ⟨hpath.to_reflTransGen, .single hbc⟩
    · exact .inr ⟨hto, hfrom.tail hbc⟩

/-- **An edge closes a cycle** in a graph without one exactly when there is a way from where it
    begins back to it. -/
theorem cyclic_append_iff {edges : List (α × α)} {source destination : α} (h : ¬Cyclic edges) :
    Cyclic (edges ++ [(source, destination)])
      ↔ Relation.TransGen (Edge (edges ++ [(source, destination)])) source source := by
  refine ⟨?_, fun hback => ⟨source, hback⟩⟩
  rintro ⟨a, ha⟩
  rcases transGen_append ha with hold | ⟨hto, hfrom⟩
  · exact absurd ⟨a, hold⟩ h
  · exact hfrom.trans_left hto

end

/-! ### The search -/

section

variable {α : Type u} [DecidableEq α]

/-- One round: the edges that leave `current` are looked at one after the other.  What is new goes
    on the lists of what was seen and of the work; nothing is returned where an edge leads back to
    `start`. -/
def scanEdges (start current : α) : List (α × α) → List α → List α → Option (List α × List α)
  | [], seen, frontier => some (seen, frontier)
  | (source, destination) :: rest, seen, frontier =>
    if source = current then
      if destination = start then none
      else if destination ∈ seen then scanEdges start current rest seen frontier
      else scanEdges start current rest (destination :: seen) (destination :: frontier)
    else scanEdges start current rest seen frontier

/-- The rounds: whether a way back was found, or nothing when the rounds given were too few. -/
def searchRounds (edges : List (α × α)) (start : α) : ℕ → List α → List α → Option Bool
  | _, _, [] => some false
  | 0, _, _ :: _ => none
  | rounds + 1, seen, current :: frontier =>
    match scanEdges start current edges seen frontier with
    | none => some true
    | some (seen', frontier') => searchRounds edges start rounds seen' frontier'

/-- The whole search. -/
def searchBack (edges : List (α × α)) (start : α) : Option Bool :=
  searchRounds edges start (edges.length + 2) [] [start]

variable {edges : List (α × α)} {start current : α} {seen frontier seen' frontier' : List α}

/-- An edge that leads back is found. -/
theorem scanEdges_eq_none :
    scanEdges start current edges seen frontier = none ↔ (current, start) ∈ edges := by
  induction edges generalizing seen frontier with
  | nil => simp [scanEdges]
  | cons edge rest ih =>
    obtain ⟨source, destination⟩ := edge
    rw [scanEdges, List.mem_cons, Prod.mk.injEq]
    by_cases hsource : source = current
    · by_cases hback : destination = start
      · simp [hsource, hback]
      · rw [if_pos hsource, if_neg hback]
        have hno : ¬(current = source ∧ start = destination) := fun h => hback h.2.symm
        split <;> rw [ih, or_iff_right hno]
    · have hno : ¬(current = source ∧ start = destination) := fun h => hsource h.1.symm
      rw [if_neg hsource, ih, or_iff_right hno]

/-- What a round adds: new vertices an edge leads to, all of them. -/
theorem scanEdges_eq_some
    (h : scanEdges start current edges seen frontier = some (seen', frontier')) :
    ∃ new, seen' = new ++ seen ∧ frontier' = new ++ frontier ∧ new.Nodup
      ∧ (∀ b ∈ new, (current, b) ∈ edges ∧ b ∉ seen)
      ∧ ∀ b, (current, b) ∈ edges → b ∈ seen' := by
  induction edges generalizing seen frontier with
  | nil =>
    cases h
    exact ⟨[], rfl, rfl, List.nodup_nil, by simp, by simp⟩
  | cons edge rest ih =>
    obtain ⟨source, destination⟩ := edge
    rw [scanEdges] at h
    by_cases hsource : source = current
    · rw [if_pos hsource] at h
      by_cases hback : destination = start
      · rw [if_pos hback] at h
        cases h
      · rw [if_neg hback] at h
        subst hsource
        by_cases hseen : destination ∈ seen
        · rw [if_pos hseen] at h
          obtain ⟨new, rfl, rfl, hnodup, hnew, hall⟩ := ih h
          refine ⟨new, rfl, rfl, hnodup, fun b hb => ?_, fun b hb => ?_⟩
          · exact ⟨List.mem_cons_of_mem _ (hnew b hb).1, (hnew b hb).2⟩
          · rcases List.mem_cons.mp hb with heq | hrest
            · cases heq
              exact List.mem_append_right _ hseen
            · exact hall b hrest
        · rw [if_neg hseen] at h
          obtain ⟨new, rfl, rfl, hnodup, hnew, hall⟩ := ih h
          refine ⟨new ++ [destination], by simp, by simp, ?_, fun b hb => ?_, fun b hb => ?_⟩
          · refine hnodup.append (List.nodup_singleton _) fun b hb hb' => ?_
            cases List.mem_singleton.mp hb'
            exact (hnew _ hb).2 List.mem_cons_self
          · rcases List.mem_append.mp hb with hold | hlast
            · exact ⟨List.mem_cons_of_mem _ (hnew b hold).1,
                fun hmem => (hnew b hold).2 (List.mem_cons_of_mem _ hmem)⟩
            · cases List.mem_singleton.mp hlast
              exact ⟨List.mem_cons_self, hseen⟩
          · rcases List.mem_cons.mp hb with heq | hrest
            · cases heq
              exact List.mem_append_right _ List.mem_cons_self
            · exact hall b hrest
    · rw [if_neg hsource] at h
      obtain ⟨new, rfl, rfl, hnodup, hnew, hall⟩ := ih h
      refine ⟨new, rfl, rfl, hnodup, fun b hb => ?_, fun b hb => ?_⟩
      · exact ⟨List.mem_cons_of_mem _ (hnew b hb).1, (hnew b hb).2⟩
      · rcases List.mem_cons.mp hb with heq | hrest
        · cases heq
          exact absurd rfl hsource
        · exact hall b hrest

/-! ### It ends -/

/-- The vertices an edge leads to that were not seen yet. -/
def unseen (edges : List (α × α)) (seen : List α) : Finset α :=
  (edges.map Prod.snd).toFinset \ seen.toFinset

/-- What a round adds was unseen. -/
theorem card_unseen_append {new : List α} (hnodup : new.Nodup)
    (hnew : ∀ b ∈ new, (current, b) ∈ edges ∧ b ∉ seen) :
    (unseen edges (new ++ seen)).card + new.length = (unseen edges seen).card := by
  have hsub : new.toFinset ⊆ unseen edges seen := by
    intro b hb
    obtain ⟨hedge, hfresh⟩ := hnew b (List.mem_toFinset.mp hb)
    rw [unseen, Finset.mem_sdiff, List.mem_toFinset, List.mem_toFinset]
    exact ⟨List.mem_map_of_mem hedge, hfresh⟩
  have hsame : unseen edges (new ++ seen) = unseen edges seen \ new.toFinset := by
    rw [unseen, unseen, List.toFinset_append, sdiff_sdiff_left, sup_comm]
    rfl
  rw [hsame, ← List.toFinset_card_of_nodup hnodup, Finset.card_sdiff_add_card_eq_card hsub]

/-- **The rounds end**: each takes one vertex off the work and what it adds was unseen. -/
theorem searchRounds_isSome {rounds : ℕ} (seen frontier : List α)
    (h : frontier.length + (unseen edges seen).card ≤ rounds) :
    (searchRounds edges start rounds seen frontier).isSome = true := by
  induction rounds generalizing seen frontier with
  | zero =>
    cases frontier with
    | nil => rfl
    | cons current rest =>
      rw [List.length_cons] at h
      omega
  | succ rounds ih =>
    cases frontier with
    | nil => rfl
    | cons current rest =>
      rw [searchRounds]
      cases hscan : scanEdges start current edges seen rest with
      | none => rfl
      | some out =>
        obtain ⟨seen', frontier'⟩ := out
        obtain ⟨new, hseen', hfrontier', hnodup, hnew, -⟩ := scanEdges_eq_some hscan
        refine ih seen' frontier' ?_
        have hcard := card_unseen_append hnodup hnew
        rw [hseen', hfrontier', List.length_append]
        rw [List.length_cons] at h
        omega

/-- **The search ends**, whatever the edges are. -/
theorem searchBack_ends (edges : List (α × α)) (start : α) :
    (searchBack edges start).isSome = true := by
  refine searchRounds_isSome [] [start] ?_
  have hcard : (unseen edges []).card ≤ edges.length :=
    calc (unseen edges []).card ≤ (edges.map Prod.snd).toFinset.card :=
          Finset.card_le_card Finset.sdiff_subset
      _ ≤ (edges.map Prod.snd).length := List.toFinset_card_le _
      _ = edges.length := List.length_map _
  rw [List.length_singleton]
  omega

/-! ### What it finds -/

/-- While nothing is found: everything on the lists can be reached, and what was seen and is no
    longer to be worked on leads only to what was seen, and not back. -/
structure Searching (edges : List (α × α)) (start : α) (seen frontier : List α) : Prop where
  reached : ∀ b, b ∈ seen ∨ b ∈ frontier → Relation.ReflTransGen (Edge edges) start b
  done : ∀ a, a = start ∨ a ∈ seen → a ∉ frontier →
    ∀ b, (a, b) ∈ edges → b ∈ seen ∧ b ≠ start

/-- A round that finds nothing keeps the lists as they should be. -/
theorem Searching.scan (h : Searching edges start seen (current :: frontier))
    (hscan : scanEdges start current edges seen frontier = some (seen', frontier')) :
    Searching edges start seen' frontier' := by
  have hback : (current, start) ∉ edges := fun hmem => by
    rw [scanEdges_eq_none.mpr hmem] at hscan
    cases hscan
  obtain ⟨new, rfl, rfl, -, hnew, hall⟩ := scanEdges_eq_some hscan
  have hcurrent := h.reached current (.inr List.mem_cons_self)
  constructor
  · intro b hb
    by_cases hbnew : b ∈ new
    · exact hcurrent.tail (hnew b hbnew).1
    · refine h.reached b (hb.imp (fun hmem => ?_) fun hmem => ?_)
      · exact (List.mem_append.mp hmem).resolve_left hbnew
      · exact List.mem_cons_of_mem _ ((List.mem_append.mp hmem).resolve_left hbnew)
  · intro a ha hout b hedge
    rw [List.mem_append, not_or] at hout
    by_cases haCurrent : a = current
    · -- the vertex of this round
      subst haCurrent
      exact ⟨hall b hedge, fun hb => hback (hb ▸ hedge)⟩
    · have hold : a = start ∨ a ∈ seen :=
        ha.imp_right fun hmem => (List.mem_append.mp hmem).resolve_left hout.1
      obtain ⟨hseen, hne⟩ := h.done a hold
        (fun hmem => (List.mem_cons.mp hmem).elim haCurrent hout.2) b hedge
      exact ⟨List.mem_append_right _ hseen, hne⟩

/-- When no work is left, nothing that was seen leads back. -/
private theorem searchRounds_nil_iff {rounds : ℕ} {found : Bool} (h : Searching edges start seen [])
    (hrun : searchRounds edges start rounds seen [] = some found) :
    found = true ↔ Relation.TransGen (Edge edges) start start := by
  have hfound : found = false := by
    cases rounds <;> exact (Option.some.inj hrun).symm
  rw [hfound]
  refine iff_of_false Bool.false_ne_true fun hback => ?_
  have hseen : ∀ b, Relation.TransGen (Edge edges) start b → b ∈ seen ∧ b ≠ start := by
    intro b hb
    induction hb with
    | single hedge => exact h.done start (.inl rfl) List.not_mem_nil _ hedge
    | tail _ hedge ihb => exact h.done _ (.inr ihb.1) List.not_mem_nil _ hedge
  exact (hseen start hback).2 rfl

/-- The rounds find a way back exactly when there is one. -/
theorem searchRounds_iff {rounds : ℕ} {found : Bool} (h : Searching edges start seen frontier)
    (hrun : searchRounds edges start rounds seen frontier = some found) :
    found = true ↔ Relation.TransGen (Edge edges) start start := by
  induction rounds generalizing seen frontier with
  | zero =>
    cases frontier with
    | cons current rest => cases hrun
    | nil => exact searchRounds_nil_iff h hrun
  | succ rounds ih =>
    cases frontier with
    | nil => exact searchRounds_nil_iff h hrun
    | cons current rest =>
      rw [searchRounds] at hrun
      cases hscan : scanEdges start current edges seen rest with
      | none =>
        rw [hscan] at hrun
        cases hrun
        have hcurrent := h.reached current (.inr List.mem_cons_self)
        exact iff_of_true rfl (Relation.TransGen.tail' hcurrent (scanEdges_eq_none.mp hscan))
      | some out =>
        obtain ⟨seen', frontier'⟩ := out
        rw [hscan] at hrun
        exact ih (h.scan hscan) hrun

/-- **The search is exact**: it finds a way back exactly when there is one. -/
theorem searchBack_iff (edges : List (α × α)) (start : α) :
    searchBack edges start = some true ↔ Relation.TransGen (Edge edges) start start := by
  have hstart : Searching edges start [] [start] := by
    constructor
    · rintro b (hb | hb)
      · exact absurd hb List.not_mem_nil
      · cases List.mem_singleton.mp hb
        exact .refl
    · rintro a (rfl | ha) hout
      · exact absurd List.mem_cons_self hout
      · exact absurd ha List.not_mem_nil
  obtain ⟨found, hrun⟩ := Option.isSome_iff_exists.mp (searchBack_ends edges start)
  rw [hrun, Option.some.injEq]
  exact searchRounds_iff hstart hrun

end

end WPanel.Lib
