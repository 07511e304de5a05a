import Dataflow.Graph.Walk
import Mathlib.Logic.Relation

/-!
# What a walk finds

A walk visits the live positions that chains of live nodes join to its seeds, all of them and
nothing else (`mem_walk`), and each of them once (`nodup_walk`).

The loop keeps `Walk.Invariant`: what was visited is joined to a seed, and where a visited node
leads was visited as well or is still on the stack.
-/

namespace Dataflow

namespace Graph

/-- One step along `next`: from a live node to a live position that it names. -/
def Leads (g : Graph) (next : Node → List NodeId) (i j : NodeId) : Prop :=
  ∃ n, g.node? i = some n ∧ j ∈ next n ∧ g.contains j

/-- A chain of steps along `next`, possibly of none, joins a live seed to the position. -/
def Reached (g : Graph) (next : Node → List NodeId) (seeds : List NodeId) (i : NodeId) : Prop :=
  ∃ s ∈ seeds, g.contains s ∧ Relation.ReflTransGen (g.Leads next) s i

variable {g : Graph} {next : Node → List NodeId} {seeds : List NodeId}

theorem Reached.seed {i : NodeId} (hi : i ∈ seeds) (hc : g.contains i) :
    g.Reached next seeds i :=
  ⟨i, hi, hc, .refl⟩

theorem Reached.tail {i j : NodeId} (h : g.Reached next seeds i) (hl : g.Leads next i j) :
    g.Reached next seeds j := by
  obtain ⟨s, hs, hc, hr⟩ := h
  exact ⟨s, hs, hc, hr.tail hl⟩

/-- What holds of the seeds and is passed on by every step holds of all that is reached. -/
theorem Reached.induct {P : NodeId → Prop} (hs : ∀ i ∈ seeds, g.contains i → P i)
    (hl : ∀ i j, P i → g.Leads next i j → P j) {i : NodeId} (h : g.Reached next seeds i) :
    P i := by
  obtain ⟨s, hm, hc, hr⟩ := h
  induction hr with
  | refl => exact hs s hm hc
  | tail _ hstep ih => exact hl _ _ ih hstep

end Graph

namespace Walk

variable {g : Graph} {next : Node → List NodeId} {seeds : List NodeId}

/-- What every state of a walk from `seeds` satisfies. -/
structure Invariant (g : Graph) (next : Node → List NodeId) (seeds : List NodeId) (w : Walk) :
    Prop where
  nodup : w.visited.Nodup
  visited_reached : ∀ i ∈ w.visited, g.Reached next seeds i
  work_reached : ∀ i ∈ w.work, g.contains i → g.Reached next seeds i
  seeds_met : ∀ i ∈ seeds, g.contains i → i ∈ w.visited ∨ i ∈ w.work
  visited_closed : ∀ i ∈ w.visited, ∀ j, g.Leads next i j → j ∈ w.visited ∨ j ∈ w.work

theorem Invariant.start (g : Graph) (next : Node → List NodeId) (seeds : List NodeId) :
    Invariant g next seeds ⟨seeds, []⟩ where
  nodup := List.nodup_nil
  visited_reached := by simp
  work_reached := fun _ hi hc => .seed hi hc
  seeds_met := fun _ hi _ => .inr hi
  visited_closed := by simp

/-- A position that is visited already, or holds no live node, can be dropped. -/
theorem Invariant.drop {i : NodeId} {rest visited : List NodeId}
    (h : Invariant g next seeds ⟨i :: rest, visited⟩)
    (hi : g.contains i → i ∈ visited) : Invariant g next seeds ⟨rest, visited⟩ := by
  have met : ∀ j, g.contains j → j ∈ visited ∨ j ∈ i :: rest → j ∈ visited ∨ j ∈ rest := by
    rintro j hc (hv | hw)
    · exact .inl hv
    · rcases List.mem_cons.1 hw with rfl | hw
      · exact .inl (hi hc)
      · exact .inr hw
  refine ⟨h.nodup, h.visited_reached, fun j hj => ?_, fun j hj hc => ?_, fun j hj k hl => ?_⟩
  · exact h.work_reached j (List.mem_cons_of_mem i hj)
  · exact met j hc (h.seeds_met j hj hc)
  · obtain ⟨_, -, -, hc⟩ := id hl
    exact met k hc (h.visited_closed j hj k hl)

/-- A live position that was not visited yet is visited, and leaves where it leads on the stack. -/
theorem Invariant.visit {i : NodeId} {n : Node} {rest visited : List NodeId}
    (h : Invariant g next seeds ⟨i :: rest, visited⟩) (hv : i ∉ visited)
    (hn : g.node? i = some n) :
    Invariant g next seeds ⟨(next n).reverse ++ rest, i :: visited⟩ := by
  have hi : g.Reached next seeds i :=
    h.work_reached i List.mem_cons_self (Graph.contains_iff.2 ⟨n, hn⟩)
  have met : ∀ j, j ∈ visited ∨ j ∈ i :: rest →
      j ∈ i :: visited ∨ j ∈ (next n).reverse ++ rest := by
    rintro j (hj | hj)
    · exact .inl (List.mem_cons_of_mem i hj)
    · rcases List.mem_cons.1 hj with rfl | hj
      · exact .inl List.mem_cons_self
      · exact .inr (List.mem_append_right _ hj)
  refine ⟨List.nodup_cons.2 ⟨hv, h.nodup⟩, fun j hj => ?_, fun j hj hc => ?_,
    fun j hj hc => met j (h.seeds_met j hj hc), fun j hj k hl => ?_⟩
  · rcases List.mem_cons.1 hj with rfl | hj
    · exact hi
    · exact h.visited_reached j hj
  · rcases List.mem_append.1 hj with hj | hj
    · exact hi.tail ⟨n, hn, List.mem_reverse.1 hj, hc⟩
    · exact h.work_reached j (List.mem_cons_of_mem i hj) hc
  · rcases List.mem_cons.1 hj with rfl | hj
    · obtain ⟨m, hm, hk, -⟩ := hl
      cases hn.symm.trans hm
      exact .inr (List.mem_append_left _ (List.mem_reverse.2 hk))
    · exact met k (h.visited_closed j hj k hl)

theorem Invariant.step {w : Walk} (h : Invariant g next seeds w) :
    Invariant g next seeds (w.step g next) := by
  obtain ⟨_ | ⟨i, rest⟩, visited⟩ := w
  · exact h
  · by_cases hv : i ∈ visited
    · rw [step_of_mem hv]
      exact h.drop fun _ => hv
    · cases hn : g.node? i with
      | none =>
        rw [step_of_node?_eq_none hn]
        exact h.drop fun hc => by simp [Graph.contains_iff, hn] at hc
      | some n =>
        rw [step_of_node? hv hn]
        exact h.visit hv hn

/-- A walk ends with an empty stack, and keeps its invariant. -/
theorem Invariant.run {w : Walk} (h : Invariant g next seeds w) :
    Invariant g next seeds (w.run g next) ∧ (w.run g next).work = [] := by
  induction w using Walk.run.induct g next with
  | case1 w hw =>
    rw [run_of_work_eq_nil hw]
    exact ⟨h, hw⟩
  | case2 w hw ih =>
    rw [run_of_work_ne_nil hw]
    exact ih h.step

end Walk

namespace Graph

variable {g : Graph} {next : Node → List NodeId} {seeds : List NodeId}

/-- **A walk finds exactly what is reached.** -/
theorem mem_walk {i : NodeId} : i ∈ g.walk next seeds ↔ g.Reached next seeds i := by
  obtain ⟨h, hw⟩ := (Walk.Invariant.start g next seeds).run
  rw [walk, List.mem_reverse]
  constructor
  · exact h.visited_reached i
  · refine Reached.induct (fun j hj hc => ?_) fun j k hj hl => ?_
    · simpa [hw] using h.seeds_met j hj hc
    · simpa [hw] using h.visited_closed j hj k hl

theorem nodup_walk : (g.walk next seeds).Nodup := by
  obtain ⟨h, -⟩ := (Walk.Invariant.start g next seeds).run
  exact (List.reverse_perm _).nodup_iff.2 h.nodup

end Graph

end Dataflow
