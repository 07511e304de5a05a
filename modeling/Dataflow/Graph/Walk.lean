import Dataflow.Graph.Basic

/-!
# Walks

A depth-first walk along the live nodes of a graph, in any direction: `next` says where to go from a
node. The positions still to look at form a stack; one that is visited already or holds no live node
is dropped, any other is visited and leaves where it leads on top of the stack.

* `Walk.step` looks at one position, and `Walk.run` goes on until none is left. No bound on the
  number of steps is needed: `pending_step_lt` says that each step lowers `Walk.pending`, the length
  of the stack together with all that unvisited nodes may still add to it.
* `Graph.walk` lists the positions reached from given ones, in the order of the visits.
-/

namespace Dataflow

/-- The stack, top first, and the positions visited so far, latest first. -/
structure Walk where
  work : List NodeId
  visited : List NodeId

namespace Walk

/-- Looks at the position on top of the stack. -/
def step (g : Graph) (next : Node → List NodeId) (w : Walk) : Walk :=
  match w.work with
  | [] => w
  | i :: rest =>
    if i ∈ w.visited then { w with work := rest }
    else
      match g.node? i with
      | none => { w with work := rest }
      | some n => ⟨(next n).reverse ++ rest, i :: w.visited⟩

section Step

variable {g : Graph} {next : Node → List NodeId} {i : NodeId} {n : Node}
  {rest visited : List NodeId}

theorem step_of_mem (hv : i ∈ visited) :
    step g next ⟨i :: rest, visited⟩ = ⟨rest, visited⟩ := by
  simp [step, hv]

theorem step_of_node?_eq_none (hn : g.node? i = none) :
    step g next ⟨i :: rest, visited⟩ = ⟨rest, visited⟩ := by
  simp [step, hn]

theorem step_of_node? (hv : i ∉ visited) (hn : g.node? i = some n) :
    step g next ⟨i :: rest, visited⟩ = ⟨(next n).reverse ++ rest, i :: visited⟩ := by
  simp [step, hv, hn]

end Step

/-- How much of the stack is left, and how much the unvisited nodes can add to it. -/
def pending (g : Graph) (next : Node → List NodeId) (w : Walk) : Nat :=
  w.work.length
    + ((g.entries.filter fun e => e.1 ∉ w.visited).flatMap fun e => next e.2).length

section Filter

variable {α β : Type} (f : α → List β) {p q : α → Bool} (h : ∀ a, q a → p a)
include h

theorem length_flatMap_filter_le (l : List α) :
    ((l.filter q).flatMap f).length ≤ ((l.filter p).flatMap f).length := by
  induction l with
  | nil => exact Nat.le_refl _
  | cons a rest ih =>
    simp only [List.filter_cons]
    cases hq : q a with
    | true => simpa [h a hq, List.flatMap_cons] using ih
    | false =>
      cases p a with
      | true => exact Nat.le_trans ih (by simp [List.flatMap_cons])
      | false => exact ih

/-- A member that a stricter filter leaves out takes off what it lists. -/
theorem length_flatMap_filter_add_le {a : α} {l : List α} (hl : a ∈ l) (hp : p a)
    (hq : q a = false) :
    ((l.filter q).flatMap f).length + (f a).length ≤ ((l.filter p).flatMap f).length := by
  induction l with
  | nil => cases hl
  | cons b rest ih =>
    simp only [List.filter_cons]
    rcases List.mem_cons.1 hl with rfl | hr
    · have hrest := length_flatMap_filter_le f h rest
      simp only [hp, hq, if_true, List.flatMap_cons, List.length_append, Bool.false_eq_true,
        if_false]
      omega
    · have hrest := ih hr
      cases hqb : q b with
      | true =>
        simp only [h b hqb, if_true, List.flatMap_cons, List.length_append]
        omega
      | false =>
        cases p b with
        | true =>
          simp only [Bool.false_eq_true, if_false, if_true, List.flatMap_cons, List.length_append]
          omega
        | false => exact hrest

end Filter

/-- Every step makes progress. -/
theorem pending_step_lt (g : Graph) (next : Node → List NodeId) {w : Walk} (h : w.work ≠ []) :
    (w.step g next).pending g next < w.pending g next := by
  obtain ⟨_ | ⟨i, rest⟩, visited⟩ := w
  · exact absurd rfl h
  · by_cases hv : i ∈ visited
    · simp [step_of_mem hv, pending]
    · cases hn : g.node? i with
      | none => simp [step_of_node?_eq_none hn, pending]
      | some n =>
        have hadd := length_flatMap_filter_add_le (fun e : NodeId × Node => next e.2)
          (p := fun e => e.1 ∉ visited) (q := fun e => e.1 ∉ i :: visited)
          (fun e => by simp) (Graph.mem_entries.2 hn) (by simpa using hv) (by simp)
        simp only [step_of_node? hv hn, pending, List.length_append, List.length_reverse,
          List.length_cons] at hadd ⊢
        omega

/-- Steps until the stack is empty. -/
def run (g : Graph) (next : Node → List NodeId) (w : Walk) : Walk :=
  if w.work = [] then w else run g next (w.step g next)
termination_by w.pending g next
decreasing_by exact pending_step_lt g next ‹_›

theorem run_of_work_eq_nil {g : Graph} {next : Node → List NodeId} {w : Walk} (h : w.work = []) :
    w.run g next = w := by
  rw [run, if_pos h]

theorem run_of_work_ne_nil {g : Graph} {next : Node → List NodeId} {w : Walk} (h : w.work ≠ []) :
    w.run g next = (w.step g next).run g next := by
  rw [run, if_neg h]

/-- What was visited stays visited. -/
theorem visited_subset_step (g : Graph) (next : Node → List NodeId) (w : Walk) :
    w.visited ⊆ (w.step g next).visited := by
  obtain ⟨_ | ⟨i, rest⟩, visited⟩ := w
  · exact List.Subset.refl _
  · by_cases hv : i ∈ visited
    · rw [step_of_mem hv]
      exact List.Subset.refl _
    · cases hn : g.node? i with
      | none =>
        rw [step_of_node?_eq_none hn]
        exact List.Subset.refl _
      | some n =>
        rw [step_of_node? hv hn]
        exact List.subset_cons_self _ _

theorem visited_subset_run (g : Graph) (next : Node → List NodeId) (w : Walk) :
    w.visited ⊆ (w.run g next).visited := by
  induction w using run.induct g next with
  | case1 w hw =>
    rw [run_of_work_eq_nil hw]
    exact List.Subset.refl _
  | case2 w hw ih =>
    rw [run_of_work_ne_nil hw]
    exact List.Subset.trans (visited_subset_step g next w) ih

end Walk

/-- The positions reached from `seeds`, of which the first is looked at first, in the order of the
visits. -/
def Graph.walk (g : Graph) (next : Node → List NodeId) (seeds : List NodeId) : List NodeId :=
  (Walk.run g next ⟨seeds, []⟩).visited.reverse

end Dataflow
