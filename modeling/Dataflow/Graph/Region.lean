import Dataflow.Graph.Walk

/-!
# Regions of stranded data

A stranded data node takes along what depends on it: its readers, their outputs as far as these have
no value of their own, the readers of those, and so on. `Graph.region` collects these nodes.

They go only together. `Search` looks for them depth first, and gives up as soon as it meets a node
that must stay; `Graph.removableRegion?` is what it finds. `removableRegion?_eq` says that the order
of the visits does not matter: it finds the whole region, or nothing if one node of it must stay.
-/

namespace Dataflow

namespace Graph

/-- Where the loss of a node spreads: from data to its readers, from an operation to those of its
outputs that have no value. -/
def dependants (g : Graph) (n : Node) : List NodeId :=
  if n.isOperation then n.targets.filter fun j => (g.node? j).any fun m => !m.hasValue
  else n.targets

/-- The live nodes that depend on `i`, with `i` itself, in the order in which they are met. -/
def region (g : Graph) (i : NodeId) : List NodeId := g.walk g.dependants [i]

/-- Whether a node is tagged as needed by no output, and its kind is not pinned. -/
def mayGo (p : Policy) (n : Node) : Bool := n.needed == some false && !n.hasKind p

end Graph

/-- A search for a region of which all may go: the stack, top first, the positions seen so far, be
they live or not, and the nodes found so far, latest first. -/
structure Search where
  work : List NodeId
  seen : List NodeId
  found : List NodeId

namespace Search

variable {g : Graph} {p : Policy} {s t : Search}

/-- Looks at the position on top of the stack. At a node that must stay, the search is given up. -/
def step (g : Graph) (p : Policy) (s : Search) : Option Search :=
  match s.work with
  | [] => some s
  | i :: rest =>
    if i ∈ s.seen then some { s with work := rest }
    else
      match g.node? i with
      | none => some { s with work := rest, seen := i :: s.seen }
      | some n =>
        if Graph.mayGo p n then
          some ⟨(g.dependants n).reverse ++ rest, i :: s.seen, i :: s.found⟩
        else none

section Step

variable {i : NodeId} {n : Node} {rest seen found : List NodeId}

theorem step_of_mem (hi : i ∈ seen) :
    step g p ⟨i :: rest, seen, found⟩ = some ⟨rest, seen, found⟩ := by
  simp [step, hi]

theorem step_of_node?_eq_none (hi : i ∉ seen) (hn : g.node? i = none) :
    step g p ⟨i :: rest, seen, found⟩ = some ⟨rest, i :: seen, found⟩ := by
  simp [step, hi, hn]

theorem step_of_mayGo (hi : i ∉ seen) (hn : g.node? i = some n) (hgo : Graph.mayGo p n) :
    step g p ⟨i :: rest, seen, found⟩ =
      some ⟨(g.dependants n).reverse ++ rest, i :: seen, i :: found⟩ := by
  simp [step, hi, hn, hgo]

theorem step_of_not_mayGo (hi : i ∉ seen) (hn : g.node? i = some n)
    (hstays : Graph.mayGo p n = false) : step g p ⟨i :: rest, seen, found⟩ = none := by
  simp [step, hi, hn, hstays]

end Step

/-- How much of the stack is left, and how much the nodes not yet seen can add to it. -/
def pending (g : Graph) (s : Search) : Nat := Walk.pending g g.dependants ⟨s.work, s.seen⟩

/-- Every step that does not give up makes progress. -/
theorem pending_step_lt (hw : s.work ≠ []) (h : s.step g p = some t) :
    t.pending g < s.pending g := by
  obtain ⟨_ | ⟨i, rest⟩, seen, found⟩ := s
  · exact absurd rfl hw
  by_cases hi : i ∈ seen
  · rw [step_of_mem hi] at h
    cases h
    simp [pending, Walk.pending]
  cases hn : g.node? i with
  | none =>
    rw [step_of_node?_eq_none hi hn] at h
    cases h
    have hle := Walk.length_flatMap_filter_le (fun e : NodeId × Node => g.dependants e.2)
      (p := fun e => e.1 ∉ seen) (q := fun e => e.1 ∉ i :: seen) (fun e => by simp) g.entries
    simp only [pending, Walk.pending, List.length_cons]
    omega
  | some n =>
    -- here the search does what a walk would do
    have hwalk := Walk.pending_step_lt g g.dependants (w := ⟨i :: rest, seen⟩) (by simp)
    rw [Walk.step_of_node? hi hn] at hwalk
    cases hgo : Graph.mayGo p n with
    | true =>
      rw [step_of_mayGo hi hn hgo] at h
      cases h
      exact hwalk
    | false =>
      rw [step_of_not_mayGo hi hn hgo] at h
      cases h

/-- Steps until the stack is empty, unless one of them gives up. -/
def run (g : Graph) (p : Policy) (s : Search) : Option Search :=
  if _ : s.work = [] then some s
  else
    match _ : s.step g p with
    | none => none
    | some t => run g p t
termination_by s.pending g
decreasing_by exact pending_step_lt ‹_› ‹_›

theorem run_of_work_eq_nil (h : s.work = []) : s.run g p = some s := by
  rw [run, dif_pos h]

theorem run_of_work_ne_nil (h : s.work ≠ []) : s.run g p = (s.step g p).bind (run g p) := by
  rw [run, dif_neg h]
  split
  · rename_i hs
    rw [hs]
    rfl
  · rename_i hs
    rw [hs]
    rfl

/-! ## Searches and walks -/

/-- The search is where a walk along the dependants is, which goes on whatever it meets. -/
structure Follows (g : Graph) (s : Search) (w : Walk) : Prop where
  work : s.work = w.work
  found : s.found = w.visited
  seen (i : NodeId) (hi : g.contains i) : i ∈ s.seen ↔ i ∈ w.visited

variable {w : Walk}

/-- The search follows the walk for a step and finds nothing but nodes that may go, or it gives up
at a node that the walk visits. -/
theorem Follows.step (h : Follows g s w)
    (hgo : ∀ j ∈ w.visited, (g.node? j).any (Graph.mayGo p)) :
    (∃ t, s.step g p = some t ∧ Follows g t (w.step g g.dependants) ∧
        ∀ j ∈ (w.step g g.dependants).visited, (g.node? j).any (Graph.mayGo p)) ∨
      s.step g p = none ∧
        ∃ j ∈ (w.step g g.dependants).visited, ¬ (g.node? j).any (Graph.mayGo p) := by
  obtain ⟨_ | ⟨i, rest⟩, seen, found⟩ := s
  · obtain ⟨work, visited⟩ := w
    obtain ⟨rfl, rfl, hseen⟩ := h
    exact .inl ⟨_, rfl, ⟨rfl, rfl, hseen⟩, hgo⟩
  obtain ⟨work, visited⟩ := w
  obtain ⟨rfl, rfl, hseen⟩ := h
  cases hn : g.node? i with
  | none =>
    rw [Walk.step_of_node?_eq_none hn]
    by_cases hi : i ∈ seen
    · exact .inl ⟨_, step_of_mem hi, ⟨rfl, rfl, hseen⟩, hgo⟩
    · refine .inl ⟨_, step_of_node?_eq_none hi hn, ⟨rfl, rfl, fun j hj => ?_⟩, hgo⟩
      -- only the search remembers a dead position
      have hne : j ≠ i := by
        rintro rfl
        simp [Graph.contains_iff, hn] at hj
      simpa [hne] using hseen j hj
  | some n =>
    have hmet : i ∈ seen ↔ i ∈ found := hseen i (Graph.contains_iff.2 ⟨n, hn⟩)
    by_cases hi : i ∈ found
    · rw [Walk.step_of_mem hi]
      exact .inl ⟨_, step_of_mem (hmet.2 hi), ⟨rfl, rfl, hseen⟩, hgo⟩
    · rw [Walk.step_of_node? hi hn]
      have hnew : i ∉ seen := fun hs => hi (hmet.1 hs)
      cases hstays : Graph.mayGo p n with
      | true =>
        refine .inl ⟨_, step_of_mayGo hnew hn hstays, ⟨rfl, rfl, fun j hj => ?_⟩, ?_⟩
        · rw [List.mem_cons, List.mem_cons, hseen j hj]
        · exact List.forall_mem_cons.2 ⟨by simp [hn, hstays], hgo⟩
      | false =>
        exact .inr ⟨step_of_not_mayGo hnew hn hstays, i, List.mem_cons_self, by simp [hn, hstays]⟩

/-- The search ends where the walk ends, or gives up if that visits a node that must stay. -/
theorem Follows.run (h : Follows g s w)
    (hgo : ∀ j ∈ w.visited, (g.node? j).any (Graph.mayGo p)) :
    (s.run g p).map Search.found =
      if (w.run g g.dependants).visited.all fun j => (g.node? j).any (Graph.mayGo p) then
        some (w.run g g.dependants).visited
      else none := by
  induction w using Walk.run.induct g g.dependants generalizing s with
  | case1 w hw =>
    rw [run_of_work_eq_nil (h.work.trans hw), Walk.run_of_work_eq_nil hw,
      if_pos (List.all_eq_true.2 hgo), Option.map_some, h.found]
  | case2 w hw ih =>
    rw [run_of_work_ne_nil (h.work ▸ hw), Walk.run_of_work_ne_nil hw]
    obtain ⟨t, ht, hfollows, hgo⟩ | ⟨hnone, j, hj, hstays⟩ := h.step hgo
    · rw [ht]
      exact ih hfollows hgo
    · rw [hnone, if_neg]
      · rfl
      · intro hall
        exact hstays (List.all_eq_true.1 hall j (Walk.visited_subset_run _ _ _ hj))

end Search

namespace Graph

/-- The region of `i`, if all of it may go. -/
def removableRegion? (g : Graph) (p : Policy) (i : NodeId) : Option (List NodeId) :=
  (Search.run g p ⟨[i], [], []⟩).map fun s => s.found.reverse

/-- It is all or nothing: one node that must stay keeps the whole region. -/
theorem removableRegion?_eq (g : Graph) (p : Policy) (i : NodeId) :
    g.removableRegion? p i =
      if (g.region i).all fun j => (g.node? j).any (mayGo p) then some (g.region i) else none := by
  have hstart : Search.Follows g ⟨[i], [], []⟩ ⟨[i], []⟩ := ⟨rfl, rfl, fun _ _ => Iff.rfl⟩
  have hrun := hstart.run (p := p) (by simp)
  rw [removableRegion?, region, walk, List.all_reverse]
  calc (Search.run g p ⟨[i], [], []⟩).map (fun s => s.found.reverse)
    _ = ((Search.run g p ⟨[i], [], []⟩).map Search.found).map List.reverse := by
      rw [Option.map_map]
      rfl
    _ = _ := by
      rw [hrun]
      split <;> rfl

end Graph

end Dataflow
