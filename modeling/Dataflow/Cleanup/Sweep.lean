import Dataflow.Graph.Erase
import Dataflow.Graph.Region

/-!
# Sweeps

The part of a clean-up that follows the traces of erased nodes. A `Sweep` is a graph, a stack of
positions to look at, and what there is to report. Looking at a position may erase a stranded region
or an unread constant, and the neighbours of erased nodes go onto the stack, since they may have
become removable by it.

Nodes are erased in three ways, of which each keeps its own count. `Sweep.eraseOperation` takes it
that the node is an operation, `Sweep.eraseLeaf` that it is a data node and that it is there at all,
and `Sweep.erase` looks. They agree where they are used (`eraseOperation_eq`, `eraseLeaf_eq`), so a
step erases what `Sweep.victims` lists (`step_eq`).

`Sweep.step` looks at one position, and `Sweep.run` goes on until none is left. No bound on the
number of steps is needed: `weight_step_lt` says that each step lowers `Sweep.weight`, the number of
edge entries in the graph together with the length of the stack.
-/

namespace Dataflow

/-- The graph, the stack with its top first, the erased nodes with their positions as they were when
they were erased, the report as far as it is known, and the events. What came last is first. -/
structure Sweep where
  graph : Graph
  work : List NodeId
  erased : List (NodeId × Node)
  report : Report
  log : List Event

namespace Sweep

variable {rule : LeafRule} {p : Policy} {s : Sweep} {near : Node → List NodeId} {i : NodeId}
  {n : Node}

/-! ## Three ways to erase a node -/

/-- Takes down that a node was erased. -/
def note (s : Sweep) (i : NodeId) (r : Graph.Erased) : Sweep :=
  { s with graph := r.graph, erased := (i, r.node) :: s.erased, log := r.event :: s.log }

/-- Erases an operation, and puts the nodes that it fed and those that fed it onto the stack, the
last one on top. -/
def eraseOperation (s : Sweep) (i : NodeId) : Sweep :=
  match s.graph.erase? i with
  | none => s
  | some r =>
    { s.note i r with
      report := s.report.countOperation
      work := (r.node.targets ++ r.node.sources).reverse ++ s.work }

/-- Erases a node, counts it for what it is, and puts the nodes that `near` lists onto the stack,
the last one on top. -/
def erase (near : Node → List NodeId) (s : Sweep) (i : NodeId) : Sweep :=
  match s.graph.erase? i with
  | none => s
  | some r =>
    { s.note i r with
      report := if r.node.isOperation then s.report.countOperation else s.report.countData
      work := (near r.node).reverse ++ s.work }

/-- Erases a constant that has no edges. -/
def eraseLeaf (s : Sweep) (i : NodeId) : Sweep :=
  let t := (s.graph.erase? i).elim s (s.note i)
  { t with report := t.report.countData }

theorem erase_of_node?_eq_none (hn : s.graph.node? i = none) : s.erase near i = s := by
  rw [erase, Graph.erase?_of_node?_eq_none hn]

theorem erase_of_node? (hn : s.graph.node? i = some n) :
    s.erase near i =
      { graph := s.graph.erase i
        work := (near n).reverse ++ s.work
        erased := (i, n) :: s.erased
        report := if n.isOperation then s.report.countOperation else s.report.countData
        log := .erased n.label :: s.log } := by
  rw [erase, Graph.erase?_of_node? hn]
  rfl

/-- An operation is counted as one. -/
theorem eraseOperation_eq (ho : ∀ n, s.graph.node? i = some n → n.isOperation) :
    s.eraseOperation i = s.erase (fun n => n.targets ++ n.sources) i := by
  rw [eraseOperation, erase]
  cases hn : s.graph.node? i with
  | none => rw [Graph.erase?_of_node?_eq_none hn]
  | some n =>
    rw [Graph.erase?_of_node? hn]
    simp only [ho n hn, if_true]

theorem foldl_eraseOperation_eq {l : List NodeId}
    (ho : ∀ i ∈ l, ∀ n, s.graph.node? i = some n → n.isOperation) :
    l.foldl eraseOperation s = l.foldl (erase fun n => n.targets ++ n.sources) s := by
  induction l generalizing s with
  | nil => rfl
  | cons i rest ih =>
    rw [List.foldl_cons, List.foldl_cons, eraseOperation_eq (ho i List.mem_cons_self), ih]
    intro j hj m hm
    have hoj := ho j (List.mem_cons_of_mem i hj)
    cases hn : s.graph.node? i with
    | none =>
      rw [erase_of_node?_eq_none hn] at hm
      exact hoj m hm
    | some n =>
      -- what is left of an operation is an operation
      rw [erase_of_node? hn, Graph.node?_erase hn] at hm
      split at hm
      · cases hm
      · obtain ⟨l, hl, rfl⟩ := Option.map_eq_some_iff.1 hm
        rw [Graph.isOperation_afterLosing]
        exact hoj l hl

/-- A constant without edges is there, is a data node, and has no neighbours. -/
theorem eraseLeaf_eq (hn : s.graph.node? i = some n) (hl : n.isLeaf) (ht : n.targets.isEmpty) :
    s.eraseLeaf i = s.erase Node.neighbours i := by
  obtain ⟨hs, hv⟩ := Bool.and_eq_true_iff.1 hl
  have hdata : n.isOperation = false := Node.isOperation_of_hasValue hv
  rw [erase_of_node? hn, eraseLeaf, Graph.erase?_of_node? hn]
  simp [note, hdata, Node.neighbours, List.isEmpty_iff.1 hs, List.isEmpty_iff.1 ht]

/-! ## Steps -/

/-- Looks at the position on top of the stack. A node that an output needs, or that something feeds,
is left alone. A stranded data node goes with its region, if all of that may go, and a constant that
nothing produces or reads goes under the dropping rule. -/
def step (rule : LeafRule) (p : Policy) (s : Sweep) : Sweep :=
  match s.work with
  | [] => s
  | i :: rest =>
    let t := { s with work := rest }
    match t.graph.node? i with
    | none => t
    | some n =>
      if n.needed != some false || !n.sources.isEmpty then t
      else if n.isStranded then
        match t.graph.removableRegion? p i with
        | none => t
        | some region => region.foldl (erase Node.neighbours) t
      else if n.isLeaf && n.targets.isEmpty && rule == .drop then t.eraseLeaf i
      else t

/-- The positions that are erased because of what is found at `i`. -/
def victims (rule : LeafRule) (p : Policy) (g : Graph) (i : NodeId) : List NodeId :=
  match g.node? i with
  | none => []
  | some n =>
    if n.needed != some false || !n.sources.isEmpty then []
    else if n.isStranded then (g.removableRegion? p i).getD []
    else if n.isLeaf && n.targets.isEmpty && rule == .drop then [i]
    else []

theorem step_of_work_eq_nil (h : s.work = []) : s.step rule p = s := by
  rw [step, h]

/-- What a step does to a sweep with `i` on top of its stack. -/
theorem step_eq {rest : List NodeId} (h : s.work = i :: rest) :
    s.step rule p = (victims rule p s.graph i).foldl (erase Node.neighbours)
      { s with work := rest } := by
  simp only [step, h, victims]
  cases hn : s.graph.node? i with
  | none => rfl
  | some n =>
    simp only
    split
    · rfl
    · split
      · cases s.graph.removableRegion? p i <;> rfl
      · split
        · rename_i hleaf
          simp only [Bool.and_eq_true] at hleaf
          exact eraseLeaf_eq (s := { s with work := rest }) hn hleaf.1.1 hleaf.1.2
        · rfl

/-- What a sweep has left to do at most. -/
def weight (s : Sweep) : Nat := s.graph.degree + s.work.length

theorem weight_erase_le (h : ∀ n, (near n).length ≤ n.degree) (s : Sweep) (i : NodeId) :
    (s.erase near i).weight ≤ s.weight := by
  cases hn : s.graph.node? i with
  | none => exact Nat.le_of_eq (congrArg weight (erase_of_node?_eq_none hn))
  | some n =>
    have h₁ := Graph.degree_erase_le hn
    have h₂ := h n
    simp only [erase_of_node? hn, weight, List.length_append, List.length_reverse]
    omega

theorem weight_foldl_erase_le (h : ∀ n, (near n).length ≤ n.degree) (l : List NodeId)
    (s : Sweep) : (l.foldl (erase near) s).weight ≤ s.weight := by
  induction l generalizing s with
  | nil => exact Nat.le_refl _
  | cons i rest ih => exact Nat.le_trans (ih _) (weight_erase_le h s i)

/-- Every step makes progress. -/
theorem weight_step_lt (rule : LeafRule) (p : Policy) {s : Sweep} (h : s.work ≠ []) :
    (s.step rule p).weight < s.weight := by
  obtain ⟨i, rest, hw⟩ := List.exists_cons_of_ne_nil h
  rw [step_eq hw]
  refine Nat.lt_of_le_of_lt (weight_foldl_erase_le (fun _ => Nat.le_refl _) _ _) ?_
  simp [weight, hw]

/-- Steps until the stack is empty. -/
def run (rule : LeafRule) (p : Policy) (s : Sweep) : Sweep :=
  if s.work = [] then s else run rule p (s.step rule p)
termination_by s.weight
decreasing_by exact weight_step_lt rule p ‹_›

theorem run_of_work_eq_nil (h : s.work = []) : s.run rule p = s := by
  rw [run, if_pos h]

theorem run_of_work_ne_nil (h : s.work ≠ []) : s.run rule p = (s.step rule p).run rule p := by
  rw [run, if_neg h]

end Sweep

end Dataflow
