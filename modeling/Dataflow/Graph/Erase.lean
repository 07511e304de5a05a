import Dataflow.Event
import Dataflow.Graph.Basic

/-!
# Erasing nodes

`Graph.erase` takes a node out of a graph together with every edge at it. Its neighbours are not
joined instead, and nothing else goes. `Graph.erase?` also hands the node out, and tells of it.

* `node?_erase` says what becomes of every node.
* `degree_erase_le`: the edge entries of the erased node are gone.
-/

namespace Dataflow.Graph

/-- What erasing `n`, stored at `i`, makes of the node `m` stored at `j`: a neighbour drops its edge
entries for `i`, and a data node that `n` fed is an orphan from then on. -/
def afterLosing (i : NodeId) (n : Node) (j : NodeId) (m : Node) : Node :=
  if j ∈ n.targets then (m.detach i).orphan
  else if j ∈ n.sources then m.detach i
  else m

/-- Erases the node at a position, its edges and its name; where no node is live, nothing
changes. -/
def erase (g : Graph) (i : NodeId) : Graph :=
  match g.node? i with
  | none => g
  | some n =>
    { g with
      nodes := (g.nodes.erase i).mapIds (afterLosing i n)
      names := g.names.erase n.name }

theorem erase_of_node?_eq_none {g : Graph} {i : NodeId} (h : g.node? i = none) : g.erase i = g := by
  simp [erase, h]

theorem erase_of_node? {g : Graph} {i : NodeId} {n : Node} (h : g.node? i = some n) :
    g.erase i =
      { g with
        nodes := (g.nodes.erase i).mapIds (afterLosing i n)
        names := g.names.erase n.name } := by
  simp only [erase, h]

theorem node?_erase {g : Graph} {i : NodeId} {n : Node} (h : g.node? i = some n) (j : NodeId) :
    (g.erase i).node? j = if j = i then none else (g.node? j).map (afterLosing i n j) := by
  rw [erase_of_node? h, node?, Arena.get?_mapIds, Arena.get?_erase]
  split <;> rfl

@[simp] theorem isOperation_afterLosing (i : NodeId) (n : Node) (j : NodeId) (m : Node) :
    (afterLosing i n j m).isOperation = m.isOperation := by
  have hdetach : (m.detach i).isOperation = m.isOperation := rfl
  unfold afterLosing
  split
  · exact (Node.isOperation_mapDatum ..).trans hdetach
  · split
    · exact hdetach
    · rfl

theorem degree_afterLosing_le (i : NodeId) (n : Node) (j : NodeId) (m : Node) :
    (afterLosing i n j m).degree ≤ m.degree := by
  unfold afterLosing
  split
  · rw [Node.orphan, Node.degree_mapDatum]
    exact Node.degree_detach_le i m
  · split
    · exact Node.degree_detach_le i m
    · exact Nat.le_refl _

theorem degree_erase_le {g : Graph} {i : NodeId} {n : Node} (h : g.node? i = some n) :
    (g.erase i).degree + n.degree ≤ g.degree := by
  have h₁ := Arena.length_gather_mapIds_le Node.neighbours Node.neighbours (afterLosing i n)
    (degree_afterLosing_le i n) (g.nodes.erase i)
  have h₂ := Arena.length_gather_erase Node.neighbours (a := g.nodes) h
  rw [erase_of_node? h]
  exact Nat.le_trans (Nat.add_le_add_right h₁ _) (Nat.le_of_eq h₂)

/-! ## Handing out -/

/-- What erasing a node gives: the node as it was, the graph without it, and the event that tells of
it. -/
structure Erased where
  node : Node
  graph : Graph
  event : Event

/-- Erases the node at a position, hands it out, and tells so; where no node is live, nothing is
handed out or told. -/
def erase? (g : Graph) (i : NodeId) : Option Erased :=
  (g.node? i).map fun n => ⟨n, g.erase i, .erased n.label⟩

theorem erase?_of_node?_eq_none {g : Graph} {i : NodeId} (h : g.node? i = none) :
    g.erase? i = none := by
  rw [erase?, h, Option.map_none]

theorem erase?_of_node? {g : Graph} {i : NodeId} {n : Node} (h : g.node? i = some n) :
    g.erase? i = some ⟨n, g.erase i, .erased n.label⟩ := by
  rw [erase?, h, Option.map_some]

end Dataflow.Graph
