import Dataflow.Arena.Lemmas
import Dataflow.Cleanup.Options
import Dataflow.Graph.NameTable
import Dataflow.Text.Quoted

/-!
# Graphs

A `Graph` stores its nodes in an arena, so that the position of an erased node is never used again,
with a table of their names and the options for clean-ups. `Fault` lists what can be wrong with a
request.

Edges are stored at both ends. Nothing in the type makes the two ends agree: the operations of
`Dataflow.Graph.Build` and `Dataflow.Graph.Erase` keep them in agreement, and overwriting a whole
node may break it.
-/

namespace Dataflow

/-- The two kinds of nodes, of which an edge joins one of each. -/
inductive Side
  | operation
  | data
  deriving DecidableEq

def Side.name : Side → String
  | .operation => "operation"
  | .data => "data"

/-- Why a request to a graph was refused. -/
inductive Fault
  /-- No live node is at that position. -/
  | missing (i : NodeId)
  /-- An edge from `i` to `j` would join two nodes of the same side. -/
  | sameSide (i j : NodeId) (side : Side)
  /-- Data node `i` has a producer already. -/
  | secondProducer (i producer : NodeId)
  /-- Operation `i` takes an output out of the graph. -/
  | afterResult (i : NodeId)
  /-- A node bears the name already. -/
  | nameTaken (name : String)
  /-- Node `i` is an operation. -/
  | notData (i : NodeId)
  /-- Data node `i` has a value already. -/
  | valueKnown (i : NodeId)
  deriving DecidableEq

/-- What is wrong, in words. -/
def Fault.message : Fault → String
  | .missing i => "node " ++ Nat.repr i ++ " does not exist"
  | .sameSide i j side =>
    "edge " ++ Nat.repr i ++ " -> " ++ Nat.repr j ++ " connects two " ++ side.name ++ " nodes"
  | .secondProducer i producer =>
    "data node " ++ Nat.repr i ++ " is already produced by " ++ Nat.repr producer
  | .afterResult i => "result node " ++ Nat.repr i ++ " cannot have outputs"
  | .nameTaken name => "a node named " ++ Text.quoted name ++ " already exists"
  | .notData i => "node " ++ Nat.repr i ++ " is not a data node"
  | .valueKnown i => "data node " ++ Nat.repr i ++ " already carries a value"

/-- Nodes, the table of their names, and the options for clean-ups. -/
structure Graph where
  nodes : Arena Node
  names : NameTable
  options : Options

namespace Graph

/-- The graph without nodes. -/
def empty (options : Options) : Graph := ⟨.empty, .empty, options⟩

/-- The live node at a position. -/
def node? (g : Graph) (i : NodeId) : Option Node := g.nodes.get? i

/-- The live node at a position, or the fault of asking for it. -/
def node (g : Graph) (i : NodeId) : Except Fault Node :=
  match g.node? i with
  | some n => .ok n
  | none => .error (.missing i)

def contains (g : Graph) (i : NodeId) : Bool := g.nodes.contains i

/-- Live nodes with their positions, in order of insertion. -/
def entries (g : Graph) : List (NodeId × Node) := g.nodes.entries

/-- Positions of the live nodes, in order of insertion. -/
def ids (g : Graph) : List NodeId := g.nodes.ids

/-- Positions of the live nodes that satisfy `p`, in order of insertion. -/
def idsWhere (g : Graph) (p : Node → Bool) : List NodeId :=
  (g.entries.filter fun e => p e.2).map Prod.fst

/-- The number of live nodes. -/
def size (g : Graph) : Nat := g.nodes.size

def isEmpty (g : Graph) : Bool := g.nodes.isEmpty

/-- The node of that name. -/
def find? (g : Graph) (name : String) : Option NodeId := g.names.find? name

/-- The nodes that feed `i`, one for each of its inputs. -/
def sources (g : Graph) (i : NodeId) : Except Fault (List NodeId) := (g.node i).map Node.sources

/-- The nodes that `i` feeds, each once. -/
def targets (g : Graph) (i : NodeId) : Except Fault (List NodeId) := (g.node i).map Node.targets

/-- The number of edge entries at live nodes. -/
def degree (g : Graph) : Nat := (g.nodes.gather Node.neighbours).length

theorem mem_entries {g : Graph} {i : NodeId} {n : Node} :
    (i, n) ∈ g.entries ↔ g.node? i = some n := Arena.mem_entries

theorem contains_iff {g : Graph} {i : NodeId} : g.contains i ↔ ∃ n, g.node? i = some n :=
  Option.isSome_iff_exists

/-- A graph is its nodes with their positions, the next position, the names and the options. -/
theorem ext_node? {g h : Graph} (hnext : g.nodes.next = h.nodes.next)
    (hnode : ∀ i, g.node? i = h.node? i) (hnames : g.names = h.names)
    (hoptions : g.options = h.options) : g = h := by
  obtain ⟨nodes, names, options⟩ := g
  obtain ⟨nodes', names', options'⟩ := h
  obtain rfl : nodes = nodes' := Arena.ext_get? hnext hnode
  cases hnames
  cases hoptions
  rfl

theorem mem_idsWhere {g : Graph} {p : Node → Bool} {i : NodeId} :
    i ∈ g.idsWhere p ↔ ∃ n, g.node? i = some n ∧ p n := by
  simp [idsWhere, mem_entries]

end Graph

end Dataflow
