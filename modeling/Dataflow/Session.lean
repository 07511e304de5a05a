import Dataflow.Checkpoint
import Dataflow.Graph.Command
import Dataflow.Graph.Dot

/-!
# Sessions

Work on one graph: the graph with a copy kept for later, and the node that was erased last, which
can be put back in the place of another.
-/

namespace Dataflow

/-- A graph with its kept copy, and the node erased last. -/
structure Session where
  graph : Checkpoint Graph
  lastErased : Option Node

namespace Session

/-- Work on a new graph. -/
def start (options : Options) : Session := ⟨⟨.empty options, none⟩, none⟩

/-- The session with another current graph. -/
def withGraph (s : Session) (g : Graph) : Session :=
  { s with graph := { s.graph with current := g } }

/-- Carries out a command; what it erases is remembered. -/
def exec (s : Session) (c : Command) : Session × Reply × List Event :=
  let e := c.exec s.graph.current
  let t := s.withGraph e.graph
  match e.reply with
  | .erased (some n) => ({ t with lastErased := some n }, e.reply, e.log)
  | reply => (t, reply, e.log)

/-- The node to copy from: at a position, or the one erased last. Without the latter there is
nothing to copy. -/
def donor (s : Session) : Option NodeId → Option (Except Fault Node)
  | some i => some (s.graph.current.node i)
  | none => s.lastErased.map .ok

/-- Puts a copy of a node in the place of the node at `i`. -/
def overwrite (s : Session) (source : Option NodeId) (i : NodeId) : Option (Except Fault Session) :=
  (s.donor source).map fun n => do s.withGraph <$> s.graph.current.overwrite i (← n)

/-- Positions at which the graph differs from the kept copy. -/
def changes (s : Session) : Option (List NodeId) :=
  s.graph.kept.map fun old => old.changes s.graph.current

/-- Keeps a copy of the graph. -/
def save (s : Session) : Session := { s with graph := s.graph.save }

/-- Goes back to the kept copy of the graph. -/
def restore (s : Session) : Option Session := s.graph.restore.map fun c => { s with graph := c }

end Session

end Dataflow
