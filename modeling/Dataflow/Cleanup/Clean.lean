import Dataflow.Cleanup.Sweep
import Dataflow.Event
import Dataflow.Graph.Tags

/-!
# Clean-ups

A clean-up erases the operations that no output needs and whose results are known anyway. Their
results stay as constants. Then it follows the traces: data nodes that were stranded earlier go with
all that depends on them, unless something pinned is among it, and under the dropping rule constants
that nobody reads any more go too. What an output needs is never erased.

The graph is tagged afresh first, so neither analysis sees an old tag.
-/

namespace Dataflow

/-- What a clean-up leaves and tells: the graph, the erased nodes with their positions in order of
erasure, as they were when they were erased, the report, and the events. -/
structure Cleaned where
  graph : Graph
  erased : List (NodeId × Node)
  report : Report
  log : List Event

namespace Graph

/-- The operations that no output needs, that yield constants only, and that are not pinned. -/
def foldable (g : Graph) (p : Policy) : List NodeId :=
  g.idsWhere fun n => n.constant? == some true && mayGo p n

/-- The stranded data nodes that no output needs. -/
def stranded (g : Graph) : List NodeId :=
  g.idsWhere fun n => n.isStranded && n.needed == some false

end Graph

/-- A sweep before anything is erased, with so many operations to fold. -/
def Sweep.start (g : Graph) (count : Nat) : Sweep where
  graph := g
  work := []
  erased := []
  report := { sizeBefore := g.size }
  log := [.folding count]

/-- Puts the stranded data nodes that no output needs onto the stack, the last one on top. -/
def Sweep.announce (s : Sweep) : Sweep := { s with work := s.graph.stranded.reverse ++ s.work }

@[simp] theorem Sweep.graph_announce (s : Sweep) : s.announce.graph = s.graph := rfl

@[simp] theorem Sweep.erased_announce (s : Sweep) : s.announce.erased = s.erased := rfl

namespace Graph

/-- Erases the foldable operations of a tagged graph, in order of insertion, and leaves the sweep
with their neighbours and on top of these the data nodes stranded by then. -/
def fold (g : Graph) (p : Policy) : Sweep :=
  ((g.foldable p).foldl Sweep.eraseOperation (.start g (g.foldable p).length)).announce

/-- Only operations are foldable. -/
theorem fold_eq (g : Graph) (p : Policy) :
    g.fold p = ((g.foldable p).foldl (Sweep.erase fun n => n.targets ++ n.sources)
      (.start g (g.foldable p).length)).announce := by
  rw [fold, Sweep.foldl_eraseOperation_eq]
  intro i hi n hn
  obtain ⟨n', hn', hf⟩ := mem_idsWhere.1 hi
  cases hn.symm.trans hn'
  obtain ⟨o, ho, -⟩ : ∃ o, n.operation? = some o ∧ o.constant = some true := by
    simpa [Node.constant?, Option.bind_eq_some_iff] using (Bool.and_eq_true_iff.1 hf).1
  rw [Node.isOperation, ho, Option.isSome_some]

/-- Cleans a graph up, under a rule for unread constants and a policy that alone decides what is
pinned. -/
def clean (g : Graph) (rule : LeafRule) (p : Policy) : Cleaned :=
  let (tagged, constants) := g.tagNeeded.classify
  let s := (tagged.fold p).run rule p
  { graph := s.graph
    erased := s.erased.reverse
    report := { s.report with sizeAfter := s.graph.size }
    log := [.anchored g.anchorNames, .constants constants] ++ s.log.reverse }

/-- Cleans a graph up as options say, and announces the report. -/
def cleanBy (g : Graph) (o : Options) : Cleaned :=
  let c := g.clean o.leaves o.policy
  { c with log := c.log ++ [.cleaned c.report] }

end Graph

end Dataflow
