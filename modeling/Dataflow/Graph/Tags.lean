import Dataflow.Graph.Walk

/-!
# Tags

The two analyses that a clean-up rests on. Each looks at the graph as it is, takes no notice of what
was tagged before, and changes nothing but its own tag.

* `Graph.tagNeeded`: which nodes an output needs. The tag tells at the same time which nodes the
  search has come by: it is cleared everywhere, and `Marking.run` sets it, from the anchors against
  the edges. Each step lowers `Marking.pending` (`Marking.pending_step_lt`).
* `Graph.classify`: which operations yield constants only. All of them are judged by what they feed
  before the first tag is written, and those that are tagged so are counted.
-/

namespace Dataflow

/-! ## What outputs need -/

/-- A search for what outputs need: the graph, in which the nodes that it came by are tagged, and
the stack, top first. -/
structure Marking where
  graph : Graph
  work : List NodeId

namespace Marking

/-- Looks at the position on top of the stack. A live node that is not tagged yet is tagged, and
leaves its sources on the stack. -/
def step (s : Marking) : Marking :=
  match s.work with
  | [] => s
  | i :: rest =>
    match s.graph.node? i with
    | none => { s with work := rest }
    | some n =>
      if n.needed = some true then { s with work := rest }
      else
        { graph :=
            { s.graph with nodes := s.graph.nodes.modify i fun n => { n with needed := some true } }
          work := n.sources.reverse ++ rest }

section Step

variable {g : Graph} {i : NodeId} {n : Node} {rest : List NodeId}

theorem step_of_node?_eq_none (hn : g.node? i = none) : step ⟨g, i :: rest⟩ = ⟨g, rest⟩ := by
  simp [step, hn]

theorem step_of_tagged (hn : g.node? i = some n) (ht : n.needed = some true) :
    step ⟨g, i :: rest⟩ = ⟨g, rest⟩ := by
  simp [step, hn, ht]

theorem step_of_not_tagged (hn : g.node? i = some n) (ht : n.needed ≠ some true) :
    step ⟨g, i :: rest⟩ =
      ⟨{ g with nodes := g.nodes.modify i fun n => { n with needed := some true } },
        n.sources.reverse ++ rest⟩ := by
  simp [step, hn, ht]

end Step

/-- How much of the stack is left, and how much the nodes not yet tagged can add to it. -/
def pending (s : Marking) : Nat :=
  s.work.length
    + ((s.graph.entries.filter fun e => e.2.needed != some true).flatMap
        fun e => e.2.sources).length

/-- Every step makes progress. -/
theorem pending_step_lt {s : Marking} (h : s.work ≠ []) : s.step.pending < s.pending := by
  obtain ⟨g, _ | ⟨i, rest⟩⟩ := s
  · exact absurd rfl h
  cases hn : g.node? i with
  | none => simp [step_of_node?_eq_none hn, pending]
  | some n =>
    by_cases ht : n.needed = some true
    · simp [step_of_tagged hn ht, pending]
    · -- the entries are the same but for one tag, which takes its node out of the sum
      let mark : NodeId × Node → NodeId × Node := fun e =>
        (e.1, if e.1 = i then { e.2 with needed := some true } else e.2)
      have hmark : ∀ e, (mark e).2.sources = e.2.sources := by
        intro e
        simp only [mark]
        split <;> rfl
      have hkept : ∀ e, ((mark e).2.needed != some true) = true →
          (e.2.needed != some true) = true := by
        intro e
        simp only [mark]
        split
        · simp
        · exact id
      have hentries : Graph.entries
          { g with nodes := g.nodes.modify i fun n => { n with needed := some true } } =
            g.entries.map mark := Arena.entries_modify ..
      have hadd := Walk.length_flatMap_filter_add_le (fun e : NodeId × Node => e.2.sources)
        (p := fun e => e.2.needed != some true) (q := fun e => (mark e).2.needed != some true)
        hkept (Graph.mem_entries.2 hn) (by simpa using ht) (by simp [mark])
      simp only [step_of_not_tagged hn ht, pending, hentries, List.filter_map, List.flatMap_map,
        Function.comp_def, hmark, List.length_append, List.length_reverse, List.length_cons]
        at hadd ⊢
      omega

/-- Steps until the stack is empty. -/
def run (s : Marking) : Marking := if s.work = [] then s else run s.step
termination_by s.pending
decreasing_by exact pending_step_lt ‹_›

theorem run_of_work_eq_nil {s : Marking} (h : s.work = []) : s.run = s := by
  rw [run, if_pos h]

theorem run_of_work_ne_nil {s : Marking} (h : s.work ≠ []) : s.run = s.step.run := by
  rw [run, if_neg h]

end Marking

namespace Graph

/-- The declared outputs and the operations that take outputs out of the graph. -/
def anchors (g : Graph) : List NodeId := g.idsWhere Node.isAnchor

/-- The names of the anchors, in the order of code points. -/
def anchorNames (g : Graph) : List String :=
  ((g.entries.filter fun e => e.2.isAnchor).map fun e => e.2.name).mergeSort fun a b => a ≤ b

/-- Where the search starts: no node is tagged, and the anchors are on the stack, the last one on
top. -/
def marking (g : Graph) : Marking :=
  let cleared := { g with nodes := g.nodes.mapIds fun _ n => { n with needed := some false } }
  ⟨cleared, cleared.anchors.reverse⟩

/-- Tags every live node with whether an output needs it. -/
def tagNeeded (g : Graph) : Graph := g.marking.run.graph

/-! ## What yields constants -/

/-- Whether everything that an operation on the way to `targets` yields is known: there is at least
one target, and each is live and has a value. -/
def allKnown (g : Graph) (targets : List NodeId) : Bool :=
  !targets.isEmpty && targets.all fun j => (g.node? j).any Node.hasValue

/-- Whether a node is an operation that yields constants only. What feeds the graph never does. -/
def judge (g : Graph) (n : Node) : Bool :=
  n.hasKind (fun k => !k.isParameter) && g.allKnown n.targets

/-- The operations, in order of insertion, with whether they yield constants only. -/
def judged (g : Graph) : List (NodeId × Bool) :=
  (g.entries.filter fun e => e.2.isOperation).map fun e => (e.1, g.judge e.2)

/-- Writes the tag of an operation, and counts it if it is set; where no operation is live, nothing
changes. -/
def noteConstant (s : Graph × Nat) (e : NodeId × Bool) : Graph × Nat :=
  if (s.1.node? e.1).any Node.isOperation then
    let tag := Node.mapOperation fun o => { o with constant := some e.2 }
    ({ s.1 with nodes := s.1.nodes.modify e.1 tag }, s.2 + e.2.toNat)
  else s

/-- Tags every live operation with whether it yields constants only, and counts those that do. -/
def classify (g : Graph) : Graph × Nat := g.judged.foldl noteConstant (g, 0)

/-- Tags every live operation with whether it yields constants only. -/
def tagConstant (g : Graph) : Graph := g.classify.1

/-- The live nodes with a given tag `needed`. -/
def idsNeeded (g : Graph) (b : Bool) : List NodeId := g.idsWhere fun n => n.needed == some b

/-- The live operations with a given tag `constant`. -/
def idsConstant (g : Graph) (b : Bool) : List NodeId := g.idsWhere fun n => n.constant? == some b

end Graph

end Dataflow
