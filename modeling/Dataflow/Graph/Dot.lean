import Dataflow.Graph.Basic

/-!
# Drawings

A `Dot` is a directed graph to be drawn: the labels of its nodes, which are numbered from zero, and
its edges. `Dot.textBy` writes it in the language of drawing tools, one line for each node and each
edge, in a given way to quote; `Dot.text` quotes with `Text.escape`. `Graph.dot` draws a graph, with
the live nodes numbered in order of insertion.
-/

namespace Dataflow

/-- Labels of numbered nodes, and edges between numbers. -/
structure Dot where
  labels : List String
  edges : List (Nat × Nat)
  deriving DecidableEq

namespace Dot

/-- A label is quoted, and then every quote and backslash takes a further backslash, so that the
drawing shows the quoted text. -/
def escapeLabel (q : Char → List Char) (label : String) : List Char :=
  (Text.quotedChars q label.toList).flatMap fun c => if c = '"' ∨ c = '\\' then ['\\', c] else [c]

def nodeLine (q : Char → List Char) (label : String) (i : Nat) : String :=
  "    " ++ Nat.repr i ++ " [ label = \"" ++ String.ofList (escapeLabel q label) ++ "\" ]\n"

def edgeLine (e : Nat × Nat) : String :=
  "    " ++ Nat.repr e.1 ++ " -> " ++ Nat.repr e.2 ++ " [ ]\n"

/-- The drawing as text, with labels quoted by `q`: nodes first, in order of their numbers, then the
edges. -/
def textBy (q : Char → List Char) (d : Dot) : String :=
  "digraph \x7b\n" ++ String.join (d.labels.mapIdx fun i label => nodeLine q label i)
    ++ String.join (d.edges.map edgeLine) ++ "\x7d\n"

/-- The drawing as text. -/
def text (d : Dot) : String := d.textBy Text.escape

end Dot

namespace Graph

/-- The number of a live node among the live nodes. -/
def rank? (g : Graph) (i : NodeId) : Option Nat := g.ids.idxOf? i

/-- The edges as their near ends list them, node by node, between ranks. What is not live has no
rank and is left out. -/
def rankedEdges (g : Graph) : List (Nat × Nat) :=
  (g.entries.mapIdx fun k e => (e.2.targets.filterMap g.rank?).map (k, ·)).flatten

/-- The live nodes by their labels, and the edges between them. -/
def dot (g : Graph) : Dot := ⟨g.entries.map fun e => e.2.label, g.rankedEdges⟩

end Graph

end Dataflow
