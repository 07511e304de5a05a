import Dataflow.Cleanup.Report

/-!
# Events

What a graph has to tell while it works, at three levels of detail, and the lines that say it.
-/

namespace Dataflow

/-- Levels of detail, from the coarsest to the finest. -/
inductive Level
  | info
  | debug
  | trace
  deriving DecidableEq

namespace Level

def name : Level → String
  | .info => "INFO"
  | .debug => "DEBUG"
  | .trace => "TRACE"

def rank : Level → Nat
  | .info => 0
  | .debug => 1
  | .trace => 2

end Level

/-- Something worth telling. -/
inductive Event
  /-- A node was erased; the text is its label. -/
  | erased (label : String)
  /-- The search for what outputs need starts from anchors of these names. -/
  | anchored (names : List String)
  /-- So many operations yield constants only. -/
  | constants (count : Nat)
  /-- So many of them are about to be erased. -/
  | folding (count : Nat)
  | cleaned (report : Report)
  deriving DecidableEq

namespace Event

def level : Event → Level
  | .erased _ => .trace
  | .anchored _ | .constants _ | .folding _ => .debug
  | .cleaned _ => .info

def message : Event → String
  | .erased label => "erased " ++ label
  | .anchored names => "Output reachability seeded from: " ++ ", ".intercalate names
  | .constants count => "Found " ++ Nat.repr count ++ " constant producers"
  | .folding count => "Folding " ++ Nat.repr count ++ " unreachable constant producers"
  | .cleaned report => "Optimization: dead node elimination, " ++ report.text

/-- The level and the message. -/
def line (e : Event) : String := e.level.name ++ " " ++ e.message

/-- The lines of the events up to a level of detail; without a level, none. -/
def lines (finest : Option Level) (events : List Event) : List String :=
  match finest with
  | none => []
  | some l => (events.filter fun e => e.level.rank ≤ l.rank).map line

end Event

end Dataflow
