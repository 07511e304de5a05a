/-!
# Kinds of operations

Four kinds have a meaning of their own; every other kind is known by its name only. A custom kind
that bears a well-known name is still a different kind.
-/

namespace Dataflow

/-- What an operation does, as far as a graph cares. -/
inductive OpKind
  /-- Feeds the graph from the outside. -/
  | parameter
  /-- Takes an output out of the graph; has no outputs of its own. -/
  | result
  | const
  | identity
  | custom (name : String)
  deriving DecidableEq, Hashable

namespace OpKind

/-- The well-known kind of that name, otherwise a custom one. -/
def ofName : String → OpKind
  | "Parameter" => .parameter
  | "Result" => .result
  | "Const" => .const
  | "Identity" => .identity
  | name => .custom name

/-- The name of a kind, which does not tell a custom kind from a well-known one. -/
def name : OpKind → String
  | .parameter => "Parameter"
  | .result => "Result"
  | .const => "Const"
  | .identity => "Identity"
  | .custom name => name

def isParameter (k : OpKind) : Bool := k == .parameter

def isResult (k : OpKind) : Bool := k == .result

def isCustom : OpKind → Bool
  | .custom _ => true
  | _ => false

end OpKind

end Dataflow
