import Dataflow.Cleanup.Policy

/-!
# Clean-up options

What a graph's owner can set for clean-ups: which kinds are pinned, and whether constants that
nobody reads any more stay in the graph.
-/

namespace Dataflow

/-- What becomes of a constant without producer and without readers that no output needs. -/
inductive LeafRule
  | keep
  | drop
  deriving DecidableEq

/-- Pinned kinds, in the order in which they were added, and the rule for unread constants. -/
structure Options where
  pinned : List OpKind := []
  leaves : LeafRule := .keep
  deriving DecidableEq

namespace Options

/-- Pins more kinds. -/
def pin (o : Options) (kinds : List OpKind) : Options := { o with pinned := o.pinned ++ kinds }

/-- Sets the rule for unread constants. -/
def withLeaves (o : Options) (rule : LeafRule) : Options := { o with leaves := rule }

/-- The policy that pins what the options list. -/
def policy (o : Options) : Policy := .ofList o.pinned

end Options

end Dataflow
