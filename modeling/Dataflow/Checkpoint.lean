/-!
# Checkpoints

A value under change together with a copy kept for later. `restore` goes back to the copy, if one
was taken.
-/

namespace Dataflow

/-- The current value and the kept one, if any. -/
structure Checkpoint (σ : Type) where
  current : σ
  kept : Option σ

namespace Checkpoint

variable {σ : Type}

/-- Keeps a copy of the current value. -/
def save (c : Checkpoint σ) : Checkpoint σ := { c with kept := some c.current }

/-- Goes back to the kept copy. -/
def restore (c : Checkpoint σ) : Option (Checkpoint σ) :=
  c.kept.map fun s => { c with current := s }

end Checkpoint

end Dataflow
