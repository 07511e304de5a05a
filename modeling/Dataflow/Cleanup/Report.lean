import Dataflow.Decimal.Fixed

/-!
# Clean-up reports

The numbers that sum up a clean-up, and their text. The reduction is a percentage of the old size,
computed in binary32 and written with one place.
-/

namespace Dataflow

/-- Numbers of removed operations and data nodes, and of all nodes before and after. -/
structure Report where
  removedOperations : Nat := 0
  removedData : Nat := 0
  sizeBefore : Nat := 0
  sizeAfter : Nat := 0
  deriving DecidableEq

namespace Report

/-- Counts one more removed operation. -/
def countOperation (r : Report) : Report := { r with removedOperations := r.removedOperations + 1 }

/-- Counts one more removed data node. -/
def countData (r : Report) : Report := { r with removedData := r.removedData + 1 }

/-- Whether nothing was removed. -/
def isUnchanged (r : Report) : Bool := r.removedOperations == 0 && r.removedData == 0

/-- The percentage by which the graph shrank; growth counts as none, and so does an empty graph. -/
def reduction (r : Report) : Float32 :=
  if r.sizeBefore = 0 then 0
  else Float32.ofNat (r.sizeBefore - r.sizeAfter) / Float32.ofNat r.sizeBefore * 100

/-- The reduction with one decimal place. -/
def reductionText (r : Report) : String :=
  (Reading.ofBits binary32 r.reduction.toBits.toNat).text fun m => m.rounded 1

/-- The sizes and the reduction on one line. -/
def text (r : Report) : String :=
  "old size:" ++ Nat.repr r.sizeBefore ++ ", new size:" ++ Nat.repr r.sizeAfter ++ ", reduction: "
    ++ r.reductionText ++ "%"

end Report

end Dataflow
