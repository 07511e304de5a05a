import Dataflow.Decimal.Basic

/-!
# A fixed number of decimal places

`roundDiv` rounds a quotient to the nearest natural number, a half to the even one, and
`Magnitude.rounded` rounds the exact value of a binary number to a number of places.
-/

namespace Dataflow

/-- The natural number nearest to `num / den`; a half goes to the even neighbour. -/
def roundDiv (num den : Nat) : Nat :=
  let q := num / den
  let r := num % den
  if 2 * r < den then q else if den < 2 * r then q + 1 else q + q % 2

/-- `x` rounded to the given number of decimal places. -/
def Magnitude.rounded (x : Magnitude) (places : Nat) : Decimal :=
  ⟨roundDiv (x.mantissa * Nat.pow 2 x.exponent.toNat * Nat.pow 10 places)
    (Nat.pow 2 (-x.exponent).toNat), -places⟩

end Dataflow
