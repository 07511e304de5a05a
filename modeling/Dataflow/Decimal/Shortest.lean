import Dataflow.Decimal.Basic

/-!
# The shortest decimal that reads back

`Magnitude.shortest` picks, of the decimals that a correctly rounding reader maps to a given
binary number, one with the fewest digits, and of these the nearest; of two equally near ones the
greater. All comparisons are exact, by clearing denominators.

`floatText` is the text of a number: the shortest digits, laid out positionally.
-/

namespace Dataflow

namespace Decimal

/-- Whether `d < n · 2 ^ j`. -/
def below (d : Decimal) (n : Nat) (j : Int) : Bool :=
  d.digits * Nat.pow 10 d.exponent.toNat * Nat.pow 2 (-j).toNat
    < n * Nat.pow 2 j.toNat * Nat.pow 10 (-d.exponent).toNat

/-- Whether `n · 2 ^ j < d`. -/
def above (d : Decimal) (n : Nat) (j : Int) : Bool :=
  n * Nat.pow 2 j.toNat * Nat.pow 10 (-d.exponent).toNat
    < d.digits * Nat.pow 10 d.exponent.toNat * Nat.pow 2 (-j).toNat

end Decimal

namespace Magnitude

/-- Whether `d` lies between the midpoints to the neighbouring binary numbers. The midpoints
themselves round to the even mantissa. -/
def readsBack (x : Magnitude) (d : Decimal) : Bool :=
  let lower := 4 * x.mantissa - if x.narrowBelow then 1 else 2
  let upper := 4 * x.mantissa + 2
  if x.mantissa % 2 = 0 then
    !d.below lower (x.exponent - 2) && !d.above upper (x.exponent - 2)
  else d.above lower (x.exponent - 2) && d.below upper (x.exponent - 2)

/-- The multiple of `10 ^ p` next to `x` that reads back, if there is one: of the multiples just
below and just above, the nearer, and the upper one in the middle. -/
def onGrid? (x : Magnitude) (p : Int) : Option Decimal :=
  let num := x.mantissa * Nat.pow 2 x.exponent.toNat * Nat.pow 10 (-p).toNat
  let den := Nat.pow 2 (-x.exponent).toNat * Nat.pow 10 p.toNat
  let lower : Decimal := ⟨num / den, p⟩
  let upper : Decimal := ⟨num / den + 1, p⟩
  match x.readsBack lower, x.readsBack upper with
  | true, true => some (if 2 * (num % den) < den then lower else upper)
  | true, false => some lower
  | false, true => some upper
  | false, false => none

/-- A power of ten above `x`, at most two places above its leading digit: `30103 / 100000` is the
decimal logarithm of two to within what binary64 exponents can show. -/
def gridBound (x : Magnitude) : Int :=
  (x.mantissa.log2 + x.exponent + 1) * 30103 / 100000 + 1

/-- All digits of `x`. -/
def exact (x : Magnitude) : Decimal :=
  ⟨x.mantissa * Nat.pow 2 x.exponent.toNat * Nat.pow 5 (-x.exponent).toNat, min x.exponent 0⟩

/-- Tries the grids of powers of ten from the coarsest that can hold a digit of `x` downwards; the
first that has a multiple reading back needs the fewest digits. Twenty grids reach past the
seventeenth digit, where the search ends. -/
def shortest (x : Magnitude) : Decimal :=
  if x.mantissa = 0 then ⟨0, 0⟩
  else ((List.range 20).findSome? fun (i : Nat) => x.onGrid? (x.gridBound - i)).getD x.exact

end Magnitude

/-- The text of a binary64 number: shortest digits, always positional, and no point after a whole
number. -/
def floatText (x : Float) : String :=
  (Reading.ofBits binary64 x.toBits.toNat).text Magnitude.shortest

end Dataflow
