/-!
# Decimal numbers and binary numbers

`Decimal` is a natural number scaled by a power of ten, with its positional text. `Magnitude` is the
absolute value of a finite binary number, a natural number scaled by a power of two. `Reading` is
what the bits of a binary number stand for in a given `BinaryFormat`, and `Reading.text` its text,
given a choice of digits for magnitudes.
-/

namespace Dataflow

/-- The number `digits · 10 ^ exponent`. -/
structure Decimal where
  digits : Nat
  exponent : Int
  deriving DecidableEq

namespace Decimal

/-- Positional text, never with an exponent: `⟨25, -1⟩` is `2.5` and `⟨25, 1⟩` is `250`. Below the
point stand as many digits as the exponent says. -/
def text (d : Decimal) : String :=
  let places := (-d.exponent).toNat
  let scale := Nat.pow 10 places
  let whole := Nat.repr (d.digits * Nat.pow 10 d.exponent.toNat / scale)
  if places = 0 then whole
  else
    let rest := Nat.repr (d.digits % scale)
    whole ++ "." ++ String.ofList (List.replicate (places - rest.length) '0') ++ rest

end Decimal

/-- The number `mantissa · 2 ^ exponent`, and whether the next number below it in its format is half
as far away as the next one above. -/
structure Magnitude where
  mantissa : Nat
  exponent : Int
  narrowBelow : Bool

/-- The widths of the fields of a binary number: a sign bit, the exponent, the fraction. -/
structure BinaryFormat where
  exponentBits : Nat
  fractionBits : Nat

def binary32 : BinaryFormat := ⟨8, 23⟩

def binary64 : BinaryFormat := ⟨11, 52⟩

/-- The exponent of the subnormal numbers, with the fraction read as a whole number. -/
def BinaryFormat.leastExponent (f : BinaryFormat) : Int :=
  2 - Nat.pow 2 (f.exponentBits - 1) - f.fractionBits

/-- What the bits of a binary number stand for. -/
inductive Reading
  | notANumber
  | infinite (negative : Bool)
  | finite (negative : Bool) (magnitude : Magnitude)

namespace Reading

/-- The least exponent field marks the subnormal numbers, which have no hidden bit; the greatest the
infinities and what is no number. -/
def ofBits (f : BinaryFormat) (bits : Nat) : Reading :=
  let hidden := Nat.pow 2 f.fractionBits
  let fraction := bits % hidden
  let field := bits / hidden % Nat.pow 2 f.exponentBits
  let negative := bits / hidden / Nat.pow 2 f.exponentBits % 2 = 1
  if field = Nat.pow 2 f.exponentBits - 1 then
    if fraction = 0 then .infinite negative else .notANumber
  else if field = 0 then .finite negative ⟨fraction, f.leastExponent, false⟩
  else
    .finite negative ⟨hidden + fraction, f.leastExponent + (field - 1), fraction = 0 && 1 < field⟩

/-- The text of a number, with the sign of zero kept. -/
def text (digits : Magnitude → Decimal) : Reading → String
  | notANumber => "NaN"
  | infinite negative => if negative then "-inf" else "inf"
  | finite negative m => (if negative then "-" else "") ++ (digits m).text

end Reading

end Dataflow
