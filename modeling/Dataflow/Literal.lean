import Dataflow.Decimal.Shortest

/-!
# Literals

A `Literal` is a statically known tensor: its dimensions, outermost first, and its elements in row
major order. The type carries the proof that the elements are as many as the dimensions say, counted
with 64-bit products (`Shape.count?`). `Literal.ofElements?` checks this, and
`ofElements?_eq_some_iff` says what it builds.
-/

namespace Dataflow

/-- Dimensions of a tensor; none for a single number. -/
abbrev Shape := List UInt64

/-- The product of the dimensions from left to right, as long as 64 bits hold it. A zero
keeps it there whatever follows; a zero that comes too late does not help. -/
def Shape.count? (s : Shape) : Option Nat :=
  s.foldlM (fun n d => if n * d.toNat < UInt64.size then some (n * d.toNat) else none) 1

/-- Dimensions and elements whose numbers agree. -/
structure Literal where
  shape : Shape
  elements : Array Float
  count_eq : shape.count? = some elements.size

namespace Literal

/-- The literal with these dimensions and elements, if their numbers agree. -/
def ofElements? (shape : Shape) (elements : Array Float) : Option Literal :=
  if h : shape.count? = some elements.size then some ⟨shape, elements, h⟩ else none

/-- The literal of a single number, which has no dimensions. -/
def scalar (x : Float) : Literal := ⟨[], #[x], rfl⟩

/-- Elements are compared as numbers: a literal that holds something that is no number differs from
itself, and the two zeros are equal. -/
instance : BEq Literal := ⟨fun a b => a.shape == b.shape && a.elements == b.elements⟩

theorem ofElements?_eq_some_iff {shape : Shape} {elements : Array Float} {v : Literal} :
    ofElements? shape elements = some v ↔ v.shape = shape ∧ v.elements = elements := by
  obtain ⟨s, e, h⟩ := v
  unfold ofElements?
  constructor
  · intro hv
    split at hv
    · cases hv
      exact ⟨rfl, rfl⟩
    · cases hv
  · rintro ⟨rfl, rfl⟩
    exact dif_pos h

theorem size_elements_of_shape_nil {v : Literal} (h : v.shape = []) : v.elements.size = 1 := by
  have := v.count_eq
  rw [h] at this
  exact (Option.some.inj this).symm

/-- The number itself where there is one, otherwise only the dimensions. -/
def text (v : Literal) : String :=
  if h : v.shape = [] then
    have : 0 < v.elements.size := by rw [size_elements_of_shape_nil h]; decide
    floatText v.elements[0]
  else "tensor[" ++ ", ".intercalate (v.shape.map fun d => Nat.repr d.toNat) ++ "]"

end Literal

end Dataflow
