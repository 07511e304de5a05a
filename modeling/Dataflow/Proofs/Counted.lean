import Dataflow.Literal
import Mathlib.Algebra.BigOperators.Group.List.Basic
import Mathlib.Algebra.Order.BigOperators.Group.List

/-!
# Literals have as many elements as their dimensions say

The dimensions are multiplied from left to right, and a product that 64 bits do not hold is no
product. So what counts is not only the exact product, `Shape.volume`, but every partial product as
well (`count?_eq_some_iff`): a zero stops the products from growing, and comes too late behind
dimensions whose product is too large. Without zeros the partial products never exceed the last one,
and the order of the dimensions does not matter (`ofElements?_exact`).
-/

namespace Dataflow

namespace Shape

/-- The exact product of the dimensions. -/
def volume (s : Shape) : Nat := (s.map UInt64.toNat).prod

@[simp] theorem volume_nil : volume [] = 1 := rfl

@[simp] theorem volume_cons (d : UInt64) (s : Shape) : volume (d :: s) = d.toNat * s.volume := by
  simp [volume]

theorem volume_append (s t : Shape) : volume (s ++ t) = s.volume * t.volume := by
  simp [volume]

theorem volume_perm {s t : Shape} (h : s.Perm t) : s.volume = t.volume :=
  (h.map UInt64.toNat).prod_eq

theorem volume_pos {s : Shape} (h : 0 ∉ s) : 0 < s.volume := by
  induction s with
  | nil => exact Nat.one_pos
  | cons d s ih =>
    rw [List.mem_cons, not_or] at h
    rw [volume_cons]
    refine Nat.mul_pos (Nat.pos_of_ne_zero fun hd => h.1 ?_) (ih h.2)
    exact (UInt64.toNat_inj.1 (by simpa using hd)).symm

theorem forall_prefix_cons {P : Shape → Prop} {d : UInt64} {s : Shape} :
    (∀ t, t <+: d :: s → P t) ↔ P [] ∧ ∀ t, t <+: s → P (d :: t) := by
  constructor
  · intro h
    exact ⟨h [] List.nil_prefix, fun t ht => h (d :: t) (List.cons_prefix_cons.2 ⟨rfl, ht⟩)⟩
  · rintro ⟨hnil, hcons⟩ t ht
    rcases List.prefix_cons_iff.1 ht with rfl | ⟨u, rfl, hu⟩
    · exact hnil
    · exact hcons u hu

/-- Multiplying on from `n` gives the exact product, if 64 bits hold every product on the way. -/
theorem foldlM_eq_some_iff {s : Shape} {n m : Nat} (hn : n < UInt64.size) :
    s.foldlM (fun n d => if n * d.toNat < UInt64.size then some (n * d.toNat) else none) n =
        some m ↔
      (∀ t, t <+: s → n * volume t < UInt64.size) ∧ n * s.volume = m := by
  induction s generalizing n with
  | nil => simp [hn]
  | cons d s ih =>
    rw [List.foldlM_cons, forall_prefix_cons]
    by_cases hd : n * d.toNat < UInt64.size
    · simp only [if_pos hd, Option.bind_eq_bind, Option.bind_some, ih hd, volume_cons, volume_nil,
        Nat.mul_one, Nat.mul_assoc, hn, true_and]
    · rw [if_neg hd]
      refine iff_of_false (by simp) fun h => hd ?_
      simpa using h.1.2 [] List.nil_prefix

/-- 64 bits hold every product of the first dimensions. -/
def Fits (s : Shape) : Prop := ∀ t, t <+: s → volume t < UInt64.size

/-- The number of elements is the exact product of the dimensions, where 64 bits hold every product
on the way. -/
theorem count?_eq_some_iff {s : Shape} {n : Nat} :
    s.count? = some n ↔ s.Fits ∧ s.volume = n := by
  rw [count?, foldlM_eq_some_iff (by decide)]
  simp only [Nat.one_mul, Fits]

/-- Without zeros no product of the first dimensions exceeds that of all. -/
theorem fits_iff {s : Shape} (h : 0 ∉ s) : s.Fits ↔ s.volume < UInt64.size := by
  constructor
  · intro hs
    exact hs s (List.prefix_refl s)
  · rintro hs _ ⟨u, rfl⟩
    have hu : 0 < volume u := volume_pos fun hu => h (List.mem_append_right _ hu)
    rw [volume_append] at hs
    exact Nat.lt_of_le_of_lt (Nat.le_mul_of_pos_right _ hu) hs

end Shape

namespace Literal

variable {s t : Shape} {e : Array Float} {v : Literal}

theorem isSome_ofElements?_iff : (ofElements? s e).isSome ↔ s.Fits ∧ s.volume = e.size := by
  rw [← Shape.count?_eq_some_iff, ofElements?]
  split <;> simp_all

theorem size_elements (v : Literal) : v.elements.size = v.shape.volume :=
  (Shape.count?_eq_some_iff.1 v.count_eq).2.symm

/-- The text of a literal without dimensions is that of its first element. -/
theorem text_of_shape_nil (h : v.shape = []) :
    ∃ x, v.elements[0]? = some x ∧ v.text = floatText x := by
  have hsize : 0 < v.elements.size := by
    rw [size_elements_of_shape_nil h]
    exact Nat.one_pos
  exact ⟨v.elements[0], Array.getElem?_eq_getElem hsize, by rw [text, dif_pos h]⟩

/-- **A literal has as many elements as its dimensions say.** There is one with given dimensions and
elements, and it holds just these, if and only if 64 bits hold all products of the first dimensions
and the exact product of all is the number of elements; a product that only wraps around to that
number will not do. Without zeros among the dimensions it is enough that the exact product is the
number of elements, as long as that is a number of 64 bits, and their order does not matter. So the
first element, which is the text of a literal without dimensions, is always there. -/
theorem ofElements?_exact (s : Shape) (e : Array Float) :
    ((ofElements? s e).isSome ↔
      (∀ t, t <+: s → Shape.volume t < UInt64.size) ∧ s.volume = e.size) ∧
    (∀ v, ofElements? s e = some v → v.shape = s ∧ v.elements = e) ∧
    (s.volume ≠ e.size → ofElements? s e = none) ∧
    (0 ∉ s →
      (e.size < UInt64.size → ((ofElements? s e).isSome ↔ s.volume = e.size)) ∧
      ∀ t, t.Perm s → ((ofElements? t e).isSome ↔ (ofElements? s e).isSome)) ∧
    ∀ v, (ofElements? s e = some v ∨ ∃ x, v = scalar x) →
      v.elements.size = v.shape.volume ∧
        (v.shape = [] → ∃ x, v.elements[0]? = some x ∧ v.text = floatText x) := by
  refine ⟨isSome_ofElements?_iff, fun v => ofElements?_eq_some_iff.1, fun hne => ?_,
    fun hs => ⟨fun he => ?_, fun t ht => ?_⟩, fun v _ => ⟨v.size_elements, text_of_shape_nil⟩⟩
  · rw [← Option.not_isSome_iff_eq_none, isSome_ofElements?_iff]
    exact fun h => hne h.2
  · rw [isSome_ofElements?_iff, Shape.fits_iff hs, and_iff_right_iff_imp]
    exact fun hv => hv ▸ he
  · have ht0 : 0 ∉ t := fun h => hs (ht.mem_iff.1 h)
    rw [isSome_ofElements?_iff, isSome_ofElements?_iff, Shape.fits_iff hs, Shape.fits_iff ht0,
      Shape.volume_perm ht]

/-- Six elements make a tensor of two by three, and of three by two. -/
theorem ofElements?_exact_two_three :
    (ofElements? [2, 3] (Array.replicate 6 0)).isSome ∧
      (ofElements? [3, 2] (Array.replicate 6 0)).isSome ∧
      ofElements? [2, 9223372036854775811] (Array.replicate 6 0) = none := by
  obtain ⟨-, -, -, hzerofree, -⟩ := ofElements?_exact [2, 3] (Array.replicate 6 0)
  obtain ⟨hiff, hperm⟩ := hzerofree (by decide)
  have hsome := (hiff (by decide)).2 (by decide)
  -- twice the second dimension is six more than two to the power of 64
  obtain ⟨-, -, hnone, -, -⟩ :=
    ofElements?_exact [2, 9223372036854775811] (Array.replicate 6 0)
  exact ⟨hsome, (hperm [3, 2] (.swap 2 3 [])).2 hsome, hnone (by decide)⟩

/-- A zero helps only against products that come after it. -/
example : (ofElements? [0, 18446744073709551615, 2] #[]).isSome ∧
    (ofElements? [18446744073709551615, 2, 0] #[]).isNone := by
  decide

end Literal

end Dataflow
