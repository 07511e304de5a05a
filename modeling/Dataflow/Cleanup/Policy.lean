import Dataflow.OpKind
import Std.Data.HashSet

/-!
# Pinned operations

A `Policy` says which kinds of operations a clean-up must keep whatever happens, because they have
effects or because whoever takes the graph needs them. Such a kind is called pinned. A policy can be
given by a list or a set of kinds, or by any other rule.
-/

namespace Dataflow

/-- Which kinds are pinned. -/
abbrev Policy := OpKind → Bool

namespace Policy

/-- Pins the kinds of a list. -/
def ofList (kinds : List OpKind) : Policy := fun k => kinds.contains k

/-- Pins the kinds of an array. -/
def ofArray (kinds : Array OpKind) : Policy := fun k => kinds.contains k

/-- Pins the kinds of a set. -/
def ofSet (kinds : Std.HashSet OpKind) : Policy := fun k => kinds.contains k

/-- Pins everything. -/
def everything : Policy := fun _ => true

/-- Pins nothing. -/
def nothing : Policy := fun _ => false

/-- Pins the custom kinds. -/
def custom : Policy := OpKind.isCustom

/-- Pins what feeds the graph. -/
def parameters : Policy := OpKind.isParameter

/-- Pins the kinds whose name starts with `s`. -/
def startingWith (s : String) : Policy := fun k => s.toList.isPrefixOf k.name.toList

theorem ofList_iff {kinds : List OpKind} {k : OpKind} : ofList kinds k ↔ k ∈ kinds := by
  simp [ofList]

theorem ofArray_iff {kinds : Array OpKind} {k : OpKind} : ofArray kinds k ↔ k ∈ kinds := by
  simp [ofArray]

theorem ofSet_iff {kinds : Std.HashSet OpKind} {k : OpKind} : ofSet kinds k ↔ k ∈ kinds := by
  simp [ofSet]

/-- A policy is known by what it pins. -/
theorem eq_ofList {p : Policy} {kinds : List OpKind} (h : ∀ k, p k ↔ k ∈ kinds) :
    p = ofList kinds := by
  funext k
  rw [Bool.eq_iff_iff, h, ofList_iff]

end Policy

end Dataflow
