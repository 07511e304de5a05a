import Dataflow.Arena.Lemmas

/-!
# Going through an arena

A `Cursor` stands between two slots of an arena. `Cursor.next?` goes on to the next live item, past
the holes before it, and tells its position; the item may then be replaced. `Arena.visit` does so
until no live item is left: it comes by every entry, and changes each live item once (`visit_eq`).
-/

namespace Dataflow

/-- The slots already passed, latest first, and the slots ahead. -/
structure Cursor (α : Type) where
  passed : List (Option α)
  ahead : List (Option α)

namespace Cursor

variable {α : Type}

/-- All slots in order. -/
def slots (c : Cursor α) : List (Option α) := c.passed.reverse ++ c.ahead

/-- The next live item with its position, and the cursor behind it. -/
def next? : Cursor α → Option ((Nat × α) × Cursor α)
  | ⟨_, []⟩ => none
  | ⟨passed, none :: ahead⟩ => next? ⟨none :: passed, ahead⟩
  | ⟨passed, some x :: ahead⟩ => some ((passed.length, x), ⟨some x :: passed, ahead⟩)
termination_by c => c.ahead.length

/-- Replaces the item that the cursor has just passed. -/
def put (y : α) (c : Cursor α) : Cursor α := { c with passed := some y :: c.passed.tail }

variable {c d : Cursor α} {e : Nat × α}

theorem next?_nil (passed : List (Option α)) : next? ⟨passed, []⟩ = none := by
  rw [next?]

theorem next?_hole (passed ahead : List (Option α)) :
    next? ⟨passed, none :: ahead⟩ = next? ⟨none :: passed, ahead⟩ := by
  rw [next?]

theorem next?_item (passed ahead : List (Option α)) (x : α) :
    next? ⟨passed, some x :: ahead⟩ = some ((passed.length, x), ⟨some x :: passed, ahead⟩) := by
  rw [next?]

/-- Going on leaves less ahead. -/
theorem length_ahead_lt (h : c.next? = some (e, d)) : d.ahead.length < c.ahead.length := by
  obtain ⟨passed, ahead⟩ := c
  induction ahead generalizing passed with
  | nil =>
    rw [next?_nil] at h
    cases h
  | cons s rest ih =>
    cases s with
    | none =>
      rw [next?_hole] at h
      exact Nat.lt_succ_of_lt (ih _ h)
    | some x =>
      rw [next?_item] at h
      cases h
      exact Nat.lt_succ_self _

/-- Comes by all live items ahead and replaces each by what `f` makes of its position and itself.
The items are listed as they were, with the slots as they are afterwards. -/
def visit (f : Nat → α → α) (c : Cursor α) : List (Nat × α) × List (Option α) :=
  match _ : c.next? with
  | none => ([], c.slots)
  | some (e, d) =>
    let rest := visit f (d.put (f e.1 e.2))
    (e :: rest.1, rest.2)
termination_by c.ahead.length
decreasing_by
  rename_i h
  exact (length_ahead_lt h :)

theorem visit_of_next?_eq_none (f : Nat → α → α) (h : c.next? = none) :
    c.visit f = ([], c.slots) := by
  rw [visit]
  split
  · rfl
  · rename_i hsome
    rw [h] at hsome
    cases hsome

theorem visit_of_next?_eq_some (f : Nat → α → α) (h : c.next? = some (e, d)) :
    c.visit f =
      (e :: ((d.put (f e.1 e.2)).visit f).1, ((d.put (f e.1 e.2)).visit f).2) := by
  rw [visit]
  split
  · rename_i hnone
    rw [h] at hnone
    cases hnone
  · rename_i hsome
    rw [h] at hsome
    cases hsome
    rfl

/-- A hole is passed by. -/
theorem visit_hole (f : Nat → α → α) (passed ahead : List (Option α)) :
    visit f ⟨passed, none :: ahead⟩ = visit f ⟨none :: passed, ahead⟩ := by
  have hnext := next?_hole passed ahead
  cases h : next? ⟨none :: passed, ahead⟩ with
  | none =>
    rw [visit_of_next?_eq_none f h, visit_of_next?_eq_none f (hnext.trans h)]
    simp [slots]
  | some r => rw [visit_of_next?_eq_some f h, visit_of_next?_eq_some f (hnext.trans h)]

/-- A visit comes by the live items ahead in order, and changes each of them once. -/
theorem visit_eq (f : Nat → α → α) (passed ahead : List (Option α)) :
    visit f ⟨passed, ahead⟩ =
      ((ahead.zipIdx passed.length).filterMap fun s => s.1.map (s.2, ·),
        passed.reverse ++ ahead.mapIdx fun i s => s.map (f (i + passed.length))) := by
  induction ahead generalizing passed with
  | nil =>
    rw [visit_of_next?_eq_none f (next?_nil passed)]
    simp [slots]
  | cons s rest ih =>
    have hpos : ∀ i, i + 1 + passed.length = i + (passed.length + 1) := fun i => by omega
    cases s with
    | none =>
      rw [visit_hole, ih]
      simp [List.zipIdx_cons, List.mapIdx_cons, hpos]
    | some x =>
      rw [visit_of_next?_eq_some f (next?_item passed rest x), put, List.tail_cons, ih]
      simp [List.zipIdx_cons, List.mapIdx_cons, hpos]

/-- A visit leaves the holes as they are. -/
theorem countP_visit (f : Nat → α → α) (slots : List (Option α)) :
    (visit f ⟨[], slots⟩).2.countP Option.isNone = slots.countP Option.isNone := by
  rw [visit_eq]
  exact Arena.countP_mapIdx_map slots f

end Cursor

namespace Arena

variable {α : Type}

/-- Comes by all live items and replaces each by what `f` makes of its position and itself. The
items are listed as they were. -/
def visit (f : Nat → α → α) (a : Arena α) : List (Nat × α) × Arena α :=
  ((Cursor.visit f ⟨[], a.slots.toList⟩).1,
    { slots := (Cursor.visit f ⟨[], a.slots.toList⟩).2.toArray
      holes := a.holes
      holes_eq := by
        rw [a.holes_eq, ← Array.countP_toList, ← Cursor.countP_visit f, List.countP_toArray] })

/-- A visit comes by every entry, in order, and changes each live item once. -/
theorem visit_eq (f : Nat → α → α) (a : Arena α) : a.visit f = (a.entries, a.mapIds f) := by
  have hslots : (a.slots.toList.mapIdx fun i s => s.map (f i)).toArray =
      a.slots.mapIdx fun i s => s.map (f i) := by
    rw [← Array.toList_mapIdx, Array.toArray_toList]
  simp [visit, entries, mapIds, Cursor.visit_eq, hslots]

end Arena

end Dataflow
