/-!
# Arenas

An append-only store. `push` hands out the positions `0, 1, 2, …`; `erase` empties a slot and
retires its position, so a position is never handed out twice. The number of live items is not
stored: it is the number of slots less a counter of holes, and the type carries the proof that the
counter is right. `Dataflow.Arena.Lemmas` says what each operation does to the lookup `get?`.
-/

namespace Dataflow

/-- Slots in order of insertion, `none` where the item was erased, and the number of holes. -/
structure Arena (α : Type) where
  slots : Array (Option α)
  holes : Nat
  holes_eq : holes = slots.countP Option.isNone

namespace Arena

variable {α β : Type}

/-! ## Reading -/

/-- The live item at a position. -/
def get? (a : Arena α) (i : Nat) : Option α := a.slots[i]?.join

/-- Whether a position holds a live item. -/
def contains (a : Arena α) (i : Nat) : Bool := (a.get? i).isSome

/-- The position that the next `push` hands out: the number of slots ever allocated. -/
def next (a : Arena α) : Nat := a.slots.size

/-- The number of live items. -/
def size (a : Arena α) : Nat := a.next - a.holes

/-- Whether no item is live. -/
def isEmpty (a : Arena α) : Bool := a.size == 0

/-- Live items with their positions, in increasing order of position. -/
def entries (a : Arena α) : List (Nat × α) :=
  a.slots.toList.zipIdx.filterMap fun s => s.1.map (s.2, ·)

/-- Live positions in increasing order. -/
def ids (a : Arena α) : List Nat := a.entries.map Prod.fst

/-- What `f` lists of each live item, one after the other. -/
def gather (f : α → List β) (a : Arena α) : List β := a.slots.toList.flatMap fun s => s.elim [] f

/-! ## Writing -/

/-- The arena in which nothing was ever pushed. -/
def empty : Arena α := ⟨#[], 0, rfl⟩

/-- Adds an item at position `a.next`. -/
def push (a : Arena α) (x : α) : Arena α where
  slots := a.slots.push (some x)
  holes := a.holes
  holes_eq := by simp [a.holes_eq]

/-- Empties a position; where no item is live, nothing changes. -/
def erase (a : Arena α) (i : Nat) : Arena α :=
  if h : ∃ h : i < a.slots.size, a.slots[i].isSome then
    { slots := a.slots.set i none h.1
      holes := a.holes + 1
      holes_eq := by
        obtain ⟨h, hs⟩ := h
        simp [a.holes_eq, Array.countP_set, Option.isSome_iff_ne_none.1 hs] }
  else a

theorem countP_set_map (slots : Array (Option α)) (i : Nat) (h : i < slots.size) (f : α → α) :
    (slots.set i (slots[i].map f)).countP Option.isNone = slots.countP Option.isNone := by
  rw [Array.countP_set]
  by_cases hs : slots[i].isNone
  · have : 0 < slots.countP Option.isNone := Array.countP_pos_iff.2 ⟨slots[i], by simp, hs⟩
    simp only [Option.isNone_map, hs, if_true]
    omega
  · simp [hs]

/-- Changes the item at a position; where no item is live, nothing changes. -/
def modify (a : Arena α) (i : Nat) (f : α → α) : Arena α :=
  if h : i < a.slots.size then
    { slots := a.slots.set i (a.slots[i].map f)
      holes := a.holes
      holes_eq := by rw [a.holes_eq, countP_set_map] }
  else a

theorem countP_mapIdx_map (slots : List (Option α)) (f : Nat → α → β) :
    (slots.mapIdx fun i s => s.map (f i)).countP Option.isNone = slots.countP Option.isNone := by
  induction slots generalizing f with
  | nil => rfl
  | cons s rest ih =>
    rw [List.mapIdx_cons, List.countP_cons, List.countP_cons, ih fun i => f (i + 1),
      Option.isNone_map]

/-- Changes every live item, by a function of its position. -/
def mapIds (f : Nat → α → β) (a : Arena α) : Arena β where
  slots := a.slots.mapIdx fun i s => s.map (f i)
  holes := a.holes
  holes_eq := by
    rw [a.holes_eq, ← Array.countP_toList, ← Array.countP_toList, Array.toList_mapIdx,
      countP_mapIdx_map]

end Arena

end Dataflow
