import Dataflow.Arena.Basic

/-!
# What the operations of an arena do

The view is the lookup `get?`, which with the number of slots `next` determines an arena
(`ext_get?`).

* `get?_push`, `get?_erase`, `get?_modify` and `get?_mapIds`, with `next_push` and its companions,
  describe each operation through the view.
* `mem_entries` and `ids_pairwise`: the entries are the live items, each once, by increasing
  position; `entries_mapIds`: a change of the items leaves their order.
* `length_ids`: the counter of holes counts; `length_gather_erase`: what erasing an item does to a
  list over the live items.
-/

namespace Dataflow.Arena

variable {α β γ : Type}

/-! ## The view -/

theorem get?_eq_some_iff {a : Arena α} {i : Nat} {x : α} :
    a.get? i = some x ↔ a.slots[i]? = some (some x) := by
  simp [get?, Option.join_eq_some_iff]

theorem lt_next_of_get? {a : Arena α} {i : Nat} {x : α} (h : a.get? i = some x) : i < a.next :=
  (Array.getElem?_eq_some_iff.1 (get?_eq_some_iff.1 h)).1

/-- An arena is its lookup and its number of slots. -/
theorem ext_get? {a b : Arena α} (hn : a.next = b.next) (h : ∀ i, a.get? i = b.get? i) :
    a = b := by
  have hs : a.slots = b.slots := by
    refine Array.ext hn fun i ha hb => ?_
    have := h i
    simpa [get?, ha, hb] using this
  obtain ⟨s, m, hm⟩ := a
  obtain ⟨t, n, hn'⟩ := b
  cases hs
  cases hm.trans hn'.symm
  rfl

@[simp] theorem get?_empty (i : Nat) : (empty : Arena α).get? i = none := rfl

@[simp] theorem next_empty : (empty : Arena α).next = 0 := rfl

@[simp] theorem next_push (a : Arena α) (x : α) : (a.push x).next = a.next + 1 := by
  simp [next, push]

theorem get?_push (a : Arena α) (x : α) (i : Nat) :
    (a.push x).get? i = if i = a.next then some x else a.get? i := by
  simp only [get?, push, next, Array.getElem?_push]
  split <;> simp_all

@[simp] theorem next_erase (a : Arena α) (i : Nat) : (a.erase i).next = a.next := by
  unfold erase
  split <;> simp [next]

theorem get?_erase (a : Arena α) (i j : Nat) :
    (a.erase i).get? j = if j = i then none else a.get? j := by
  unfold erase
  split
  · rename_i h
    simp only [get?, Array.getElem?_set, @eq_comm _ j i]
    split <;> simp_all
  · rename_i h
    split
    · subst j
      cases hx : a.get? i with
      | none => rfl
      | some x =>
        obtain ⟨hi, hx⟩ := Array.getElem?_eq_some_iff.1 (get?_eq_some_iff.1 hx)
        exact absurd ⟨hi, by simp [hx]⟩ h
    · rfl

@[simp] theorem next_modify (a : Arena α) (i : Nat) (f : α → α) :
    (a.modify i f).next = a.next := by
  unfold modify
  split <;> simp [next]

theorem get?_modify (a : Arena α) (i j : Nat) (f : α → α) :
    (a.modify i f).get? j = if j = i then (a.get? j).map f else a.get? j := by
  unfold modify
  split
  · rename_i h
    simp only [get?, Array.getElem?_set]
    split
    · subst j
      cases hs : a.slots[i] <;> simp [h, hs]
    · simp_all [eq_comm]
  · rename_i h
    split
    · subst j
      simp [get?, h]
    · rfl

@[simp] theorem next_mapIds (f : Nat → α → β) (a : Arena α) : (a.mapIds f).next = a.next := by
  simp [next, mapIds]

@[simp] theorem get?_mapIds (f : Nat → α → β) (a : Arena α) (i : Nat) :
    (a.mapIds f).get? i = (a.get? i).map (f i) := by
  simp only [get?, mapIds, Array.getElem?_mapIdx]
  rcases a.slots[i]? with _ | _ | x <;> rfl

/-! ## Entries -/

theorem mem_entries {a : Arena α} {i : Nat} {x : α} : (i, x) ∈ a.entries ↔ a.get? i = some x := by
  simp only [entries, List.mem_filterMap, Prod.exists, List.mem_zipIdx_iff_getElem?,
    Option.map_eq_some_iff, get?_eq_some_iff, Prod.mk.injEq]
  constructor
  · rintro ⟨s, j, h, y, rfl, rfl, rfl⟩
    simpa using h
  · intro h
    exact ⟨some x, i, by simpa using h, x, rfl, rfl, rfl⟩

theorem mem_ids {a : Arena α} {i : Nat} : i ∈ a.ids ↔ a.contains i := by
  simp only [ids, List.mem_map, Prod.exists, mem_entries, contains, Option.isSome_iff_exists]
  constructor
  · rintro ⟨j, x, h, rfl⟩
    exact ⟨x, h⟩
  · rintro ⟨x, h⟩
    exact ⟨i, x, h, rfl⟩

theorem pairwise_zipIdx_filterMap (l : List (Option α)) (k : Nat) :
    (((l.zipIdx k).filterMap fun s => s.1.map (s.2, ·)).map Prod.fst).Pairwise (· < ·) := by
  induction l generalizing k with
  | nil => simp
  | cons s rest ih =>
    cases s with
    | none => simpa [List.zipIdx_cons] using ih (k + 1)
    | some x =>
      simp only [List.zipIdx_cons, List.filterMap_cons, Option.map_some, List.map_cons,
        List.pairwise_cons, List.mem_map, List.mem_filterMap, Prod.exists]
      refine ⟨?_, ih (k + 1)⟩
      rintro j ⟨i, y, ⟨t, i', hm, ht⟩, rfl⟩
      obtain ⟨z, -, hz⟩ := Option.map_eq_some_iff.1 ht
      cases hz
      exact Nat.lt_of_succ_le (List.le_snd_of_mem_zipIdx hm)

theorem ids_pairwise (a : Arena α) : a.ids.Pairwise (· < ·) :=
  pairwise_zipIdx_filterMap _ 0

theorem ids_nodup (a : Arena α) : a.ids.Nodup :=
  a.ids_pairwise.imp Nat.ne_of_lt

theorem zipIdx_mapIdx_filterMap (f : Nat → α → β) (l : List (Option α)) (k : Nat) :
    (((l.mapIdx fun i s => s.map (f (i + k))).zipIdx k).filterMap fun s => s.1.map (s.2, ·)) =
      ((l.zipIdx k).filterMap fun s => s.1.map (s.2, ·)).map fun e => (e.1, f e.1 e.2) := by
  induction l generalizing k with
  | nil => rfl
  | cons s rest ih =>
    have hpos : ∀ i, i + (k + 1) = i + 1 + k := fun i => by omega
    have hrest := ih (k + 1)
    simp only [hpos] at hrest
    cases s <;> simp [List.zipIdx_cons, hrest]

/-- A change of the items leaves their order as it is. -/
theorem entries_mapIds (f : Nat → α → β) (a : Arena α) :
    (a.mapIds f).entries = a.entries.map fun e => (e.1, f e.1 e.2) := by
  simpa [entries, mapIds] using zipIdx_mapIdx_filterMap f a.slots.toList 0

theorem entries_modify (a : Arena α) (i : Nat) (f : α → α) :
    (a.modify i f).entries = a.entries.map fun e => (e.1, if e.1 = i then f e.2 else e.2) := by
  have hmap : a.modify i f = a.mapIds fun j x => if j = i then f x else x := by
    refine ext_get? (by rw [next_modify, next_mapIds]) fun j => ?_
    rw [get?_modify, get?_mapIds]
    split
    · rfl
    · rw [Option.map_id']
  rw [hmap, entries_mapIds]

/-! ## Lists over the live items -/

theorem flatMap_zipIdx_filterMap (f : α → List β) (l : List (Option α)) (k : Nat) :
    ((l.zipIdx k).filterMap fun s => s.1.map (s.2, ·)).flatMap (fun e => f e.2)
      = l.flatMap fun s => s.elim [] f := by
  induction l generalizing k with
  | nil => rfl
  | cons s rest ih => cases s <;> simp [List.zipIdx_cons, List.flatMap_cons, ih]

/-- What is listed of the live items is what is listed of the entries. -/
theorem flatMap_entries (f : α → List β) (a : Arena α) :
    a.entries.flatMap (fun e => f e.2) = a.gather f :=
  flatMap_zipIdx_filterMap f _ 0

theorem length_flatMap_set_none (f : α → List β) (l : List (Option α)) (i : Nat) (x : α)
    (h : l[i]? = some (some x)) :
    ((l.set i none).flatMap fun s => s.elim [] f).length + (f x).length =
      (l.flatMap fun s => s.elim [] f).length := by
  induction l generalizing i with
  | nil => simp at h
  | cons s rest ih =>
    cases i with
    | zero =>
      simp only [List.getElem?_cons_zero, Option.some.injEq] at h
      simp only [h, List.set_cons_zero, List.flatMap_cons, List.length_append, Option.elim,
        List.length_nil]
      omega
    | succ i =>
      simp only [List.set_cons_succ, List.flatMap_cons, List.length_append, Nat.add_assoc]
      rw [ih i (by simpa using h)]

/-- Erasing a live item takes off what was listed of it. -/
theorem length_gather_erase (f : α → List β) {a : Arena α} {i : Nat} {x : α}
    (h : a.get? i = some x) :
    ((a.erase i).gather f).length + (f x).length = (a.gather f).length := by
  have hs := get?_eq_some_iff.1 h
  obtain ⟨hi, hx⟩ := Array.getElem?_eq_some_iff.1 hs
  simp only [gather, erase, hi, hx, Option.isSome_some, exists_const, dite_true, Array.toList_set]
  exact length_flatMap_set_none f _ i x (by simpa using hs)

theorem length_flatMap_mapIdx_le (f : α → List γ) (g : β → List γ) (h : Nat → β → α)
    (hle : ∀ i x, (f (h i x)).length ≤ (g x).length) (l : List (Option β)) :
    ((l.mapIdx fun i s => s.map (h i)).flatMap fun s => s.elim [] f).length
      ≤ (l.flatMap fun s => s.elim [] g).length := by
  induction l generalizing h with
  | nil => exact Nat.le_refl _
  | cons s rest ih =>
    simp only [List.mapIdx_cons, List.flatMap_cons, List.length_append]
    refine Nat.add_le_add ?_ (ih (fun i => h (i + 1)) fun i => hle (i + 1))
    cases s with
    | none => exact Nat.le_refl _
    | some x => exact hle 0 x

/-- A change after which less is listed of each item. -/
theorem length_gather_mapIds_le (f : α → List γ) (g : β → List γ) (h : Nat → β → α)
    (hle : ∀ i x, (f (h i x)).length ≤ (g x).length) (a : Arena β) :
    ((a.mapIds h).gather f).length ≤ (a.gather g).length := by
  simpa only [gather, mapIds, Array.toList_mapIdx] using
    length_flatMap_mapIdx_le f g h hle a.slots.toList

/-! ## Size -/

theorem holes_le_next (a : Arena α) : a.holes ≤ a.next := by
  rw [a.holes_eq]
  exact Array.countP_le_size

theorem size_erase {a : Arena α} {i : Nat} {x : α} (h : a.get? i = some x) :
    (a.erase i).size + 1 = a.size := by
  obtain ⟨hi, hx⟩ := Array.getElem?_eq_some_iff.1 (get?_eq_some_iff.1 h)
  have hholes : (a.erase i).holes = a.holes + 1 := by simp [erase, hi, hx]
  have hle := (a.erase i).holes_le_next
  rw [hholes, next_erase] at hle
  rw [size, size, hholes, next_erase]
  omega

@[simp] theorem size_mapIds (f : Nat → α → β) (a : Arena α) : (a.mapIds f).size = a.size := by
  simp only [size, next_mapIds]
  rfl

theorem length_zipIdx_filterMap (l : List (Option α)) (k : Nat) :
    ((l.zipIdx k).filterMap fun s => s.1.map (s.2, ·)).length + l.countP Option.isNone =
      l.length := by
  induction l generalizing k with
  | nil => rfl
  | cons s rest ih =>
    have hrest := ih (k + 1)
    cases s <;> simp [List.zipIdx_cons] <;> omega

/-- Slots less holes is the number of live items. -/
theorem length_ids (a : Arena α) : a.ids.length = a.size := by
  have hlength := length_zipIdx_filterMap a.slots.toList 0
  rw [Array.countP_toList, ← a.holes_eq, Array.length_toList] at hlength
  rw [ids, List.length_map, size, next, entries]
  exact Nat.eq_sub_of_add_eq hlength

end Dataflow.Arena
