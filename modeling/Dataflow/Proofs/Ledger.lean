import Dataflow.Arena.Call
import Mathlib.Data.List.Sort
import Mathlib.Data.Set.Card

/-!
# An arena is a finite map with a counter

A `Ledger` is what an arena is to its users: a map from positions to items, and the next position.
It says plainly how each call is answered (`Ledger.exec`), without slots, holes or cursors. An arena
answers every call as its ledger does (`exec_ledger`), and so every sequence of calls.

Positions are handed out one after the other (`positions_runCalls`), and one that was handed out and
holds nothing will never hold anything (`get?_runCalls_of_retired`). `runCalls_refines` puts all of
it together for a new arena.
-/

namespace Dataflow

theorem encard_setOf_mem {l : List Nat} (hl : l.Nodup) : {i | i ∈ l}.encard = l.length := by
  rw [← List.coe_toFinset, Set.encard_coe_eq_coe_finsetCard, List.toFinset_card_of_nodup hl]

namespace Arena

variable {α : Type}

/-- A map from positions to items, of which none is at or behind the next position. -/
@[ext]
structure Ledger (α : Type) where
  item? : Nat → Option α
  next : Nat
  lt_next {i : Nat} {x : α} (h : item? i = some x) : i < next

namespace Ledger

/-- The ledger without items. -/
def empty : Ledger α := ⟨fun _ => none, 0, fun h => by cases h⟩

/-- The ledger with one item more, at the next position. -/
def add (l : Ledger α) (x : α) : Ledger α where
  item? i := if i = l.next then some x else l.item? i
  next := l.next + 1
  lt_next {i y} h := by
    split at h
    · omega
    · exact Nat.lt_succ_of_lt (l.lt_next h)

/-- The ledger with each item replaced, or removed, as `f` says. -/
def adjust (l : Ledger α) (f : Nat → α → Option α) : Ledger α where
  item? i := (l.item? i).bind (f i)
  next := l.next
  lt_next h := by
    obtain ⟨x, hx, -⟩ := Option.bind_eq_some_iff.1 h
    exact l.lt_next hx

@[simp] theorem item?_adjust (l : Ledger α) (f : Nat → α → Option α) (i : Nat) :
    (l.adjust f).item? i = (l.item? i).bind (f i) := rfl

@[simp] theorem next_adjust (l : Ledger α) (f : Nat → α → Option α) :
    (l.adjust f).next = l.next := rfl

/-- The items with their positions, in increasing order. -/
def entries (l : Ledger α) : List (Nat × α) :=
  (List.range l.next).filterMap fun i => (l.item? i).map (i, ·)

/-- The ledger after a call, and the reply. -/
def exec : Call α → Ledger α → Ledger α × Reply α
  | .push x, l => (l.add x, .position l.next)
  | .get i, l => (l, .item (l.item? i))
  | .write i x, l => (l.adjust fun j y => some (if j = i then x else y), .item (l.item? i))
  | .contains i, l => (l, .holds (l.item? i).isSome)
  | .erase i, l => (l.adjust fun j y => if j = i then none else some y, .item (l.item? i))
  | .counts, l => (l, .counts l.entries.length l.entries.isEmpty l.next)
  | .entries, l => (l, .entries l.entries)
  | .ids, l => (l, .positions (l.entries.map Prod.fst))
  | .rewrite f, l => (l.adjust fun j y => some (f j y), .positions (l.entries.map Prod.fst))

/-- The replies to calls one after the other. -/
def replies : List (Call α) → Ledger α → List (Reply α)
  | [], _ => []
  | c :: rest, l => (exec c l).2 :: replies rest (exec c l).1

theorem mem_entries {l : Ledger α} {i : Nat} {x : α} : (i, x) ∈ l.entries ↔ l.item? i = some x := by
  simp only [entries, List.mem_filterMap, List.mem_range, Option.map_eq_some_iff, Prod.mk.injEq]
  constructor
  · rintro ⟨j, -, y, hy, rfl, rfl⟩
    exact hy
  · intro h
    exact ⟨i, l.lt_next h, x, h, rfl, rfl⟩

theorem entries_pairwise (l : Ledger α) : l.entries.Pairwise fun e f => e.1 < f.1 := by
  rw [entries, List.pairwise_filterMap]
  refine List.pairwise_lt_range.imp fun hij e he f hf => ?_
  obtain ⟨_, -, rfl⟩ := Option.map_eq_some_iff.1 he
  obtain ⟨_, -, rfl⟩ := Option.map_eq_some_iff.1 hf
  exact hij

end Ledger

/-- What users see of an arena. -/
def ledger (a : Arena α) : Ledger α := ⟨a.get?, a.next, lt_next_of_get?⟩

@[simp] theorem item?_ledger (a : Arena α) : a.ledger.item? = a.get? := rfl

@[simp] theorem next_ledger (a : Arena α) : a.ledger.next = a.next := rfl

/-! ## What operations do to it -/

theorem ledger_push (a : Arena α) (x : α) : (a.push x).ledger = a.ledger.add x :=
  Ledger.ext (funext (get?_push a x)) (next_push a x)

theorem ledger_modify (a : Arena α) (i : Nat) (x : α) :
    (a.modify i fun _ => x).ledger = a.ledger.adjust fun j y => some (if j = i then x else y) := by
  refine Ledger.ext (funext fun j => ?_) (next_modify ..)
  rw [item?_ledger, get?_modify, Ledger.item?_adjust, item?_ledger]
  split <;> cases a.get? j <;> rfl

theorem ledger_erase (a : Arena α) (i : Nat) :
    (a.erase i).ledger = a.ledger.adjust fun j y => if j = i then none else some y := by
  refine Ledger.ext (funext fun j => ?_) (next_erase ..)
  rw [item?_ledger, get?_erase, Ledger.item?_adjust, item?_ledger]
  split <;> cases a.get? j <;> rfl

theorem ledger_mapIds (f : Nat → α → α) (a : Arena α) :
    (a.mapIds f).ledger = a.ledger.adjust fun j y => some (f j y) := by
  refine Ledger.ext (funext fun j => ?_) (next_mapIds ..)
  rw [item?_ledger, get?_mapIds, Ledger.item?_adjust, item?_ledger, Option.map_eq_bind]
  rfl

theorem entries_pairwise (a : Arena α) : a.entries.Pairwise fun e f => e.1 < f.1 :=
  List.pairwise_map.1 a.ids_pairwise

/-- The entries are all that is live by increasing position, which leaves no choice. -/
theorem entries_ledger (a : Arena α) : a.ledger.entries = a.entries := by
  have : Std.Irrefl fun e f : Nat × α => e.1 < f.1 := ⟨fun _ => Nat.lt_irrefl _⟩
  have : Std.Antisymm fun e f : Nat × α => e.1 < f.1 :=
    ⟨fun _ _ h h' => absurd h' (Nat.lt_asymm h)⟩
  refine a.ledger.entries_pairwise.eq_of_mem_iff a.entries_pairwise fun e => ?_
  rw [Ledger.mem_entries, mem_entries]
  rfl

theorem length_entries (a : Arena α) : a.entries.length = a.size := by
  rw [← length_ids, ids, List.length_map]

theorem isEmpty_entries (a : Arena α) : a.entries.isEmpty = a.isEmpty := by
  rw [isEmpty, ← length_entries, Bool.eq_iff_iff, List.isEmpty_iff_length_eq_zero, beq_iff_eq]

/-! ## Calls -/

/-- An arena answers every call as its ledger does. -/
theorem exec_ledger (c : Call α) (a : Arena α) :
    Ledger.exec c a.ledger = ((c.exec a).1.ledger, (c.exec a).2) := by
  cases c with
  | push x => simp only [Ledger.exec, Call.exec, ledger_push, next_ledger]
  | get i => rfl
  | write i x => simp only [Ledger.exec, Call.exec, ledger_modify, item?_ledger]
  | contains i => rfl
  | erase i => simp only [Ledger.exec, Call.exec, ledger_erase, item?_ledger]
  | counts =>
    simp only [Ledger.exec, Call.exec, entries_ledger, length_entries, isEmpty_entries,
      next_ledger]
  | entries => simp only [Ledger.exec, Call.exec, entries_ledger, visit_eq]
  | ids => simp only [Ledger.exec, Call.exec, entries_ledger, visit_eq]
  | rewrite f => simp only [Ledger.exec, Call.exec, entries_ledger, visit_eq, ledger_mapIds]

theorem replies_ledger (cs : List (Call α)) (a : Arena α) :
    Ledger.replies cs a.ledger = (runCalls cs a).2 := by
  induction cs generalizing a with
  | nil => rfl
  | cons c rest ih => rw [Ledger.replies, exec_ledger, ih, runCalls]

theorem runCalls_append (cs ds : List (Call α)) (a : Arena α) :
    (runCalls (cs ++ ds) a).1 = (runCalls ds (runCalls cs a).1).1 := by
  induction cs generalizing a with
  | nil => rfl
  | cons c rest ih => exact ih _

/-! ## Positions -/

/-- Whether a call asks for a new item. -/
def Call.isPush : Call α → Bool
  | .push _ => true
  | _ => false

/-- The position that a reply hands out. -/
def Reply.position? : Reply α → Option Nat
  | .position i => some i
  | _ => none

theorem next_exec (c : Call α) (a : Arena α) :
    (c.exec a).1.next = if c.isPush then a.next + 1 else a.next := by
  cases c <;> simp [Call.exec, Call.isPush, visit_eq]

theorem position?_exec (c : Call α) (a : Arena α) :
    (c.exec a).2.position? = if c.isPush then some a.next else none := by
  cases c <;> rfl

theorem next_runCalls (cs : List (Call α)) (a : Arena α) :
    (runCalls cs a).1.next = a.next + cs.countP Call.isPush := by
  induction cs generalizing a with
  | nil => rfl
  | cons c rest ih =>
    rw [runCalls, ih, next_exec, List.countP_cons]
    split <;> omega

/-- Positions are handed out one after the other. -/
theorem positions_runCalls (cs : List (Call α)) (a : Arena α) :
    (runCalls cs a).2.filterMap Reply.position? =
      List.range' a.next (cs.countP Call.isPush) := by
  induction cs generalizing a with
  | nil => rfl
  | cons c rest ih =>
    rw [runCalls, List.filterMap_cons, position?_exec, ih, next_exec, List.countP_cons]
    cases c.isPush <;> simp [List.range'_succ]

/-- A position that was handed out and holds nothing will never hold anything. -/
theorem get?_exec_of_retired {a : Arena α} {i : Nat} (hi : i < a.next) (hnone : a.get? i = none)
    (c : Call α) : (c.exec a).1.get? i = none := by
  cases c with
  | push x => rw [Call.exec, get?_push, if_neg (Nat.ne_of_lt hi), hnone]
  | write j x => simp [Call.exec, get?_modify, hnone]
  | erase j => simp [Call.exec, get?_erase, hnone]
  | rewrite f => simp [Call.exec, visit_eq, hnone]
  | _ => exact hnone

theorem get?_runCalls_of_retired {a : Arena α} {i : Nat} (hi : i < a.next)
    (hnone : a.get? i = none) (cs : List (Call α)) : (runCalls cs a).1.get? i = none := by
  induction cs generalizing a with
  | nil => exact hnone
  | cons c rest ih =>
    have hnext : i < (c.exec a).1.next := by
      rw [next_exec]
      split <;> omega
    exact ih hnext (get?_exec_of_retired hi hnone c)

/-! ## Calls on a new arena -/

/-- The size of an arena is the number of its live items. -/
theorem encard_contains (a : Arena α) : {i | a.contains i}.encard = a.size := by
  have hids : {i | a.contains i} = {i | i ∈ a.ids} := by
    ext i
    exact mem_ids.symm
  rw [hids, encard_setOf_mem a.ids_nodup, length_ids]

/-- What calls make of an empty arena. -/
def after (cs : List (Call α)) : Arena α := (runCalls cs empty).1

/-- **An arena is a finite map with a counter**, whatever is asked of it. It answers every call as
the map would. The positions that it hands out are `0, 1, 2, …`, one for each new item, and a
position whose item was erased stays empty ever after. The size, which is the number of slots less
that of holes, is a true difference and the number of live items. Whoever goes through the arena
comes by these items, each once, by increasing position, and changes them and nothing else. -/
theorem runCalls_refines (cs : List (Call α)) :
    (runCalls cs empty).2 = Ledger.replies cs .empty ∧
    (runCalls cs empty).2.filterMap Reply.position? = List.range (cs.countP Call.isPush) ∧
    (∀ i, (after cs).contains i → ∀ ds, (after (cs ++ .erase i :: ds)).get? i = none) ∧
    (after cs).next = cs.countP Call.isPush ∧
    (after cs).size + (after cs).holes = (after cs).next ∧
    {i | (after cs).contains i}.encard = (after cs).size ∧
    ∀ f, ((after cs).visit f).1.Pairwise (fun e e' => e.1 < e'.1) ∧
      (∀ i x, (i, x) ∈ ((after cs).visit f).1 ↔ (after cs).get? i = some x) ∧
      ∀ i, ((after cs).visit f).2.get? i = ((after cs).get? i).map (f i) := by
  have hstart : (empty : Arena α).ledger = .empty := rfl
  have hnext := next_runCalls cs (empty : Arena α)
  rw [next_empty, Nat.zero_add] at hnext
  refine ⟨?_, ?_, fun i hi ds => ?_, hnext, Nat.sub_add_cancel (after cs).holes_le_next,
    (after cs).encard_contains, fun f => ?_⟩
  · rw [← hstart, replies_ledger]
  · rw [positions_runCalls, next_empty, List.range_eq_range']
  · obtain ⟨x, hx⟩ := Option.isSome_iff_exists.1 hi
    rw [after, runCalls_append]
    refine get?_runCalls_of_retired (a := (after cs).erase i) ?_ ?_ ds
    · rw [next_erase]
      exact lt_next_of_get? hx
    · rw [get?_erase, if_pos rfl]
  · rw [visit_eq]
    exact ⟨(after cs).entries_pairwise, fun i x => mem_entries, get?_mapIds f _⟩

/-- Three items come in, one of them is replaced, and another is erased twice, as is a position that
no item ever had. -/
def errands : List (Call Nat) :=
  [.push 5, .erase 7, .push 6, .write 1 8, .erase 0, .erase 0, .push 4,
    .rewrite fun i x => 10 * i + x, .entries]

/-- Neither a new item nor a write brings anything back to an erased position. -/
theorem errands_refines :
    (runCalls errands empty).2.filterMap Reply.position? = [0, 1, 2] ∧
      (1, 18) ∈ ((after errands).visit fun _ x => x).1 ∧
      (after errands).contains 1 ∧
      (after (errands ++ [.erase 1, .push 9, .write 1 3])).get? 1 = none := by
  obtain ⟨-, hpositions, hretired, -, -, -, hvisit⟩ := runCalls_refines errands
  obtain ⟨-, hentries, -⟩ := hvisit fun _ x => x
  have hlive : (after errands).contains 1 := by decide +kernel
  exact ⟨hpositions, (hentries 1 18).2 (by decide +kernel), hlive,
    hretired 1 hlive [.push 9, .write 1 3]⟩

end Arena

end Dataflow
