import Dataflow.Arena.Cursor

/-!
# Calls on an arena

`Call` lists what a user can ask of an arena and `Reply` what comes back; `Call.exec` answers one
call and `runCalls` a sequence of them. A store of items can be observed through its replies alone.
-/

namespace Dataflow.Arena

variable {α : Type}

/-- A request to an arena. -/
inductive Call (α : Type)
  | push (x : α)
  | get (i : Nat)
  /-- Replaces the item at `i`. -/
  | write (i : Nat) (x : α)
  | contains (i : Nat)
  | erase (i : Nat)
  | counts
  | entries
  | ids
  /-- Replaces every live item by what `f` makes of its position and itself. -/
  | rewrite (f : Nat → α → α)

/-- Applies `f` to every live item, wherever it is. -/
def Call.update (f : α → α) : Call α := .rewrite fun _ => f

/-- The answer to a call. -/
inductive Reply (α : Type)
  | position (i : Nat)
  | item (x : Option α)
  | holds (b : Bool)
  /-- The numbers of live items and of slots ever allocated. -/
  | counts (live : Nat) (isEmpty : Bool) (allocated : Nat)
  | entries (l : List (Nat × α))
  | positions (l : List Nat)

/-- The arena after a call, and the reply. `write` and `erase` reply with the item that was there;
`rewrite` with the positions it visited. -/
def Call.exec : Call α → Arena α → Arena α × Reply α
  | .push x, a => (a.push x, .position a.next)
  | .get i, a => (a, .item (a.get? i))
  | .write i x, a => (a.modify i fun _ => x, .item (a.get? i))
  | .contains i, a => (a, .holds (a.contains i))
  | .erase i, a => (a.erase i, .item (a.get? i))
  | .counts, a => (a, .counts a.size a.isEmpty a.next)
  | .entries, a => (a, .entries (a.visit fun _ x => x).1)
  | .ids, a => (a, .positions ((a.visit fun _ x => x).1.map Prod.fst))
  | .rewrite f, a => ((a.visit f).2, .positions ((a.visit f).1.map Prod.fst))

/-- Calls one after the other, with their replies in order. -/
def runCalls : List (Call α) → Arena α → Arena α × List (Reply α)
  | [], a => (a, [])
  | c :: rest, a =>
    let (b, r) := c.exec a
    let (d, rs) := runCalls rest b
    (d, r :: rs)

end Dataflow.Arena
