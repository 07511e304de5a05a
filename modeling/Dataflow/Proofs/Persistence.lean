import Dataflow.Proofs.Built
import Dataflow.Proofs.Spared

/-!
# What a position stands for

The positions that a run hands out are `0, 1, 2, …`, and each stands for one node for good: when the
node is gone nothing takes its place, and as long as it is there it bears its name, stays on its
side, and keeps its value from when it has one (`runCommands_lasting`).

`Graph.Continues` compares two points of a run. Every change of a graph continues it, whatever the
edges do meanwhile, and so do commands and runs of commands (`Graph.continues_runCommands`).
-/

namespace Dataflow

namespace Node

/-- `m` is the node `n` at a later time: its name and its side are those of `n`, and its value as
well if `n` had one. -/
structure Continues (m n : Node) : Prop where
  name : m.name = n.name
  isOperation : m.isOperation = n.isOperation
  value? : n.hasValue → m.value? = n.value?

variable {l m n : Node}

theorem Continues.refl (n : Node) : n.Continues n := ⟨rfl, rfl, fun _ => rfl⟩

theorem Continues.trans (hl : l.Continues m) (hm : m.Continues n) : l.Continues n where
  name := hl.name.trans hm.name
  isOperation := hl.isOperation.trans hm.isOperation
  value? hv := by
    have hmv : m.hasValue := by rwa [hasValue, hm.value? hv]
    exact (hl.value? hmv).trans (hm.value? hv)

theorem Rewrites.continues (h : m.Rewrites n) : m.Continues n where
  name := h.name
  isOperation := congrArg Prod.fst h.wiring
  value? := h.value?

theorem Continues.of_core (h : m.core = n.core) : m.Continues n where
  name := name_eq_of_core h
  isOperation := isOperation_eq_of_core h
  value? _ := value?_eq_of_core h

end Node

namespace Graph

variable {g h k : Graph} {i j : NodeId} {n m : Node} {rule : LeafRule} {p : Policy}

/-! ## Positions are never taken back -/

theorem next_insert {name : String} {body : Body} (hi : g.insert name body = .ok (i, h)) :
    i = g.nodes.next ∧ h.nodes.next = g.nodes.next + 1 := by
  obtain ⟨-, hnext, rfl⟩ := insert_eq_ok_iff.1 hi
  exact ⟨hnext, Arena.next_push ..⟩

theorem next_connect (hc : g.connect i j = .ok h) : h.nodes.next = g.nodes.next := by
  obtain ⟨-, rfl⟩ := connect_eq_ok_iff.1 hc
  simp

theorem next_tagged (g : Graph) : g.tagged.nodes.next = g.nodes.next := by
  rw [tagged, next_tagConstant, next_tagNeeded]

theorem next_clean (g : Graph) (rule : LeafRule) (p : Policy) :
    (g.clean rule p).graph.nodes.next = g.nodes.next :=
  clean_induct (p := p) (P := fun h _ => h.nodes.next = g.nodes.next) (next_tagged g)
    fun h _ i _ hh _ _ _ _ => (next_erase h i).trans hh

/-! ## Nodes at their positions -/

/-- `h` is `g` at a later time: at a position that was handed out by then, nothing is live but the
node that was. -/
structure Continues (h g : Graph) : Prop where
  next_le : g.nodes.next ≤ h.nodes.next
  node? {i : NodeId} {m : Node} (hi : i < g.nodes.next) (hm : h.node? i = some m) :
    ∃ n, g.node? i = some n ∧ m.Continues n

theorem Continues.refl (g : Graph) : g.Continues g where
  next_le := Nat.le_refl _
  node? _ hm := ⟨_, hm, .refl _⟩

theorem Continues.trans (hk : k.Continues h) (hh : h.Continues g) : k.Continues g where
  next_le := Nat.le_trans hh.next_le hk.next_le
  node? hi hl := by
    obtain ⟨m, hm, hlm⟩ := hk.node? (Nat.lt_of_lt_of_le hi hh.next_le) hl
    obtain ⟨n, hn, hmn⟩ := hh.node? hi hm
    exact ⟨n, hn, hlm.trans hmn⟩

/-- What is gone stays away. -/
theorem Continues.not_contains (hh : h.Continues g) (hi : i < g.nodes.next) (hc : ¬ g.contains i) :
    ¬ h.contains i := by
  intro hm
  obtain ⟨m, hm⟩ := contains_iff.1 hm
  obtain ⟨n, hn, -⟩ := hh.node? hi hm
  exact hc (contains_iff.2 ⟨n, hn⟩)

theorem Continues.of_node? (hh : h.Continues g) (hn : g.node? i = some n)
    (hm : h.node? i = some m) : m.Continues n := by
  obtain ⟨n', hn', hmn⟩ := hh.node? (Arena.lt_next_of_get? hn) hm
  cases hn.symm.trans hn'
  exact hmn

/-- The nodes of `h` are those of `g`, each changed but for what makes it the same node. -/
theorem Continues.of_map {f : NodeId → Node → Node} (hnext : h.nodes.next = g.nodes.next)
    (hmap : ∀ i m, h.node? i = some m → ∃ n, g.node? i = some n ∧ f i n = m)
    (hf : ∀ i n, (f i n).Continues n) : h.Continues g where
  next_le := Nat.le_of_eq hnext.symm
  node? {i _} _ hm := by
    obtain ⟨n, hn, rfl⟩ := hmap i _ hm
    exact ⟨n, hn, hf i n⟩

theorem continues_insert {name : String} {body : Body} (hi : g.insert name body = .ok (i, h)) :
    h.Continues g where
  next_le := (next_insert hi).2 ▸ Nat.le_succ _
  node? {j m} hj hm := by
    rw [node?_insert hi, if_neg] at hm
    · exact ⟨m, hm, .refl m⟩
    · rw [(next_insert hi).1]
      exact Nat.ne_of_lt hj

theorem continues_afterJoining (i j k : NodeId) (n : Node) :
    (afterJoining i j k n).Continues n := by
  have htarget : (n.addTarget j).Continues n := by
    unfold Node.addTarget
    split
    · exact .refl n
    · exact ⟨rfl, rfl, fun _ => rfl⟩
  have hsource : ∀ m : Node, (m.addSource i).Continues m := by
    intro m
    obtain ⟨_, _ | _, _, _, _, _⟩ := m <;> exact ⟨rfl, rfl, fun _ => rfl⟩
  have hfirst : (if k = i then n.addTarget j else n).Continues n := by
    split
    · exact htarget
    · exact .refl n
  by_cases hj : k = j
  · rw [afterJoining, if_pos hj]
    exact (hsource _).trans hfirst
  · rw [afterJoining, if_neg hj]
    exact hfirst

theorem continues_connect (hc : g.connect i j = .ok h) : h.Continues g :=
  .of_map (next_connect hc)
    (fun k _ hm => Option.map_eq_some_iff.1 (node?_connect hc k ▸ hm)) (continues_afterJoining i j)

theorem Rewrites.continues (hw : h.Rewrites g) : h.Continues g where
  next_le := Nat.le_of_eq hw.next.symm
  node? _ hm := by
    obtain ⟨n, hn, hmn⟩ := hw.exists_of_node? hm
    exact ⟨n, hn, hmn.continues⟩

theorem continues_erase (g : Graph) (i : NodeId) : (g.erase i).Continues g := by
  cases hn : g.node? i with
  | none =>
    rw [erase_of_node?_eq_none hn]
    exact .refl g
  | some n =>
    refine .of_map (next_erase g i) (fun j m hm => ?_)
      fun j m => .of_core (core_afterLosing i n j m)
    rw [node?_erase hn] at hm
    split at hm
    · cases hm
    · exact Option.map_eq_some_iff.1 hm

theorem continues_clean (g : Graph) (rule : LeafRule) (p : Policy) :
    (g.clean rule p).graph.Continues g :=
  clean_induct (p := p) (P := fun h _ => h.Continues g)
    (g.tagNeeded.rewrites_tagConstant.continues.trans g.rewrites_tagNeeded.continues)
    fun h _ i _ hh _ _ _ _ => (h.continues_erase i).trans hh

theorem continues_exec (g : Graph) (c : Command) : (c.exec g).graph.Continues g :=
  c.exec_induct (.refl g) (fun _ _ _ _ _ => continues_insert) (fun _ _ _ _ => continues_connect)
    (fun _ hw _ => hw.continues) (fun i _ => g.continues_erase i)
    fun rule p _ => g.continues_clean rule p

/-- Runs continue the graph that they start from. -/
theorem continues_runCommands (g : Graph) (cs : List Command) :
    (g.runCommands cs).1.Continues g :=
  runCommands_induct (P := fun h => h.Continues g)
    (fun h c hh => (h.continues_exec c).trans hh) cs (.refl g)

end Graph

/-! ## The positions that a run hands out -/

/-- The position that a reply hands out. -/
def Reply.added? : Reply → Option NodeId
  | .added i => some i
  | _ => none

namespace Command

theorem added?_ofChange (g : Graph) (r : Except Fault Graph) :
    (Effect.ofChange g r).reply.added? = none := by
  cases r <;> rfl

/-- Only who asks for a node is given a position. -/
theorem added?_of_newcomer?_eq_none {c : Command} (hc : c.newcomer? = none) (g : Graph) :
    (c.exec g).reply.added? = none := by
  cases c with
  | addOperation => cases hc
  | addData => cases hc
  | addConstant => cases hc
  | connect => exact added?_ofChange ..
  | declareOutput => exact added?_ofChange ..
  | setValue => exact added?_ofChange ..
  | setShape => exact added?_ofChange ..
  | erase i => rw [exec_erase]; rfl
  | edit i e =>
    simp only [exec]
    cases g.node i <;> rfl
  | _ => rfl

theorem next_exec_of_newcomer?_eq_none {c : Command} (hc : c.newcomer? = none) (g : Graph) :
    (c.exec g).graph.nodes.next = g.nodes.next := by
  refine c.exec_induct (P := fun h => h.nodes.next = g.nodes.next) rfl (fun _ _ _ _ hn => ?_)
    (fun _ _ _ _ => Graph.next_connect) (fun _ hw _ => hw.next) (fun i _ => g.next_erase i)
    fun rule p _ => g.next_clean rule p
  cases hc.symm.trans hn

/-- A command hands out the next position, or none. -/
theorem range_next_exec (g : Graph) (c : Command) :
    List.range (c.exec g).graph.nodes.next =
      List.range g.nodes.next ++ (c.exec g).reply.added?.toList := by
  cases hc : c.newcomer? with
  | none =>
    rw [next_exec_of_newcomer?_eq_none hc, added?_of_newcomer?_eq_none hc, Option.toList_none,
      List.append_nil]
  | some x =>
    obtain ⟨name, body⟩ := x
    rw [exec_of_newcomer? hc]
    cases hi : g.insert name body with
    | error f => exact (List.append_nil _).symm
    | ok y =>
      obtain ⟨i, h⟩ := y
      obtain ⟨hpos, hnext⟩ := Graph.next_insert hi
      show List.range h.nodes.next = List.range g.nodes.next ++ [i]
      rw [hnext, hpos, List.range_succ]

end Command

namespace Graph

/-- The positions that a run hands out, in order. -/
def issued (g : Graph) (cs : List Command) : List NodeId :=
  (g.runCommands cs).2.filterMap Reply.added?

theorem range_next_runCommands (g : Graph) (cs : List Command) :
    List.range (g.runCommands cs).1.nodes.next = List.range g.nodes.next ++ g.issued cs := by
  induction cs generalizing g with
  | nil => exact (List.append_nil _).symm
  | cons c rest ih =>
    have hissued : g.issued (c :: rest) =
        (c.exec g).reply.added?.toList ++ (c.exec g).graph.issued rest := by
      simp only [issued, runCommands, List.filterMap_cons]
      cases (c.exec g).reply.added? <;> rfl
    calc List.range (g.runCommands (c :: rest)).1.nodes.next
        = List.range (c.exec g).graph.nodes.next ++ (c.exec g).graph.issued rest := ih _
      _ = List.range g.nodes.next ++ g.issued (c :: rest) := by
        rw [c.range_next_exec, hissued, List.append_assoc]

/-- Runs from an empty graph hand out all positions up to the next one, in order. -/
theorem issued_empty (o : Options) (cs : List Command) :
    (Graph.empty o).issued cs = List.range ((Graph.empty o).runCommands cs).1.nodes.next :=
  ((Graph.empty o).range_next_runCommands cs).symm

/-- **A position stands for one node for good.** A run from an empty graph hands out `0, 1, 2, …`,
one for each node that is added. When the node at a position is gone, none is there at any later
point of the run; as long as it is there it bears the same name, stays on the same side, and keeps
the value that it has. -/
theorem runCommands_lasting (o : Options) (cs ds : List Command) :
    let g := ((Graph.empty o).runCommands cs).1
    let h := (g.runCommands ds).1
    let issued := (Graph.empty o).issued cs
    issued = List.range issued.length ∧ g.nodes.next = issued.length ∧
      (∀ i ∈ issued, ¬ g.contains i → ¬ h.contains i) ∧
      ∀ i n m, g.node? i = some n → h.node? i = some m →
        m.name = n.name ∧ m.isOperation = n.isOperation ∧ (n.hasValue → m.value? = n.value?) := by
  intro g h issued
  have hissued : issued = List.range g.nodes.next := issued_empty o cs
  have hlength : issued.length = g.nodes.next := by rw [hissued, List.length_range]
  have hh : h.Continues g := g.continues_runCommands ds
  refine ⟨by rw [hlength, hissued], hlength.symm, fun i hi => ?_, fun i n m hn hm => ?_⟩
  · rw [hissued, List.mem_range] at hi
    exact hh.not_contains hi
  · have hmn := hh.of_node? hn hm
    exact ⟨hmn.name, hmn.isOperation, hmn.value?⟩

/-- A constant with the operation that yields it, and data that one more operation reads until it is
erased. One request is refused in between. -/
def tenancy : List Command :=
  [.addOperation .const "c", .addConstant "v" ⟨[0, 10], #[], rfl⟩, .addData "v", .connect 0 1,
    .addData "x", .addOperation .identity "a", .connect 2 3, .erase 3]

/-- Another value for the constant is refused, a clean-up folds the operation, and the names of both
erased operations are taken anew. -/
def turnover : List Command :=
  [.setValue 1 ⟨[0, 11], #[], rfl⟩, .clean, .addOperation .const "c", .addOperation .identity "a",
    .connect 2 5]

/-- The new nodes get new positions, and the constant is still what it was. -/
theorem turnover_lasting :
    let g := ((Graph.empty {}).runCommands tenancy).1
    let h := (g.runCommands turnover).1
    (Graph.empty {}).issued tenancy = [0, 1, 2, 3] ∧ ¬ g.contains 3 ∧ ¬ h.contains 3 ∧
      g.contains 0 ∧ ¬ h.contains 0 ∧ h.find? "a" = some 5 ∧
      ∃ n m, g.node? 1 = some n ∧ h.node? 1 = some m ∧ m.name = n.name ∧
        m.isOperation = n.isOperation ∧ n.hasValue ∧ m.value? = n.value? := by
  intro g h
  obtain ⟨hissued, hnext, hgone, hsame⟩ := runCommands_lasting {} tenancy turnover
  have hfour : g.nodes.next = 4 := by decide +kernel
  have hrange : (Graph.empty {}).issued tenancy = [0, 1, 2, 3] := by
    rw [hissued, ← hnext, hfour]
    rfl
  have herased : ¬ g.contains 3 := by decide +kernel
  obtain ⟨n, hn, hv⟩ : ∃ n, g.node? 1 = some n ∧ n.hasValue := by
    simpa [Option.any_eq_true] using
      (show (g.node? 1).any fun n => n.hasValue by decide +kernel)
  obtain ⟨m, hm⟩ : ∃ m, h.node? 1 = some m := contains_iff.1 (by decide +kernel)
  obtain ⟨hname, hside, hvalue⟩ := hsame 1 n m hn hm
  exact ⟨hrange, herased, hgone 3 (by simp [hrange]) herased, by decide +kernel,
    by decide +kernel, by decide +kernel, n, m, hn, hm, hname, hside, hv, hvalue hv⟩

end Graph

end Dataflow
