import Dataflow.Graph.Build

/-!
# Graphs whose edges agree at both ends

`Graph.Linked` is the structure that the requests to a graph keep: every edge entry leads to a live
node that lists the edge from its own end, edges join an operation and a data node, nothing is twice
among the targets of a node, and a data node has at most one producer.

It depends on the wiring of the nodes alone (`Linked.congr`), and adding a node (`Linked.insert`) or
an edge (`Linked.connect`) keeps it. What erasing does to it is in `Dataflow.Proofs.Erasure`.
-/

namespace Dataflow

namespace Node

/-- The side and the edges of a node. -/
def wiring (n : Node) : Bool × List NodeId × List NodeId := (n.isOperation, n.sources, n.targets)

theorem wiring_mapOperation (f : Operation → Operation) (n : Node) :
    (n.mapOperation f).wiring = n.wiring := by
  simp [wiring, isOperation]

theorem wiring_mapDatum (f : Datum → Datum) (n : Node) : (n.mapDatum f).wiring = n.wiring := by
  simp [wiring, isOperation]

theorem wiring_apply (e : NodeEdit) (n : Node) : (e.apply n).wiring = n.wiring := by
  rw [NodeEdit.apply, wiring_mapDatum, wiring_mapOperation]
  rfl

theorem wiring_addSource (i : NodeId) (n : Node) :
    (n.addSource i).wiring = (n.isOperation, n.sources ++ [i], n.targets) :=
  wiring_mapDatum _ _

theorem wiring_addTarget (i : NodeId) (n : Node) :
    (n.addTarget i).wiring =
      (n.isOperation, n.sources, if i ∈ n.targets then n.targets else n.targets ++ [i]) := by
  unfold addTarget
  split <;> rfl

end Node

namespace Graph

/-- Every edge is stored at both of its live ends, joins the two sides, is once among the targets of
its origin, and is the only one that enters a data node. -/
structure Linked (g : Graph) : Prop where
  target_of_source {i j : NodeId} {n : Node} (hn : g.node? i = some n) (hj : j ∈ n.sources) :
    ∃ m, g.node? j = some m ∧ i ∈ m.targets
  source_of_target {i j : NodeId} {n : Node} (hn : g.node? i = some n) (hj : j ∈ n.targets) :
    ∃ m, g.node? j = some m ∧ i ∈ m.sources
  bipartite {i j : NodeId} {n m : Node} (hn : g.node? i = some n) (hm : g.node? j = some m)
    (hj : j ∈ n.sources) : m.isOperation = !n.isOperation
  nodup_targets {i : NodeId} {n : Node} (hn : g.node? i = some n) : n.targets.Nodup
  one_source {i : NodeId} {n : Node} (hn : g.node? i = some n) (hd : n.isData) :
    n.sources.length ≤ 1

theorem Linked.empty (o : Options) : (Graph.empty o).Linked := by
  have none_live : ∀ {i : NodeId} {n : Node}, (Graph.empty o).node? i ≠ some n := by
    intro i n h
    cases h
  exact ⟨fun hn => absurd hn none_live, fun hn => absurd hn none_live,
    fun hn => absurd hn none_live, fun hn => absurd hn none_live, fun hn => absurd hn none_live⟩

variable {g h : Graph}

/-- Two live nodes agree on the edges between them. -/
theorem Linked.mem_targets_iff (hg : g.Linked) {i j : NodeId} {n m : Node}
    (hn : g.node? i = some n) (hm : g.node? j = some m) : j ∈ n.targets ↔ i ∈ m.sources := by
  constructor
  · intro hj
    obtain ⟨m', hm', hi⟩ := hg.source_of_target hn hj
    cases hm.symm.trans hm'
    exact hi
  · intro hi
    obtain ⟨n', hn', hj⟩ := hg.target_of_source hm hi
    cases hn.symm.trans hn'
    exact hj

theorem Linked.mem_neighbours_comm (hg : g.Linked) {i j : NodeId} {n m : Node}
    (hn : g.node? i = some n) (hm : g.node? j = some m) : j ∈ n.neighbours ↔ i ∈ m.neighbours := by
  rw [Node.neighbours, Node.neighbours, List.mem_append, List.mem_append,
    hg.mem_targets_iff hn hm, ← hg.mem_targets_iff hm hn]
  exact or_comm

theorem Linked.neighbour_live (hg : g.Linked) {i j : NodeId} {n : Node}
    (hn : g.node? i = some n) (hj : j ∈ n.neighbours) : ∃ m, g.node? j = some m := by
  rcases List.mem_append.1 hj with hj | hj
  · obtain ⟨m, hm, -⟩ := hg.target_of_source hn hj
    exact ⟨m, hm⟩
  · obtain ⟨m, hm, -⟩ := hg.source_of_target hn hj
    exact ⟨m, hm⟩

theorem Linked.bipartite_target (hg : g.Linked) {i j : NodeId} {n m : Node}
    (hn : g.node? i = some n) (hm : g.node? j = some m) (hj : j ∈ n.targets) :
    m.isOperation = !n.isOperation := by
  rw [hg.bipartite hm hn ((hg.mem_targets_iff hn hm).1 hj), Bool.not_not]

theorem Linked.bipartite_neighbour (hg : g.Linked) {i j : NodeId} {n m : Node}
    (hn : g.node? i = some n) (hm : g.node? j = some m) (hj : j ∈ n.neighbours) :
    m.isOperation = !n.isOperation := by
  rcases List.mem_append.1 hj with hj | hj
  · exact hg.bipartite hn hm hj
  · exact hg.bipartite_target hn hm hj

/-- A data node has one producer at most. -/
theorem Linked.source_unique (hg : g.Linked) {i j k : NodeId} {n : Node}
    (hn : g.node? i = some n) (hd : n.isData) (hj : j ∈ n.sources) (hk : k ∈ n.sources) :
    j = k := by
  have hone := hg.one_source hn hd
  cases hs : n.sources with
  | nil => simp [hs] at hj
  | cons a rest =>
    rw [hs] at hone hj hk
    obtain rfl : rest = [] := List.length_eq_zero_iff.1 (by simpa using hone)
    rw [List.mem_singleton.1 hj, List.mem_singleton.1 hk]

/-- Whatever feeds a data node is all that feeds it. -/
theorem Linked.sources_eq_singleton_iff (hg : g.Linked) {i j : NodeId} {n : Node}
    (hn : g.node? i = some n) (hd : n.isData) : n.sources = [j] ↔ j ∈ n.sources := by
  constructor
  · intro hs
    rw [hs]
    exact List.mem_singleton_self j
  · intro hj
    obtain ⟨k, hk⟩ := List.length_eq_one_iff.1
      (Nat.le_antisymm (hg.one_source hn hd) (List.length_pos_of_mem hj))
    rw [hk, List.mem_singleton] at hj
    rw [hk, hj]

/-- Data among the targets of a node has no other source. -/
theorem Linked.mem_targets_iff_sources_eq (hg : g.Linked) {i j : NodeId} {n m : Node}
    (hn : g.node? i = some n) (hm : g.node? j = some m) (hd : m.isData) :
    j ∈ n.targets ↔ m.sources = [i] :=
  (hg.mem_targets_iff hn hm).trans (hg.sources_eq_singleton_iff hm hd).symm

/-- Nodes of graphs of the same wiring have partners that are wired alike. -/
theorem node?_of_wiring_eq (hw : ∀ i, (h.node? i).map Node.wiring = (g.node? i).map Node.wiring)
    {i : NodeId} {n : Node} (hn : h.node? i = some n) :
    ∃ m, g.node? i = some m ∧ m.isOperation = n.isOperation ∧ m.sources = n.sources ∧
      m.targets = n.targets := by
  have hi := hw i
  rw [hn, Option.map_some] at hi
  obtain ⟨m, hm, he⟩ := Option.map_eq_some_iff.1 hi.symm
  simp only [Node.wiring, Prod.mk.injEq] at he
  exact ⟨m, hm, he⟩

/-- Graphs of the same wiring are linked alike. -/
theorem Linked.congr (hg : g.Linked)
    (hw : ∀ i, (h.node? i).map Node.wiring = (g.node? i).map Node.wiring) : h.Linked := by
  refine ⟨?_, ?_, ?_, ?_, ?_⟩
  · intro i j n hn hj
    obtain ⟨n', hn', -, hs, -⟩ := node?_of_wiring_eq hw hn
    obtain ⟨m', hm', hi⟩ := hg.target_of_source hn' (hs ▸ hj)
    obtain ⟨m, hm, -, -, ht⟩ := node?_of_wiring_eq (fun i => (hw i).symm) hm'
    exact ⟨m, hm, ht ▸ hi⟩
  · intro i j n hn hj
    obtain ⟨n', hn', -, -, ht⟩ := node?_of_wiring_eq hw hn
    obtain ⟨m', hm', hi⟩ := hg.source_of_target hn' (ht ▸ hj)
    obtain ⟨m, hm, -, hs, -⟩ := node?_of_wiring_eq (fun i => (hw i).symm) hm'
    exact ⟨m, hm, hs ▸ hi⟩
  · intro i j n m hn hm hj
    obtain ⟨n', hn', hon, hs, -⟩ := node?_of_wiring_eq hw hn
    obtain ⟨m', hm', hom, -, -⟩ := node?_of_wiring_eq hw hm
    rw [← hon, ← hom]
    exact hg.bipartite hn' hm' (hs ▸ hj)
  · intro i n hn
    obtain ⟨n', hn', -, -, ht⟩ := node?_of_wiring_eq hw hn
    exact ht ▸ hg.nodup_targets hn'
  · intro i n hn hd
    obtain ⟨n', hn', ho, hs, -⟩ := node?_of_wiring_eq hw hn
    rw [Node.isData_eq_not, ← ho, ← Node.isData_eq_not] at hd
    exact hs ▸ hg.one_source hn' hd

/-! ## New nodes -/

theorem node?_next (g : Graph) : g.node? g.nodes.next = none := by
  cases h : g.node? g.nodes.next with
  | none => rfl
  | some n => exact absurd (Arena.lt_next_of_get? h) (Nat.lt_irrefl _)

theorem Linked.insert {i : NodeId} {name : String} {body : Body} (hg : g.Linked)
    (hi : g.insert name body = .ok (i, h)) : h.Linked := by
  have fresh : g.node? i = none := by
    obtain ⟨-, rfl, -⟩ := insert_eq_ok_iff.1 hi
    exact node?_next g
  have old : ∀ {j n}, g.node? j = some n → h.node? j = some n := by
    intro j n hn
    rw [node?_insert hi, if_neg, hn]
    rintro rfl
    rw [fresh] at hn
    cases hn
  have cases_of : ∀ {j n}, h.node? j = some n →
      n = { name, body } ∨ g.node? j = some n := by
    intro j n hn
    rw [node?_insert hi] at hn
    split at hn
    · exact .inl (Option.some.inj hn).symm
    · exact .inr hn
  refine ⟨?_, ?_, ?_, ?_, ?_⟩
  · intro j k n hn hk
    rcases cases_of hn with rfl | hn
    · cases hk
    · obtain ⟨m, hm, hj⟩ := hg.target_of_source hn hk
      exact ⟨m, old hm, hj⟩
  · intro j k n hn hk
    rcases cases_of hn with rfl | hn
    · cases hk
    · obtain ⟨m, hm, hj⟩ := hg.source_of_target hn hk
      exact ⟨m, old hm, hj⟩
  · intro j k n m hn hm hk
    rcases cases_of hn with rfl | hn
    · cases hk
    · obtain ⟨m', hm', -⟩ := hg.target_of_source hn hk
      rw [old hm'] at hm
      cases hm
      exact hg.bipartite hn hm' hk
  · intro j n hn
    rcases cases_of hn with rfl | hn
    · exact List.nodup_nil
    · exact hg.nodup_targets hn
  · intro j n hn hd
    rcases cases_of hn with rfl | hn
    · exact Nat.zero_le 1
    · exact hg.one_source hn hd

/-! ## New edges -/

/-- An edge is legal if it joins two live nodes of different sides, does not leave a result, and
enters no data node that has a producer. -/
theorem edgeFault?_eq_none_iff {i j : NodeId} :
    g.edgeFault? i j = none ↔
      ∃ m n, g.node? i = some m ∧ g.node? j = some n ∧ m.isOperation = !n.isOperation ∧
        m.hasKind OpKind.isResult = false ∧ (n.isData → n.sources = []) := by
  unfold edgeFault?
  cases g.node? i with
  | none => simp
  | some m =>
    cases g.node? j with
    | none => simp
    | some n =>
      simp only [Node.isData_eq_not, Option.some.injEq, exists_and_left, exists_eq_left']
      cases m.isOperation <;> cases n.isOperation <;> cases m.hasKind OpKind.isResult <;> simp

/-- What an edge from `i` to `j` makes of the node at `k`. -/
def afterJoining (i j k : NodeId) (n : Node) : Node :=
  let m := if k = i then n.addTarget j else n
  if k = j then m.addSource i else m

theorem wiring_afterJoining (i j k : NodeId) (n : Node) :
    (afterJoining i j k n).wiring =
      (n.isOperation, if k = j then n.sources ++ [i] else n.sources,
        if k = i ∧ j ∉ n.targets then n.targets ++ [j] else n.targets) := by
  have hm : (if k = i then n.addTarget j else n).wiring =
      (n.isOperation, n.sources,
        if k = i ∧ j ∉ n.targets then n.targets ++ [j] else n.targets) := by
    by_cases hk : k = i
    · rw [if_pos hk, Node.wiring_addTarget]
      by_cases hj : j ∈ n.targets <;> simp [hk, hj]
    · rw [if_neg hk, if_neg fun h => hk h.1]
      rfl
  obtain ⟨ho, hs, ht⟩ := by simpa only [Node.wiring, Prod.mk.injEq] using hm
  by_cases hk : k = j
  · rw [afterJoining, if_pos hk, if_pos hk, Node.wiring_addSource, ho, hs, ht]
  · rw [afterJoining, if_neg hk, if_neg hk]
    exact hm

theorem isOperation_afterJoining (i j k : NodeId) (n : Node) :
    (afterJoining i j k n).isOperation = n.isOperation :=
  congrArg Prod.fst (wiring_afterJoining i j k n)

theorem sources_afterJoining (i j k : NodeId) (n : Node) :
    (afterJoining i j k n).sources = if k = j then n.sources ++ [i] else n.sources :=
  congrArg (fun w => w.2.1) (wiring_afterJoining i j k n)

theorem targets_afterJoining (i j k : NodeId) (n : Node) :
    (afterJoining i j k n).targets =
      if k = i ∧ j ∉ n.targets then n.targets ++ [j] else n.targets :=
  congrArg (fun w => w.2.2) (wiring_afterJoining i j k n)

theorem mem_sources_afterJoining {i j k l : NodeId} {n : Node} :
    l ∈ (afterJoining i j k n).sources ↔ l ∈ n.sources ∨ k = j ∧ l = i := by
  rw [sources_afterJoining]
  split <;> simp [*]

theorem mem_targets_afterJoining {i j k l : NodeId} {n : Node} :
    l ∈ (afterJoining i j k n).targets ↔ l ∈ n.targets ∨ k = i ∧ l = j := by
  rw [targets_afterJoining]
  by_cases hj : j ∈ n.targets
  · rw [if_neg fun h => h.2 hj]
    constructor
    · exact .inl
    · rintro (hl | ⟨-, rfl⟩)
      · exact hl
      · exact hj
  · by_cases hk : k = i <;> simp [hj, hk]

theorem Linked.connect {i j : NodeId} (hg : g.Linked) (hc : g.connect i j = .ok h) :
    h.Linked := by
  obtain ⟨m, n, hm, hn, hside, -, hfree⟩ := edgeFault?_eq_none_iff.1 (connect_eq_ok_iff.1 hc).1
  have hk : ∀ k, h.node? k = (g.node? k).map (afterJoining i j k) := node?_connect hc
  have forth : ∀ {k l}, g.node? k = some l → h.node? k = some (afterJoining i j k l) := by
    intro k l hl
    rw [hk, hl, Option.map_some]
  have back : ∀ {k l'}, h.node? k = some l' →
      ∃ l, g.node? k = some l ∧ afterJoining i j k l = l' := by
    intro k l' hl
    rw [hk] at hl
    exact Option.map_eq_some_iff.1 hl
  refine ⟨?_, ?_, ?_, ?_, ?_⟩
  · intro a b _ ha hb
    obtain ⟨l, hl, rfl⟩ := back ha
    rcases mem_sources_afterJoining.1 hb with hb | ⟨rfl, rfl⟩
    · obtain ⟨o, ho, hab⟩ := hg.target_of_source hl hb
      exact ⟨_, forth ho, mem_targets_afterJoining.2 (.inl hab)⟩
    · exact ⟨_, forth hm, mem_targets_afterJoining.2 (.inr ⟨rfl, rfl⟩)⟩
  · intro a b _ ha hb
    obtain ⟨l, hl, rfl⟩ := back ha
    rcases mem_targets_afterJoining.1 hb with hb | ⟨rfl, rfl⟩
    · obtain ⟨o, ho, hab⟩ := hg.source_of_target hl hb
      exact ⟨_, forth ho, mem_sources_afterJoining.2 (.inl hab)⟩
    · exact ⟨_, forth hn, mem_sources_afterJoining.2 (.inr ⟨rfl, rfl⟩)⟩
  · intro a b _ _ ha hb hab
    obtain ⟨l, hl, rfl⟩ := back ha
    obtain ⟨o, ho, rfl⟩ := back hb
    rw [isOperation_afterJoining, isOperation_afterJoining]
    rcases mem_sources_afterJoining.1 hab with hab | ⟨rfl, rfl⟩
    · exact hg.bipartite hl ho hab
    · rw [hm] at ho
      rw [hn] at hl
      cases ho
      cases hl
      exact hside
  · intro a _ ha
    obtain ⟨l, hl, rfl⟩ := back ha
    have hd := hg.nodup_targets hl
    rw [targets_afterJoining]
    split
    · rename_i hj
      have hnew : ∀ t ∈ l.targets, t ≠ j := fun t ht => ne_of_mem_of_not_mem ht hj.2
      exact List.nodup_append.2 ⟨hd, by simp, by simpa using hnew⟩
    · exact hd
  · intro a _ ha had
    obtain ⟨l, hl, rfl⟩ := back ha
    rw [Node.isData_eq_not, isOperation_afterJoining, ← Node.isData_eq_not] at had
    rw [sources_afterJoining]
    split
    · rename_i haj
      subst haj
      cases hn.symm.trans hl
      simp [hfree had]
    · exact hg.one_source hl had

end Graph

end Dataflow
