import Dataflow.Proofs.Interchange
import Dataflow.Proofs.Naming
import Dataflow.Proofs.Orphans

/-!
# What erasing a node does to the rest

An erasure visits the neighbours that the erased node lists, and no others. In a graph that commands
build these are all the nodes that list it (`Linked.mem_neighbours_comm`), so no mention of it is
left, and what becomes of another node depends on its own edges alone (`Linked.node?_erase`): it
drops its entries for the erased node, and is an orphan if that was its producer. This, with what
becomes of the names, is all that an erasure does (`Built.erase_exact`).
-/

namespace Dataflow.Graph

variable {g : Graph} {i j : NodeId} {m n : Node}

/-! ## Other nodes -/

/-- In a linked graph, another node is left without its edges to the erased one. -/
theorem Linked.node?_erase (hg : g.Linked) (hn : g.node? i = some n) (hm : g.node? j = some m)
    (hji : j ≠ i) : (g.erase i).node? j = some (m.without [i]) :=
  (hg.remains_erase hn).node? (by simpa using hji) hm

theorem core_without_singleton (i : NodeId) (m : Node) : (m.without [i]).core = m.core := by
  obtain ⟨_, _ | _, _, _, _, _⟩ := m <;> rfl

/-- A node keeps its edges as they are if it has none to the erased one, and only then. -/
theorem edges_without_singleton_iff :
    (m.without [i]).sources = m.sources ∧ (m.without [i]).targets = m.targets ↔
      i ∉ m.neighbours := by
  have hkept : ∀ l : List NodeId, l.filter (· ∉ [i]) = l ↔ i ∉ l := by
    intro l
    rw [List.filter_eq_self]
    constructor
    · intro h hi
      simpa using h i hi
    · intro h k hk
      simpa using ne_of_mem_of_not_mem hk h
  rw [Node.sources_without, Node.targets_without, hkept, hkept, Node.neighbours, List.mem_append,
    not_or]

/-- A node without edges to the erased one stays as it is. -/
theorem without_singleton_eq_self (hi : i ∉ m.neighbours) : m.without [i] = m := by
  have hnone : ∀ k ∈ m.neighbours, k ∈ [i] ↔ k ∈ ([] : List NodeId) := by
    intro k hk
    simpa using ne_of_mem_of_not_mem hk hi
  rw [Node.without_congr hnone, Node.without_nil]

/-- No entry for the erased node is left. -/
theorem Linked.not_mem_neighbours_erase (hg : g.Linked) (hm : (g.erase i).node? j = some m) :
    i ∉ m.neighbours := by
  intro hi
  obtain ⟨l, hl⟩ := (hg.erase i).neighbour_live hm hi
  rw [node?_erase_self] at hl
  cases hl

/-- A data node whose producer is erased is an orphan from then on, and was none before. -/
theorem Built.orphaned_without_singleton {d : Datum} (hg : g.Built) (hm : g.node? j = some m)
    (hd : m.datum? = some d) :
    ∃ d', (m.without [i]).datum? = some d' ∧ (d'.orphaned ↔ d.orphaned ∨ m.sources = [i]) ∧
      (m.sources = [i] → ¬ d.orphaned) := by
  have hdata : m.isData := by simp [Node.isData, hd]
  refine ⟨_, by rw [Node.datum?_without, hd, Option.map_some], ?_, fun hs => ?_⟩
  · rw [hg.linked.sources_eq_singleton_iff hm hdata]
    simp
  · exact hg.not_orphaned hm hd (by simp [hs])

/-! ## The whole graph -/

/-- **All that an erasure does to a graph that commands build.** The reply is the node as it was. No
entry for it is left; other nodes keep all their other entries in order, so exactly its neighbours
change, and of their other fields only the orphan mark of data that it produced. Of the names only
its own is given up. Where nothing is live nothing happens. -/
theorem Built.erase_exact (hg : g.Built) (i : NodeId) :
    let e := (Command.erase i).exec g
    (∀ n, g.node? i = some n →
      e.reply = .erased (some n) ∧ e.graph.node? i = none ∧
        (∀ j m, e.graph.node? j = some m → i ∉ m.sources ∧ i ∉ m.targets) ∧
        (∀ j, g.node? j = none → e.graph.node? j = none) ∧
        (∀ j m, j ≠ i → g.node? j = some m → ∃ m', e.graph.node? j = some m' ∧
          m'.sources = m.sources.filter (· ≠ i) ∧ m'.targets = m.targets.filter (· ≠ i) ∧
          (m'.sources = m.sources ∧ m'.targets = m.targets ↔ j ∉ n.sources ++ n.targets) ∧
          (j ∉ n.sources ++ n.targets → m' = m) ∧ m'.core = m.core ∧
          ∀ d, m.datum? = some d → ∃ d', m'.datum? = some d' ∧
            (d'.orphaned ↔ d.orphaned ∨ m.sources = [i]) ∧ (m.sources = [i] → ¬ d.orphaned)) ∧
        g.find? n.name = some i ∧
        ∀ name, e.graph.find? name = if name = n.name then none else g.find? name) ∧
      (g.node? i = none → e.reply = .erased none ∧ e.graph = g) ∧
      e.graph.nodes.next = g.nodes.next ∧ e.graph.options = g.options := by
  intro e
  have hl : g.Linked := hg.linked
  have hreply : e.reply = .erased (g.node? i) := congrArg Effect.reply (Command.exec_erase g i)
  have hgraph : e.graph = g.erase i := congrArg Effect.graph (Command.exec_erase g i)
  rw [hreply, hgraph]
  refine ⟨fun n hn => ⟨congrArg Reply.erased hn, g.node?_erase_self i, fun j m hm => ?_,
    fun j hj => node?_erase_eq_none hj i, fun j m hji hm => ?_, hg.indexed.find? hn,
    find?_erase hn⟩, fun hn => ⟨congrArg Reply.erased hn, erase_of_node?_eq_none hn⟩,
    g.next_erase i, g.options_erase i⟩
  · have hi := hl.not_mem_neighbours_erase hm
    rwa [Node.neighbours, List.mem_append, not_or] at hi
  · have hadjacent : j ∉ n.sources ++ n.targets ↔ i ∉ m.neighbours :=
      not_congr (hl.mem_neighbours_comm hn hm)
    refine ⟨m.without [i], hl.node?_erase hn hm hji, by simp, by simp, ?_, fun hj => ?_,
      core_without_singleton i m, fun d => hg.orphaned_without_singleton hm⟩
    · rw [hadjacent]
      exact edges_without_singleton_iff
    · exact without_singleton_eq_self (hadjacent.1 hj)

/-- An operation reads data twice that it also yields, and yields what another operation reads. The
latter yields data that the former reads. -/
def entangled : List Command :=
  [.addOperation .identity "a", .addData "x", .connect 0 1, .connect 1 0, .connect 1 0,
    .addData "y", .connect 0 2, .addOperation .identity "b", .connect 2 3, .addData "z",
    .connect 3 4, .connect 4 0, .erase 7]

/-- What the operation yields is left without a source or a target, as an orphan. The data that it
only reads keeps its producer and is none. The other operation stays as it is. -/
theorem entangled_erase_exact :
    let g := ((Graph.empty {}).runCommands entangled).1
    let e := (Command.erase 0).exec g
    (∃ n, n.sources = [1, 1, 4] ∧ n.targets = [1, 2] ∧ e.reply = .erased (some n)) ∧
      (∃ m d, e.graph.node? 1 = some m ∧ m.sources = [] ∧ m.targets = [] ∧ m.datum? = some d ∧
        d.orphaned) ∧
      (∃ m d, e.graph.node? 4 = some m ∧ m.sources = [3] ∧ m.targets = [] ∧ m.datum? = some d ∧
        ¬ d.orphaned) ∧
      e.graph.node? 3 = g.node? 3 ∧ e.graph.find? "a" = none ∧ e.graph.find? "b" = some 3 := by
  intro g e
  obtain ⟨a, ha, hsources, htargets, hname⟩ :
      ∃ n, g.node? 0 = some n ∧ n.sources = [1, 1, 4] ∧ n.targets = [1, 2] ∧ n.name = "a" := by
    simpa [Option.any_eq_true, and_assoc] using
      (show (g.node? 0).any fun n =>
        n.sources == [1, 1, 4] && n.targets == [1, 2] && n.name == "a" by decide +kernel)
  obtain ⟨x, hx, hxs, hxt, hxd⟩ :
      ∃ n, g.node? 1 = some n ∧ n.sources = [0] ∧ n.targets = [0] ∧ n.isData := by
    simpa [Option.any_eq_true, and_assoc] using
      (show (g.node? 1).any fun n => n.sources == [0] && n.targets == [0] && n.isData by
        decide +kernel)
  obtain ⟨z, hz, hzs, hzt, hzd⟩ :
      ∃ n, g.node? 4 = some n ∧ n.sources = [3] ∧ n.targets = [0] ∧ n.orphaned? = some false := by
    simpa [Option.any_eq_true, and_assoc] using
      (show (g.node? 4).any fun n =>
        n.sources == [3] && n.targets == [0] && n.orphaned? == some false by decide +kernel)
  obtain ⟨b, hb⟩ : ∃ n, g.node? 3 = some n := contains_iff.1 (by decide +kernel)
  obtain ⟨hlive, -⟩ := Built.erase_exact ⟨{}, entangled, rfl⟩ 0
  obtain ⟨hreply, -, -, -, hothers, -, hnames⟩ := hlive a ha
  obtain ⟨x', hx', hxs', hxt', -, -, -, hxo⟩ := hothers 1 x (by decide) hx
  obtain ⟨z', hz', hzs', hzt', -, -, -, hzo⟩ := hothers 4 z (by decide) hz
  obtain ⟨b', hb', -, -, -, hsame, -⟩ := hothers 3 b (by decide) hb
  obtain ⟨d, hd⟩ : ∃ d, x.datum? = some d := Option.isSome_iff_exists.1 hxd
  obtain ⟨d', hd', horphan, -⟩ := hxo d hd
  obtain ⟨c, hc, hcm⟩ := Option.map_eq_some_iff.1 hzd
  obtain ⟨c', hc', hfed, -⟩ := hzo c hc
  refine ⟨⟨a, hsources, htargets, hreply⟩,
    ⟨x', d', hx', by simp [hxs', hxs], by simp [hxt', hxt], hd', horphan.2 (.inr hxs)⟩,
    ⟨z', c', hz', by simp [hzs', hzs], by simp [hzt', hzt], hc', by simp [hfed, hcm, hzs]⟩,
    ?_, ?_, ?_⟩
  · rw [hb', hb, hsame (by simp [hsources, htargets])]
  · rw [hnames, hname]
    rfl
  · rw [hnames, hname]
    decide +kernel

end Dataflow.Graph
