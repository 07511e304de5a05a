import Dataflow.Proofs.Built
import Dataflow.Proofs.Tagging

/-!
# What leads to an anchor

The search for what outputs need goes against the edges, along the sources. It needs nothing of the
graph to be exact: whatever the edges are like, it tags the live nodes that chains of sources join
to an anchor, and no others (`tagNeeded_exact`).

The chains can be read the other way round, from a node along its targets to an anchor, where the
edges agree at both ends (`Linked.chain_sources_iff`), as they do in every graph that commands
build.
-/

namespace Dataflow.Graph

variable {g : Graph} {i j : NodeId}

theorem needed_iff_exists_anchor :
    g.Needed i ↔ ∃ s m, g.node? s = some m ∧ (m.isOutput ∨ m.hasKind OpKind.isResult) ∧
      Relation.ReflTransGen (g.Leads Node.sources) s i := by
  have hanchor : ∀ m : Node, m.isAnchor ↔ m.isOutput ∨ m.hasKind OpKind.isResult :=
    fun m => Bool.or_eq_true_iff
  constructor
  · rintro ⟨s, hs, -, hchain⟩
    obtain ⟨m, hm, ha⟩ := mem_idsWhere.1 hs
    exact ⟨s, m, hm, (hanchor m).1 ha, hchain⟩
  · rintro ⟨s, m, hm, ha, hchain⟩
    exact ⟨s, mem_idsWhere.2 ⟨m, hm, (hanchor m).2 ha⟩, contains_iff.2 ⟨m, hm⟩, hchain⟩

/-! ## The other way round -/

/-- Where the ends of edges agree, a step to a source is a step back from a target. -/
theorem Linked.leads_sources_iff (hg : g.Linked) :
    g.Leads Node.sources i j ↔ g.Leads Node.targets j i := by
  constructor
  · rintro ⟨n, hn, hj, -⟩
    obtain ⟨m, hm, hi⟩ := hg.target_of_source hn hj
    exact ⟨m, hm, hi, contains_iff.2 ⟨n, hn⟩⟩
  · rintro ⟨m, hm, hi, -⟩
    obtain ⟨n, hn, hj⟩ := hg.source_of_target hm hi
    exact ⟨n, hn, hj, contains_iff.2 ⟨m, hm⟩⟩

theorem Linked.chain_sources_iff (hg : g.Linked) :
    Relation.ReflTransGen (g.Leads Node.sources) i j ↔
      Relation.ReflTransGen (g.Leads Node.targets) j i := by
  have hswap : g.Leads Node.sources = Function.swap (g.Leads Node.targets) := by
    funext i j
    exact propext hg.leads_sources_iff
  rw [hswap, Relation.reflTransGen_swap]

/-! ## The tags -/

/-- **The search for what outputs need is exact**, whatever the graph and the tags that it had. A
live node is tagged as needed if and only if a chain of sources, through live nodes only, leads to
it from a result or a declared output; nothing but the tags changes. In a graph that commands build,
this is to say that a chain of targets leads from the node to such an anchor. -/
theorem tagNeeded_exact (g : Graph) :
    (∀ i n, g.node? i = some n → ∃ b, g.tagNeeded.node? i = some { n with needed := some b } ∧
      (b ↔ ∃ s m, g.node? s = some m ∧ (m.isOutput ∨ m.hasKind OpKind.isResult) ∧
        Relation.ReflTransGen (g.Leads Node.sources) s i)) ∧
      (∀ i, g.node? i = none → g.tagNeeded.node? i = none) ∧
      g.tagNeeded.nodes.next = g.nodes.next ∧ g.tagNeeded.names = g.names ∧
      g.tagNeeded.options = g.options ∧
      (g.Built → ∀ i,
        (∃ s m, g.node? s = some m ∧ (m.isOutput ∨ m.hasKind OpKind.isResult) ∧
          Relation.ReflTransGen (g.Leads Node.sources) s i) ↔
        ∃ s m, g.node? s = some m ∧ (m.isOutput ∨ m.hasKind OpKind.isResult) ∧
          Relation.ReflTransGen (g.Leads Node.targets) i s) := by
  refine ⟨fun i n hn => ?_, fun i hn => ?_, g.next_tagNeeded,
    g.names_tagNeeded, g.options_tagNeeded, fun hg i => ?_⟩
  · refine ⟨decide (g.Needed i), by rw [node?_tagNeeded, hn, Option.map_some], ?_⟩
    rw [decide_eq_true_iff, needed_iff_exists_anchor]
  · rw [node?_tagNeeded, hn, Option.map_none]
  · simp only [hg.linked.chain_sources_iff]

/-- An operation that reads what it yields, a result that reads this as well, and data that nothing
reads but that is tagged as needed. -/
def eddy : List Command :=
  [.addOperation .identity "a", .addData "x", .connect 0 1, .connect 1 0, .addOperation .result "r",
    .connect 1 2, .addData "y", .connect 0 3, .edit 3 { needed := some (some true) }]

/-- The circle leads to the result, and the other data loses its tag since it leads nowhere. -/
theorem eddy_tagNeeded_exact :
    let g := ((Graph.empty {}).runCommands eddy).1
    (g.node? 3).bind Node.needed = some true ∧
      (∃ s m, g.node? s = some m ∧ (m.isOutput ∨ m.hasKind OpKind.isResult) ∧
        Relation.ReflTransGen (g.Leads Node.targets) 0 s) ∧
      ¬ ∃ s m, g.node? s = some m ∧ (m.isOutput ∨ m.hasKind OpKind.isResult) ∧
        Relation.ReflTransGen (g.Leads Node.targets) 3 s := by
  intro g
  obtain ⟨htags, -, -, -, -, hforth⟩ := tagNeeded_exact g
  have htag : ∀ i b, (g.tagNeeded.node? i).bind Node.needed = some b →
      (b ↔ ∃ s m, g.node? s = some m ∧ (m.isOutput ∨ m.hasKind OpKind.isResult) ∧
        Relation.ReflTransGen (g.Leads Node.targets) i s) := by
    intro i b hb
    rw [← hforth ⟨{}, eddy, rfl⟩ i]
    cases hn : g.node? i with
    | none =>
      rw [node?_tagNeeded, hn] at hb
      cases hb
    | some n =>
      obtain ⟨b', hb', hiff⟩ := htags i n hn
      rw [hb'] at hb
      cases hb
      exact hiff
  exact ⟨by decide +kernel, (htag 0 true (by decide +kernel)).1 rfl,
    fun h => Bool.false_ne_true ((htag 3 false (by decide +kernel)).2 h)⟩

end Dataflow.Graph
