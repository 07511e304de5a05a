import Dataflow.Proofs.Accounts
import Dataflow.Proofs.Survivors

/-!
# Cleaning up twice

A graph is settled if its tags are those that the analyses would set and there is nothing to remove.
A clean-up changes nothing of such a graph (`Settled.clean`), and leaves such a graph
(`Linked.settled_clean`). So a second clean-up changes nothing (`Built.clean_clean`).

The second fact needs that what is left is judged as it was: removals change neither what outputs
need (`Leftover.needed_iff`) nor which operations yield constants (`Leftover.yieldsConstants_iff`),
and the loss of a node that is left spreads as before (`Leftover.spreads`). So a region that stayed
because of something pinned still holds that, and stays again.
-/

namespace Dataflow.Graph

/-- The tags are up to date, and there is nothing to remove. -/
structure Settled (g : Graph) (rule : LeafRule) (p : Policy) : Prop where
  tagNeeded : g.tagNeeded = g
  tagConstant : g.tagConstant = g
  not_removed : ∀ i, ¬ g.Removed rule p i

variable {g h : Graph} {rule : LeafRule} {p : Policy} {dead : List NodeId} {d i j : NodeId}
  {n m : Node}

/-! ## Nothing to do -/

theorem Settled.erased (hs : g.Settled rule p) (hg : g.Linked) : (g.clean rule p).erased = [] := by
  have hnil : (g.clean rule p).erased.map Prod.fst = [] :=
    List.eq_nil_iff_forall_not_mem.2 fun i hi => hs.not_removed i (hg.mem_erased.1 hi)
  exact List.map_eq_nil_iff.1 hnil

/-- A clean-up changes nothing of a settled graph. -/
theorem Settled.clean (hs : g.Settled rule p) (hg : g.Linked) :
    (g.clean rule p).graph = g ∧ (g.clean rule p).erased = [] ∧
      (g.clean rule p).report = ⟨0, 0, g.size, g.size⟩ := by
  have he := hs.erased hg
  have hgraph : (g.clean rule p).graph = g := by
    rw [clean_of_erased he, tagged, hs.tagNeeded, hs.tagConstant]
  refine ⟨hgraph, he, ?_⟩
  rw [report_clean, he, hgraph]
  rfl

/-! ## What is left is judged as it was -/

theorem isAnchor_leftover (a b : Bool) (dead : List NodeId) (n : Node) :
    ((n.tagged a b).without dead).isAnchor = n.isAnchor := by
  simp [Node.isAnchor]

section Leftover

variable (hl : g.Leftover dead h) (hg : g.Linked) (hdead : ∀ i, i ∈ dead ↔ g.Removed rule p i)
include hl hg hdead

theorem Leftover.needed_iff : h.Needed i ↔ g.Needed i := by
  have hleft : ∀ {i}, g.Needed i → i ∉ dead := fun hi hd => ((hdead _).1 hd).not_needed hg hi
  constructor
  · refine Needed.induct (fun i m hm ha => ?_) fun i j m hj hm hi hc => ?_
    · obtain ⟨-, n, hn, rfl⟩ := hl.node?_eq_some_iff.1 hm
      rw [isAnchor_leftover] at ha
      exact .anchor hn ha
    · obtain ⟨-, n, hn, rfl⟩ := hl.node?_eq_some_iff.1 hm
      simp only [Node.sources_without, Node.sources_tagged, List.mem_filter] at hi
      exact hj.source hn hi.1 (hl.contains_iff.1 hc).2
  · intro hi
    refine (Needed.induct (P := fun i => g.Needed i ∧ h.Needed i) (fun i n hn ha => ?_)
      (fun i j n hj hn hi hc => ?_) hi).2
    · have hi : g.Needed i := .anchor hn ha
      exact ⟨hi, .anchor (hl.node? (hleft hi) hn) (by rwa [isAnchor_leftover])⟩
    · have hneed : g.Needed i := hj.1.source hn hi hc
      refine ⟨hneed, hj.2.source (hl.node? (hleft hj.1) hn) ?_
        (hl.contains_iff.2 ⟨hleft hneed, hc⟩)⟩
      simp [hi, hleft hneed]

theorem Leftover.yieldsConstants_iff (hn : g.node? i = some n) (hm : h.node? i = some m) :
    h.YieldsConstants m ↔ g.YieldsConstants n := by
  have hkind : ∀ q, m.hasKind q = n.hasKind q := by
    obtain ⟨-, n', hn', rfl⟩ := hl.node?_eq_some_iff.1 hm
    cases hn.symm.trans hn'
    simp
  rw [YieldsConstants, YieldsConstants, hkind]
  refine and_congr_right fun hk => ?_
  rw [← hkind] at hk
  obtain ⟨n', hn', -, ht, hc⟩ := hl.operation hg hdead hm (Node.isOperation_of_hasKind hk)
  cases hn.symm.trans hn'
  rw [ht]
  refine and_congr_right fun _ => forall₂_congr fun j hj => ?_
  obtain ⟨l, hlj⟩ := Graph.contains_iff.1 (hc j (List.mem_append_right _ hj))
  obtain ⟨-, l', hlj', rfl⟩ := hl.node?_eq_some_iff.1 hlj
  simp [hlj, hlj']

theorem Leftover.tagNeeded : h.tagNeeded = h := by
  refine tagNeeded_eq_self fun i m hm => ?_
  obtain ⟨-, n, hn, rfl⟩ := hl.node?_eq_some_iff.1 hm
  rw [Node.needed_without, Node.needed_tagged, decide_eq_decide.2 (hl.needed_iff hg hdead)]

theorem Leftover.tagConstant : h.tagConstant = h := by
  refine tagConstant_eq_self fun i m hm ho => ?_
  obtain ⟨-, n, hn, hmn⟩ := hl.node?_eq_some_iff.1 hm
  rw [decide_eq_decide.2 (hl.yieldsConstants_iff hg hdead hn hm), ← hmn, Node.constant?_without,
    Node.constant?_tagged]
  rw [← hmn, Node.isOperation_without, Node.isOperation_tagged] at ho
  obtain ⟨o, hop⟩ : ∃ o, n.operation? = some o := Option.isSome_iff_exists.1 ho
  rw [hop, Option.map_some]

theorem Leftover.not_folds : ¬ h.Folds p i := by
  rintro ⟨m, hm, hneed, hy, hk⟩
  have hy' := hy
  obtain ⟨hi, n, hn, rfl⟩ := hl.node?_eq_some_iff.1 hm
  rw [hl.needed_iff hg hdead] at hneed
  rw [hl.yieldsConstants_iff hg hdead hn hm] at hy
  exact hi ((hdead i).2 (.inl (.inl ⟨n, hn, hneed, hy, by simpa using hk⟩)))

/-- The loss of a node that is left spreads to the nodes that are left as it did before. -/
theorem Leftover.spreads (hi : i ∉ dead) (hj : j ∉ dead) (hs : g.Spreads p i j) :
    h.Spreads p i j := by
  obtain ⟨n, m, hn, hm, hij, -, hv⟩ := hs
  refine ⟨_, _, hl.node? hi hn, hl.node? hj hm, ?_, hl.not_folds hg hdead, ?_⟩
  · simp [hij, hj]
  · simpa using hv

/-- Only the loss of nodes that are left gets to nodes that are left. -/
theorem Leftover.depends (hj : j ∉ dead) (h' : g.Depends p d j) : h.Depends p d j := by
  induction h' with
  | refl => exact .refl
  | @tail k l _ hs ih =>
    have hk : k ∉ dead := fun hk => hj ((hdead l).2 (((hdead k).1 hk).spreads hg hs))
    exact (ih hk).tail (hl.spreads hg hdead hk hj hs)

theorem Leftover.not_doomed : ¬ h.Doomed p i := by
  have hclosed : g.Closed p dead :=
    fun j hj k hs => (hdead k).2 (((hdead j).1 hj).spreads hg hs)
  rintro (hf | ⟨d, hd, hfree, -⟩)
  · exact hl.not_folds hg hdead hf
  · obtain ⟨m, e, hm, he, ho, hv, hs, hneed⟩ := hd
    have hdd := (hl.node?_eq_some_iff.1 hm).1
    have hgd : g.Stranded d := by
      refine (hl.isStranded_iff hg hclosed hm).1 ⟨Node.isStranded_iff.2 ⟨e, he, ho, hv, hs⟩, ?_⟩
      obtain ⟨-, n, -, rfl⟩ := hl.node?_eq_some_iff.1 hm
      rw [hl.needed_iff hg hdead] at hneed
      simpa using hneed
    -- what is pinned in the region of `d` is left, so it is in its region still
    refine hdd ((hdead d).2 (.inl (.inr ⟨d, hgd, ?_, .refl⟩)))
    rintro j hj ⟨n, hn, hp⟩
    have hjd : j ∉ dead := fun hjd => ((hdead j).1 hjd).not_pinned ⟨n, hn, hp⟩
    exact hfree j (hl.depends hg hdead hjd hj) ⟨_, hl.node? hjd hn, by simpa using hp⟩

end Leftover

/-- **A clean-up of a linked graph leaves a settled graph.** -/
theorem Linked.settled_clean (hg : g.Linked) (rule : LeafRule) (p : Policy) :
    (g.clean rule p).graph.Settled rule p := by
  obtain ⟨dead, hl, hdead⟩ := hg.clean_remains rule p
  refine ⟨hl.tagNeeded hg hdead, hl.tagConstant hg hdead, ?_⟩
  rintro i (hd | ⟨-, n, -, -, -, ⟨j, -, hj⟩, -⟩)
  · exact hl.not_doomed hg hdead hd
  · exact hl.not_doomed hg hdead hj

/-- **A second clean-up changes nothing.** It erases no node, reports so, and leaves the graph as it
is, for the tags that the first one left are those that the analyses set. -/
theorem Built.clean_clean (hb : g.Built) (rule : LeafRule) (p : Policy) :
    let first := g.clean rule p
    let second := first.graph.clean rule p
    second.graph = first.graph ∧ second.erased = [] ∧ second.report.isUnchanged ∧
      second.report.sizeBefore = second.report.sizeAfter ∧
      first.graph.tagNeeded = first.graph ∧ first.graph.tagConstant = first.graph := by
  intro first second
  have hs : first.graph.Settled rule p := hb.linked.settled_clean rule p
  obtain ⟨hgraph, herased, hreport⟩ := hs.clean (hb.linked.clean rule p)
  refine ⟨hgraph, herased, ?_, ?_, hs.tagNeeded, hs.tagConstant⟩
  · rw [hreport]
    rfl
  · rw [hreport]

/-- What is left of a graph by a clean-up that removes something, cleaned up again. -/
theorem bereaved_clean_clean :
    ¬ (bereaved.clean .drop .nothing).report.isUnchanged ∧
      ((bereaved.clean .drop .nothing).graph.clean .drop .nothing).report.isUnchanged :=
  ⟨by decide +kernel, (Built.clean_clean ⟨_, _, rfl⟩ .drop .nothing).2.2.1⟩

end Dataflow.Graph
