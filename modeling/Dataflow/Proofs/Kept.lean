import Dataflow.Proofs.Settled

/-!
# What a clean-up keeps

Two kinds of nodes of which one may ask whether a clean-up keeps them.

* The region of a stranded node. It is kept as a whole when something in it is pinned, but only as
  far as no other region takes a part of it along (`Built.clean_keeps_region`). Two regions may
  overlap where nothing is pinned, and then the part that they share goes
  (`not_forall_clean_keeps_region`).
* Constants without any edge. The dropping rule takes those that lose their last neighbours in the
  clean-up. Those that had none before are not looked at and stay (`Built.isolated_clean_iff`), so a
  graph may be left with such constants (`not_forall_not_isolated_clean`).
-/

namespace Dataflow.Graph

variable {g h : Graph} {rule : LeafRule} {p : Policy} {dead : List NodeId} {d i : NodeId}
  {n m : Node}

/-! ## Regions -/

/-- Something pinned depends on the node at `d`. -/
def Held (g : Graph) (p : Policy) (d : NodeId) : Prop := ∃ j, g.Depends p d j ∧ g.Pinned p j

theorem not_held_iff : ¬ g.Held p d ↔ ∀ j, g.Depends p d j → ¬ g.Pinned p j := by
  simp [Held]

/-- What depends on a stranded node is removed with the region of some stranded node that nothing
holds. -/
theorem Depends.removed_iff (hg : g.Linked) (hd : g.Stranded d) (hi : g.Depends p d i) :
    g.Removed rule p i ↔ ∃ e, g.Stranded e ∧ g.Depends p e i ∧ ¬ g.Held p e := by
  constructor
  · rintro ((hf | ⟨e, he, hfree, hei⟩) | ⟨-, n, hn, hv, -⟩)
    · exact absurd hf (hi.not_folds hd)
    · exact ⟨e, he, hei, not_held_iff.2 hfree⟩
    · exact absurd hv (hi.not_hasValue hg hd hn)
  · rintro ⟨e, he, hei, hfree⟩
    exact .inl (.inr ⟨e, he, not_held_iff.1 hfree, hei⟩)

/-- A node of a region stays if and only if every stranded node that it depends on is held. -/
theorem Linked.contains_clean_iff_of_depends (hg : g.Linked) (hd : g.Stranded d)
    (hi : g.Depends p d i) : (g.clean rule p).graph.contains i ↔
      ∀ e, g.Stranded e → g.Depends p e i → g.Held p e := by
  rw [hg.contains_clean_iff, hi.removed_iff hg hd, and_iff_right (hi.contains hd)]
  simp only [not_exists, not_and, Classical.not_not]

/-- **What becomes of the region of a stranded node.** It stays as a whole if and only if every
stranded node with which it shares a part has something pinned in its own region. Node by node, what
goes is the parts that it shares with the regions of the others. So whatever leads to something
pinned stays in any case. -/
theorem Built.clean_keeps_region (hb : g.Built) (rule : LeafRule) (p : Policy)
    (hd : g.Stranded d) :
    ((∀ i, g.Depends p d i → (g.clean rule p).graph.contains i) ↔
      ∀ e i, g.Stranded e → g.Depends p e i → g.Depends p d i → g.Held p e) ∧
    (∀ i, g.Depends p d i → ((g.clean rule p).graph.contains i ↔
      ∀ e, g.Stranded e → g.Depends p e i → g.Held p e)) ∧
    ∀ i j, g.Depends p d i → g.Depends p i j → g.Pinned p j →
      (g.clean rule p).graph.contains i := by
  have hkept : ∀ i, g.Depends p d i → ((g.clean rule p).graph.contains i ↔
      ∀ e, g.Stranded e → g.Depends p e i → g.Held p e) :=
    fun i hi => hb.linked.contains_clean_iff_of_depends hd hi
  refine ⟨⟨fun hall e i he hei hi => ?_, fun hheld i hi => ?_⟩, hkept, fun i j hi hij hj => ?_⟩
  · exact (hkept i hi).1 (hall i hi) e he hei
  · exact (hkept i hi).2 fun e he hei => hheld e i he hei hi
  · exact (hkept i hi).2 fun e _ hei => ⟨j, hei.trans hij, hj⟩

/-- Two data nodes that have lost their producer. One operation reads both, and a pinned one reads
the former. -/
def overlapping : Graph :=
  ((Graph.empty {}).runCommands [.addOperation .identity "p", .addData "x", .addData "y",
    .connect 0 1, .connect 0 2, .addOperation .identity "both", .connect 1 3, .connect 2 3,
    .addOperation (.custom "Assign") "assign", .connect 1 4, .erase 0]).1

theorem overlapping_stranded : overlapping.Stranded 1 :=
  ⟨_, _, rfl, rfl, rfl, rfl, rfl, by decide +kernel⟩

/-- Both readers depend on the former. Neither is folded, for neither has targets. -/
theorem overlapping_depends (hn : overlapping.node? i = some n) (hi : i ∈ [3, 4])
    (ht : n.targets = []) : overlapping.Depends .custom 1 i := by
  have hf : ¬ overlapping.Folds .custom i := by
    rintro ⟨n', hn', -, hy, -⟩
    cases hn.symm.trans hn'
    exact hy.2.1 ht
  exact .tail .refl ⟨_, n, rfl, hn, hi, hf, fun ho => nomatch ho⟩

theorem overlapping_pinned : overlapping.Pinned .custom 4 := ⟨_, rfl, rfl⟩

/-- What is pinned there stays with what it reads, and the operation that reads both goes with the
region of a data node that nothing holds. -/
theorem overlapping_clean_keeps_region :
    (overlapping.clean .keep .custom).graph.contains 1 ∧
      (overlapping.clean .keep .custom).graph.contains 4 ∧
      ∃ e, overlapping.Stranded e ∧ overlapping.Depends .custom e 3 ∧
        ¬ overlapping.Held .custom e := by
  obtain ⟨-, hkept, hpinned⟩ :=
    Built.clean_keeps_region (g := overlapping) ⟨_, _, rfl⟩ .keep .custom overlapping_stranded
  have h3 := overlapping_depends (i := 3) rfl (by decide) rfl
  have h4 := overlapping_depends (i := 4) rfl (by decide) rfl
  refine ⟨hpinned 1 4 .refl h4 overlapping_pinned, hpinned 4 4 h4 .refl overlapping_pinned, ?_⟩
  have hgone : ¬ (overlapping.clean .keep .custom).graph.contains 3 := by decide +kernel
  rw [hkept 3 h3] at hgone
  simpa only [Classical.not_forall, exists_prop] using hgone

/-- Something pinned in a region does not keep all of it. -/
theorem not_forall_clean_keeps_region :
    ¬ ∀ g : Graph, g.Built → ∀ (rule : LeafRule) (p : Policy) (d : NodeId), g.Stranded d →
      g.Held p d → ∀ i, g.Depends p d i → (g.clean rule p).graph.contains i := by
  intro hall
  have hheld : overlapping.Held .custom 1 :=
    ⟨4, overlapping_depends (i := 4) rfl (by decide) rfl, overlapping_pinned⟩
  have hkept := hall overlapping ⟨_, _, rfl⟩ .keep .custom 1 overlapping_stranded hheld 3
    (overlapping_depends (i := 3) rfl (by decide) rfl)
  exact absurd hkept (by decide +kernel)

/-! ## Constants without edges -/

/-- The node at `i` is a constant without any edge that no output needs. -/
def Isolated (g : Graph) (i : NodeId) : Prop :=
  ∃ n, g.node? i = some n ∧ n.hasValue ∧ n.sources = [] ∧ n.targets = [] ∧ ¬ g.Needed i

instance (g : Graph) (i : NodeId) : Decidable (g.Isolated i) :=
  decidable_of_iff ((g.node? i).any fun n =>
      n.hasValue && n.sources.isEmpty && n.targets.isEmpty && !decide (g.Needed i))
    (by simp [Isolated, Option.any_eq_true, and_assoc])

/-- A constant that had no edges is not removed. -/
theorem Isolated.not_removed (hg : g.Linked) (hi : g.Isolated i) : ¬ g.Removed rule p i := by
  obtain ⟨n, hn, hv, hs, ht, -⟩ := hi
  rintro (hd | ⟨-, n', hn', -, -, ⟨j, hj, -⟩, -⟩)
  · exact (hd.data hg hn (Node.isOperation_of_hasValue hv)).1 hv
  · cases hn.symm.trans hn'
    simp [Node.neighbours, hs, ht] at hj

/-- Under the dropping rule a constant that is left without edges had none before. -/
theorem Leftover.isolated_iff (hl : g.Leftover dead h) (hg : g.Linked)
    (hdead : ∀ i, i ∈ dead ↔ g.Removed .drop p i) : h.Isolated i ↔ g.Isolated i := by
  constructor
  · rintro ⟨m, hm, hv, hs, ht, hneed⟩
    rw [hl.needed_iff hg hdead] at hneed
    obtain ⟨hi, n, hn, rfl⟩ := hl.node?_eq_some_iff.1 hm
    simp only [Node.hasValue_without, Node.hasValue_tagged, Node.sources_without,
      Node.sources_tagged, Node.targets_without, Node.targets_tagged, List.filter_eq_nil_iff,
      decide_eq_true_eq, Classical.not_not] at hv hs ht
    have hall : ∀ j ∈ n.neighbours, j ∈ dead :=
      fun j hj => (List.mem_append.1 hj).elim (hs j) (ht j)
    -- a constant that lost all its neighbours would be dropped itself
    have hnone : n.neighbours = [] := by
      refine List.eq_nil_iff_forall_not_mem.2 fun j hj => hi ((hdead i).2 (.inr ⟨rfl, ?_⟩))
      exact unread_of_removed hg hn hv hneed (List.ne_nil_of_mem hj)
        fun k hk => (hdead k).1 (hall k hk)
    obtain ⟨hs, ht⟩ := List.append_eq_nil_iff.1 hnone
    exact ⟨n, hn, hv, hs, ht, hneed⟩
  · intro hi
    have hid : i ∉ dead := fun hid => hi.not_removed hg ((hdead i).1 hid)
    obtain ⟨n, hn, hv, hs, ht, hneed⟩ := hi
    refine ⟨_, hl.node? hid hn, by simpa using hv, by simp [hs], by simp [ht], ?_⟩
    rwa [hl.needed_iff hg hdead]

/-- **The dropping rule leaves exactly those constants without edges that were there before.** All
that lose their last edge in the clean-up are dropped. -/
theorem Built.isolated_clean_iff (hb : g.Built) (p : Policy) (i : NodeId) :
    (g.clean .drop p).graph.Isolated i ↔ g.Isolated i := by
  obtain ⟨dead, hl, hdead⟩ := hb.linked.clean_remains .drop p
  exact hl.isolated_iff hb.linked hdead

/-- A constant that is produced and not read, and one whose producer was erased. -/
def abandoned : Graph :=
  ((Graph.empty {}).runCommands [.addOperation .const "c", .addConstant "v" ⟨[0, 7], #[], rfl⟩,
    .connect 0 1, .addOperation .const "d", .addConstant "w" ⟨[0, 8], #[], rfl⟩, .connect 2 3,
    .erase 2]).1

/-- The former is dropped with its producer, and the latter is left. -/
theorem abandoned_isolated_clean :
    ¬ (abandoned.clean .drop .nothing).graph.contains 0 ∧
      ¬ (abandoned.clean .drop .nothing).graph.Isolated 1 ∧
      (abandoned.clean .drop .nothing).graph.Isolated 3 :=
  ⟨by decide +kernel,
    fun h => absurd ((Built.isolated_clean_iff ⟨_, _, rfl⟩ .nothing 1).1 h) (by decide +kernel),
    (Built.isolated_clean_iff ⟨_, _, rfl⟩ .nothing 3).2 (by decide +kernel)⟩

/-- The dropping rule may leave a constant that nobody reads. -/
theorem not_forall_not_isolated_clean :
    ¬ ∀ g : Graph, g.Built → ∀ (p : Policy) (i : NodeId),
      ¬ (g.clean .drop p).graph.Isolated i :=
  fun hall => hall abandoned ⟨_, _, rfl⟩ .nothing 3 (by decide +kernel)

end Dataflow.Graph
