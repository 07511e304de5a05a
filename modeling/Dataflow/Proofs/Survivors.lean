import Dataflow.Proofs.Built

/-!
# What goes and what stays

Of a graph that commands built, a clean-up removes exactly the nodes that `Graph.Doomed` and
`Graph.Unread` describe (`Built.clean_removes`). The operations that stay have all the edges that
they had, and nothing that they read is without supply unless it was before
(`Built.clean_supplies`).
-/

namespace Dataflow.Graph

variable {g h : Graph} {rule : LeafRule} {p : Policy} {dead : List NodeId} {i j : NodeId}
  {n m : Node}

/-! ## What goes -/

/-- **A clean-up removes exactly the doomed nodes**, and with them, under the dropping rule, exactly
the constants that they leave unread. -/
theorem Built.clean_removes (h : g.Built) (p : Policy) (i : NodeId) :
    (g.contains i ∧ ¬ (g.clean .keep p).graph.contains i ↔ g.Doomed p i) ∧
      (g.contains i ∧ ¬ (g.clean .drop p).graph.contains i ↔ g.Doomed p i ∨ g.Unread p i) ∧
      ∀ rule, (g.clean rule p).graph.contains i → g.contains i := by
  have hexact : ∀ rule, g.contains i ∧ ¬ (g.clean rule p).graph.contains i ↔
      g.Removed rule p i := by
    intro rule
    rw [h.linked.contains_clean_iff]
    constructor
    · rintro ⟨hc, hr⟩
      exact Classical.not_not.1 fun hn => hr ⟨hc, hn⟩
    · intro hr
      exact ⟨hr.contains, fun hn => hn.2 hr⟩
  refine ⟨?_, ?_, fun rule hi => (h.linked.contains_clean_iff.1 hi).1⟩
  · rw [hexact, Removed]
    simp
  · rw [hexact, Removed]
    simp

/-- An operation that reads what an erased operation should have produced. -/
def bereaved : Graph :=
  ((Graph.empty {}).runCommands [.addOperation .identity "a", .addData "x", .connect 0 1,
    .addOperation .identity "b", .connect 1 2, .erase 0]).1

/-- The reader is doomed with what it reads, and goes. -/
theorem bereaved_clean_removes :
    bereaved.Doomed .nothing 2 ∧ bereaved.contains 2 ∧
      ¬ (bereaved.clean .keep .nothing).graph.contains 2 := by
  have hstranded : bereaved.Stranded 1 :=
    ⟨_, _, rfl, rfl, rfl, rfl, rfl, by decide +kernel⟩
  have hfree : ∀ j, bereaved.Depends .nothing 1 j → ¬ bereaved.Pinned .nothing j := by
    rintro j - ⟨n, -, hn⟩
    have hnothing : n.hasKind Policy.nothing = false := by
      unfold Node.hasKind
      cases n.kind? <;> rfl
    rw [hnothing] at hn
    cases hn
  have hspreads : bereaved.Spreads .nothing 1 2 := by
    refine ⟨_, _, rfl, rfl, List.mem_cons_self, ?_, fun ho => nomatch ho⟩
    rintro ⟨n, hn, -, hy, -⟩
    cases hn
    exact hy.2.1 rfl
  have hdoomed : bereaved.Doomed .nothing 2 :=
    .inr ⟨1, hstranded, hfree, .tail .refl hspreads⟩
  exact ⟨hdoomed, (Built.clean_removes ⟨_, _, rfl⟩ .nothing 2).1.2 hdoomed⟩

/-! ## What stays -/

/-- The data node at `j` has a producer in `h` or the value that it had in `g`, unless it had
neither in `g`. -/
def StillFed (g h : Graph) (j : NodeId) : Prop :=
  ∃ n m, g.node? j = some n ∧ h.node? j = some m ∧
    ((∃ k ∈ m.sources, h.contains k) ∨ (n.hasValue ∧ m.value? = n.value?) ∨
      (¬ n.hasValue ∧ n.sources = []))

section Leftover

variable (hl : g.Leftover dead h) (hg : g.Linked) (hdead : ∀ i, i ∈ dead ↔ g.Removed rule p i)
include hl hg hdead

/-- An operation that stays has all its edges. -/
theorem Leftover.operation (hm : h.node? i = some m) (ho : m.isOperation) :
    ∃ n, g.node? i = some n ∧ m.sources = n.sources ∧ m.targets = n.targets ∧
      ∀ j ∈ n.neighbours, h.contains j := by
  obtain ⟨hi, n, hn, rfl⟩ := hl.node?_eq_some_iff.1 hm
  rw [Node.isOperation_without, Node.isOperation_tagged] at ho
  have hleft : ∀ j ∈ n.neighbours, j ∉ dead := by
    intro j hj
    rw [hdead]
    exact not_removed_neighbour hg (fun hr => hi ((hdead i).2 hr)) hn ho hj
  refine ⟨n, hn, ?_, ?_, fun j hj => ?_⟩
  · rw [Node.sources_without_of_left (by simpa using hleft), Node.sources_tagged]
  · rw [Node.targets_without_of_left (by simpa using hleft), Node.targets_tagged]
  · exact hl.contains_iff.2 ⟨hleft j hj, Graph.contains_iff.2 (hg.neighbour_live hn hj)⟩

/-- A node that stays without its producer has a value. -/
theorem Leftover.hasValue (hn : g.node? i = some n) (hm : h.node? i = some m) (hd : m.isData)
    (hj : j ∈ n.sources) (hr : ¬ h.contains j) : n.hasValue := by
  obtain ⟨hi, n', hn', rfl⟩ := hl.node?_eq_some_iff.1 hm
  cases hn.symm.trans hn'
  obtain ⟨l, hlj, hij⟩ := hg.target_of_source hn hj
  have hjd : j ∈ dead :=
    Classical.not_not.1 fun hjd => hr (hl.contains_iff.2 ⟨hjd, Graph.contains_iff.2 ⟨l, hlj⟩⟩)
  have ho : l.isOperation := by
    rw [hg.bipartite hn hlj hj, ← Node.isData_eq_not]
    simpa using hd
  exact ((hdead j).1 hjd).target hg hlj ho hij hn fun hr => hi ((hdead i).2 hr)

theorem Leftover.stillFed (hn : g.node? j = some n) (hd : n.isData) (hj : h.contains j) :
    g.StillFed h j := by
  obtain ⟨m, hm⟩ := Graph.contains_iff.1 hj
  obtain ⟨hjd, n', hn', rfl⟩ := hl.node?_eq_some_iff.1 hm
  cases hn.symm.trans hn'
  refine ⟨n, _, hn, hm, ?_⟩
  cases hv : n.hasValue with
  | true => exact .inr (.inl ⟨rfl, by simp⟩)
  | false =>
    cases hs : n.sources with
    | nil => exact .inr (.inr ⟨by simp, rfl⟩)
    | cons k rest =>
      have hk : k ∈ n.sources := hs ▸ List.mem_cons_self
      have hkc : h.contains k := by
        refine Classical.not_not.1 fun hkc => ?_
        have := hl.hasValue hg hdead hn hm (by simpa using hd) hk hkc
        rw [hv] at this
        cases this
      refine .inl ⟨k, ?_, hkc⟩
      simpa [hk] using (hl.contains_iff.1 hkc).1

end Leftover

/-- **Survivors keep their meaning.** The operations that stay have the edges that they had, all of
them to live nodes, and all that they read is still fed. The nodes that lost their producers have
values. -/
theorem Built.clean_supplies (hb : g.Built) (rule : LeafRule) (p : Policy) :
    (∀ i m, (g.clean rule p).graph.node? i = some m → m.isOperation →
      ∃ n, g.node? i = some n ∧ m.sources = n.sources ∧ m.targets = n.targets ∧
        (∀ j ∈ m.sources ++ m.targets, (g.clean rule p).graph.contains j) ∧
        ∀ j ∈ m.sources, g.StillFed (g.clean rule p).graph j) ∧
    ∀ i n m, g.node? i = some n → (g.clean rule p).graph.node? i = some m → m.isData →
      (∃ j ∈ n.sources, ¬ (g.clean rule p).graph.contains j) → m.hasValue := by
  have hg := hb.linked
  obtain ⟨dead, hl, hdead⟩ := hg.clean_remains rule p
  refine ⟨fun i m hm ho => ?_, fun i n m hn hm hd ⟨j, hj, hr⟩ => ?_⟩
  · obtain ⟨n, hn, hs, ht, hc⟩ := hl.operation hg hdead hm ho
    rw [hs, ht]
    refine ⟨n, hn, rfl, rfl, hc, fun j hj => ?_⟩
    have hon : n.isOperation := by
      obtain ⟨-, n', hn', rfl⟩ := hl.node?_eq_some_iff.1 hm
      cases hn.symm.trans hn'
      simpa using ho
    obtain ⟨l, hlj, -⟩ := hg.target_of_source hn hj
    refine hl.stillFed hg hdead hlj ?_ (hc j (List.mem_append_left _ hj))
    rw [Node.isData_eq_not, hg.bipartite hn hlj hj, hon, Bool.not_not]
  · have hv := hl.hasValue hg hdead hn hm hd hj hr
    obtain ⟨-, n', hn', rfl⟩ := hl.node?_eq_some_iff.1 hm
    cases hn.symm.trans hn'
    simpa using hv

/-- An operation that yields a constant, and one that reads it and may yield anything. -/
def precomputed : Graph :=
  ((Graph.empty {}).runCommands [.addOperation .const "c",
    .addConstant "v" ⟨[2, 0], #[], rfl⟩, .connect 0 1, .addOperation .identity "r", .connect 1 2,
    .addData "y", .connect 2 3]).1

/-- The former is folded, the latter goes on reading the constant. -/
theorem precomputed_clean_supplies :
    ¬ (precomputed.clean .keep .nothing).graph.contains 0 ∧
      (∃ m, (precomputed.clean .keep .nothing).graph.node? 2 = some m ∧ m.sources = [1] ∧
        m.targets = [3]) ∧
      precomputed.StillFed (precomputed.clean .keep .nothing).graph 1 := by
  obtain ⟨m, hm, ho⟩ : ∃ m, (precomputed.clean .keep .nothing).graph.node? 2 = some m ∧
      m.isOperation := (Option.any_eq_true _ _).1 (by decide +kernel)
  obtain ⟨n, hn, hs, ht, -, hfed⟩ :=
    (Built.clean_supplies ⟨_, _, rfl⟩ .keep .nothing).1 2 m hm ho
  cases hn
  exact ⟨by decide +kernel, ⟨m, hm, hs, ht⟩, hfed 1 (hs ▸ List.mem_cons_self)⟩

end Dataflow.Graph
