import Dataflow.Cleanup.Clean
import Dataflow.Proofs.Tagging

/-!
# What a clean-up removes

The set of nodes that a clean-up removes, described on the graph as it was before, without any order
in which things happen:

* `Graph.Folds`: operations that no output needs, that yield constants only and are not pinned;
* `Graph.Depends`: what goes with a stranded data node, as the least set that `Graph.Spreads` closes
  in the graph less the folded operations;
* `Graph.Doomed`: both of these, as far as nothing pinned depends on the stranded node;
* `Graph.Unread`: constants that have lost all their neighbours to the doomed nodes.

In a linked graph a removed data node takes all its neighbours along (`Removed.neighbour`), and a
data node that keeps a value is all that a removed operation leaves behind (`Removed.target`).
-/

namespace Dataflow

namespace Graph

/-- The operation at `i` is folded: no output needs it, it yields constants only, and it is not
pinned. -/
def Folds (g : Graph) (p : Policy) (i : NodeId) : Prop :=
  ∃ n, g.node? i = some n ∧ ¬ g.Needed i ∧ g.YieldsConstants n ∧ ¬ n.hasKind p

/-- The data node at `i` is stranded: it lost its producer and got no other, it has no value, and no
output needs it. -/
def Stranded (g : Graph) (i : NodeId) : Prop :=
  ∃ n d, g.node? i = some n ∧ n.datum? = some d ∧ d.orphaned ∧ d.value = none ∧ n.sources = [] ∧
    ¬ g.Needed i

/-- In the graph less the folded operations, the loss of the node at `i` spreads to that at `j`:
from a data node to its consumers, from an operation to those of its outputs that have no value. -/
def Spreads (g : Graph) (p : Policy) (i j : NodeId) : Prop :=
  ∃ n m, g.node? i = some n ∧ g.node? j = some m ∧ j ∈ n.targets ∧ ¬ g.Folds p j ∧
    (n.isOperation → ¬ m.hasValue)

/-- The node at `i` belongs to the least set that holds `d` and to which no loss of a member adds
anything. -/
def Depends (g : Graph) (p : Policy) (d i : NodeId) : Prop :=
  Relation.ReflTransGen (g.Spreads p) d i

/-- The operation at `i` is pinned. -/
def Pinned (g : Graph) (p : Policy) (i : NodeId) : Prop := ∃ n, g.node? i = some n ∧ n.hasKind p

/-- The node at `i` is folded, or depends on a stranded data node on which nothing pinned
depends. -/
def Doomed (g : Graph) (p : Policy) (i : NodeId) : Prop :=
  g.Folds p i ∨
    ∃ d, g.Stranded d ∧ (∀ j, g.Depends p d j → ¬ g.Pinned p j) ∧ g.Depends p d i

/-- The node at `i` is a constant that no output needs, with neighbours, all of them doomed. -/
def Unread (g : Graph) (p : Policy) (i : NodeId) : Prop :=
  ∃ n, g.node? i = some n ∧ n.hasValue ∧ ¬ g.Needed i ∧
    (∃ j ∈ n.neighbours, g.Doomed p j) ∧ ∀ j ∈ n.neighbours, g.Doomed p j

/-- The node at `i` is doomed, or under the dropping rule an unread constant. -/
def Removed (g : Graph) (rule : LeafRule) (p : Policy) (i : NodeId) : Prop :=
  g.Doomed p i ∨ rule = .drop ∧ g.Unread p i

variable {g : Graph} {rule : LeafRule} {p : Policy} {d i j : NodeId} {n m : Node}

/-! ## Folded operations -/

/-- The operations that a clean-up folds. -/
theorem mem_foldable : i ∈ g.tagged.foldable p ↔ g.Folds p i := by
  simp only [foldable, mem_idsWhere, node?_tagged, Option.map_eq_some_iff, Folds]
  constructor
  · rintro ⟨_, ⟨n, hn, rfl⟩, hb⟩
    refine ⟨n, hn, ?_⟩
    have hop : n.operation?.isSome := by
      cases ho : n.operation? with
      | none => simp [Node.constant?_tagged, ho] at hb
      | some o => rfl
    obtain ⟨o, ho⟩ := Option.isSome_iff_exists.1 hop
    simpa [Node.constant?_tagged, ho, mayGo, and_left_comm] using hb
  · rintro ⟨n, hn, hneed, hy, hp⟩
    refine ⟨_, ⟨n, hn, rfl⟩, ?_⟩
    obtain ⟨o, ho⟩ := Option.isSome_iff_exists.1 (Node.isOperation_of_hasKind hy.1)
    simp [Node.constant?_tagged, ho, mayGo, hneed, hy, hp]

theorem Folds.not_needed (h : g.Folds p i) : ¬ g.Needed i := by
  obtain ⟨_, -, hi, -⟩ := h
  exact hi

theorem Folds.not_pinned (h : g.Folds p i) : ¬ g.Pinned p i := by
  obtain ⟨n, hn, -, -, hp⟩ := h
  rintro ⟨n', hn', hp'⟩
  cases hn.symm.trans hn'
  exact hp hp'

theorem Folds.isOperation (h : g.Folds p i) (hn : g.node? i = some n) : n.isOperation := by
  obtain ⟨n', hn', -, hy, -⟩ := h
  cases hn.symm.trans hn'
  exact Node.isOperation_of_hasKind hy.1

theorem Folds.hasValue_of_mem_targets (h : g.Folds p i) (hn : g.node? i = some n)
    (hj : j ∈ n.targets) (hm : g.node? j = some m) : m.hasValue := by
  obtain ⟨n', hn', -, hy, -⟩ := h
  cases hn.symm.trans hn'
  obtain ⟨m', hm', hv⟩ := hy.2.2 j hj
  cases hm.symm.trans hm'
  exact hv

/-- All outputs of a folded operation stay as constants. -/
theorem Folds.not_spreads (h : g.Folds p i) : ¬ g.Spreads p i j := by
  rintro ⟨n, m, hn, hm, hj, -, hv⟩
  exact hv (h.isOperation hn) (h.hasValue_of_mem_targets hn hj hm)

/-! ## What depends on a stranded node -/

/-- What an output needs is fed by what it needs, so the loss of other nodes never gets there. -/
theorem Spreads.not_needed (hg : g.Linked) (h : g.Spreads p i j) (hi : ¬ g.Needed i) :
    ¬ g.Needed j := by
  obtain ⟨n, m, hn, hm, hj, -, -⟩ := h
  intro hneed
  have hs : i ∈ m.sources := (hg.mem_targets_iff hn hm).1 hj
  exact hi (hneed.source hm hs (contains_iff.2 ⟨n, hn⟩))

theorem Stranded.not_needed (h : g.Stranded d) : ¬ g.Needed d := by
  obtain ⟨_, _, -, -, -, -, -, hd⟩ := h
  exact hd

theorem Stranded.contains (h : g.Stranded d) : g.contains d := by
  obtain ⟨n, _, hn, -⟩ := h
  exact contains_iff.2 ⟨n, hn⟩

theorem Stranded.not_folds (h : g.Stranded d) : ¬ g.Folds p d := by
  obtain ⟨n, e, hn, he, -⟩ := h
  intro hf
  have ho := hf.isOperation hn
  rw [Node.isOperation_of_datum? he] at ho
  cases ho

theorem Depends.not_needed (hg : g.Linked) (hd : g.Stranded d) (h : g.Depends p d i) :
    ¬ g.Needed i := by
  induction h with
  | refl => exact hd.not_needed
  | tail _ hs ih => exact hs.not_needed hg ih

theorem Depends.not_folds (hd : g.Stranded d) (h : g.Depends p d i) : ¬ g.Folds p i := by
  cases h with
  | refl => exact hd.not_folds
  | tail _ hs =>
    obtain ⟨_, _, -, -, -, hf, -⟩ := hs
    exact hf

theorem Depends.contains (hd : g.Stranded d) (h : g.Depends p d i) : g.contains i := by
  cases h with
  | refl => exact hd.contains
  | tail _ hs =>
    obtain ⟨_, m, -, hm, -⟩ := hs
    exact contains_iff.2 ⟨m, hm⟩

/-- The losses that follow that of a stranded node pass constants by. -/
theorem Depends.not_hasValue (hg : g.Linked) (hd : g.Stranded d) (h : g.Depends p d i)
    (hn : g.node? i = some n) : ¬ n.hasValue := by
  cases h with
  | refl =>
    obtain ⟨n', e, hn', he, -, hv, -⟩ := hd
    cases hn.symm.trans hn'
    simp [Node.hasValue, Node.value?, he, hv]
  | tail _ hs =>
    obtain ⟨o, n', ho, hn', hi, -, hv⟩ := hs
    cases hn.symm.trans hn'
    intro hval
    -- what has a value is data, so the loss got there from an operation
    have hop : o.isOperation := by
      have hside := hg.bipartite_target ho hn hi
      rw [Node.isOperation_of_hasValue hval] at hside
      simpa using hside.symm
    exact hv hop hval

/-! ## Doomed nodes -/

theorem Doomed.contains (h : g.Doomed p i) : g.contains i := by
  rcases h with ⟨n, hn, -⟩ | ⟨d, hd, -, hi⟩
  · exact contains_iff.2 ⟨n, hn⟩
  · exact hi.contains hd

theorem Doomed.not_needed (hg : g.Linked) (h : g.Doomed p i) : ¬ g.Needed i := by
  rcases h with hf | ⟨d, hd, -, hi⟩
  · exact hf.not_needed
  · exact hi.not_needed hg hd

theorem Doomed.not_pinned (h : g.Doomed p i) : ¬ g.Pinned p i := by
  rcases h with hf | ⟨d, -, hfree, hi⟩
  · exact hf.not_pinned
  · exact hfree i hi

theorem Doomed.spreads (h : g.Doomed p i) (hs : g.Spreads p i j) : g.Doomed p j := by
  rcases h with hf | ⟨d, hd, hfree, hi⟩
  · exact absurd hs hf.not_spreads
  · exact .inr ⟨d, hd, hfree, hi.tail hs⟩

/-- A doomed data node has no value, and all its neighbours are doomed. -/
theorem Doomed.data (hg : g.Linked) (h : g.Doomed p i) (hn : g.node? i = some n)
    (ho : n.isOperation = false) : ¬ n.hasValue ∧ ∀ j ∈ n.neighbours, g.Doomed p j := by
  rcases h with hf | ⟨d, hd, hfree, hi⟩
  · rw [hf.isOperation hn] at ho
    cases ho
  have hdoomed : ∀ {k}, g.Depends p d k → g.Doomed p k := fun hk => .inr ⟨d, hd, hfree, hk⟩
  -- a target is folded already or the loss spreads to it
  have htargets : ∀ j ∈ n.targets, g.Doomed p j := by
    intro j hj
    obtain ⟨m, hm, -⟩ := hg.source_of_target hn hj
    by_cases hf : g.Folds p j
    · exact .inl hf
    · refine hdoomed (hi.tail ⟨n, m, hn, hm, hj, hf, ?_⟩)
      simp [ho]
  refine ⟨hi.not_hasValue hg hd hn, fun j hj => ?_⟩
  rcases List.mem_append.1 hj with hj | hj
  · cases hi with
    | refl =>
      obtain ⟨n', _, hn', -, -, -, hs, -⟩ := hd
      cases hn.symm.trans hn'
      rw [hs] at hj
      cases hj
    | @tail k _ hk hs =>
      -- the only producer is the operation whose loss spread to the node
      obtain ⟨o, n', hko, hn', hki, -⟩ := hs
      cases hn.symm.trans hn'
      have hd : n.isData := by rw [Node.isData_eq_not, ho, Bool.not_false]
      exact hg.source_unique hn hd hj ((hg.mem_targets_iff hko hn).1 hki) ▸ hdoomed hk
  · exact htargets j hj

/-! ## Removed nodes -/

theorem Removed.contains (h : g.Removed rule p i) : g.contains i := by
  rcases h with h | ⟨-, n, hn, -⟩
  · exact h.contains
  · exact contains_iff.2 ⟨n, hn⟩

theorem Removed.not_needed (hg : g.Linked) (h : g.Removed rule p i) : ¬ g.Needed i := by
  rcases h with h | ⟨-, _, -, -, hi, -⟩
  · exact h.not_needed hg
  · exact hi

theorem Removed.not_pinned (h : g.Removed rule p i) : ¬ g.Pinned p i := by
  rcases h with h | ⟨-, n, hn, hv, -⟩
  · exact h.not_pinned
  · rintro ⟨n', hn', hp⟩
    cases hn.symm.trans hn'
    rw [Node.hasKind_of_hasValue hv] at hp
    cases hp

/-- A removed operation is doomed. -/
theorem Removed.doomed (h : g.Removed rule p i) (hn : g.node? i = some n) (ho : n.isOperation) :
    g.Doomed p i := by
  rcases h with h | ⟨-, n', hn', hv, -⟩
  · exact h
  · cases hn.symm.trans hn'
    rw [Node.isOperation_of_hasValue hv] at ho
    cases ho

/-- A removed node is folded, stranded or an unread constant, unless something feeds it. -/
theorem Removed.reason (hg : g.Linked) (h : g.Removed rule p i) (hn : g.node? i = some n) :
    g.Folds p i ∨ g.Stranded i ∨ g.Unread p i ∨ n.sources ≠ [] := by
  rcases h with (hf | ⟨d, hd, -, hi⟩) | ⟨-, hu⟩
  · exact .inl hf
  · cases hi with
    | refl => exact .inr (.inl hd)
    | tail _ hs =>
      obtain ⟨o, n', ho, hn', hi, -⟩ := hs
      cases hn.symm.trans hn'
      exact .inr (.inr (.inr (List.ne_nil_of_mem ((hg.mem_targets_iff ho hn).1 hi))))
  · exact .inr (.inr (.inl hu))

/-- A constant with neighbours, all of them removed, is unread. -/
theorem unread_of_removed (hg : g.Linked) (hn : g.node? i = some n) (hv : n.hasValue)
    (hneed : ¬ g.Needed i) (hex : n.neighbours ≠ [])
    (hall : ∀ j ∈ n.neighbours, g.Removed rule p j) : g.Unread p i := by
  have hdoomed : ∀ j ∈ n.neighbours, g.Doomed p j := by
    intro j hj
    obtain ⟨m, hm⟩ := hg.neighbour_live hn hj
    have hside := hg.bipartite_neighbour hn hm hj
    rw [Node.isOperation_of_hasValue hv] at hside
    exact (hall j hj).doomed hm hside
  obtain ⟨j, hj⟩ := List.exists_mem_of_ne_nil _ hex
  exact ⟨n, hn, hv, hneed, ⟨j, hj, hdoomed j hj⟩, hdoomed⟩

/-- A removed data node takes all its neighbours along. -/
theorem Removed.neighbour (hg : g.Linked) (h : g.Removed rule p i) (hn : g.node? i = some n)
    (ho : n.isOperation = false) (hj : j ∈ n.neighbours) : g.Doomed p j := by
  rcases h with h | ⟨-, n', hn', -, -, -, hall⟩
  · exact (h.data hg hn ho).2 j hj
  · cases hn.symm.trans hn'
    exact hall j hj

/-- An operation that stays keeps all its neighbours. -/
theorem not_removed_neighbour (hg : g.Linked) (hi : ¬ g.Removed rule p i)
    (hn : g.node? i = some n) (ho : n.isOperation) (hj : j ∈ n.neighbours) :
    ¬ g.Removed rule p j := by
  intro hr
  obtain ⟨m, hm⟩ := hg.neighbour_live hn hj
  have hside := hg.bipartite_neighbour hn hm hj
  rw [ho, Bool.not_true] at hside
  exact hi (.inl (hr.neighbour hg hm hside ((hg.mem_neighbours_comm hn hm).1 hj)))

theorem Removed.spreads (hg : g.Linked) (h : g.Removed rule p i) (hs : g.Spreads p i j) :
    g.Removed rule p j := by
  obtain ⟨n, m, hn, hm, hj, hf, hv⟩ := id hs
  cases ho : n.isOperation with
  | true => exact .inl ((h.doomed hn ho).spreads hs)
  | false => exact .inl (h.neighbour hg hn ho (List.mem_append_right _ hj))

/-- All that a removed operation leaves behind of its outputs has a value. -/
theorem Removed.target (hg : g.Linked) (h : g.Removed rule p i) (hn : g.node? i = some n)
    (ho : n.isOperation) (hj : j ∈ n.targets) (hm : g.node? j = some m)
    (hr : ¬ g.Removed rule p j) : m.hasValue := by
  cases hv : m.hasValue with
  | true => rfl
  | false =>
    have hf : ¬ g.Folds p j := by
      intro hf
      have hside := hg.bipartite_target hn hm hj
      rw [hf.isOperation hm, ho] at hside
      cases hside
    exact absurd (h.spreads hg ⟨n, m, hn, hm, hj, hf, by simp [hv]⟩) hr

end Graph

end Dataflow
