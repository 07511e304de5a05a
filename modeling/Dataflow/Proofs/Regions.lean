import Dataflow.Proofs.Built
import Dataflow.Proofs.Leftover

/-!
# Regions are found exactly

`Graph.Entails` is what goes with a node, as the least set that readers of data and outputs without
a value of operations are added to. Whatever the graph, the search for a removable region finds
exactly this set, each node once, or nothing if one of its nodes must stay
(`removableRegion?_exact`): stopping at the first such node does not make the answer depend on the
order of the visits.

Where the ends of edges agree, nothing that outputs need goes with a node that they do not need
(`Entails.not_needed`). With tags up to date only what is pinned can then keep a region.
-/

namespace Dataflow.Graph

/-- The live node at `j` goes with the one at `i`: this is the least set with `i` that holds the
readers of its data nodes, and the outputs without a value of its operations. An operation among
the targets of an operation has no value. -/
inductive Entails (g : Graph) (i : NodeId) : NodeId → Prop
  | self (hi : g.contains i) : Entails g i i
  | reader {j k : NodeId} {n : Node} (hj : Entails g i j) (hn : g.node? j = some n)
      (hd : n.isData) (hk : k ∈ n.targets) (hc : g.contains k) : Entails g i k
  | output {j k : NodeId} {n m : Node} (hj : Entails g i j) (hn : g.node? j = some n)
      (ho : n.isOperation) (hk : k ∈ n.targets) (hm : g.node? k = some m)
      (hv : m.value? = none) : Entails g i k

variable {g : Graph} {p : Policy} {i j : NodeId} {n m : Node} {r : List NodeId}

theorem Entails.contains (h : g.Entails i j) : g.contains j := by
  cases h with
  | self hi => exact hi
  | reader _ _ _ _ hc => exact hc
  | output _ _ _ _ hm _ => exact contains_iff.2 ⟨_, hm⟩

/-- A step along the dependants is one from data to a reader, or from an operation to an output
without a value. -/
theorem leads_dependants_iff : g.Leads g.dependants i j ↔
    ∃ n m, g.node? i = some n ∧ g.node? j = some m ∧ j ∈ n.targets ∧
      (n.isData ∨ n.isOperation ∧ m.value? = none) := by
  constructor
  · rintro ⟨n, hn, hj, hc⟩
    obtain ⟨ht, hv⟩ := mem_dependants.1 hj
    obtain ⟨m, hm⟩ := contains_iff.1 hc
    refine ⟨n, m, hn, hm, ht, ?_⟩
    cases ho : n.isOperation with
    | false => exact .inl (by rw [Node.isData_eq_not, ho, Bool.not_false])
    | true =>
      obtain ⟨m', hm', hv⟩ := hv ho
      cases hm.symm.trans hm'
      exact .inr ⟨rfl, by simpa [Node.hasValue] using hv⟩
  · rintro ⟨n, m, hn, hm, ht, hv⟩
    refine ⟨n, hn, mem_dependants.2 ⟨ht, fun ho => ⟨m, hm, ?_⟩⟩, contains_iff.2 ⟨m, hm⟩⟩
    rcases hv with hd | ⟨-, hv⟩
    · rw [Node.isData_eq_not, ho] at hd
      cases hd
    · simp [Node.hasValue, hv]

/-- A region holds what goes with its node, and nothing else. -/
theorem mem_region : j ∈ g.region i ↔ g.Entails i j := by
  rw [region, mem_walk]
  constructor
  · refine Reached.induct (fun k hk hc => ?_) fun k l hk hl => ?_
    · rw [List.mem_singleton] at hk
      subst hk
      exact .self hc
    · obtain ⟨n, m, hn, hm, ht, hd | ⟨ho, hv⟩⟩ := leads_dependants_iff.1 hl
      · exact .reader hk hn hd ht (contains_iff.2 ⟨m, hm⟩)
      · exact .output hk hn ho ht hm hv
  · intro h
    induction h with
    | self hi => exact .seed (List.mem_singleton_self i) hi
    | reader _ hn hd hk hc ih =>
      obtain ⟨m, hm⟩ := contains_iff.1 hc
      exact ih.tail (leads_dependants_iff.2 ⟨_, m, hn, hm, hk, .inl hd⟩)
    | output _ hn ho hk hm hv ih =>
      exact ih.tail (leads_dependants_iff.2 ⟨_, _, hn, hm, hk, .inr ⟨ho, hv⟩⟩)

/-- A node must stay if it is pinned, or not tagged as needed by no output. -/
theorem mayGo_eq_false_iff : mayGo p n = false ↔ n.hasKind p ∨ n.needed ≠ some false := by
  cases hk : n.hasKind p <;> simp [mayGo, hk]

/-- All of a region may go if and only if no node in it must stay. -/
theorem all_region_mayGo_iff : ((g.region i).all fun j => (g.node? j).any (mayGo p)) ↔
    ¬ ∃ j n, g.Entails i j ∧ g.node? j = some n ∧ (n.hasKind p ∨ n.needed ≠ some false) := by
  rw [List.all_eq_true]
  constructor
  · rintro hall ⟨j, n, hj, hn, hstays⟩
    have hgo := hall j (mem_region.2 hj)
    rw [hn, Option.any_some, mayGo_eq_false_iff.2 hstays] at hgo
    cases hgo
  · intro hnone j hj
    obtain ⟨n, hn⟩ := contains_iff.1 (mem_region.1 hj).contains
    rw [hn, Option.any_some, ← Bool.not_eq_false, mayGo_eq_false_iff]
    exact fun hstays => hnone ⟨j, n, mem_region.1 hj, hn, hstays⟩

/-- The search gives up if and only if a node that must stay goes with its start. -/
theorem removableRegion?_eq_none_iff : g.removableRegion? p i = none ↔
    ∃ j n, g.Entails i j ∧ g.node? j = some n ∧ (n.hasKind p ∨ n.needed ≠ some false) := by
  rw [removableRegion?_eq]
  by_cases hall : (g.region i).all fun j => (g.node? j).any (mayGo p)
  · rw [if_pos hall]
    exact iff_of_false (Option.some_ne_none _) (all_region_mayGo_iff.1 hall)
  · rw [if_neg hall]
    exact iff_of_true rfl (Classical.not_not.1 fun h => hall (all_region_mayGo_iff.2 h))

theorem eq_region_of_removableRegion? (h : g.removableRegion? p i = some r) : r = g.region i := by
  rw [removableRegion?_eq] at h
  split at h
  · exact (Option.some.inj h).symm
  · cases h

/-- What outputs need is fed by what they need, so it goes with nothing else. -/
theorem Entails.not_needed (hg : g.Linked) (hi : ¬ g.Needed i) (h : g.Entails i j) :
    ¬ g.Needed j := by
  have hback : ∀ {k l n m}, g.node? k = some n → g.node? l = some m → l ∈ n.targets →
      ¬ g.Needed k → ¬ g.Needed l := fun hn hm hl hk hneed =>
    hk (hneed.source hm ((hg.mem_targets_iff hn hm).1 hl) (contains_iff.2 ⟨_, hn⟩))
  induction h with
  | self _ => exact hi
  | reader _ hn _ hk hc ih =>
    obtain ⟨m, hm⟩ := contains_iff.1 hc
    exact hback hn hm hk ih
  | output _ hn _ hk hm _ ih => exact hback hn hm hk ih

/-- Tags that are up to date say what outputs need. -/
theorem needed_of_tagNeeded_eq_self (h : g.tagNeeded = g) (hn : g.node? i = some n) :
    n.needed = some (decide (g.Needed i)) := by
  have ht := node?_tagNeeded g i
  rw [h, hn, Option.map_some, Option.some.injEq] at ht
  exact congrArg Node.needed ht

/-- **The search for a removable region is exact**, whatever the graph, the policy and the start. It
gives nothing if and only if something that goes with the start is pinned, or not tagged as needed
by no output; otherwise it gives all that goes with the start, each node once. In a graph that
commands build, with tags up to date, and from a start that no output needs, it gives nothing if and
only if something that goes with the start is pinned. -/
theorem removableRegion?_exact (g : Graph) (p : Policy) (i : NodeId) :
    (g.removableRegion? p i = none ↔
      ∃ j n, g.Entails i j ∧ g.node? j = some n ∧ (n.hasKind p ∨ n.needed ≠ some false)) ∧
    (∀ r, g.removableRegion? p i = some r → r.Nodup ∧ ∀ j, j ∈ r ↔ g.Entails i j) ∧
    (g.Built → g.tagNeeded = g → ¬ g.Needed i →
      (g.removableRegion? p i = none ↔ ∃ j, g.Entails i j ∧ g.Pinned p j)) := by
  refine ⟨removableRegion?_eq_none_iff, fun r hr => ?_, fun hb hfresh hi => ?_⟩
  · rw [eq_region_of_removableRegion? hr]
    exact ⟨nodup_walk, fun _ => mem_region⟩
  · rw [removableRegion?_eq_none_iff]
    constructor
    · rintro ⟨j, n, hj, hn, hp | hneed⟩
      · exact ⟨j, hj, n, hn, hp⟩
      · rw [needed_of_tagNeeded_eq_self hfresh hn,
          decide_eq_false (hj.not_needed hb.linked hi)] at hneed
        exact absurd rfl hneed
    · rintro ⟨j, hj, n, hn, hp⟩
      exact ⟨j, n, hj, hn, .inl hp⟩

/-- A data node that lost its producer feeds a circle of two operations, of which one also yields a
constant. -/
def backwater : Graph :=
  ((Graph.empty {}).runCommands [.addOperation .const "spring", .addData "x",
    .addOperation (.custom "Mix") "mix", .addData "y", .addConstant "v" ⟨[0, 14], #[], rfl⟩,
    .addOperation .identity "return", .addData "z", .connect 0 1, .connect 1 2, .connect 2 3,
    .connect 2 4, .connect 3 5, .connect 5 6, .connect 6 2, .erase 0, .tagNeeded]).1

/-- The circle goes with the data node, without the constant, unless the far operation is pinned. -/
theorem backwater_removableRegion?_exact :
    backwater.tagNeeded = backwater ∧ ¬ backwater.Needed 1 ∧
      (∀ j, backwater.Entails 1 j ↔ j ∈ [1, 2, 3, 5, 6]) ∧
      ∃ j, backwater.Entails 1 j ∧ backwater.Pinned (.ofList [.identity]) j := by
  have hfresh : backwater.tagNeeded = backwater := by
    have htags : ∀ e ∈ backwater.entries, e.2.needed = some (decide (backwater.Needed e.1)) := by
      decide +kernel
    exact tagNeeded_eq_self fun i n hn => htags (i, n) (mem_entries.2 hn)
  have hneed : ¬ backwater.Needed 1 := by decide +kernel
  have hfree : backwater.removableRegion? .nothing 1 = some [1, 2, 3, 5, 6] := by decide +kernel
  have hkept : backwater.removableRegion? (.ofList [.identity]) 1 = none := by decide +kernel
  obtain ⟨-, hfound, -⟩ := removableRegion?_exact backwater .nothing 1
  obtain ⟨-, -, hpinned⟩ := removableRegion?_exact backwater (.ofList [.identity]) 1
  refine ⟨hfresh, hneed, fun j => ((hfound _ hfree).2 j).symm, ?_⟩
  exact (hpinned ⟨_, _, rfl⟩ hfresh hneed).1 hkept

end Dataflow.Graph
