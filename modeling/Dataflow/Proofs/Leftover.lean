import Dataflow.Graph.Region
import Dataflow.Proofs.Erasure
import Dataflow.Proofs.Removed

/-!
# Half-way through a clean-up

`Graph.Leftover` is what a clean-up of a linked graph has in hand at any point: the graph, tagged,
less some of its nodes. As long as the losses spread to nothing that is left (`Graph.Closed`), what
is left looks as it did from the start: the same data nodes are stranded
(`Leftover.isStranded_iff`), and the region of such a node holds what depended on it
(`Leftover.mem_region`).
-/

namespace Dataflow

theorem Node.isStranded_iff {n : Node} : n.isStranded ↔
    ∃ d, n.datum? = some d ∧ d.orphaned ∧ d.value = none ∧ n.sources = [] := by
  simp [isStranded, Option.any_eq_true, and_assoc]

namespace Graph

/-- `h` is `g`, tagged, less the nodes at `dead`. -/
def Leftover (g : Graph) (dead : List NodeId) (h : Graph) : Prop := g.tagged.Remains dead h

/-- All that the loss of the nodes at `dead` spreads to is among them. -/
def Closed (g : Graph) (p : Policy) (dead : List NodeId) : Prop :=
  ∀ i ∈ dead, ∀ j, g.Spreads p i j → j ∈ dead

variable {g h : Graph} {p : Policy} {dead : List NodeId} {i j : NodeId} {n m : Node}

theorem Leftover.node?_eq_some_iff (hl : g.Leftover dead h) :
    h.node? i = some m ↔ i ∉ dead ∧ ∃ n, g.node? i = some n ∧
      (n.tagged (decide (g.Needed i)) (decide (g.YieldsConstants n))).without dead = m := by
  rw [Remains.node?_eq_some_iff hl, node?_tagged]
  cases g.node? i <;> simp

theorem Leftover.node? (hl : g.Leftover dead h) (hi : i ∉ dead) (hn : g.node? i = some n) :
    h.node? i = some
      ((n.tagged (decide (g.Needed i)) (decide (g.YieldsConstants n))).without dead) :=
  hl.node?_eq_some_iff.2 ⟨hi, n, hn, rfl⟩

theorem Leftover.contains_iff (hl : g.Leftover dead h) :
    h.contains i ↔ i ∉ dead ∧ g.contains i := by
  rw [Remains.contains_iff hl, contains_tagged]

theorem Leftover.linked (hl : g.Leftover dead h) (hg : g.Linked) : h.Linked :=
  Remains.linked hl hg.tagged

/-- A node may go if it is live, no output needs it, and it is not pinned. -/
theorem Leftover.mayGo_iff (hl : g.Leftover dead h) :
    (h.node? i).any (mayGo p) ↔ i ∉ dead ∧ g.contains i ∧ ¬ g.Needed i ∧ ¬ g.Pinned p i := by
  rw [Option.any_eq_true]
  simp only [hl.node?_eq_some_iff, mayGo, Graph.contains_iff, Pinned]
  constructor
  · rintro ⟨_, ⟨hi, n, hn, rfl⟩, hm⟩
    simp at hm
    refine ⟨hi, ⟨n, hn⟩, hm.1, ?_⟩
    rintro ⟨n', hn', hp⟩
    cases hn.symm.trans hn'
    rw [hm.2] at hp
    cases hp
  · rintro ⟨hi, ⟨n, hn⟩, hneed, hp⟩
    refine ⟨_, ⟨hi, n, hn, rfl⟩, ?_⟩
    have hk : n.hasKind p = false := by
      cases hk : n.hasKind p with
      | false => rfl
      | true => exact absurd ⟨n, hn, hk⟩ hp
    simp [hneed, hk]

/-! ## Stranded nodes and their regions -/

/-- The producer of a node without a value that is left is left too: its loss would have spread. -/
theorem Closed.source_not_mem (hc : g.Closed p dead) (hg : g.Linked) (hi : i ∉ dead)
    (hn : g.node? i = some n) (ho : n.isOperation = false) (hv : ¬ n.hasValue)
    (hj : j ∈ n.sources) : j ∉ dead := by
  intro hjd
  obtain ⟨m, hm, him⟩ := hg.target_of_source hn hj
  have hf : ¬ g.Folds p i := by
    intro hf
    rw [hf.isOperation hn] at ho
    cases ho
  exact hi (hc j hjd i ⟨m, n, hm, hn, him, hf, fun _ => hv⟩)

/-- A node that looks stranded by now was stranded from the start. -/
theorem Leftover.isStranded_iff (hl : g.Leftover dead h) (hg : g.Linked) (hc : g.Closed p dead)
    (hm : h.node? i = some m) : m.isStranded ∧ m.needed = some false ↔ g.Stranded i := by
  obtain ⟨hi, n, hn, rfl⟩ := hl.node?_eq_some_iff.1 hm
  simp only [Node.isStranded_iff, Node.datum?_without, Node.datum?_tagged, Option.map_eq_some_iff,
    Node.sources_without, Node.sources_tagged, List.filter_eq_nil_iff, Node.needed_without,
    Node.needed_tagged, Option.some.injEq, decide_eq_false_iff_not]
  constructor
  · rintro ⟨⟨_, ⟨d, hd, rfl⟩, ho, hv, hs⟩, hneed⟩
    have hval : ¬ n.hasValue := by simp_all [Node.hasValue, Node.value?]
    have hnone : n.sources = [] := by
      refine List.eq_nil_iff_forall_not_mem.2 fun j hj => ?_
      have hjd := hc.source_not_mem hg hi hn (Node.isOperation_of_datum? hd) hval hj
      exact hs j hj (by simpa using hjd)
    refine ⟨n, d, hn, hd, ?_, hv, hnone, hneed⟩
    simpa [hnone] using ho
  · rintro ⟨n', d, hn', hd, ho, hv, hs, hneed⟩
    cases hn.symm.trans hn'
    refine ⟨⟨_, ⟨d, hd, rfl⟩, ?_, hv, ?_⟩, hneed⟩
    · simp [ho]
    · simp [hs]

theorem mem_dependants : j ∈ h.dependants n ↔
    j ∈ n.targets ∧ (n.isOperation → ∃ m, h.node? j = some m ∧ ¬ m.hasValue) := by
  unfold dependants
  cases n.isOperation <;> simp [Option.any_eq_true]

/-- The region of a stranded node holds what depends on it and is left. -/
theorem Leftover.mem_region (hl : g.Leftover dead h) (hc : g.Closed p dead)
    (hf : ∀ i, g.Folds p i → i ∈ dead) (hs : g.Stranded i) (hi : i ∉ dead) :
    j ∈ h.region i ↔ j ∉ dead ∧ g.Depends p i j := by
  rw [region, mem_walk]
  constructor
  · refine Reached.induct (P := fun j => j ∉ dead ∧ g.Depends p i j) (fun k hk _ => ?_)
      fun k l hk hkl => ?_
    · rw [List.mem_singleton.1 hk]
      exact ⟨hi, .refl⟩
    · obtain ⟨_, hn', ht, hlc⟩ := hkl
      obtain ⟨-, n, hn, rfl⟩ := hl.node?_eq_some_iff.1 hn'
      obtain ⟨ht, hv⟩ := mem_dependants.1 ht
      obtain ⟨hld, hlg⟩ := hl.contains_iff.1 hlc
      obtain ⟨m, hm⟩ := Graph.contains_iff.1 hlg
      refine ⟨hld, hk.2.tail ⟨n, m, hn, hm, ?_, fun hfl => hld (hf l hfl), fun ho => ?_⟩⟩
      · simp at ht
        exact ht.1
      · obtain ⟨_, hm', hmv⟩ := hv (by simpa using ho)
        rw [hl.node? hld hm] at hm'
        cases hm'
        simpa using hmv
  · rintro ⟨hj, hd⟩
    induction hd with
    | refl => exact .seed List.mem_cons_self (hl.contains_iff.2 ⟨hj, hs.contains⟩)
    | @tail k l _ hkl ih =>
      have hk : k ∉ dead := fun hk => hj (hc k hk l hkl)
      obtain ⟨n, m, hn, hm, hkl, -, hv⟩ := hkl
      refine (ih hk).tail ⟨_, hl.node? hk hn,
        mem_dependants.2 ⟨?_, fun ho => ⟨_, hl.node? hj hm, ?_⟩⟩,
        hl.contains_iff.2 ⟨hj, Graph.contains_iff.2 ⟨m, hm⟩⟩⟩
      · simp [hkl, hj]
      · simpa using hv (by simpa using ho)

end Graph

end Dataflow
