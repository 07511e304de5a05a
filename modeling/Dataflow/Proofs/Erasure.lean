import Dataflow.Graph.Erase
import Dataflow.Proofs.Linked

/-!
# What erasing nodes leaves

* `Node.core` is all of a node but its edges and its orphan mark; erasing other nodes never changes
  it (`core_afterLosing`).
* `Node.without` is what becomes of a node when others are gone: their edge entries are dropped, and
  a data node that lost its producer is an orphan.
* `Graph.Remains` says that a graph is another one less the nodes at given positions. In a linked
  graph this is what erasing them one by one leads to, in any order and with repetitions
  (`Remains.erase`), and the result is linked again (`Remains.linked`).
-/

namespace Dataflow

namespace Node

/-! ## What erasing other nodes never changes -/

/-- A node less its edges and its orphan mark. -/
def core (n : Node) : Node :=
  { n with sources := [], targets := [] }.mapDatum fun d => { d with orphaned := false }

section Core

variable (n : Node)

@[simp] theorem name_core : n.core.name = n.name := by simp [core]

@[simp] theorem isOutput_core : n.core.isOutput = n.isOutput := by simp [core]

@[simp] theorem needed_core : n.core.needed = n.needed := by simp [core]

@[simp] theorem operation?_core : n.core.operation? = n.operation? := by
  rw [core, operation?_mapDatum]
  rfl

@[simp] theorem datum?_core :
    n.core.datum? = n.datum?.map fun d => { d with orphaned := false } := by
  rw [core, datum?_mapDatum]
  rfl

end Core

section OfCore

variable {m n : Node}

theorem name_eq_of_core (h : m.core = n.core) : m.name = n.name := by
  simpa using congrArg Node.name h

theorem kind?_eq_of_core (h : m.core = n.core) : m.kind? = n.kind? := by
  have ho := congrArg Node.operation? h
  rw [operation?_core, operation?_core] at ho
  rw [kind?, kind?, ho]

theorem constant?_eq_of_core (h : m.core = n.core) : m.constant? = n.constant? := by
  have ho := congrArg Node.operation? h
  rw [operation?_core, operation?_core] at ho
  rw [constant?, constant?, ho]

theorem needed_eq_of_core (h : m.core = n.core) : m.needed = n.needed := by
  simpa using congrArg Node.needed h

theorem hasKind_eq_of_core {p : OpKind → Bool} (h : m.core = n.core) :
    m.hasKind p = n.hasKind p := by
  rw [hasKind, hasKind, kind?_eq_of_core h]

theorem isOperation_eq_of_core (h : m.core = n.core) : m.isOperation = n.isOperation := by
  have ho := congrArg Node.operation? h
  rw [operation?_core, operation?_core] at ho
  rw [isOperation, isOperation, ho]

theorem value?_eq_of_core (h : m.core = n.core) : m.value? = n.value? := by
  show m.datum?.bind Datum.value = n.datum?.bind Datum.value
  have hd := congrArg (fun l => l.datum?.bind Datum.value) h
  simpa [Option.bind_map, Function.comp_def] using hd

end OfCore

/-! ## What becomes of the neighbours -/

/-- What is left of a node when those at `dead` are gone. -/
def without (dead : List NodeId) (n : Node) : Node :=
  { n with
    sources := n.sources.filter (· ∉ dead)
    targets := n.targets.filter (· ∉ dead) }.mapDatum fun d =>
  { d with orphaned := d.orphaned || n.sources.any (· ∈ dead) }

section Without

variable (dead : List NodeId) (n : Node)

@[simp] theorem sources_without :
    (n.without dead).sources = n.sources.filter (· ∉ dead) := by simp [without]

@[simp] theorem targets_without :
    (n.without dead).targets = n.targets.filter (· ∉ dead) := by simp [without]

theorem sources_without_of_left {dead : List NodeId} {n : Node}
    (h : ∀ j ∈ n.neighbours, j ∉ dead) : (n.without dead).sources = n.sources := by
  rw [sources_without, List.filter_eq_self]
  intro j hj
  simpa using h j (List.mem_append_left _ hj)

theorem targets_without_of_left {dead : List NodeId} {n : Node}
    (h : ∀ j ∈ n.neighbours, j ∉ dead) : (n.without dead).targets = n.targets := by
  rw [targets_without, List.filter_eq_self]
  intro j hj
  simpa using h j (List.mem_append_right _ hj)

theorem mem_neighbours_without {dead : List NodeId} {n : Node} {j : NodeId} :
    j ∈ (n.without dead).neighbours ↔ j ∈ n.neighbours ∧ j ∉ dead := by
  simp [neighbours, or_and_right]

@[simp] theorem isOutput_without : (n.without dead).isOutput = n.isOutput := by simp [without]

@[simp] theorem needed_without : (n.without dead).needed = n.needed := by simp [without]

@[simp] theorem operation?_without : (n.without dead).operation? = n.operation? := by
  rw [without, operation?_mapDatum]
  rfl

@[simp] theorem datum?_without :
    (n.without dead).datum? = n.datum?.map fun d =>
      { d with orphaned := d.orphaned || n.sources.any (· ∈ dead) } := by
  rw [without, datum?_mapDatum]
  rfl

@[simp] theorem kind?_without : (n.without dead).kind? = n.kind? := by simp [kind?]

@[simp] theorem constant?_without : (n.without dead).constant? = n.constant? := by
  simp [constant?]

@[simp] theorem isOperation_without : (n.without dead).isOperation = n.isOperation := by
  simp [isOperation]

@[simp] theorem isData_without : (n.without dead).isData = n.isData := by simp [isData]

@[simp] theorem value?_without : (n.without dead).value? = n.value? := by
  cases h : n.datum? <;> simp [value?, h]

@[simp] theorem hasValue_without : (n.without dead).hasValue = n.hasValue := by simp [hasValue]

@[simp] theorem hasKind_without (p : OpKind → Bool) :
    (n.without dead).hasKind p = n.hasKind p := by simp [hasKind]

@[simp] theorem without_nil : n.without [] = n := by
  have hany : n.sources.any (fun _ => false) = false := by simp
  obtain ⟨_, _ | _, _, _, _, _⟩ := n
  · simp [without, mapDatum]
  · simp only at hany
    simp [without, mapDatum, hany]

/-- What is left of a node depends on its lost neighbours only. -/
theorem without_congr {dead dead' : List NodeId} {n : Node}
    (h : ∀ j ∈ n.neighbours, j ∈ dead ↔ j ∈ dead') : n.without dead = n.without dead' := by
  have hsources : ∀ j ∈ n.sources, decide (j ∈ dead) = decide (j ∈ dead') :=
    fun j hj => decide_eq_decide.2 (h j (List.mem_append_left _ hj))
  have htargets : ∀ j ∈ n.targets, decide (j ∈ dead) = decide (j ∈ dead') :=
    fun j hj => decide_eq_decide.2 (h j (List.mem_append_right _ hj))
  have hs : n.sources.filter (· ∉ dead) = n.sources.filter (· ∉ dead') :=
    List.filter_congr fun j hj => by rw [decide_not, decide_not, hsources j hj]
  have ht : n.targets.filter (· ∉ dead) = n.targets.filter (· ∉ dead') :=
    List.filter_congr fun j hj => by rw [decide_not, decide_not, htargets j hj]
  have ho : n.sources.any (· ∈ dead) = n.sources.any (· ∈ dead') := by
    rw [Bool.eq_iff_iff, List.any_eq_true, List.any_eq_true]
    exact exists_congr fun j => and_congr_right fun hj => by rw [hsources j hj]
  rw [without, without, hs, ht, ho]

/-- Losing one node after others is losing them all. -/
theorem without_without (i : NodeId) :
    (n.without dead).without [i] = n.without (i :: dead) := by
  have hfilter : ∀ l : List NodeId,
      (l.filter (· ∉ dead)).filter (· ∉ [i]) = l.filter (· ∉ i :: dead) := by
    intro l
    rw [List.filter_filter]
    refine List.filter_congr fun j _ => ?_
    simp
  have hany : ∀ l : List NodeId,
      (l.any (· ∈ dead) || (l.filter (· ∉ dead)).any (· ∈ [i])) = l.any (· ∈ i :: dead) := by
    intro l
    rw [Bool.eq_iff_iff]
    simp
    grind
  obtain ⟨_, _ | _, _, _, _, _⟩ := n <;>
    simp only [without, mapDatum, hfilter, hany, Bool.or_assoc]

end Without

end Node

namespace Graph

theorem core_afterLosing (i : NodeId) (n : Node) (j : NodeId) (m : Node) :
    (afterLosing i n j m).core = m.core := by
  have hdetach : (m.detach i).core = m.core := by
    obtain ⟨_, _ | _, _, _, _, _⟩ := m <;> rfl
  have horphan : (m.detach i).orphan.core = (m.detach i).core := by
    obtain ⟨_, _ | _, _, _, _, _⟩ := m <;> rfl
  unfold afterLosing
  split
  · rw [horphan, hdetach]
  · split
    · exact hdetach
    · rfl

theorem name_afterLosing (i : NodeId) (n : Node) (j : NodeId) (m : Node) :
    (afterLosing i n j m).name = m.name :=
  Node.name_eq_of_core (core_afterLosing i n j m)

/-- A node that does not list the erased one keeps its sources. -/
theorem sources_afterLosing {i j : NodeId} {n m : Node} (hi : i ∉ m.sources) :
    (afterLosing i n j m).sources = m.sources := by
  have hfilter : m.sources.filter (· != i) = m.sources := by
    refine List.filter_eq_self.2 fun k hk => ?_
    simpa using ne_of_mem_of_not_mem hk hi
  unfold afterLosing
  split
  · rw [Node.orphan, Node.sources_mapDatum]
    exact hfilter
  · split
    · exact hfilter
    · rfl

theorem next_erase (g : Graph) (i : NodeId) : (g.erase i).nodes.next = g.nodes.next := by
  cases hn : g.node? i with
  | none => rw [erase_of_node?_eq_none hn]
  | some n => simp [erase_of_node? hn]

theorem options_erase (g : Graph) (i : NodeId) : (g.erase i).options = g.options := by
  cases hn : g.node? i with
  | none => rw [erase_of_node?_eq_none hn]
  | some n => rw [erase_of_node? hn]

theorem names_erase {g : Graph} {i : NodeId} {n : Node} (hn : g.node? i = some n) :
    (g.erase i).names = g.names.erase n.name := by
  rw [erase_of_node? hn]

theorem find?_erase {g : Graph} {i : NodeId} {n : Node} (hn : g.node? i = some n) (name : String) :
    (g.erase i).find? name = if name = n.name then none else g.find? name := by
  rw [find?, names_erase hn]
  exact NameTable.find?_erase ..

theorem contains_erase {g : Graph} {i j : NodeId} :
    (g.erase i).contains j ↔ j ≠ i ∧ g.contains j := by
  cases hn : g.node? i with
  | none =>
    rw [erase_of_node?_eq_none hn]
    refine ⟨fun hj => ⟨?_, hj⟩, And.right⟩
    rintro rfl
    simp [contains_iff, hn] at hj
  | some n =>
    simp only [contains_iff, node?_erase hn]
    by_cases hj : j = i
    · simp [hj]
    · cases g.node? j <;> simp [hj]

/-- A neighbour whose edges agree with those of the erased node loses these and nothing else. -/
theorem afterLosing_eq_without {i j : NodeId} {n m : Node}
    (hs : j ∈ n.targets ↔ i ∈ m.sources) (ht : j ∈ n.sources ↔ i ∈ m.targets) :
    afterLosing i n j m = m.without [i] := by
  have hfilter : ∀ l : List NodeId, i ∉ l → l.filter (· ∉ [i]) = l := by
    intro l hl
    refine List.filter_eq_self.2 fun k hk => ?_
    simpa using ne_of_mem_of_not_mem hk hl
  have hdetach : ∀ l : List NodeId, l.filter (· != i) = l.filter (· ∉ [i]) := by
    intro l
    refine List.filter_congr fun k _ => ?_
    by_cases hk : k = i <;> simp [hk]
  have hany : ∀ l : List NodeId, l.any (· ∈ [i]) = decide (i ∈ l) := by
    intro l
    rw [Bool.eq_iff_iff]
    simp
  by_cases h₁ : i ∈ m.sources
  · rw [afterLosing, if_pos (hs.2 h₁)]
    obtain ⟨_, _ | _, _, _, _, _⟩ := m <;>
      simp only [Node.without, Node.detach, Node.orphan, Node.mapDatum, hdetach, hany, h₁,
        decide_true, Bool.or_true]
  · rw [afterLosing, if_neg fun h => h₁ (hs.1 h)]
    by_cases h₂ : i ∈ m.targets
    · rw [if_pos (ht.2 h₂)]
      obtain ⟨_, _ | _, _, _, _, _⟩ := m <;>
        simp only [Node.without, Node.detach, Node.mapDatum, hdetach, hany, h₁, decide_false,
          Bool.or_false]
    · rw [if_neg fun h => h₂ (ht.1 h)]
      obtain ⟨_, _ | _, _, _, _, _⟩ := m <;>
        simp only [Node.without, Node.mapDatum, hfilter _ h₁, hfilter _ h₂, hany, h₁,
          decide_false, Bool.or_false]

/-! ## Graphs less some of their nodes -/

/-- `h` is what remains of `g` when the nodes at `dead` are gone. -/
def Remains (g : Graph) (dead : List NodeId) (h : Graph) : Prop :=
  ∀ i, h.node? i = if i ∈ dead then none else (g.node? i).map (Node.without dead)

variable {g h : Graph} {dead : List NodeId}

theorem Remains.refl (g : Graph) : g.Remains [] g := by
  intro i
  cases h : g.node? i <;> simp

theorem Remains.node?_eq_some_iff (hr : g.Remains dead h) {i : NodeId} {m : Node} :
    h.node? i = some m ↔ i ∉ dead ∧ ∃ n, g.node? i = some n ∧ n.without dead = m := by
  rw [hr i]
  split <;> simp [*]

theorem Remains.node? (hr : g.Remains dead h) {i : NodeId} {n : Node} (hi : i ∉ dead)
    (hn : g.node? i = some n) : h.node? i = some (n.without dead) :=
  hr.node?_eq_some_iff.2 ⟨hi, n, hn, rfl⟩

theorem Remains.contains_iff (hr : g.Remains dead h) {i : NodeId} :
    h.contains i ↔ i ∉ dead ∧ g.contains i := by
  simp only [Graph.contains_iff, hr.node?_eq_some_iff]
  constructor
  · rintro ⟨_, hi, n, hn, -⟩
    exact ⟨hi, n, hn⟩
  · rintro ⟨hi, n, hn⟩
    exact ⟨_, hi, n, hn, rfl⟩

/-- What remains of a linked graph is linked. -/
theorem Remains.linked (hr : g.Remains dead h) (hg : g.Linked) : h.Linked := by
  refine ⟨?_, ?_, ?_, ?_, ?_⟩
  · intro i j _ hn' hj
    obtain ⟨hi, n, hn, rfl⟩ := hr.node?_eq_some_iff.1 hn'
    simp only [Node.sources_without, List.mem_filter, decide_eq_true_eq] at hj
    obtain ⟨m, hm, him⟩ := hg.target_of_source hn hj.1
    exact ⟨_, hr.node? hj.2 hm, by simp [him, hi]⟩
  · intro i j _ hn' hj
    obtain ⟨hi, n, hn, rfl⟩ := hr.node?_eq_some_iff.1 hn'
    simp only [Node.targets_without, List.mem_filter, decide_eq_true_eq] at hj
    obtain ⟨m, hm, him⟩ := hg.source_of_target hn hj.1
    exact ⟨_, hr.node? hj.2 hm, by simp [him, hi]⟩
  · intro i j _ _ hn' hm' hj
    obtain ⟨-, n, hn, rfl⟩ := hr.node?_eq_some_iff.1 hn'
    obtain ⟨-, m, hm, rfl⟩ := hr.node?_eq_some_iff.1 hm'
    simp only [Node.sources_without, List.mem_filter] at hj
    simpa using hg.bipartite hn hm hj.1
  · intro i _ hn'
    obtain ⟨-, n, hn, rfl⟩ := hr.node?_eq_some_iff.1 hn'
    rw [Node.targets_without]
    exact (hg.nodup_targets hn).filter _
  · intro i _ hn' hd
    obtain ⟨-, n, hn, rfl⟩ := hr.node?_eq_some_iff.1 hn'
    rw [Node.isData_without] at hd
    rw [Node.sources_without]
    exact Nat.le_trans (List.length_filter_le ..) (hg.one_source hn hd)

/-- In a linked graph, erasing a live node leaves the graph less that node. -/
theorem Linked.remains_erase (hg : g.Linked) {i : NodeId} {n : Node} (hn : g.node? i = some n) :
    g.Remains [i] (g.erase i) := by
  intro j
  rw [node?_erase hn]
  simp only [List.mem_singleton]
  split
  · rfl
  · cases hm : g.node? j with
    | none => rfl
    | some m =>
      rw [Option.map_some, Option.map_some, afterLosing_eq_without (hg.mem_targets_iff hn hm)
        (hg.mem_targets_iff hm hn).symm]

/-- Erasing one more live node of what remains. -/
theorem Remains.erase (hr : g.Remains dead h) (hg : g.Linked) {i : NodeId}
    (hi : h.contains i) : g.Remains (i :: dead) (h.erase i) := by
  obtain ⟨n, hn⟩ := Graph.contains_iff.1 hi
  intro j
  rw [(hr.linked hg).remains_erase hn j, hr j]
  by_cases hj : j ∈ dead
  · simp [hj]
  · by_cases hji : j = i
    · simp [hji]
    · rw [if_neg (by simpa using hji), if_neg hj, if_neg (by simp [hj, hji]), Option.map_map]
      congr 1
      funext m
      exact Node.without_without dead m i

end Graph

end Dataflow
