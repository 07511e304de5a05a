import Dataflow.Proofs.Erasure
import Dataflow.Proofs.Removed

/-!
# What a clean-up spares

Nothing is assumed of the graph here: its edges may disagree at their ends, lead nowhere, or go in
circles.

* `Graph.clean_induct`: a clean-up is a sequence of erasures, each of a node that no output needs
  and that is not pinned.
* `Graph.clean_spares`: what outputs need stays as it is with all its sources, pinned operations
  stay, and of the other operations only those stay that do not yield constants.
-/

namespace Dataflow

namespace Node

/-- Two nodes agree in all that their owner can read of them, but for edges and tags. -/
structure Alike (m n : Node) : Prop where
  name : m.name = n.name
  isOperation : m.isOperation = n.isOperation
  kind? : m.kind? = n.kind?
  value? : m.value? = n.value?
  shape : m.datum?.bind Datum.shape = n.datum?.bind Datum.shape
  isOutput : m.isOutput = n.isOutput

variable {m n : Node}

/-- Neither erasing other nodes nor tagging changes what the owner of a node can read of it. -/
theorem Alike.of_core {a b : Bool} (h : m.core = (n.tagged a b).core) : m.Alike n where
  name := by simpa [tagged] using name_eq_of_core h
  isOperation := by simpa using isOperation_eq_of_core h
  kind? := by simpa using kind?_eq_of_core h
  value? := by simpa using value?_eq_of_core h
  shape := by
    have hd := congrArg (fun l => l.datum?.bind Datum.shape) h
    simpa [Option.bind_map, Function.comp_def] using hd
  isOutput := by simpa [tagged] using congrArg Node.isOutput h

end Node

namespace Graph

variable {g h : Graph} {rule : LeafRule} {p : Policy} {i j : NodeId} {n m : Node}

theorem mayGo_eq_of_core (hc : m.core = n.core) : mayGo p m = mayGo p n := by
  rw [mayGo, mayGo, Node.needed_eq_of_core hc, Node.hasKind_eq_of_core hc]

/-! ## Nodes stay what they are -/

/-- Every live node of `h` is the node of `g` at its position, tagged, but for edges and orphan
mark. -/
def Genuine (g h : Graph) : Prop :=
  ∀ i m, h.node? i = some m → ∃ n, g.node? i = some n ∧
    m.core = (n.tagged (decide (g.Needed i)) (decide (g.YieldsConstants n))).core

theorem Genuine.tagged (g : Graph) : g.Genuine g.tagged := by
  intro i m hm
  rw [node?_tagged] at hm
  obtain ⟨n, hn, rfl⟩ := Option.map_eq_some_iff.1 hm
  exact ⟨n, hn, rfl⟩

theorem Genuine.erase (hg : g.Genuine h) (i : NodeId) : g.Genuine (h.erase i) := by
  cases hn : h.node? i with
  | none => rwa [erase_of_node?_eq_none hn]
  | some n =>
    intro j m hm
    rw [node?_erase hn] at hm
    split at hm
    · cases hm
    · obtain ⟨l, hl, rfl⟩ := Option.map_eq_some_iff.1 hm
      rw [core_afterLosing]
      exact hg j l hl

theorem Genuine.contains (hg : g.Genuine h) (hm : h.node? i = some m) : g.contains i := by
  obtain ⟨n, hn, -⟩ := hg i m hm
  exact contains_iff.2 ⟨n, hn⟩

/-- A node that may go is needed by no output, and not pinned. -/
theorem Genuine.mayGo (hg : g.Genuine h) (hm : h.node? i = some m) (hgo : mayGo p m) :
    ¬ g.Needed i ∧ ¬ g.Pinned p i := by
  obtain ⟨n, hn, hc⟩ := hg i m hm
  rw [mayGo_eq_of_core hc] at hgo
  simp only [Graph.mayGo, Node.needed_tagged, Node.hasKind_tagged, Bool.and_eq_true, beq_iff_eq,
    Option.some.injEq, decide_eq_false_iff_not, Bool.not_eq_true'] at hgo
  refine ⟨hgo.1, ?_⟩
  rintro ⟨n', hn', hp⟩
  cases hn.symm.trans hn'
  rw [hgo.2] at hp
  cases hp

end Graph

namespace Sweep

variable {g h : Graph} {rule : LeafRule} {p : Policy} {i j : NodeId} {n m : Node}

theorem mayGo_of_mem_removableRegion (hj : j ∈ (h.removableRegion? p i).getD []) :
    ∃ m, h.node? j = some m ∧ Graph.mayGo p m := by
  rw [Graph.removableRegion?_eq] at hj
  split at hj
  · rename_i hall
    exact (Option.any_eq_true _ _).1 (List.all_eq_true.1 hall j hj)
  · cases hj

/-- What a look at a position erases may go. -/
theorem mayGo_of_mem_victims (hj : j ∈ victims rule p h i) :
    ∃ m, h.node? j = some m ∧ Graph.mayGo p m := by
  unfold victims at hj
  split at hj
  · cases hj
  · rename_i n hn
    split at hj
    · cases hj
    · rename_i hfree
      split at hj
      · exact mayGo_of_mem_removableRegion hj
      · split at hj
        · rename_i hleaf
          obtain rfl := List.mem_singleton.1 hj
          have hv : n.hasValue := by
            simp only [Node.isLeaf, Bool.and_eq_true] at hleaf
            exact hleaf.1.1.2
          have hneed : n.needed = some false := by
            simp only [Bool.or_eq_true, bne_iff_ne, not_or, Decidable.not_not] at hfree
            exact hfree.1
          exact ⟨n, hn, by simp [Graph.mayGo, Node.hasKind_of_hasValue hv, hneed]⟩
        · cases hj

/-! ## Erasures one by one -/

section Induct

variable {P : Graph → List (NodeId × Node) → Prop}
  (hP : ∀ h e i n, P h e → h.node? i = some n → g.Genuine h → ¬ g.Needed i → ¬ g.Pinned p i →
    P (h.erase i) ((i, n) :: e))
include hP

theorem foldl_erase_induct {near : Node → List NodeId} {l : List NodeId} {s : Sweep}
    (hl : ∀ i ∈ l, ¬ g.Needed i ∧ ¬ g.Pinned p i)
    (h : P s.graph s.erased ∧ g.Genuine s.graph) :
    P (l.foldl (Sweep.erase near) s).graph (l.foldl (Sweep.erase near) s).erased ∧
      g.Genuine (l.foldl (Sweep.erase near) s).graph := by
  induction l generalizing s with
  | nil => exact h
  | cons i rest ih =>
    refine ih (fun j hj => hl j (List.mem_cons_of_mem i hj)) ?_
    cases hn : s.graph.node? i with
    | none => rwa [erase_of_node?_eq_none hn]
    | some n =>
      rw [erase_of_node? hn]
      obtain ⟨hneed, hpin⟩ := hl i List.mem_cons_self
      exact ⟨hP _ _ _ _ h.1 hn h.2 hneed hpin, h.2.erase i⟩

theorem fold_induct (start : P g.tagged []) :
    P (g.tagged.fold p).graph (g.tagged.fold p).erased ∧ g.Genuine (g.tagged.fold p).graph := by
  have hfold : ∀ j ∈ g.tagged.foldable p, ¬ g.Needed j ∧ ¬ g.Pinned p j := by
    intro j hj
    have hf := Graph.mem_foldable.1 hj
    exact ⟨hf.not_needed, hf.not_pinned⟩
  rw [Graph.fold_eq, graph_announce, erased_announce]
  exact foldl_erase_induct hP hfold ⟨start, .tagged g⟩

theorem step_induct {s : Sweep} (h : P s.graph s.erased ∧ g.Genuine s.graph) :
    P (s.step rule p).graph (s.step rule p).erased ∧ g.Genuine (s.step rule p).graph := by
  cases hw : s.work with
  | nil => rwa [step_of_work_eq_nil hw]
  | cons i rest =>
    rw [step_eq hw]
    refine foldl_erase_induct hP (s := { s with work := rest }) (fun j hj => ?_) h
    obtain ⟨m, hm, hgo⟩ := mayGo_of_mem_victims hj
    exact h.2.mayGo hm hgo

theorem run_induct {s : Sweep} (h : P s.graph s.erased ∧ g.Genuine s.graph) :
    P (s.run rule p).graph (s.run rule p).erased ∧ g.Genuine (s.run rule p).graph := by
  induction s using Sweep.run.induct rule p with
  | case1 s hw => rwa [run_of_work_eq_nil hw]
  | case2 s hw ih =>
    rw [run_of_work_ne_nil hw]
    exact ih (step_induct hP h)

end Induct

end Sweep

namespace Graph

variable {g h : Graph} {rule : LeafRule} {p : Policy} {i j : NodeId} {n m : Node}

/-- **What holds of the tagged graph, and is kept when a node goes that no output needs and that is
not pinned, holds after a clean-up.** The list is that of the nodes erased so far, latest first. -/
theorem clean_induct {P : Graph → List (NodeId × Node) → Prop} (start : P g.tagged [])
    (erase : ∀ h e i n, P h e → h.node? i = some n → g.Genuine h → ¬ g.Needed i →
      ¬ g.Pinned p i → P (h.erase i) ((i, n) :: e)) :
    P (g.clean rule p).graph (g.clean rule p).erased.reverse := by
  rw [clean, List.reverse_reverse]
  exact (Sweep.run_induct erase (Sweep.fold_induct erase start)).1

/-- A clean-up leaves nodes as they were tagged, but for edges and orphan mark. -/
theorem clean_genuine (g : Graph) (rule : LeafRule) (p : Policy) :
    g.Genuine (g.clean rule p).graph :=
  clean_induct (p := p) (P := fun h _ => g.Genuine h) (.tagged g)
    fun _ _ i _ hg _ _ _ _ => hg.erase i

/-- If nothing was erased, the tags are all that changed. -/
theorem clean_of_erased (he : (g.clean rule p).erased = []) :
    (g.clean rule p).graph = g.tagged := by
  refine clean_induct (p := p) (P := fun h e => e = [] → h = g.tagged) (fun _ => rfl) ?_
    (List.reverse_eq_nil_iff.2 he)
  intro h e i n _ _ _ _ _ hnil
  cases hnil

/-- What an output needs and what is pinned stays, the former with all its sources. -/
theorem clean_keeps (rule : LeafRule) (hn : g.node? i = some n) (hk : g.Needed i ∨ g.Pinned p i) :
    ∃ m, (g.clean rule p).graph.node? i = some m ∧ m.Alike n ∧
      (g.Needed i → m.sources = n.sources) := by
  obtain ⟨m, hm, hs⟩ : ∃ m, (g.clean rule p).graph.node? i = some m ∧
      (g.Needed i → m.sources = n.sources) := by
    refine clean_induct (p := p)
      (P := fun h _ => ∃ m, h.node? i = some m ∧ (g.Needed i → m.sources = n.sources)) ?_ ?_
    · exact ⟨_, by rw [node?_tagged, hn]; rfl, fun _ => Node.sources_tagged _ _ n⟩
    · rintro h e k l ⟨m, hm, hs⟩ hl hgen hneed hpin
      have hki : i ≠ k := by
        rintro rfl
        exact hk.elim hneed hpin
      refine ⟨afterLosing k l i m, by rw [node?_erase hl, if_neg hki, hm]; rfl, fun hi => ?_⟩
      -- a live source of a needed node would be needed itself
      have hks : k ∉ n.sources := fun hks => hneed (hi.source hn hks (hgen.contains hl))
      rw [← hs hi] at hks ⊢
      exact sources_afterLosing hks
  obtain ⟨n', hn', hc⟩ := clean_genuine g rule p i m hm
  cases hn.symm.trans hn'
  exact ⟨m, hm, .of_core hc, hs⟩

end Graph

namespace Sweep

variable {g h : Graph} {rule : LeafRule} {p : Policy} {s : Sweep} {near : Node → List NodeId}
  {l : List NodeId} {i j : NodeId}

/-! ## What is gone stays away -/

theorem graph_erase (near : Node → List NodeId) (s : Sweep) (i : NodeId) :
    (s.erase near i).graph = s.graph.erase i := by
  cases hn : s.graph.node? i with
  | none => rw [erase_of_node?_eq_none hn, Graph.erase_of_node?_eq_none hn]
  | some n => rw [erase_of_node? hn]

theorem contains_foldl_erase :
    (l.foldl (Sweep.erase near) s).graph.contains j ↔ j ∉ l ∧ s.graph.contains j := by
  induction l generalizing s with
  | nil => simp
  | cons i rest ih =>
    rw [List.foldl_cons, ih, graph_erase, Graph.contains_erase, List.mem_cons, not_or]
    exact ⟨fun h => ⟨⟨h.2.1, h.1⟩, h.2.2⟩, fun h => ⟨h.1.2, h.1.1, h.2⟩⟩

theorem contains_of_contains_step (h : (s.step rule p).graph.contains j) : s.graph.contains j := by
  cases hw : s.work with
  | nil => rwa [step_of_work_eq_nil hw] at h
  | cons i rest =>
    rw [step_eq hw] at h
    exact (contains_foldl_erase.1 h).2

theorem contains_of_contains_run (h : (s.run rule p).graph.contains j) : s.graph.contains j := by
  induction s using Sweep.run.induct rule p with
  | case1 s hw => rwa [run_of_work_eq_nil hw] at h
  | case2 s hw ih =>
    rw [run_of_work_ne_nil hw] at h
    exact contains_of_contains_step (ih h)

end Sweep

namespace Graph

variable {g : Graph} {rule : LeafRule} {p : Policy} {i : NodeId} {m : Node}

/-- No operation that stays was to be folded. -/
theorem not_folds_of_contains_clean (h : (g.clean rule p).graph.contains i) : ¬ g.Folds p i := by
  have hf : (g.tagged.fold p).graph.contains i := Sweep.contains_of_contains_run h
  rw [fold_eq, Sweep.graph_announce] at hf
  exact fun hi => (Sweep.contains_foldl_erase.1 hf).1 (mem_foldable.2 hi)

/-- An operation that stays is needed, or does not yield constants, or is pinned. -/
theorem clean_tags (hm : (g.clean rule p).graph.node? i = some m) (ho : m.isOperation) :
    m.needed = some true ∨ m.constant? = some false ∨ m.hasKind p := by
  obtain ⟨n, hn, hc⟩ := clean_genuine g rule p i m hm
  have hfold := not_folds_of_contains_clean (contains_iff.2 ⟨m, hm⟩)
  rw [(Node.Alike.of_core hc).isOperation] at ho
  obtain ⟨o, hop⟩ : ∃ o, n.operation? = some o := Option.isSome_iff_exists.1 ho
  have hneed : m.needed = some (decide (g.Needed i)) := by
    rw [Node.needed_eq_of_core hc, Node.needed_tagged]
  have hconst : m.constant? = some (decide (g.YieldsConstants n)) := by
    rw [Node.constant?_eq_of_core hc, Node.constant?_tagged, hop, Option.map_some]
  have hkind : m.hasKind p = n.hasKind p := by
    rw [Node.hasKind_eq_of_core hc, Node.hasKind_tagged]
  rw [hneed, hconst, hkind]
  by_cases hi : g.Needed i
  · exact .inl (by rw [decide_eq_true hi])
  · by_cases hy : g.YieldsConstants n
    · exact .inr (.inr (Decidable.not_not.1 fun hp => hfold ⟨n, hn, hi, hy, hp⟩))
    · exact .inr (.inl (by rw [decide_eq_false hy]))

/-- **What every clean-up spares, whatever the graph.** What an output needs stays with all its
sources, and what is pinned stays. Any other operation that stays does not yield constants. -/
theorem clean_spares (g : Graph) (rule : LeafRule) (p : Policy) :
    (∀ i n, g.node? i = some n → g.Needed i →
      ∃ m, (g.clean rule p).graph.node? i = some m ∧ m.Alike n ∧ m.sources = n.sources) ∧
    (∀ i n, g.node? i = some n → n.hasKind p →
      ∃ m, (g.clean rule p).graph.node? i = some m ∧ m.Alike n) ∧
    ∀ i m, (g.clean rule p).graph.node? i = some m → m.isOperation →
      m.needed = some true ∨ m.constant? = some false ∨ m.hasKind p := by
  refine ⟨fun i n hn hi => ?_, fun i n hn hp => ?_, fun i m hm ho => clean_tags hm ho⟩
  · obtain ⟨m, hm, ha, hs⟩ := clean_keeps rule hn (.inl hi)
    exact ⟨m, hm, ha, hs hi⟩
  · obtain ⟨m, hm, ha, -⟩ := clean_keeps rule hn (.inr ⟨n, hn, hp⟩)
    exact ⟨m, hm, ha⟩

/-- A result that lists a constant and a position where nothing ever was, of which neither knows. -/
def tangled : Graph :=
  let constant : Node := { name := "v", body := .data { value := some ⟨[0], #[], rfl⟩ } }
  let result : Node := { name := "r", body := .operation { kind := .result }, sources := [0, 7] }
  { Graph.empty {} with nodes := (Arena.empty.push constant).push result }

/-- Even there, and even under the dropping rule, the result keeps its sources, and the constant
stays. -/
theorem tangled_clean_spares :
    (∃ m, (tangled.clean .drop .nothing).graph.node? 1 = some m ∧ m.sources = [0, 7]) ∧
      (tangled.clean .drop .nothing).graph.contains 0 := by
  have hspares := (clean_spares tangled .drop .nothing).1
  obtain ⟨m, hm, -, hs⟩ := hspares 1 _ rfl (by decide +kernel)
  obtain ⟨v, hv, -⟩ := hspares 0 _ rfl (by decide +kernel)
  exact ⟨⟨m, hm, hs⟩, contains_iff.2 ⟨v, hv⟩⟩

end Graph

end Dataflow
