import Dataflow.Proofs.Built
import Dataflow.Proofs.Spared

/-!
# How built graphs are wired

`runCommands_wired` says what the edges of a graph are like that commands build, at every point of a
run: the ends agree, an edge joins the two sides, nothing is twice among the targets of a node, and
data has one producer at most. That results have no targets (`ResultsEnd`) is a matter of kinds as
well, which an edit may change. So it is kept only as long as no edit does (`keepsKinds`).
-/

namespace Dataflow

namespace Node

variable (n : Node)

theorem hasKind_eq_of_kind? {m n : Node} {p : OpKind → Bool} (h : m.kind? = n.kind?) :
    m.hasKind p = n.hasKind p := by
  rw [hasKind, hasKind, h]

end Node

namespace Graph

variable {g h : Graph} {i j k : NodeId} {n m : Node}

theorem kind?_afterJoining (i j k : NodeId) (n : Node) :
    (afterJoining i j k n).kind? = n.kind? := by
  have htarget : (n.addTarget j).kind? = n.kind? := by
    unfold Node.addTarget
    split <;> rfl
  have hsource : ∀ m : Node, (m.addSource i).kind? = m.kind? := fun m => Node.kind?_mapDatum _ _
  have hfirst : (if k = i then n.addTarget j else n).kind? = n.kind? := by
    split
    · exact htarget
    · rfl
  by_cases hj : k = j
  · rw [afterJoining, if_pos hj, hsource, hfirst]
  · rw [afterJoining, if_neg hj, hfirst]

/-- A neighbour of an erased node gains no targets. -/
theorem targets_afterLosing_subset (i : NodeId) (n : Node) (j : NodeId) (m : Node) :
    (afterLosing i n j m).targets ⊆ m.targets := by
  have hdetach : (m.detach i).targets ⊆ m.targets := List.filter_sublist.subset
  unfold afterLosing
  split
  · rwa [Node.orphan, Node.targets_mapDatum]
  · split
    · exact hdetach
    · exact List.Subset.refl _

/-! ## Results have no targets -/

/-- No operation that takes an output out of the graph has targets. -/
def ResultsEnd (g : Graph) : Prop :=
  ∀ i n, g.node? i = some n → n.hasKind OpKind.isResult → n.targets = []

theorem ResultsEnd.empty (o : Options) : (Graph.empty o).ResultsEnd := by
  intro i n hn
  cases hn

/-- Results that were results before and gained no targets have none. -/
theorem ResultsEnd.mono (hg : g.ResultsEnd)
    (hh : ∀ i m, h.node? i = some m → m.hasKind OpKind.isResult →
      m.targets = [] ∨ ∃ n, g.node? i = some n ∧ m.kind? = n.kind? ∧ m.targets ⊆ n.targets) :
    h.ResultsEnd := by
  intro i m hm hr
  rcases hh i m hm hr with ht | ⟨n, hn, hk, ht⟩
  · exact ht
  · rw [Node.hasKind_eq_of_kind? hk] at hr
    rw [hg i n hn hr] at ht
    exact List.subset_nil.1 ht

theorem ResultsEnd.insert {name : String} {body : Body} (hg : g.ResultsEnd)
    (hi : g.insert name body = .ok (i, h)) : h.ResultsEnd := by
  refine hg.mono fun j m hm _ => ?_
  rw [node?_insert hi] at hm
  split at hm
  · cases hm
    exact .inl rfl
  · exact .inr ⟨m, hm, rfl, List.Subset.refl _⟩

theorem ResultsEnd.connect (hg : g.ResultsEnd) (hc : g.connect i j = .ok h) : h.ResultsEnd := by
  obtain ⟨o, -, ho, -, -, hkind, -⟩ := edgeFault?_eq_none_iff.1 (connect_eq_ok_iff.1 hc).1
  refine hg.mono fun k m hm hr => ?_
  obtain ⟨n, hn, rfl⟩ : ∃ n, g.node? k = some n ∧ afterJoining i j k n = m :=
    Option.map_eq_some_iff.1 (node?_connect hc k ▸ hm)
  rw [Node.hasKind_eq_of_kind? (kind?_afterJoining i j k n)] at hr
  -- the only node that gains a target is no result
  have hki : k ≠ i := by
    rintro rfl
    cases ho.symm.trans hn
    rw [hkind] at hr
    cases hr
  refine .inr ⟨n, hn, kind?_afterJoining i j k n, ?_⟩
  rw [targets_afterJoining, if_neg fun h => hki h.1]
  exact List.Subset.refl _

theorem ResultsEnd.rewrite (hg : g.ResultsEnd) (hw : h.Rewrites g) (hk : h.SameKinds g) :
    h.ResultsEnd := by
  refine hg.mono fun i m hm _ => ?_
  obtain ⟨n, hn, hmn⟩ := hw.exists_of_node? hm
  have hkind : m.kind? = n.kind? := by simpa [hm, hn] using hk i
  exact .inr ⟨n, hn, hkind, hmn.targets ▸ List.Subset.refl _⟩

theorem ResultsEnd.erase (hg : g.ResultsEnd) (i : NodeId) : (g.erase i).ResultsEnd := by
  cases hn : g.node? i with
  | none => rwa [erase_of_node?_eq_none hn]
  | some n =>
    refine hg.mono fun j m hm _ => ?_
    rw [node?_erase hn] at hm
    split at hm
    · cases hm
    · obtain ⟨l, hl, rfl⟩ := Option.map_eq_some_iff.1 hm
      exact .inr ⟨l, hl, Node.kind?_eq_of_core (core_afterLosing i n j l),
        targets_afterLosing_subset i n j l⟩

theorem ResultsEnd.tagged (hg : g.ResultsEnd) : g.tagged.ResultsEnd :=
  (hg.rewrite g.rewrites_tagNeeded g.sameKinds_tagNeeded).rewrite
    g.tagNeeded.rewrites_tagConstant g.tagNeeded.sameKinds_tagConstant

theorem ResultsEnd.clean (hg : g.ResultsEnd) (rule : LeafRule) (p : Policy) :
    (g.clean rule p).graph.ResultsEnd :=
  clean_induct (p := p) (P := fun h _ => h.ResultsEnd) hg.tagged
    fun _ _ i _ hh _ _ _ _ => hh.erase i

/-- A command that changes no kind gives no result a target. -/
theorem ResultsEnd.exec (hg : g.ResultsEnd) (c : Command) (hc : c.keepsKind g) :
    (c.exec g).graph.ResultsEnd :=
  c.exec_induct hg (fun _ _ _ _ _ => hg.insert) (fun _ _ _ _ => hg.connect)
    (fun _ hw hk => hg.rewrite hw (hk hc)) (fun i _ => hg.erase i)
    (fun rule p _ => hg.clean rule p)

/-! ## Runs -/

/-- Whether the kinds of all operations stay as they are, all through a run. -/
def keepsKinds (g : Graph) : List Command → Bool
  | [] => true
  | c :: rest => c.keepsKind g && (c.exec g).graph.keepsKinds rest

theorem ResultsEnd.runCommands {cs : List Command} (hg : g.ResultsEnd) (hcs : g.keepsKinds cs) :
    (g.runCommands cs).1.ResultsEnd := by
  induction cs generalizing g with
  | nil => exact hg
  | cons c rest ih =>
    simp only [keepsKinds, Bool.and_eq_true] at hcs
    exact ih (hg.exec c hcs.1) hcs.2

/-- **How every graph is wired that commands build**, whether or not they were refused: edges lead
to live nodes, are stored at both ends and join the two sides, nothing is twice among the targets of
a node, and data has one source at most. If no edit changed a kind, results have no targets. -/
theorem runCommands_wired (o : Options) (cs : List Command) :
    let g := ((Graph.empty o).runCommands cs).1
    (∀ i n, g.node? i = some n → ∀ j ∈ n.sources ++ n.targets, g.contains j) ∧
      (∀ i j n m, g.node? i = some n → g.node? j = some m →
        (j ∈ n.targets ↔ i ∈ m.sources)) ∧
      (∀ i j n m, g.node? i = some n → g.node? j = some m → j ∈ n.sources ++ n.targets →
        m.isOperation = !n.isOperation) ∧
      (∀ i n, g.node? i = some n → n.targets.Nodup) ∧
      (∀ i n, g.node? i = some n → n.isData → n.sources.length ≤ 1) ∧
      ((Graph.empty o).keepsKinds cs → ∀ i n, g.node? i = some n → n.hasKind OpKind.isResult →
        n.targets = []) := by
  intro g
  have hg : g.Linked := Built.linked ⟨o, cs, rfl⟩
  refine ⟨fun i n hn j hj => ?_, fun i j n m hn hm => hg.mem_targets_iff hn hm,
    fun i j n m hn hm hj => hg.bipartite_neighbour hn hm hj, fun i n hn => hg.nodup_targets hn,
    fun i n hn hd => hg.one_source hn hd, fun hcs => (ResultsEnd.empty o).runCommands hcs⟩
  exact contains_iff.2 (hg.neighbour_live hn hj)

/-- A constant that a result reads twice. An edge out of the result is refused, the one operation
that is edited keeps its kind, and another operation is folded. -/
def delivery : List Command :=
  [.addOperation .const "c", .addConstant "x" ⟨[0, 5], #[], rfl⟩, .connect 0 1,
    .addOperation .result "out", .connect 1 2, .connect 1 2, .connect 2 1,
    .edit 0 { kind := some .const, isOutput := some true }, .addOperation .identity "i",
    .addConstant "y" ⟨[0, 6], #[], rfl⟩, .connect 3 4, .clean]

/-- The result ends the graph there, and the constant lists it once. -/
theorem delivery_wired :
    let g := ((Graph.empty {}).runCommands delivery).1
    ¬ g.contains 3 ∧ (∃ n, g.node? 2 = some n ∧ n.sources = [1, 1] ∧ n.targets = []) ∧
      ∃ n, g.node? 1 = some n ∧ n.targets.Nodup ∧ 2 ∈ n.targets := by
  intro g
  obtain ⟨-, hends, -, hnodup, -, hresults⟩ := runCommands_wired {} delivery
  obtain ⟨r, hr, hk, hs⟩ : ∃ n, g.node? 2 = some n ∧ n.hasKind OpKind.isResult ∧
      n.sources = [1, 1] := by
    simpa [Option.any_eq_true] using
      (show (g.node? 2).any fun n => n.hasKind OpKind.isResult && n.sources == [1, 1] by
        decide +kernel)
  obtain ⟨x, hx⟩ : ∃ n, g.node? 1 = some n := contains_iff.1 (by decide +kernel)
  exact ⟨by decide +kernel, ⟨r, hr, hs, hresults (by decide +kernel) 2 r hr hk⟩, x, hx,
    hnodup 1 x hx, (hends 1 2 x r hx hr).2 (hs ▸ List.mem_cons_self)⟩

end Graph

end Dataflow
