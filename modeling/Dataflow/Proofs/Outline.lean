import Dataflow.Proofs.Accounts
import Dataflow.Proofs.Survivors

/-!
# What a clean-up sees

A clean-up reads the edges of a node, the kind of an operation, whether an output was declared,
whether a data node is an orphan and whether it has a value, and nothing else. Nothing is assumed of
the graphs here, which may be inconsistent.

Two nodes that agree in this are akin (`Node.Akin`). Tagging makes them agree in their tags as well
(`Graph.Pointwise.tagged`), and the two sweeps that start from there stay in step: they see the same
stack, erase the same positions, and leave nodes that agree (`Sweep.InStep.run`). So two graphs of
akin nodes are cleaned up alike, old tags have no influence, and of a policy only its members count
(`clean_agrees`).
-/

namespace Dataflow

namespace Node

/-! ## What is read of a node -/

/-- Two nodes agree in all that a clean-up reads. -/
structure Akin (m n : Node) : Prop where
  sources : m.sources = n.sources
  targets : m.targets = n.targets
  kind? : m.kind? = n.kind?
  isOutput : m.isOutput = n.isOutput
  orphaned? : m.orphaned? = n.orphaned?
  hasValue : m.hasValue = n.hasValue

instance (m n : Node) : Decidable (m.Akin n) :=
  decidable_of_iff (m.sources = n.sources ∧ m.targets = n.targets ∧ m.kind? = n.kind? ∧
      m.isOutput = n.isOutput ∧ m.orphaned? = n.orphaned? ∧ m.hasValue = n.hasValue)
    ⟨fun ⟨hs, ht, hk, ho, hl, hv⟩ => ⟨hs, ht, hk, ho, hl, hv⟩,
      fun ⟨hs, ht, hk, ho, hl, hv⟩ => ⟨hs, ht, hk, ho, hl, hv⟩⟩

/-- Two nodes agree in all that a clean-up reads of a tagged graph: the tags too, and whether they
are pinned, the one by `p` and the other by `q`. -/
structure InStep (p q : Policy) (m n : Node) : Prop extends Akin m n where
  needed : m.needed = n.needed
  constant? : m.constant? = n.constant?
  pinned : m.hasKind p = n.hasKind q

theorem isSome_kind? (n : Node) : n.kind?.isSome = n.isOperation := by
  rw [kind?, Option.isSome_map, isOperation]

theorem isStranded_eq (n : Node) :
    n.isStranded = (n.orphaned? == some true && !n.hasValue && n.sources.isEmpty) := by
  obtain ⟨_, _ | ⟨_ | _, _, _ | _⟩, _, _, _, _⟩ := n <;> rfl

theorem constant?_tagged_eq (a b : Bool) (n : Node) :
    (n.tagged a b).constant? = n.kind?.map fun _ => b := by
  rw [constant?_tagged, kind?, Option.map_map]
  rfl

@[simp] theorem orphaned?_tagged (a b : Bool) (n : Node) :
    (n.tagged a b).orphaned? = n.orphaned? := by
  rw [orphaned?, orphaned?, datum?_tagged]

section Orphan

variable (n : Node)

@[simp] theorem sources_orphan : n.orphan.sources = n.sources := sources_mapDatum ..

@[simp] theorem targets_orphan : n.orphan.targets = n.targets := targets_mapDatum ..

@[simp] theorem isOutput_orphan : n.orphan.isOutput = n.isOutput := isOutput_mapDatum ..

@[simp] theorem needed_orphan : n.orphan.needed = n.needed := needed_mapDatum ..

@[simp] theorem kind?_orphan : n.orphan.kind? = n.kind? := n.kind?_mapDatum _

@[simp] theorem hasKind_orphan (p : OpKind → Bool) : n.orphan.hasKind p = n.hasKind p := by
  simp [hasKind]

@[simp] theorem constant?_orphan : n.orphan.constant? = n.constant? := by
  simp [orphan, constant?]

@[simp] theorem hasValue_orphan : n.orphan.hasValue = n.hasValue := by
  obtain ⟨_, _ | _, _, _, _, _⟩ := n <;> rfl

@[simp] theorem orphaned?_orphan : n.orphan.orphaned? = n.orphaned?.map fun _ => true := by
  simp [orphan, orphaned?, Function.comp_def]

end Orphan

variable {p q : Policy} {m n m' n' : Node}

theorem Akin.isOperation (h : m.Akin n) : m.isOperation = n.isOperation := by
  rw [← isSome_kind?, ← isSome_kind?, h.kind?]

theorem Akin.hasKind (h : m.Akin n) (p : OpKind → Bool) : m.hasKind p = n.hasKind p := by
  rw [Node.hasKind, Node.hasKind, h.kind?]

theorem Akin.isAnchor (h : m.Akin n) : m.isAnchor = n.isAnchor := by
  rw [Node.isAnchor, Node.isAnchor, h.isOutput, h.hasKind]

theorem Akin.isStranded (h : m.Akin n) : m.isStranded = n.isStranded := by
  rw [isStranded_eq, isStranded_eq, h.orphaned?, h.hasValue, h.sources]

theorem Akin.isLeaf (h : m.Akin n) : m.isLeaf = n.isLeaf := by
  rw [Node.isLeaf, Node.isLeaf, h.sources, h.hasValue]

/-- The node with its tags overwritten; a data node has no second one. -/
def retagged (needed constant : Option Bool) (n : Node) : Node :=
  { n with needed }.mapOperation fun o => { o with constant }

theorem retagged_akin (a b : Option Bool) (n : Node) : (n.retagged a b).Akin n := by
  obtain ⟨_, _ | _, _, _, _, _⟩ := n <;> exact ⟨rfl, rfl, rfl, rfl, rfl, rfl⟩

theorem tagged_retagged (a b : Option Bool) (c d : Bool) (n : Node) :
    (n.retagged a b).tagged c d = n.tagged c d := by
  obtain ⟨_, _ | _, _, _, _, _⟩ := n <;> rfl

/-- Akin nodes with the same tags agree. -/
theorem Akin.tagged (h : m.Akin n) (hp : m.hasKind p = n.hasKind q) (a b : Bool) :
    (m.tagged a b).InStep p q (n.tagged a b) where
  sources := by simp [h.sources]
  targets := by simp [h.targets]
  kind? := by simp [h.kind?]
  isOutput := by simp [h.isOutput]
  orphaned? := by simp [h.orphaned?]
  hasValue := by simp [h.hasValue]
  needed := by simp
  constant? := by rw [constant?_tagged_eq, constant?_tagged_eq, h.kind?]
  pinned := by simp [hp]

/-! ## Erasing alike from nodes that agree -/

theorem InStep.mayGo (h : m.InStep p q n) : Graph.mayGo p m = Graph.mayGo q n := by
  rw [Graph.mayGo, Graph.mayGo, h.needed, h.pinned]

theorem InStep.detach (h : m.InStep p q n) (i : NodeId) :
    (m.detach i).InStep p q (n.detach i) :=
  ⟨⟨congrArg (List.filter _) h.sources, congrArg (List.filter _) h.targets, h.kind?, h.isOutput,
    h.orphaned?, h.hasValue⟩, h.needed, h.constant?, h.pinned⟩

theorem InStep.orphan (h : m.InStep p q n) : m.orphan.InStep p q n.orphan where
  sources := by simp [h.sources]
  targets := by simp [h.targets]
  kind? := by simp [h.kind?]
  isOutput := by simp [h.isOutput]
  orphaned? := by simp [h.orphaned?]
  hasValue := by simp [h.hasValue]
  needed := by simp [h.needed]
  constant? := by simp [h.constant?]
  pinned := by simp [h.pinned]

theorem InStep.afterLosing (h : m.InStep p q n) (h' : m'.Akin n') (i j : NodeId) :
    (Graph.afterLosing i m' j m).InStep p q (Graph.afterLosing i n' j n) := by
  unfold Graph.afterLosing
  rw [h'.targets, h'.sources]
  split
  · exact (h.detach i).orphan
  · split
    · exact h.detach i
    · exact h

end Node

namespace Graph

/-! ## Graphs that agree position by position -/

/-- The same positions of the two graphs are live, and the nodes there are related. -/
def Pointwise (R : Node → Node → Prop) (g h : Graph) : Prop :=
  ∀ i, Option.Rel R (g.node? i) (h.node? i)

section Pointwise

variable {R S : Node → Node → Prop} {g h : Graph} {i : NodeId} {m : Node}

/-- A position is live in both graphs or in none. -/
theorem Pointwise.both_or_none (hgh : Pointwise R g h) (i : NodeId) :
    (∃ m n, g.node? i = some m ∧ h.node? i = some n ∧ R m n) ∨
      g.node? i = none ∧ h.node? i = none := by
  have hi := hgh i
  generalize g.node? i = a at hi ⊢
  generalize h.node? i = b at hi ⊢
  cases hi with
  | some hmn => exact .inl ⟨_, _, rfl, rfl, hmn⟩
  | none => exact .inr ⟨rfl, rfl⟩

/-- Only positions that one of the graphs has handed out need to be compared. -/
theorem pointwise_iff : Pointwise R g h ↔
    ∀ i < max g.nodes.next h.nodes.next, Option.Rel R (g.node? i) (h.node? i) := by
  refine ⟨fun hgh i _ => hgh i, fun hlive i => ?_⟩
  by_cases hi : i < max g.nodes.next h.nodes.next
  · exact hlive i hi
  · rw [not_lt, max_le_iff] at hi
    have hg : g.node? i = none :=
      Option.eq_none_iff_forall_ne_some.2 fun _ hn => hi.1.not_gt (Arena.lt_next_of_get? hn)
    have hh : h.node? i = none :=
      Option.eq_none_iff_forall_ne_some.2 fun _ hn => hi.2.not_gt (Arena.lt_next_of_get? hn)
    rw [hg, hh]
    exact .none

instance decidableRel [DecidableRel R] : DecidableRel (Option.Rel R)
  | none, none => isTrue .none
  | none, some _ => isFalse nofun
  | some _, none => isFalse nofun
  | some _, some _ => decidable_of_iff _ Option.rel_some_some.symm

instance [DecidableRel R] : Decidable (Pointwise R g h) := decidable_of_iff _ pointwise_iff.symm

/-- Nodes that are changed at both sides are related afterwards, if related nodes get related. -/
theorem Pointwise.map {g' h' : Graph} {f f' : NodeId → Node → Node} (hgh : Pointwise R g h)
    (hg : ∀ i, g'.node? i = (g.node? i).map (f i)) (hh : ∀ i, h'.node? i = (h.node? i).map (f' i))
    (hf : ∀ i m n, g.node? i = some m → R m n → S (f i m) (f' i n)) : Pointwise S g' h' := by
  intro i
  rw [hg, hh]
  rcases hgh.both_or_none i with ⟨m, n, hm, hn, hmn⟩ | ⟨hm, hn⟩
  · rw [hm, hn]
    exact .some (hf i m n hm hmn)
  · rw [hm, hn]
    exact .none

theorem Pointwise.mono (hgh : Pointwise R g h) (hRS : ∀ m n, R m n → S m n) :
    Pointwise S g h := by
  have hid : ∀ a : Option Node, a = a.map fun n => n := fun _ => Option.map_id'.symm
  exact hgh.map (fun _ => hid _) (fun _ => hid _) fun _ m n _ => hRS m n

theorem Pointwise.any_eq (hgh : Pointwise R g h) {s t : Node → Bool}
    (hst : ∀ m n, R m n → s m = t n) (i : NodeId) :
    (g.node? i).any s = (h.node? i).any t := by
  rcases hgh.both_or_none i with ⟨m, n, hm, hn, hmn⟩ | ⟨hm, hn⟩
  · rw [hm, hn]
    exact hst m n hmn
  · rw [hm, hn]
    rfl

theorem Pointwise.contains_iff (hgh : Pointwise R g h) : g.contains i ↔ h.contains i := by
  rw [Graph.contains_iff, Graph.contains_iff]
  rcases hgh.both_or_none i with ⟨m, n, hm, hn, -⟩ | ⟨hm, hn⟩ <;> simp [hm, hn]

theorem Pointwise.size_eq (hgh : Pointwise R g h) : g.size = h.size := by
  have hlive : {i | g.contains i} = {i | h.contains i} := by
    ext i
    exact hgh.contains_iff
  have hcard : (g.size : ℕ∞) = h.size := by
    rw [← g.encard_contains, ← h.encard_contains, hlive]
  exact_mod_cast hcard

/-- Positions of live nodes are listed alike if related nodes are judged alike. -/
theorem Pointwise.idsWhere_eq (hgh : Pointwise R g h) {s t : Node → Bool}
    (hst : ∀ m n, R m n → s m = t n) : g.idsWhere s = h.idsWhere t := by
  refine (g.idsWhere_pairwise s).eq_of_mem_iff (h.idsWhere_pairwise t) fun i => ?_
  rw [mem_idsWhere, mem_idsWhere, ← Option.any_eq_true, ← Option.any_eq_true,
    hgh.any_eq hst]

theorem Pointwise.step_eq (hgh : Pointwise R g h) {next next' : Node → List NodeId}
    (hnext : ∀ m n, R m n → next m = next' n) (w : Walk) : w.step g next = w.step h next' := by
  obtain ⟨_ | ⟨i, rest⟩, visited⟩ := w
  · rfl
  · simp only [Walk.step]
    split
    · rfl
    · rcases hgh.both_or_none i with ⟨m, n, hm, hn, hmn⟩ | ⟨hm, hn⟩
      · simp only [hm, hn, hnext m n hmn]
      · simp only [hm, hn]

theorem Pointwise.run_eq (hgh : Pointwise R g h) {next next' : Node → List NodeId}
    (hnext : ∀ m n, R m n → next m = next' n) (w : Walk) : w.run g next = w.run h next' := by
  induction w using Walk.run.induct g next with
  | case1 w hw => rw [Walk.run_of_work_eq_nil hw, Walk.run_of_work_eq_nil hw]
  | case2 w hw ih =>
    rw [Walk.run_of_work_ne_nil hw, Walk.run_of_work_ne_nil hw, ih, hgh.step_eq hnext]

/-- Walks visit the same positions in the same order if they go on alike from related nodes. -/
theorem Pointwise.walk_eq (hgh : Pointwise R g h) {next next' : Node → List NodeId}
    (hnext : ∀ m n, R m n → next m = next' n) (seeds : List NodeId) :
    g.walk next seeds = h.walk next' seeds := by
  rw [walk, walk, hgh.run_eq hnext]

end Pointwise

/-! ## Tags -/

variable {g h : Graph} {p q : Policy} {i : NodeId} {m n : Node}

theorem Pointwise.needed_iff (hgh : Pointwise Node.Akin g h) : g.Needed i ↔ h.Needed i := by
  have hanchors : g.anchors = h.anchors := hgh.idsWhere_eq fun _ _ hmn => hmn.isAnchor
  rw [← mem_neededIds, ← mem_neededIds, neededIds, neededIds, hanchors,
    hgh.walk_eq fun _ _ hmn => hmn.sources]

theorem Pointwise.judge_eq (hgh : Pointwise Node.Akin g h) (hmn : m.Akin n) :
    g.judge m = h.judge n := by
  have hknown : ∀ j, (g.node? j).any Node.hasValue = (h.node? j).any Node.hasValue :=
    hgh.any_eq fun _ _ hmn => hmn.hasValue
  rw [judge, judge, allKnown, allKnown, hmn.hasKind, hmn.targets, funext hknown]

theorem Pointwise.yieldsConstants_iff (hgh : Pointwise Node.Akin g h) (hmn : m.Akin n) :
    g.YieldsConstants m ↔ h.YieldsConstants n := by
  rw [← decide_eq_decide, ← Graph.judge_eq, ← Graph.judge_eq, hgh.judge_eq hmn]

theorem Pointwise.tagNeeded (hgh : Pointwise Node.Akin g h) :
    Pointwise Node.Akin g.tagNeeded h.tagNeeded :=
  hgh.map g.node?_tagNeeded h.node?_tagNeeded fun _ _ _ _ hmn =>
    ⟨hmn.sources, hmn.targets, hmn.kind?, hmn.isOutput, hmn.orphaned?, hmn.hasValue⟩

/-- Graphs of akin nodes are tagged alike. -/
theorem Pointwise.tagged (hgh : Pointwise Node.Akin g h)
    (hpq : ∀ i n k, g.node? i = some n → n.kind? = some k → p k = q k) :
    Pointwise (Node.InStep p q) g.tagged h.tagged := by
  refine hgh.map (fun _ => node?_tagged _) (fun _ => node?_tagged _) fun i m n hm hmn => ?_
  have hpin : m.hasKind p = n.hasKind q := by
    rw [Node.hasKind, Node.hasKind, ← hmn.kind?]
    cases hk : m.kind? with
    | none => rfl
    | some k => exact hpq i m k hm hk
  rw [decide_eq_decide.2 hgh.needed_iff, decide_eq_decide.2 (hgh.yieldsConstants_iff hmn)]
  exact hmn.tagged hpin _ _

/-! ## Erasures -/

theorem Pointwise.erase (hgh : Pointwise (Node.InStep p q) g h) (i : NodeId) :
    Pointwise (Node.InStep p q) (g.erase i) (h.erase i) := by
  rcases hgh.both_or_none i with ⟨m, n, hm, hn, hmn⟩ | ⟨hm, hn⟩
  · intro j
    rw [node?_erase hm, node?_erase hn]
    split
    · exact .none
    · rcases hgh.both_or_none j with ⟨m', n', hm', hn', hj⟩ | ⟨hm', hn'⟩
      · rw [hm', hn']
        exact .some (hj.afterLosing hmn.toAkin i j)
      · rw [hm', hn']
        exact .none
  · rwa [erase_of_node?_eq_none hm, erase_of_node?_eq_none hn]

theorem Pointwise.dependants_eq (hgh : Pointwise (Node.InStep p q) g h) (hmn : m.InStep p q n) :
    g.dependants m = h.dependants n := by
  have hbare : ∀ j, (g.node? j).any (fun l => !l.hasValue) = (h.node? j).any fun l => !l.hasValue :=
    hgh.any_eq fun _ _ hl => congrArg _ hl.hasValue
  rw [dependants, dependants, hmn.isOperation, hmn.targets, funext hbare]

theorem Pointwise.removableRegion?_eq (hgh : Pointwise (Node.InStep p q) g h) (i : NodeId) :
    g.removableRegion? p i = h.removableRegion? q i := by
  have hregion : g.region i = h.region i := hgh.walk_eq (fun _ _ => hgh.dependants_eq) [i]
  have hgo : ∀ j, (g.node? j).any (mayGo p) = (h.node? j).any (mayGo q) :=
    hgh.any_eq fun _ _ hl => hl.mayGo
  simp only [Graph.removableRegion?_eq, hregion, funext hgo]

end Graph

namespace Sweep

/-! ## Two sweeps in step -/

variable {p q : Policy} {s t : Sweep} {rule : LeafRule} {near : Node → List NodeId} {i : NodeId}

/-- Two sweeps see the same: their graphs agree, they have the same positions to look at, and they
erased operations and data nodes at the same positions in the same order. -/
structure InStep (p q : Policy) (s t : Sweep) : Prop where
  graph : Graph.Pointwise (Node.InStep p q) s.graph t.graph
  work : s.work = t.work
  erased : (s.erased.map fun e => (e.1, e.2.isOperation)) =
    t.erased.map fun e => (e.1, e.2.isOperation)

theorem InStep.erase (h : InStep p q s t) (hnear : ∀ m n, m.InStep p q n → near m = near n)
    (i : NodeId) : InStep p q (s.erase near i) (t.erase near i) := by
  rcases h.graph.both_or_none i with ⟨m, n, hm, hn, hmn⟩ | ⟨hm, hn⟩
  · rw [erase_of_node? hm, erase_of_node? hn]
    refine ⟨h.graph.erase i, ?_, ?_⟩
    · rw [hnear m n hmn, h.work]
    · rw [List.map_cons, List.map_cons, hmn.isOperation, h.erased]
  · rwa [erase_of_node?_eq_none hm, erase_of_node?_eq_none hn]

theorem InStep.foldl_erase (h : InStep p q s t)
    (hnear : ∀ m n, m.InStep p q n → near m = near n) (l : List NodeId) :
    InStep p q (l.foldl (Sweep.erase near) s) (l.foldl (Sweep.erase near) t) := by
  induction l generalizing s t with
  | nil => exact h
  | cons i rest ih => exact ih (h.erase hnear i)

/-- A look at the same position asks for the same erasures. -/
theorem victims_eq {g h : Graph} (hgh : Graph.Pointwise (Node.InStep p q) g h) (i : NodeId) :
    victims rule p g i = victims rule q h i := by
  unfold victims
  rcases hgh.both_or_none i with ⟨m, n, hm, hn, hmn⟩ | ⟨hm, hn⟩
  · simp only [hm, hn, hmn.needed, hmn.sources, hmn.targets, hmn.isStranded, hmn.isLeaf,
      hgh.removableRegion?_eq]
  · simp only [hm, hn]

/-- Sweeps in step look at the same position and erase the same. -/
theorem InStep.step (h : InStep p q s t) : InStep p q (s.step rule p) (t.step rule q) := by
  cases hw : t.work with
  | nil => rwa [step_of_work_eq_nil hw, step_of_work_eq_nil (h.work.trans hw)]
  | cons i rest =>
    rw [step_eq hw, step_eq (h.work.trans hw), victims_eq h.graph]
    have hrest : InStep p q { s with work := rest } { t with work := rest } :=
      ⟨h.graph, rfl, h.erased⟩
    refine hrest.foldl_erase (fun m n hmn => ?_) _
    rw [Node.neighbours, Node.neighbours, hmn.sources, hmn.targets]

/-- **Sweeps that are in step stay so to the end.** -/
theorem InStep.run (h : InStep p q s t) : InStep p q (s.run rule p) (t.run rule q) := by
  induction s using Sweep.run.induct rule p generalizing t with
  | case1 s hw =>
    have hw' : t.work = [] := h.work ▸ hw
    rwa [run_of_work_eq_nil hw, run_of_work_eq_nil hw']
  | case2 s hw ih =>
    have hw' : t.work ≠ [] := h.work ▸ hw
    rw [run_of_work_ne_nil hw, run_of_work_ne_nil hw']
    exact ih h.step

/-- Stranded nodes are announced alike. -/
theorem InStep.announce (h : InStep p q s t) : InStep p q s.announce t.announce := by
  have hstranded : s.graph.stranded = t.graph.stranded :=
    h.graph.idsWhere_eq fun m n hmn => by rw [hmn.isStranded, hmn.needed]
  refine ⟨h.graph, ?_, h.erased⟩
  simp only [Sweep.announce, hstranded, h.work]

/-- Folding starts two sweeps in step. -/
theorem InStep.fold {g h : Graph} (hgh : Graph.Pointwise (Node.InStep p q) g h) :
    InStep p q (g.fold p) (h.fold q) := by
  have hfoldable : g.foldable p = h.foldable q :=
    hgh.idsWhere_eq fun m n hmn => by rw [hmn.constant?, hmn.mayGo]
  have hstart : ∀ k, InStep p q (.start g k) (.start h k) := fun _ => ⟨hgh, rfl, rfl⟩
  rw [Graph.fold_eq, Graph.fold_eq, hfoldable]
  refine ((hstart _).foldl_erase (fun m n hmn => ?_) _).announce
  rw [hmn.sources, hmn.targets]

end Sweep

namespace Graph

variable {g h : Graph} {rule : LeafRule} {p q : Policy}

/-! ## Old tags and equal policies -/

/-- The graph with its tags overwritten. -/
def retagged (g : Graph) (needed constant : NodeId → Option Bool) : Graph :=
  { g with nodes := g.nodes.mapIds fun i => Node.retagged (needed i) (constant i) }

section Retagged

variable (g : Graph) (needed constant : NodeId → Option Bool)

theorem node?_retagged (i : NodeId) :
    (g.retagged needed constant).node? i =
      (g.node? i).map (Node.retagged (needed i) (constant i)) :=
  Arena.get?_mapIds ..

theorem pointwise_retagged : Pointwise Node.Akin (g.retagged needed constant) g := by
  intro i
  rw [node?_retagged]
  cases g.node? i with
  | none => exact .none
  | some n => exact .some (n.retagged_akin _ _)

theorem tagged_retagged : (g.retagged needed constant).tagged = g.tagged := by
  have hold := g.pointwise_retagged needed constant
  refine ext_node? (by simp [tagged, retagged]) (fun i => ?_) (by simp [tagged, retagged])
    (by simp [tagged, retagged])
  rw [node?_tagged, node?_tagged, node?_retagged, Option.map_map]
  refine congrArg (Option.map · (g.node? i)) (funext fun n => ?_)
  rw [Function.comp_apply, Node.tagged_retagged, decide_eq_decide.2 hold.needed_iff,
    decide_eq_decide.2 (hold.yieldsConstants_iff (n.retagged_akin _ _))]

/-- Old tags have no influence on the new ones, and none on how many operations are counted. -/
theorem classify_retagged :
    (g.retagged needed constant).tagNeeded.classify = g.tagNeeded.classify := by
  refine Prod.ext (g.tagged_retagged needed constant) ?_
  have hold := (g.pointwise_retagged needed constant).tagNeeded
  rw [classify_count, classify_count, hold.idsWhere_eq fun m n hmn => ?_]
  rw [hmn.isOperation, hold.judge_eq hmn]

theorem anchorNames_retagged : (g.retagged needed constant).anchorNames = g.anchorNames := by
  have hanchor : ∀ (a b : Option Bool) (n : Node), (n.retagged a b).isAnchor = n.isAnchor :=
    fun a b n => (n.retagged_akin a b).isAnchor
  have hname : ∀ (a b : Option Bool) (n : Node), (n.retagged a b).name = n.name :=
    fun a b n => Node.name_mapOperation ..
  simp only [anchorNames, entries, retagged, Arena.entries_mapIds, List.filter_map, List.map_map,
    Function.comp_def, hanchor, hname]

end Retagged

/-- Old tags have no influence on a clean-up. -/
theorem clean_retagged (g : Graph) (needed constant : NodeId → Option Bool) (rule : LeafRule)
    (p : Policy) : (g.retagged needed constant).clean rule p = g.clean rule p := by
  simp only [clean, classify_retagged, anchorNames_retagged]

/-! ## Two clean-ups -/

/-- Clean-ups in step give the same report. -/
theorem report_eq (hgh : Pointwise Node.Akin g h)
    (hend : Sweep.InStep p q ((g.tagged.fold p).run rule p) ((h.tagged.fold q).run rule q)) :
    (g.clean rule p).report = (h.clean rule q).report := by
  have hcount : ∀ f : Bool → Bool,
      (g.clean rule p).erased.countP (fun e => f e.2.isOperation) =
        (h.clean rule q).erased.countP fun e => f e.2.isOperation := by
    intro f
    have hmap := congrArg (List.countP fun e => f e.2) hend.erased
    rw [List.countP_map, List.countP_map] at hmap
    simp only [clean, List.countP_reverse]
    exact hmap
  simp only [report_clean, Report.mk.injEq, Node.isData_eq_not]
  exact ⟨hcount id, hcount not, hgh.size_eq, hend.graph.size_eq⟩

/-- **A clean-up sees structure only.** Graphs of akin nodes, under policies that agree on the kinds
of the live operations, lose the same positions in the same order, with the same report, and what is
left of them is akin and bears the same tags. So old tags have no influence at all, and of a policy
that is given by its members their order and number have none. -/
theorem clean_agrees (g : Graph) (rule : LeafRule) (p : Policy) :
    (∀ (h : Graph) (q : Policy), Pointwise Node.Akin g h →
      (∀ i n k, g.node? i = some n → n.kind? = some k → p k = q k) →
      (g.clean rule p).erased.map Prod.fst = (h.clean rule q).erased.map Prod.fst ∧
        (g.clean rule p).report = (h.clean rule q).report ∧
        Pointwise (fun m n => m.Akin n ∧ m.needed = n.needed ∧ m.constant? = n.constant?)
          (g.clean rule p).graph (h.clean rule q).graph) ∧
    (∀ needed constant, (g.retagged needed constant).clean rule p = g.clean rule p) ∧
    ∀ (l l' : List OpKind) (a : Array OpKind) (s : Std.HashSet OpKind) (o : Options),
      (∀ k, k ∈ l' ↔ k ∈ l) → (∀ k, k ∈ a ↔ k ∈ l) → (∀ k, k ∈ s ↔ k ∈ l) →
      (∀ k, k ∈ o.pinned ↔ k ∈ l) →
      g.clean rule (.ofList l') = g.clean rule (.ofList l) ∧
        g.clean rule (.ofArray a) = g.clean rule (.ofList l) ∧
        g.clean rule (.ofSet s) = g.clean rule (.ofList l) ∧
        g.clean rule o.policy = g.clean rule (.ofList l) := by
  refine ⟨fun h q hgh hpq => ?_, fun a b => g.clean_retagged a b rule p, ?_⟩
  · have hend : Sweep.InStep p q ((g.tagged.fold p).run rule p) ((h.tagged.fold q).run rule q) :=
      (Sweep.InStep.fold (hgh.tagged hpq)).run
    refine ⟨?_, report_eq hgh hend, hend.graph.mono fun m n hmn => ?_⟩
    · have hdead := congrArg (List.map Prod.fst) hend.erased
      rw [List.map_map, List.map_map] at hdead
      rw [clean, clean, List.map_reverse, List.map_reverse]
      exact congrArg List.reverse hdead
    · exact ⟨hmn.toAkin, hmn.needed, hmn.constant?⟩
  · intro l l' a s o hl ha hs ho
    have hlist : Policy.ofList l' = .ofList l :=
      Policy.eq_ofList fun k => Policy.ofList_iff.trans (hl k)
    have harray : Policy.ofArray a = .ofList l :=
      Policy.eq_ofList fun k => Policy.ofArray_iff.trans (ha k)
    have hset : Policy.ofSet s = .ofList l :=
      Policy.eq_ofList fun k => Policy.ofSet_iff.trans (hs k)
    have hoptions : o.policy = .ofList l :=
      Policy.eq_ofList fun k => Policy.ofList_iff.trans (ho k)
    rw [hlist, harray, hset, hoptions]
    exact ⟨rfl, rfl, rfl, rfl⟩

/-- A graph like `precomputed` with other names, another constant, other options and old tags. -/
def relabelled : Graph :=
  ((Graph.empty { pinned := [.result], leaves := .drop }).runCommands [.addOperation .const "k",
    .addConstant "w" ⟨[0, 9], #[], rfl⟩, .connect 0 1, .addOperation .identity "s", .connect 1 2,
    .addData "z", .connect 2 3, .setShape 3 [4], .tagConstant, .declareOutput 3, .tagNeeded,
    .edit 3 { isOutput := some false }]).1

/-- It loses the same operation, also under a policy that pins what is not there. -/
theorem relabelled_clean_agrees :
    Pointwise Node.Akin precomputed relabelled ∧
      (relabelled.clean .keep (.ofList [.result])).erased.map Prod.fst = [0] ∧
      (relabelled.clean .keep (.ofList [.result])).report = ⟨1, 0, 4, 3⟩ := by
  have hakin : Pointwise Node.Akin precomputed relabelled := by decide +kernel
  have hkinds : ∀ i n k, precomputed.node? i = some n → n.kind? = some k →
      Policy.nothing k = Policy.ofList [.result] k := by
    intro i n k hn hk
    match i, hn with
    | 0, hn => cases hn; cases hk; rfl
    | 1, hn => cases hn; cases hk
    | 2, hn => cases hn; cases hk; rfl
    | 3, hn => cases hn; cases hk
    | _ + 4, hn => cases hn
  obtain ⟨herased, hreport, -⟩ :=
    (clean_agrees precomputed .keep .nothing).1 relabelled (.ofList [.result]) hakin hkinds
  rw [← herased, ← hreport]
  exact ⟨hakin, by decide +kernel, by decide +kernel⟩

end Graph

end Dataflow
