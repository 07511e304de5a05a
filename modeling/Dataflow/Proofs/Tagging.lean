import Dataflow.Graph.Tags
import Dataflow.Proofs.Linked
import Dataflow.Proofs.Reach

/-!
# What the tags say

`Graph.Needed` and `Graph.YieldsConstants` say what the two analyses look for, without their
algorithms; `node?_tagged` says that both tags together are exactly these. Tagging changes nothing
else of a node, and no tag that was there before has any influence. A linked graph stays linked.
-/

namespace Dataflow

/-- The node with both tags set; a data node has no second one. -/
def Node.tagged (needed constant : Bool) (n : Node) : Node :=
  { n with needed := some needed }.mapOperation fun o => { o with constant := some constant }

namespace Node

variable (a b : Bool) (n : Node)

@[simp] theorem sources_tagged : (n.tagged a b).sources = n.sources := by simp [tagged]

@[simp] theorem targets_tagged : (n.tagged a b).targets = n.targets := by simp [tagged]

@[simp] theorem neighbours_tagged : (n.tagged a b).neighbours = n.neighbours := by
  simp [neighbours]

@[simp] theorem isOutput_tagged : (n.tagged a b).isOutput = n.isOutput := by simp [tagged]

@[simp] theorem needed_tagged : (n.tagged a b).needed = some a := by simp [tagged]

@[simp] theorem operation?_tagged :
    (n.tagged a b).operation? = n.operation?.map fun o => { o with constant := some b } := by
  rw [tagged, operation?_mapOperation]
  rfl

@[simp] theorem datum?_tagged : (n.tagged a b).datum? = n.datum? := by
  rw [tagged, datum?_mapOperation]
  rfl

theorem constant?_tagged : (n.tagged a b).constant? = n.operation?.map fun _ => b := by
  cases h : n.operation? <;> simp [constant?, h]

@[simp] theorem kind?_tagged : (n.tagged a b).kind? = n.kind? := by
  cases h : n.operation? <;> simp [kind?, h]

@[simp] theorem isOperation_tagged : (n.tagged a b).isOperation = n.isOperation := by
  simp [isOperation]

@[simp] theorem isData_tagged : (n.tagged a b).isData = n.isData := by simp [isData]

@[simp] theorem value?_tagged : (n.tagged a b).value? = n.value? := by simp [value?]

@[simp] theorem hasValue_tagged : (n.tagged a b).hasValue = n.hasValue := by simp [hasValue]

@[simp] theorem hasKind_tagged (p : OpKind → Bool) :
    (n.tagged a b).hasKind p = n.hasKind p := by simp [hasKind]

end Node

namespace Graph

variable {g : Graph}

/-! ## What outputs need -/

/-- An output needs the node at `i`: a chain of sources leads to it from an anchor, through live
nodes only. -/
def Needed (g : Graph) (i : NodeId) : Prop := g.Reached Node.sources g.anchors i

/-- The nodes that outputs need, in the order in which a walk comes by them that takes the last
anchor first. -/
def neededIds (g : Graph) : List NodeId := g.walk Node.sources g.anchors.reverse

theorem mem_neededIds {i : NodeId} : i ∈ g.neededIds ↔ g.Needed i := by
  simp only [neededIds, mem_walk, Reached, List.mem_reverse]
  rfl

instance (g : Graph) (i : NodeId) : Decidable (g.Needed i) := decidable_of_iff _ mem_neededIds

theorem Needed.anchor {i : NodeId} {n : Node} (hn : g.node? i = some n) (ha : n.isAnchor) :
    g.Needed i :=
  .seed (mem_idsWhere.2 ⟨n, hn, ha⟩) (contains_iff.2 ⟨n, hn⟩)

theorem Needed.source {i j : NodeId} {n : Node} (h : g.Needed j) (hn : g.node? j = some n)
    (hi : i ∈ n.sources) (hc : g.contains i) : g.Needed i :=
  h.tail ⟨n, hn, hi, hc⟩

/-- What holds of the anchors and of the live sources of all that it holds of, holds of all that
outputs need. -/
theorem Needed.induct {P : NodeId → Prop}
    (ha : ∀ i n, g.node? i = some n → n.isAnchor → P i)
    (hs : ∀ i j n, P j → g.node? j = some n → i ∈ n.sources → g.contains i → P i)
    {i : NodeId} (h : g.Needed i) : P i := by
  refine Reached.induct (fun j hj _ => ?_) (fun j k hj hl => ?_) h
  · obtain ⟨n, hn, hn'⟩ := mem_idsWhere.1 hj
    exact ha j n hn hn'
  · obtain ⟨n, hn, hk, hc⟩ := hl
    exact hs k j n hj hn hk hc

/-! ## What yields constants -/

/-- The operation `n` yields constants only: it does not feed the graph from the outside, it has
targets, and each of them is a live data node of known value. -/
def YieldsConstants (g : Graph) (n : Node) : Prop :=
  n.hasKind (fun k => !k.isParameter) ∧ n.targets ≠ [] ∧
    ∀ j ∈ n.targets, ∃ m, g.node? j = some m ∧ m.hasValue

theorem allKnown_iff {l : List NodeId} :
    g.allKnown l ↔ l ≠ [] ∧ ∀ j ∈ l, ∃ m, g.node? j = some m ∧ m.hasValue := by
  simp [allKnown, Option.any_eq_true]

instance (g : Graph) (n : Node) : Decidable (g.YieldsConstants n) :=
  decidable_of_iff (n.hasKind (fun k => !k.isParameter) ∧ g.allKnown n.targets)
    (and_congr_right fun _ => allKnown_iff)

theorem judge_eq (n : Node) : g.judge n = decide (g.YieldsConstants n) := by
  rw [Bool.eq_iff_iff, decide_eq_true_iff, judge, Bool.and_eq_true, allKnown_iff]
  rfl

/-! ## The tag of what outputs need -/

/-- The graph with the nodes at the given positions tagged as needed, and all others as not. -/
def marked (g : Graph) (l : List NodeId) : Graph :=
  { g with nodes := g.nodes.mapIds fun i n => { n with needed := some (decide (i ∈ l)) } }

theorem node?_marked (g : Graph) (l : List NodeId) (i : NodeId) :
    (g.marked l).node? i = (g.node? i).map fun n => { n with needed := some (decide (i ∈ l)) } :=
  Arena.get?_mapIds ..

/-- To tag one node more in place is to tag them all anew. -/
theorem modify_marked (g : Graph) (l : List NodeId) (i : NodeId) :
    { g.marked l with
        nodes := (g.marked l).nodes.modify i fun n => { n with needed := some true } } =
      g.marked (i :: l) := by
  refine ext_node? ?_ (fun j => ?_) rfl rfl
  · rw [Arena.next_modify]
    exact (Arena.next_mapIds ..).trans (Arena.next_mapIds ..).symm
  · rw [node?, Arena.get?_modify, ← node?, node?_marked, node?_marked, Option.map_map]
    by_cases hj : j = i
    · simp [hj, Function.comp_def]
    · simp [hj]

end Graph

namespace Marking

variable {g : Graph}

/-- The search in place is where the walk is along the sources: it has tagged what that has
visited. -/
theorem step_marked (w : Walk) :
    step ⟨g.marked w.visited, w.work⟩ =
      ⟨g.marked (w.step g Node.sources).visited, (w.step g Node.sources).work⟩ := by
  obtain ⟨_ | ⟨i, rest⟩, visited⟩ := w
  · rfl
  have hnode := g.node?_marked visited i
  cases hn : g.node? i with
  | none =>
    rw [hn, Option.map_none] at hnode
    rw [step_of_node?_eq_none hnode, Walk.step_of_node?_eq_none hn]
  | some n =>
    rw [hn, Option.map_some] at hnode
    by_cases hi : i ∈ visited
    · rw [step_of_tagged hnode (by simp [hi]), Walk.step_of_mem hi]
    · rw [step_of_not_tagged hnode (by simp [hi]), Walk.step_of_node? hi hn, Graph.modify_marked]

theorem run_marked (w : Walk) :
    (run ⟨g.marked w.visited, w.work⟩).graph = g.marked (w.run g Node.sources).visited := by
  induction w using Walk.run.induct g Node.sources with
  | case1 w hw =>
    rw [run_of_work_eq_nil (s := ⟨g.marked w.visited, w.work⟩) hw, Walk.run_of_work_eq_nil hw]
  | case2 w hw ih =>
    rw [run_of_work_ne_nil (s := ⟨g.marked w.visited, w.work⟩) hw, Walk.run_of_work_ne_nil hw,
      step_marked, ih]

end Marking

namespace Graph

variable {g : Graph}

theorem marking_eq (g : Graph) : g.marking = ⟨g.marked [], g.anchors.reverse⟩ := by
  have hcleared : { g with nodes := g.nodes.mapIds fun _ n => { n with needed := some false } } =
      g.marked [] := by
    simp only [marked, List.not_mem_nil, decide_false]
  have hanchors : (g.marked []).anchors = g.anchors := by
    simp only [anchors, idsWhere, entries, marked, Arena.entries_mapIds, List.filter_map,
      List.map_map, Function.comp_def]
    rfl
  simp only [marking, hcleared, hanchors]

/-- What the search tags is what the walk visits. -/
theorem tagNeeded_eq (g : Graph) : g.tagNeeded = g.marked g.neededIds := by
  rw [tagNeeded, marking_eq, Marking.run_marked ⟨g.anchors.reverse, []⟩]
  simp only [marked, neededIds, walk, List.mem_reverse]

theorem node?_tagNeeded (g : Graph) (i : NodeId) :
    g.tagNeeded.node? i =
      (g.node? i).map fun n => { n with needed := some (decide (g.Needed i)) } := by
  rw [tagNeeded_eq, node?_marked]
  simp only [mem_neededIds]

@[simp] theorem next_tagNeeded (g : Graph) : g.tagNeeded.nodes.next = g.nodes.next := by
  rw [tagNeeded_eq]
  exact Arena.next_mapIds ..

@[simp] theorem names_tagNeeded (g : Graph) : g.tagNeeded.names = g.names := by
  rw [tagNeeded_eq]
  rfl

@[simp] theorem options_tagNeeded (g : Graph) : g.tagNeeded.options = g.options := by
  rw [tagNeeded_eq]
  rfl

theorem yieldsConstants_tagNeeded (n : Node) :
    g.tagNeeded.YieldsConstants n ↔ g.YieldsConstants n := by
  have hvalue : ∀ j, (∃ m, g.tagNeeded.node? j = some m ∧ m.hasValue) ↔
      ∃ m, g.node? j = some m ∧ m.hasValue := by
    intro j
    rw [node?_tagNeeded]
    cases hm : g.node? j <;> simp [Node.hasValue, Node.value?, Node.datum?]
  simp only [YieldsConstants, hvalue]

/-! ## The tag of what yields constants -/

section Note

variable {s : Graph × Nat} {l : List (NodeId × Bool)} {e : NodeId × Bool} {i : NodeId} {b : Bool}

theorem node?_noteConstant (s : Graph × Nat) (e : NodeId × Bool) (i : NodeId) :
    (noteConstant s e).1.node? i =
      if i = e.1 then
        (s.1.node? i).map (Node.mapOperation fun o => { o with constant := some e.2 })
      else s.1.node? i := by
  unfold noteConstant
  split
  · exact Arena.get?_modify ..
  · rename_i hno
    split
    · rename_i hi
      subst hi
      -- where no operation is live, there is nothing to write
      cases hn : s.1.node? e.1 with
      | none => rfl
      | some n =>
        rw [hn, Option.any_some] at hno
        rw [Option.map_some, Node.mapOperation_of_not_isOperation _ hno]
    · rfl

theorem foldl_noteConstant_frame (s : Graph × Nat) (l : List (NodeId × Bool)) :
    (l.foldl noteConstant s).1.nodes.next = s.1.nodes.next ∧
      (l.foldl noteConstant s).1.names = s.1.names ∧
      (l.foldl noteConstant s).1.options = s.1.options := by
  induction l generalizing s with
  | nil => exact ⟨rfl, rfl, rfl⟩
  | cons e rest ih =>
    obtain ⟨hnext, hnames, hoptions⟩ := ih (noteConstant s e)
    rw [List.foldl_cons, hnext, hnames, hoptions]
    unfold noteConstant
    split
    · exact ⟨Arena.next_modify .., rfl, rfl⟩
    · exact ⟨rfl, rfl, rfl⟩

theorem node?_foldl_noteConstant_of_not_mem (hi : i ∉ l.map Prod.fst) :
    (l.foldl noteConstant s).1.node? i = s.1.node? i := by
  induction l generalizing s with
  | nil => rfl
  | cons e rest ih =>
    rw [List.map_cons, List.mem_cons, not_or] at hi
    rw [List.foldl_cons, ih hi.2, node?_noteConstant, if_neg hi.1]

/-- What is written at a position stays, since nothing else is written there. -/
theorem node?_foldl_noteConstant_of_mem (hl : (l.map Prod.fst).Nodup) (hi : (i, b) ∈ l) :
    (l.foldl noteConstant s).1.node? i =
      (s.1.node? i).map (Node.mapOperation fun o => { o with constant := some b }) := by
  induction l generalizing s with
  | nil => cases hi
  | cons e rest ih =>
    obtain ⟨he, hrest⟩ := List.nodup_cons.1 hl
    rw [List.foldl_cons]
    rcases List.mem_cons.1 hi with rfl | hi
    · rw [node?_foldl_noteConstant_of_not_mem he, node?_noteConstant, if_pos rfl]
    · have hne : i ≠ e.1 := by
        rintro rfl
        exact he (List.mem_map.2 ⟨_, hi, rfl⟩)
      rw [ih hrest hi, node?_noteConstant, if_neg hne]

/-- The count grows with each tag that is set on an operation. -/
theorem foldl_noteConstant_count
    (hl : ∀ e ∈ l, (s.1.node? e.1).any Node.isOperation) :
    (l.foldl noteConstant s).2 = s.2 + l.countP Prod.snd := by
  induction l generalizing s with
  | nil => rfl
  | cons e rest ih =>
    have hrest : ∀ f ∈ rest, ((noteConstant s e).1.node? f.1).any Node.isOperation := by
      intro f hf
      rw [node?_noteConstant]
      split
      · simpa [Option.any_map, Function.comp_def] using hl f (List.mem_cons_of_mem e hf)
      · exact hl f (List.mem_cons_of_mem e hf)
    have hcount : (noteConstant s e).2 = s.2 + e.2.toNat := by
      rw [noteConstant, if_pos (hl e List.mem_cons_self)]
    rw [List.foldl_cons, ih hrest, hcount, List.countP_cons, Nat.add_assoc, Nat.add_comm e.2.toNat]
    cases e.2 <;> rfl

end Note

theorem mem_judged {i : NodeId} {b : Bool} :
    (i, b) ∈ g.judged ↔ ∃ n, g.node? i = some n ∧ n.isOperation ∧ g.judge n = b := by
  simp only [judged, List.mem_map, List.mem_filter, Prod.exists, mem_entries, Prod.mk.injEq]
  constructor
  · rintro ⟨j, n, ⟨hn, ho⟩, rfl, hb⟩
    exact ⟨n, hn, ho, hb⟩
  · rintro ⟨n, hn, ho, hb⟩
    exact ⟨i, n, ⟨hn, ho⟩, rfl, hb⟩

theorem mem_map_fst_judged {i : NodeId} :
    i ∈ g.judged.map Prod.fst ↔ ∃ n, g.node? i = some n ∧ n.isOperation := by
  rw [List.mem_map]
  constructor
  · rintro ⟨⟨_, b⟩, he, rfl⟩
    obtain ⟨n, hn, ho, -⟩ := mem_judged.1 he
    exact ⟨n, hn, ho⟩
  · rintro ⟨n, hn, ho⟩
    exact ⟨(i, g.judge n), mem_judged.2 ⟨n, hn, ho, rfl⟩, rfl⟩

theorem nodup_judged (g : Graph) : (g.judged.map Prod.fst).Nodup := by
  have hids : (g.judged.map Prod.fst).Sublist g.nodes.ids := by
    rw [judged, List.map_map]
    exact List.filter_sublist.map _
  exact g.nodes.ids_nodup.sublist hids

/-- **The tag of an operation** says whether it yields constants, whatever it was before. -/
theorem node?_tagConstant (g : Graph) (i : NodeId) :
    g.tagConstant.node? i = (g.node? i).map fun n =>
      n.mapOperation fun o => { o with constant := some (decide (g.YieldsConstants n)) } := by
  rw [tagConstant, classify]
  cases hn : g.node? i with
  | none =>
    have hi : i ∉ g.judged.map Prod.fst := by simp [mem_map_fst_judged, hn]
    rw [node?_foldl_noteConstant_of_not_mem hi, hn, Option.map_none]
  | some n =>
    by_cases ho : n.isOperation
    · have hi : (i, g.judge n) ∈ g.judged := mem_judged.2 ⟨n, hn, ho, rfl⟩
      rw [node?_foldl_noteConstant_of_mem g.nodup_judged hi, hn, judge_eq]
      rfl
    · have hi : i ∉ g.judged.map Prod.fst := by simp [mem_map_fst_judged, hn, ho]
      rw [node?_foldl_noteConstant_of_not_mem hi, hn, Option.map_some,
        Node.mapOperation_of_not_isOperation _ ho]

@[simp] theorem next_tagConstant (g : Graph) : g.tagConstant.nodes.next = g.nodes.next :=
  (foldl_noteConstant_frame (g, 0) g.judged).1

@[simp] theorem names_tagConstant (g : Graph) : g.tagConstant.names = g.names :=
  (foldl_noteConstant_frame (g, 0) g.judged).2.1

@[simp] theorem options_tagConstant (g : Graph) : g.tagConstant.options = g.options :=
  (foldl_noteConstant_frame (g, 0) g.judged).2.2

/-- The count is that of the operations that yield constants. -/
theorem classify_count (g : Graph) :
    g.classify.2 = (g.idsWhere fun n => n.isOperation && g.judge n).length := by
  have hlive : ∀ e ∈ g.judged, (g.node? e.1).any Node.isOperation := by
    rintro ⟨i, b⟩ he
    obtain ⟨n, hn, ho, -⟩ := mem_judged.1 he
    rw [hn, Option.any_some, ho]
  rw [classify, foldl_noteConstant_count (s := (g, 0)) hlive, Nat.zero_add, judged,
    List.countP_map, List.countP_filter, idsWhere, List.length_map, List.countP_eq_length_filter]
  exact congrArg (fun q => (g.entries.filter q).length)
    (funext fun e => Bool.and_comm ..)

/-! ## Both -/

/-- The graph with both tags made anew, which a clean-up starts from. -/
def tagged (g : Graph) : Graph := g.tagNeeded.tagConstant

/-- **Tags are exact**, whatever they were before. -/
theorem node?_tagged (i : NodeId) :
    g.tagged.node? i = (g.node? i).map fun n =>
      n.tagged (decide (g.Needed i)) (decide (g.YieldsConstants n)) := by
  rw [tagged, node?_tagConstant, node?_tagNeeded, Option.map_map]
  refine congrArg (Option.map · (g.node? i)) (funext fun n => ?_)
  rw [Function.comp_apply, decide_eq_decide.2 (yieldsConstants_tagNeeded _)]
  rfl

theorem nodes_tagged (g : Graph) : g.tagged.nodes = g.nodes.mapIds fun i n =>
    n.tagged (decide (g.Needed i)) (decide (g.YieldsConstants n)) := by
  refine Arena.ext_get? ?_ fun i => ?_
  · rw [tagged, next_tagConstant, next_tagNeeded, Arena.next_mapIds]
  · rw [Arena.get?_mapIds]
    exact node?_tagged i

theorem contains_tagged {i : NodeId} : g.tagged.contains i ↔ g.contains i := by
  rw [contains_iff, contains_iff, node?_tagged]
  cases g.node? i <;> simp

/-- Tags that are right already are not changed. -/
theorem tagNeeded_eq_self
    (h : ∀ i n, g.node? i = some n → n.needed = some (decide (g.Needed i))) :
    g.tagNeeded = g := by
  refine ext_node? g.next_tagNeeded (fun i => ?_) g.names_tagNeeded g.options_tagNeeded
  rw [node?_tagNeeded]
  cases hn : g.node? i with
  | none => rfl
  | some n => rw [Option.map_some, ← h i n hn]

theorem tagConstant_eq_self
    (h : ∀ i n, g.node? i = some n → n.isOperation →
      n.constant? = some (decide (g.YieldsConstants n))) :
    g.tagConstant = g := by
  refine ext_node? g.next_tagConstant (fun i => ?_) g.names_tagConstant g.options_tagConstant
  rw [node?_tagConstant]
  cases hn : g.node? i with
  | none => rfl
  | some n =>
    rw [Option.map_some, Node.mapOperation_eq_self]
    intro o ho
    rw [← h i n hn (Option.isSome_iff_exists.2 ⟨o, ho⟩), Node.constant?, ho]
    rfl

theorem Linked.tagNeeded (hg : g.Linked) : g.tagNeeded.Linked := by
  refine hg.congr fun i => ?_
  rw [node?_tagNeeded, Option.map_map]
  rfl

theorem Linked.tagConstant (hg : g.Linked) : g.tagConstant.Linked := by
  refine hg.congr fun i => ?_
  rw [node?_tagConstant, Option.map_map]
  congr 1
  funext n
  exact Node.wiring_mapOperation _ n

theorem Linked.tagged (hg : g.Linked) : g.tagged.Linked := hg.tagNeeded.tagConstant

end Graph

end Dataflow
