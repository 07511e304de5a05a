import Dataflow.Proofs.Ledger
import Dataflow.Proofs.Spared
import Dataflow.Proofs.Sweeps

/-!
# How a clean-up accounts for what it removes

Nothing is assumed of the graph here: its edges may disagree at their ends, lead nowhere, or go in
circles. Even so the record of a clean-up lists every node that is gone, once and as what it was
(`clean_accounts`), with the folded operations in front (`map_fst_erased`).

The report is counted up and the events are told as nodes are erased, in three places that count in
ways of their own. `Sweep.Booked` says that the counters and the events agree with the record all
the while (`report_clean`, `log_clean`). So the numbers in the report are those of the nodes before
and after and of the lost ones, and the events that tell of erased nodes are one for each of these
(`clean_accounted`).
-/

namespace Dataflow

theorem Node.Alike.caption {m n : Node} (h : m.Alike n) : m.caption = n.caption := by
  obtain ⟨-, isOperation, kind, value, -, -⟩ := h
  obtain ⟨_, o | ⟨_ | v, _, _⟩, _, _, _, _⟩ := m <;>
    obtain ⟨_, o' | ⟨_ | v', _, _⟩, _, _, _, _⟩ := n <;>
    simp_all [Node.caption, Node.isOperation, Node.operation?, Node.kind?, Node.value?, Node.datum?]

/-- Nodes that their owner cannot tell apart bear the same label. -/
theorem Node.Alike.label {m n : Node} (h : m.Alike n) : m.label = n.label := by
  rw [Node.label, Node.label, h.caption, h.name, h.isOutput]

theorem Node.Alike.isData {m n : Node} (h : m.Alike n) : m.isData = n.isData := by
  rw [Node.isData_eq_not, Node.isData_eq_not, h.isOperation]

namespace Graph

variable {g h : Graph} {rule : LeafRule} {p : Policy} {e : List (NodeId × Node)} {i : NodeId}
  {n : Node} {q : Node → Bool}

/-! ## Numbers of nodes -/

/-- The size of a graph is the number of its live nodes. -/
theorem encard_contains (g : Graph) : {i | g.contains i}.encard = g.size :=
  g.nodes.encard_contains

theorem size_tagged (g : Graph) : g.tagged.size = g.size := by
  rw [size, nodes_tagged, Arena.size_mapIds, size]

theorem size_erase (hn : g.node? i = some n) : (g.erase i).size + 1 = g.size := by
  simp only [erase_of_node? hn, size, Arena.size_mapIds]
  exact Arena.size_erase hn

/-! ## Accounts -/

/-- The nodes of `g` that satisfy `q` and are not live in `h`. -/
def lost (g h : Graph) (q : Node → Bool) : Set NodeId :=
  {i | ∃ n, g.node? i = some n ∧ q n ∧ ¬ h.contains i}

/-- `e` lists what `h` lacks of `g`, each node once and as what it was. -/
structure Accounts (g h : Graph) (e : List (NodeId × Node)) : Prop where
  nodup : (e.map Prod.fst).Nodup
  mem_iff {i : NodeId} : i ∈ e.map Prod.fst ↔ g.contains i ∧ ¬ h.contains i
  alike : ∀ x ∈ e, ∃ n, g.node? x.1 = some n ∧ x.2.Alike n
  size : h.size + e.length = g.size

theorem Accounts.tagged (g : Graph) : g.Accounts g.tagged [] where
  nodup := List.nodup_nil
  mem_iff := by simp [contains_tagged]
  alike := by simp
  size := g.size_tagged

/-- Erasing one more node adds it to the account. -/
theorem Accounts.erase (ha : g.Accounts h e) (hg : g.Genuine h) (hn : h.node? i = some n) :
    g.Accounts (h.erase i) ((i, n) :: e) := by
  have hi : h.contains i := contains_iff.2 ⟨n, hn⟩
  have hlive : g.contains i := hg.contains hn
  refine ⟨?_, ?_, ?_, ?_⟩
  · refine List.nodup_cons.2 ⟨fun hie => ?_, ha.nodup⟩
    exact (ha.mem_iff.1 hie).2 hi
  · intro j
    rw [List.map_cons, List.mem_cons, ha.mem_iff, contains_erase]
    by_cases hj : j = i
    · simp [hj, hlive]
    · simp [hj]
  · intro x hx
    rcases List.mem_cons.1 hx with rfl | hx
    · obtain ⟨m, hm, hc⟩ := hg i n hn
      exact ⟨m, hm, .of_core hc⟩
    · exact ha.alike x hx
  · have hsize := size_erase hn
    have hrest := ha.size
    rw [List.length_cons]
    omega

theorem Accounts.reverse (ha : g.Accounts h e) : g.Accounts h e.reverse where
  nodup := by
    rw [List.map_reverse]
    exact List.nodup_reverse.2 ha.nodup
  mem_iff {i} := by
    rw [List.map_reverse, List.mem_reverse]
    exact ha.mem_iff
  alike := by simpa only [List.mem_reverse] using ha.alike
  size := by rw [List.length_reverse, ha.size]

/-- **The record of a clean-up accounts for every node that is gone.** -/
theorem clean_accounts (g : Graph) (rule : LeafRule) (p : Policy) :
    g.Accounts (g.clean rule p).graph (g.clean rule p).erased := by
  have hrev : g.Accounts (g.clean rule p).graph (g.clean rule p).erased.reverse :=
    clean_induct (p := p) (P := g.Accounts) (.tagged g)
      fun _ _ _ _ ha hn hgen _ _ => ha.erase hgen hn
  simpa only [List.reverse_reverse] using hrev.reverse

/-- The lost nodes of one sort are as many as the account lists. -/
theorem Accounts.encard_lost (ha : g.Accounts h e) (hq : ∀ m n : Node, m.Alike n → q m = q n) :
    (g.lost h q).encard = e.countP fun x => q x.2 := by
  have hset : g.lost h q = {i | i ∈ (e.filter fun x => q x.2).map Prod.fst} := by
    ext i
    simp only [lost, Set.mem_ofPred_eq, List.mem_map, List.mem_filter]
    constructor
    · rintro ⟨n, hn, hqn, hi⟩
      obtain ⟨x, hx, rfl⟩ := List.mem_map.1 (ha.mem_iff.2 ⟨contains_iff.2 ⟨n, hn⟩, hi⟩)
      obtain ⟨n', hn', hal⟩ := ha.alike x hx
      cases hn.symm.trans hn'
      exact ⟨x, ⟨hx, (hq _ _ hal).trans hqn⟩, rfl⟩
    · rintro ⟨x, ⟨hx, hqx⟩, rfl⟩
      obtain ⟨n, hn, hal⟩ := ha.alike x hx
      exact ⟨n, hn, (hq _ _ hal).symm.trans hqx, (ha.mem_iff.1 (List.mem_map_of_mem hx)).2⟩
  rw [hset, encard_setOf_mem (ha.nodup.sublist (List.filter_sublist.map _)), List.length_map,
    List.countP_eq_length_filter]

end Graph

namespace Sweep

/-! ## Books -/

/-- What is counted and told is what was erased. The sizes are those of `g` and not yet known, and
the first event told of `count` operations to fold. -/
structure Booked (g : Graph) (count : Nat) (s : Sweep) : Prop where
  report : s.report =
    { removedOperations := s.erased.countP fun x => x.2.isOperation
      removedData := s.erased.countP fun x => x.2.isData
      sizeBefore := g.size }
  log : s.log = s.erased.map (fun x => .erased x.2.label) ++ [.folding count]

variable {g : Graph} {s : Sweep} {rule : LeafRule} {p : Policy} {near : Node → List NodeId}
  {l : List NodeId} {i : NodeId} {count : Nat}

theorem Booked.start (g : Graph) (count : Nat) : Booked g count (.start g count) := ⟨rfl, rfl⟩

theorem Booked.erase (h : Booked g count s) (i : NodeId) : Booked g count (s.erase near i) := by
  cases hn : s.graph.node? i with
  | none => rwa [erase_of_node?_eq_none hn]
  | some n =>
    rw [erase_of_node? hn]
    refine ⟨?_, congrArg (Event.erased n.label :: ·) h.log⟩
    simp only [h.report, List.countP_cons, n.isData_eq_not]
    cases n.isOperation <;> rfl

theorem Booked.foldl_erase (h : Booked g count s) (l : List NodeId) :
    Booked g count (l.foldl (Sweep.erase near) s) := by
  induction l generalizing s with
  | nil => exact h
  | cons i rest ih => exact ih (h.erase i)

theorem Booked.step (h : Booked g count s) : Booked g count (s.step rule p) := by
  cases hw : s.work with
  | nil => rwa [step_of_work_eq_nil hw]
  | cons i rest =>
    rw [step_eq hw]
    exact Booked.foldl_erase (s := { s with work := rest }) ⟨h.report, h.log⟩ _

theorem Booked.run (h : Booked g count s) : Booked g count (s.run rule p) := by
  induction s using Sweep.run.induct rule p with
  | case1 s hw => rwa [run_of_work_eq_nil hw]
  | case2 s hw ih =>
    rw [run_of_work_ne_nil hw]
    exact ih h.step

theorem Booked.fold (g : Graph) (p : Policy) : Booked g (g.foldable p).length (g.fold p) := by
  rw [Graph.fold_eq]
  have h : Booked g (g.foldable p).length ((g.foldable p).foldl
      (Sweep.erase fun n => n.targets ++ n.sources) (.start g (g.foldable p).length)) :=
    (Booked.start g _).foldl_erase _
  exact ⟨h.report, h.log⟩

/-- **The books are right at the end of a sweep.** -/
theorem Booked.swept (g : Graph) (rule : LeafRule) (p : Policy) :
    Booked g (g.foldable p).length ((g.fold p).run rule p) :=
  (Booked.fold g p).run

end Sweep

namespace Graph

variable {g h : Graph} {rule : LeafRule} {p : Policy} {q : Node → Bool}

/-- What a clean-up counts, one node at a time, is what its record lists. -/
theorem report_clean (g : Graph) (rule : LeafRule) (p : Policy) :
    (g.clean rule p).report =
      { removedOperations := (g.clean rule p).erased.countP fun x => x.2.isOperation
        removedData := (g.clean rule p).erased.countP fun x => x.2.isData
        sizeBefore := g.size
        sizeAfter := (g.clean rule p).graph.size } := by
  have hreport := (Sweep.Booked.swept g.tagged rule p).report
  rw [size_tagged] at hreport
  simp only [clean, List.countP_reverse]
  exact congrArg
    (fun r : Report => { r with sizeAfter := ((g.tagged.fold p).run rule p).graph.size }) hreport

/-- What a clean-up tells, one node at a time, is what its record lists. -/
theorem log_clean (g : Graph) (rule : LeafRule) (p : Policy) :
    (g.clean rule p).log =
      [.anchored g.anchorNames, .constants g.tagNeeded.classify.2,
          .folding (g.tagged.foldable p).length]
        ++ (g.clean rule p).erased.map fun x => .erased x.2.label := by
  have hreverse := congrArg List.reverse (Sweep.Booked.swept g.tagged rule p).log
  rw [List.reverse_append, ← List.map_reverse] at hreverse
  simp only [clean]
  exact congrArg ([.anchored g.anchorNames, .constants g.tagNeeded.classify.2] ++ ·) hreverse

/-- The report tells how many operations are lost. -/
theorem encard_lost_operations (g : Graph) (rule : LeafRule) (p : Policy) :
    (g.lost (g.clean rule p).graph Node.isOperation).encard =
      (g.clean rule p).report.removedOperations := by
  rw [report_clean]
  exact (g.clean_accounts rule p).encard_lost fun _ _ => Node.Alike.isOperation

/-- The report tells how many data nodes are lost. -/
theorem encard_lost_data (g : Graph) (rule : LeafRule) (p : Policy) :
    (g.lost (g.clean rule p).graph Node.isData).encard =
      (g.clean rule p).report.removedData := by
  rw [report_clean]
  exact (g.clean_accounts rule p).encard_lost fun _ _ => Node.Alike.isData

/-- What is erased is an operation or a data node, and so the numbers in the report add up. -/
theorem report_add (g : Graph) (rule : LeafRule) (p : Policy) :
    (g.clean rule p).report.removedOperations + (g.clean rule p).report.removedData =
      (g.clean rule p).erased.length := by
  have hdata : ∀ x : NodeId × Node, x.2.isData ↔ ¬ x.2.isOperation := by
    intro x
    rw [x.2.isData_eq_not, Bool.not_eq_true, Bool.not_eq_true']
  rw [report_clean, List.length_eq_countP_add_countP fun x : NodeId × Node => x.2.isOperation]
  refine congrArg (_ + ·) (List.countP_congr fun x _ => ?_)
  rw [hdata, decide_eq_true_iff]

theorem isUnchanged_iff (g : Graph) (rule : LeafRule) (p : Policy) :
    (g.clean rule p).report.isUnchanged ↔ (g.clean rule p).erased = [] := by
  have hadd := g.report_add rule p
  rw [← List.length_eq_zero_iff, ← hadd]
  simp [Report.isUnchanged]

/-! ## The order of the record -/

/-- Positions of live nodes are listed in ascending order. -/
theorem idsWhere_pairwise (g : Graph) (q : Node → Bool) : (g.idsWhere q).Pairwise (· < ·) :=
  g.nodes.ids_pairwise.sublist (List.filter_sublist.map _)

end Graph

namespace Sweep

variable {s : Sweep} {rule : LeafRule} {p : Policy} {near : Node → List NodeId} {l : List NodeId}

theorem erased_suffix_foldl_erase : s.erased <:+ (l.foldl (Sweep.erase near) s).erased := by
  induction l generalizing s with
  | nil => exact List.suffix_rfl
  | cons i rest ih =>
    refine List.IsSuffix.trans ?_ ih
    cases hn : s.graph.node? i with
    | none => rw [erase_of_node?_eq_none hn]
    | some n =>
      rw [erase_of_node? hn]
      exact List.suffix_cons _ _

/-- What a sweep erases it adds to the record. -/
theorem erased_suffix_run : s.erased <:+ (s.run rule p).erased := by
  induction s using Sweep.run.induct rule p with
  | case1 s hw => rw [run_of_work_eq_nil hw]
  | case2 s hw ih =>
    rw [run_of_work_ne_nil hw]
    obtain ⟨i, rest, hcons⟩ := List.exists_cons_of_ne_nil hw
    refine List.IsSuffix.trans ?_ ih
    rw [step_eq hcons]
    exact erased_suffix_foldl_erase (s := { s with work := rest })

/-- Live nodes are recorded in the order in which they are erased. -/
theorem dead_foldl_erase (hl : l.Nodup) (hc : ∀ i ∈ l, s.graph.contains i) :
    (l.foldl (Sweep.erase near) s).dead = l.reverse ++ s.dead := by
  induction l generalizing s with
  | nil => rfl
  | cons i rest ih =>
    obtain ⟨hi, hrest⟩ := List.nodup_cons.1 hl
    obtain ⟨n, hn⟩ := Graph.contains_iff.1 (hc i List.mem_cons_self)
    have hlive : ∀ j ∈ rest, (s.erase near i).graph.contains j := by
      intro j hj
      rw [graph_erase, Graph.contains_erase]
      exact ⟨ne_of_mem_of_not_mem hj hi, hc j (List.mem_cons_of_mem i hj)⟩
    rw [List.foldl_cons, ih hrest hlive, erase_of_node? hn]
    simp [dead]

end Sweep

namespace Graph

variable {g : Graph} {rule : LeafRule} {p : Policy}

/-- Folding records the foldable operations in ascending order. -/
theorem dead_fold (g : Graph) (p : Policy) : (g.fold p).dead = (g.foldable p).reverse := by
  have hnodup : (g.foldable p).Nodup := (g.idsWhere_pairwise _).imp Nat.ne_of_lt
  have hlive : ∀ i ∈ g.foldable p, g.contains i := by
    intro i hi
    obtain ⟨n, hn, -⟩ := mem_idsWhere.1 hi
    exact contains_iff.2 ⟨n, hn⟩
  rw [fold_eq, Sweep.dead, Sweep.erased_announce, ← Sweep.dead,
    Sweep.dead_foldl_erase hnodup hlive]
  exact List.append_nil _

/-- The folded operations come first in the record of a clean-up, in ascending order. -/
theorem map_fst_erased (g : Graph) (rule : LeafRule) (p : Policy) :
    ∃ rest, (g.clean rule p).erased.map Prod.fst = g.tagged.foldable p ++ rest := by
  obtain ⟨later, hlater⟩ :
      (g.tagged.fold p).erased <:+ ((g.tagged.fold p).run rule p).erased :=
    Sweep.erased_suffix_run
  have herased : (g.clean rule p).erased = ((g.tagged.fold p).run rule p).erased.reverse := rfl
  refine ⟨(later.map Prod.fst).reverse, ?_⟩
  rw [herased, ← hlater, List.map_reverse, List.map_append, List.reverse_append,
    ← (g.tagged.foldable p).reverse_reverse, ← dead_fold]
  rfl

/-- The finest events tell the labels of the erased nodes, in the order of the record. -/
theorem filter_log (g : Graph) (rule : LeafRule) (p : Policy) :
    ((g.clean rule p).log.filter fun v => v.level = .trace) =
      (g.clean rule p).erased.map fun x => .erased x.2.label := by
  have hall : ∀ l : List (NodeId × Node),
      ((l.map fun x => Event.erased x.2.label).filter fun v => v.level = .trace) =
        l.map fun x => .erased x.2.label := by
    intro l
    refine List.filter_eq_self.2 fun v hv => ?_
    obtain ⟨x, -, rfl⟩ := List.mem_map.1 hv
    rfl
  rw [log_clean, List.filter_append, hall]
  rfl

/-- **The report and the events of a clean-up account for every node that it removes**, whatever the
graph. The numbers are those of the nodes before and after, and of the lost operations and data
nodes; they are all zero if and only if no node is lost, and then only tags have changed. The events
tell the label of each lost node, as it was before, once; those of the folded operations come first,
in ascending order. -/
theorem clean_accounted (g : Graph) (rule : LeafRule) (p : Policy) :
    let c := g.clean rule p
    {i | g.contains i}.encard = c.report.sizeBefore ∧
      {i | c.graph.contains i}.encard = c.report.sizeAfter ∧
      (g.lost c.graph Node.isOperation).encard = c.report.removedOperations ∧
      (g.lost c.graph Node.isData).encard = c.report.removedData ∧
      c.report.removedOperations + c.report.removedData + c.report.sizeAfter =
        c.report.sizeBefore ∧
      (c.report.isUnchanged ↔ ∀ i, g.contains i → c.graph.contains i) ∧
      (c.report.isUnchanged → ∀ i, ∃ a b, c.graph.node? i = (g.node? i).map (Node.tagged a b)) ∧
      ∃ folded rest, (folded ++ rest).Nodup ∧
        (∀ i, i ∈ folded ++ rest ↔ g.contains i ∧ ¬ c.graph.contains i) ∧
        folded.Pairwise (· < ·) ∧ (∀ i, i ∈ folded ↔ g.Folds p i) ∧
        List.Forall₂ (fun i line => ∃ n, g.node? i = some n ∧ line = "erased " ++ n.label)
          (folded ++ rest) ((c.log.filter fun v => v.level = .trace).map Event.message) := by
  intro c
  have ha : g.Accounts c.graph c.erased := g.clean_accounts rule p
  obtain ⟨rest, hrest⟩ := g.map_fst_erased rule p
  have hbefore : c.report.sizeBefore = g.size := by
    rw [report_clean]
  refine ⟨hbefore ▸ g.encard_contains, c.graph.encard_contains, g.encard_lost_operations rule p,
    g.encard_lost_data rule p, ?_, ?_, ?_, g.tagged.foldable p, rest, ?_⟩
  · rw [g.report_add rule p, report_clean, Nat.add_comm]
    exact ha.size
  · rw [g.isUnchanged_iff rule p, ← List.map_eq_nil_iff (f := Prod.fst),
      List.eq_nil_iff_forall_not_mem]
    constructor
    · exact fun hnone i hi => Classical.not_not.1 fun hc => hnone i (ha.mem_iff.2 ⟨hi, hc⟩)
    · exact fun hall i hi => (ha.mem_iff.1 hi).2 (hall i (ha.mem_iff.1 hi).1)
  · intro hu i
    have hgraph : c.graph = g.tagged := clean_of_erased ((g.isUnchanged_iff rule p).1 hu)
    rw [hgraph, node?_tagged]
    cases g.node? i with
    | none => exact ⟨true, true, rfl⟩
    | some n => exact ⟨_, _, rfl⟩
  · rw [← hrest, g.filter_log rule p, List.map_map, List.forall₂_map_left_iff,
      List.forall₂_map_right_iff, List.forall₂_same]
    refine ⟨ha.nodup, fun i => ha.mem_iff, g.tagged.idsWhere_pairwise _, fun i => mem_foldable, ?_⟩
    intro x hx
    obtain ⟨n, hn, hal⟩ := ha.alike x hx
    exact ⟨n, hn, congrArg ("erased " ++ ·) hal.label⟩

/-- An operation that lists its constant twice, of which the constant does not know. -/
def lopsided : Graph :=
  let operation : Node := { name := "c", body := .operation { kind := .const }, targets := [1, 1] }
  let constant : Node := { name := "v", body := .data { value := some ⟨[0, 2], #[], rfl⟩ } }
  { Graph.empty {} with nodes := (Arena.empty.push operation).push constant }

/-- The constant is looked at twice, but counted once. -/
theorem lopsided_clean_accounted :
    {i | (lopsided.clean .drop .nothing).graph.contains i}.encard = 0 ∧
      (lopsided.lost (lopsided.clean .drop .nothing).graph Node.isData).encard = 1 := by
  obtain ⟨-, hafter, -, hdata, -⟩ := clean_accounted lopsided .drop .nothing
  have hreport : (lopsided.clean .drop .nothing).report = ⟨1, 1, 2, 0⟩ := by decide +kernel
  rw [hafter, hdata, hreport]
  exact ⟨rfl, rfl⟩

end Graph

end Dataflow
