import Dataflow.Proofs.Accounts
import Dataflow.Proofs.Built

/-!
# What yields constants

The tag of an operation depends on its kind and on what it feeds, one step away. In any graph,
tagging sets it to exactly that and changes nothing else (`tagConstant_exact`).

Where the ends of edges agree, what an operation feeds are the data nodes that it produces
(`Linked.yieldsConstants_iff`). So a value that becomes known concerns the tag of one operation, the
producer, and can only set it (`Linked.constantTag_setValue`).
-/

namespace Dataflow

namespace Node

theorem hasKind_not_isParameter_iff {n : Node} {o : Operation} (ho : n.operation? = some o) :
    n.hasKind (fun k => !k.isParameter) ↔ o.kind ≠ .parameter := by
  simp [hasKind, kind?, ho, OpKind.isParameter]

theorem hasValue_iff {n : Node} : n.hasValue ↔ ∃ d, n.datum? = some d ∧ d.value.isSome := by
  cases hd : n.datum? <;> simp [hasValue, value?, hd]

end Node

namespace Graph

variable {g h : Graph} {i j : NodeId} {n : Node} {o : Operation} {v : Literal}

/-! ## Tags -/

/-- The tag that tagging anew gives to the operation at `i`, and nothing for data. -/
def constantTag (g : Graph) (i : NodeId) : Option Bool :=
  (g.tagConstant.node? i).bind Node.constant?

theorem node?_tagConstant_of_operation? (hn : g.node? i = some n) (ho : n.operation? = some o) :
    g.tagConstant.node? i = some { n with
      body := .operation { o with constant := some (decide (g.YieldsConstants n)) } } := by
  rw [node?_tagConstant, hn, Option.map_some]
  obtain ⟨_, o' | _, _, _, _, _⟩ := n
  · cases ho
    rfl
  · cases ho

theorem node?_tagConstant_of_isData (hn : g.node? i = some n) (hd : n.isData) :
    g.tagConstant.node? i = some n := by
  rw [node?_tagConstant, hn, Option.map_some]
  obtain ⟨_, _ | _, _, _, _, _⟩ := n
  · cases hd
  · rfl

theorem constantTag_of_isOperation (hn : g.node? i = some n) (ho : n.isOperation) :
    g.constantTag i = some (decide (g.YieldsConstants n)) := by
  obtain ⟨o, ho⟩ := Option.isSome_iff_exists.1 ho
  rw [constantTag, node?_tagConstant_of_operation? hn ho]
  rfl

theorem constantTag_eq_none (hi : ∀ n, g.node? i = some n → ¬ n.isOperation) :
    g.constantTag i = none := by
  cases hn : g.node? i with
  | none => rw [constantTag, node?_tagConstant, hn, Option.map_none, Option.bind_none]
  | some n =>
    have ho : n.operation? = none := Option.not_isSome_iff_eq_none.1 (hi n hn)
    simp [constantTag, node?_tagConstant, hn, Node.constant?, ho]

theorem constantTag_eq_true_iff :
    g.constantTag i = some true ↔ ∃ n, g.node? i = some n ∧ (n.isOperation && g.judge n) := by
  by_cases hop : ∃ n, g.node? i = some n ∧ n.isOperation
  · obtain ⟨n, hn, ho⟩ := hop
    rw [constantTag_of_isOperation hn ho, Option.some.injEq, ← judge_eq]
    simp [hn, ho]
  · rw [constantTag_eq_none fun n hn ho => hop ⟨n, hn, ho⟩]
    refine iff_of_false (fun h => nomatch h) ?_
    rintro ⟨n, hn, hj⟩
    exact hop ⟨n, hn, (Bool.and_eq_true_iff.1 hj).1⟩

theorem encard_idsWhere (g : Graph) (q : Node → Bool) :
    {i | ∃ n, g.node? i = some n ∧ q n}.encard = (g.idsWhere q).length := by
  have hset : {i | ∃ n, g.node? i = some n ∧ q n} = {i | i ∈ g.idsWhere q} := by
    ext i
    exact mem_idsWhere.symm
  rw [hset, encard_setOf_mem ((g.idsWhere_pairwise q).imp Nat.ne_of_lt)]

/-! ## Producers -/

/-- In a linked graph, an operation feeds the data that it produces. -/
theorem Linked.yieldsConstants_iff (hg : g.Linked) (hn : g.node? i = some n) (ho : n.isOperation) :
    g.YieldsConstants n ↔ n.hasKind (fun k => !k.isParameter) ∧
      (∃ j m, g.node? j = some m ∧ m.isData ∧ m.sources = [i]) ∧
      ∀ j m, g.node? j = some m → m.isData → m.sources = [i] → m.hasValue := by
  have htarget : ∀ j, j ∈ n.targets ↔ ∃ m, g.node? j = some m ∧ m.isData ∧ m.sources = [i] := by
    intro j
    constructor
    · intro hj
      obtain ⟨m, hm, -⟩ := hg.source_of_target hn hj
      have hd : m.isData := by
        rw [Node.isData_eq_not, hg.bipartite_target hn hm hj, ho]
        rfl
      exact ⟨m, hm, hd, (hg.mem_targets_iff_sources_eq hn hm hd).1 hj⟩
    · rintro ⟨m, hm, hd, hs⟩
      exact (hg.mem_targets_iff_sources_eq hn hm hd).2 hs
  refine and_congr_right fun _ => and_congr ?_ ?_
  · rw [Ne, List.eq_nil_iff_forall_not_mem, not_forall_not]
    exact exists_congr htarget
  · constructor
    · intro hall j m hm hd hs
      obtain ⟨m', hm', hv⟩ := hall j ((htarget j).2 ⟨m, hm, hd, hs⟩)
      cases hm.symm.trans hm'
      exact hv
    · intro hall j hj
      obtain ⟨m, hm, hd, hs⟩ := (htarget j).1 hj
      exact ⟨m, hm, hall j m hm hd hs⟩

/-! ## A value that becomes known -/

theorem node?_setValue (hs : g.setValue j v = .ok h) :
    (∃ m d, g.node? j = some m ∧ m.datum? = some d ∧ d.value = none) ∧
      ∀ k, h.node? k = if k = j then (g.node? k).map (Node.mapDatum fun d =>
        { d with value := some v, shape := some v.shape }) else g.node? k :=
  (setValue_eq_ok_iff.1 hs).imp id node?_update

theorem node?_setValue_iff_of_isOperation (hs : g.setValue j v = .ok h) (ho : n.isOperation) :
    h.node? i = some n ↔ g.node? i = some n := by
  obtain ⟨⟨m, d, hm, hd, -⟩, hnode⟩ := node?_setValue hs
  rw [hnode]
  by_cases hi : i = j
  · have hdata : m.isOperation = false := Node.isOperation_of_datum? hd
    rw [hi, if_pos rfl, hm, Option.map_some]
    constructor <;> rintro ⟨⟩ <;> simp_all [Node.isOperation]
  · rw [if_neg hi]

/-- Exactly one more value is known. -/
theorem known_setValue_iff (hs : g.setValue j v = .ok h) :
    (∃ m, h.node? i = some m ∧ m.hasValue) ↔ i = j ∨ ∃ m, g.node? i = some m ∧ m.hasValue := by
  obtain ⟨⟨m, d, hm, hd, -⟩, hnode⟩ := node?_setValue hs
  rw [hnode]
  by_cases hi : i = j
  · simp [hi, hm, Node.hasValue, Node.value?, hd]
  · simp [hi]

theorem yieldsConstants_setValue_iff (hs : g.setValue j v = .ok h) :
    h.YieldsConstants n ↔ n.hasKind (fun k => !k.isParameter) ∧ n.targets ≠ [] ∧
      ∀ k ∈ n.targets, k = j ∨ ∃ m, g.node? k = some m ∧ m.hasValue := by
  simp only [YieldsConstants, known_setValue_iff hs]

/-- What yields constants still does. -/
theorem YieldsConstants.setValue (hs : g.setValue j v = .ok h) (hy : g.YieldsConstants n) :
    h.YieldsConstants n :=
  (yieldsConstants_setValue_iff hs).2 ⟨hy.1, hy.2.1, fun k hk => .inr (hy.2.2 k hk)⟩

/-- What yields constants from then on yields the data of the new value. -/
theorem mem_targets_of_yieldsConstants_setValue (hs : g.setValue j v = .ok h)
    (hh : h.YieldsConstants n) (hg : ¬ g.YieldsConstants n) : j ∈ n.targets := by
  obtain ⟨hk, ht, hall⟩ := (yieldsConstants_setValue_iff hs).1 hh
  by_contra hj
  exact hg ⟨hk, ht, fun k hkt => (hall k hkt).resolve_left (ne_of_mem_of_not_mem hkt hj)⟩

/-- A value that becomes known can only set the tag of one operation, which produces it. -/
theorem Linked.constantTag_setValue (hg : g.Linked) (hs : g.setValue j v = .ok h)
    (hi : h.constantTag i ≠ g.constantTag i) :
    (∃ m, g.node? j = some m ∧ m.sources = [i]) ∧ g.constantTag i = some false ∧
      h.constantTag i = some true := by
  have hkept : ∀ n, n.isOperation → (h.node? i = some n ↔ g.node? i = some n) :=
    fun n => node?_setValue_iff_of_isOperation hs
  -- The operations are the same nodes in both graphs, so their tags differ by what is known only.
  by_cases hop : ∃ n, g.node? i = some n ∧ n.isOperation
  · obtain ⟨n, hn, ho⟩ := hop
    have hgt : g.constantTag i = some (decide (g.YieldsConstants n)) :=
      constantTag_of_isOperation hn ho
    have hht : h.constantTag i = some (decide (h.YieldsConstants n)) :=
      constantTag_of_isOperation ((hkept n ho).2 hn) ho
    obtain ⟨⟨m, d, hm, hd, -⟩, -⟩ := node?_setValue hs
    rw [hgt, hht, Ne, Option.some.injEq, decide_eq_decide] at hi
    by_cases hy : g.YieldsConstants n
    · exact absurd (iff_of_true (hy.setValue hs) hy) hi
    · have hh : h.YieldsConstants n := by
        by_contra hh
        exact hi (iff_of_false hh hy)
      have hj : j ∈ n.targets := mem_targets_of_yieldsConstants_setValue hs hh hy
      have hdata : m.isData := by simp [Node.isData, hd]
      refine ⟨⟨m, hm, (hg.mem_targets_iff_sources_eq hn hm hdata).1 hj⟩, ?_, ?_⟩
      · rw [hgt, decide_eq_false hy]
      · rw [hht, decide_eq_true hh]
  · rw [constantTag_eq_none fun n hn ho => hop ⟨n, hn, ho⟩,
      constantTag_eq_none fun n hn ho => hop ⟨n, (hkept n ho).1 hn, ho⟩] at hi
    exact absurd rfl hi

/-! ## The whole graph -/

/-- **Tags are exact, and local to the producer.** In any graph, whatever its tags were, an
operation is tagged as yielding constants if it does not feed the graph, has targets, and all of
these are live data of known value; nothing else changes, and the event tells the number of such
operations. In a graph that commands build they are the operations that produce data, all of it of
known value, and a value that becomes known can only set the tag of the producer. -/
theorem tagConstant_exact (g : Graph) :
    let e := Command.tagConstant.exec g
    (∀ i n o, g.node? i = some n → n.operation? = some o → ∃ b,
      e.graph.node? i = some { n with body := .operation { o with constant := some b } } ∧
        (b ↔ o.kind ≠ .parameter ∧ n.targets ≠ [] ∧ ∀ j ∈ n.targets,
          ∃ m d, g.node? j = some m ∧ m.datum? = some d ∧ d.value.isSome)) ∧
      (∀ i, (∀ n, g.node? i = some n → n.isData) → e.graph.node? i = g.node? i) ∧
      e.graph.nodes.next = g.nodes.next ∧ e.graph.names = g.names ∧
      e.graph.options = g.options ∧
      (∃ count, e.log = [.constants count] ∧
        {i | ∃ n, e.graph.node? i = some n ∧ n.constant? = some true}.encard = count) ∧
      (g.Built →
        (∀ i n o, g.node? i = some n → n.operation? = some o →
          (g.constantTag i = some true ↔ o.kind ≠ .parameter ∧
            (∃ j m, g.node? j = some m ∧ m.isData ∧ m.sources = [i]) ∧
            ∀ j m, g.node? j = some m → m.isData → m.sources = [i] → m.hasValue)) ∧
        ∀ j v h, g.setValue j v = .ok h → ∀ i, h.constantTag i ≠ g.constantTag i →
          (∃ m, g.node? j = some m ∧ m.sources = [i]) ∧ g.constantTag i = some false ∧
            h.constantTag i = some true) := by
  intro e
  refine ⟨fun i n o hn ho => ⟨_, node?_tagConstant_of_operation? hn ho, ?_⟩, fun i hi => ?_,
    g.next_tagConstant, g.names_tagConstant, g.options_tagConstant, ⟨g.classify.2, rfl, ?_⟩,
    fun hg => ⟨fun i n o hn ho => ?_, ?_⟩⟩
  · rw [decide_eq_true_iff, YieldsConstants, Node.hasKind_not_isParameter_iff ho]
    simp only [Node.hasValue_iff, ← exists_and_left]
  · cases hn : g.node? i with
    | none => exact (node?_tagConstant g i).trans (by rw [hn, Option.map_none])
    | some n => exact node?_tagConstant_of_isData hn (hi n hn)
  · have hset : {i | ∃ n, e.graph.node? i = some n ∧ n.constant? = some true} =
        {i | ∃ n, g.node? i = some n ∧ (n.isOperation && g.judge n)} := by
      ext i
      exact Option.bind_eq_some_iff.symm.trans constantTag_eq_true_iff
    rw [hset, encard_idsWhere, classify_count]
  · have hop : n.isOperation := by simp [Node.isOperation, ho]
    rw [constantTag_of_isOperation hn hop, Option.some.injEq, decide_eq_true_iff,
      hg.linked.yieldsConstants_iff hn hop, Node.hasKind_not_isParameter_iff ho]
  · exact fun j v h hs i => hg.linked.constantTag_setValue hs

/-- An operation yields a constant and unknown data. The latter goes into what feeds the graph,
which yields unknown data too. A third operation yields nothing, but is tagged as if it did. -/
def ripening : List Command :=
  [.addOperation .identity "split", .addConstant "x" ⟨[0, 13], #[], rfl⟩, .addData "y",
    .connect 0 1, .connect 0 2, .addOperation .parameter "p", .addData "z", .connect 3 4,
    .connect 2 3, .addOperation .const "c", .edit 5 { constant := some (some true) }]

/-- Tagging anew corrects the third. A value for what the first one yields sets its tag, and changes
no other. -/
theorem ripening_tagConstant_exact :
    let g := ((Graph.empty {}).runCommands ripening).1
    let e := Command.tagConstant.exec g
    let h := ((Command.setValue 2 ⟨[0, 13], #[], rfl⟩).exec g).graph
    (∃ n, e.graph.node? 5 = some n ∧ n.constant? = some false) ∧
      g.constantTag 0 = some false ∧ h.constantTag 0 = some true ∧
      ∀ i, i ≠ 0 → h.constantTag i = g.constantTag i := by
  intro g e h
  obtain ⟨htag, -, -, -, -, -, hbuilt⟩ := tagConstant_exact g
  obtain ⟨-, hlocal⟩ := hbuilt ⟨{}, ripening, rfl⟩
  have hs : g.setValue 2 ⟨[0, 13], #[], rfl⟩ = .ok h := rfl
  obtain ⟨n, o, hn, ho, ht⟩ :
      ∃ n o, g.node? 5 = some n ∧ n.operation? = some o ∧ n.targets = [] := by
    simpa [Option.any_eq_true, Option.isSome_iff_exists] using
      (show (g.node? 5).any fun n => n.operation?.isSome && n.targets == [] by decide +kernel)
  obtain ⟨b, hb, hiff⟩ := htag 5 n o hn ho
  obtain ⟨-, hbefore, hafter⟩ := hlocal 2 _ h hs 0 (by decide +kernel)
  refine ⟨⟨_, hb, ?_⟩, hbefore, hafter, fun i hi => ?_⟩
  · rw [show b = false from Bool.eq_false_iff.2 fun htrue => (hiff.1 htrue).2.1 ht]
    rfl
  · by_contra hne
    obtain ⟨⟨m, hm, hproducer⟩, -⟩ := hlocal 2 _ h hs i hne
    have hfirst : (g.node? 2).all fun m => m.sources == [0] := by decide +kernel
    rw [hm, Option.all_some, hproducer, beq_iff_eq] at hfirst
    exact hi (List.singleton_inj.1 hfirst)

end Graph

end Dataflow
