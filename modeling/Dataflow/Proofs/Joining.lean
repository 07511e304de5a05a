import Dataflow.Graph.Command
import Dataflow.Proofs.Linked

/-!
# Which edges are legal

Whatever the graph, an edge is added if and only if nothing bars it, and otherwise nothing changes
and the first reason against it is given (`connect_exact`). `Graph.Bars` states each reason for
itself; its rank says which of several comes first (`edgeFault?_eq_some_iff`).

An edge is written at both of its ends, one after the other. `Graph.joinInSteps` looks each end up
anew, as a request of its own that may be refused when the other end is written already. After the
checks neither is ever refused (`joinInSteps_eq`).
-/

namespace Dataflow

/-- The side of a graph that the node is on. -/
def Node.side (n : Node) : Side := if n.isOperation then .operation else .data

/-- One request after another, unless the first is refused. What the first has changed stays. -/
def Effect.andThen (e : Effect) (next : Graph → Effect) : Effect :=
  match e.reply with
  | .refused _ => e
  | _ => { next e.graph with log := e.log ++ (next e.graph).log }

namespace Graph

variable {g : Graph} {i j : NodeId} {m n : Node} {k l : Nat} {f f' : Fault}

/-! ## Reasons against an edge -/

/-- Something bars an edge from `i` to `j`, for the fault given. Of several faults the one of least
rank comes first. -/
inductive Bars (g : Graph) (i j : NodeId) : Nat → Fault → Prop
  | origin (hi : ¬ g.contains i) : Bars g i j 0 (.missing i)
  | destination (hj : ¬ g.contains j) : Bars g i j 1 (.missing j)
  | sameSide {m n : Node} (hm : g.node? i = some m) (hn : g.node? j = some n)
      (hside : m.isOperation = n.isOperation) : Bars g i j 2 (.sameSide i j m.side)
  | result {m : Node} (hm : g.node? i = some m) (hr : m.hasKind OpKind.isResult) :
      Bars g i j 3 (.afterResult i)
  | produced {n : Node} {p : NodeId} {rest : List NodeId} (hn : g.node? j = some n)
      (hd : n.isData) (hs : n.sources = p :: rest) : Bars g i j 4 (.secondProducer j p)

/-- What bars an edge between live nodes. -/
theorem bars_iff (hm : g.node? i = some m) (hn : g.node? j = some n) :
    g.Bars i j k f ↔
      k = 2 ∧ m.isOperation = n.isOperation ∧ f = .sameSide i j m.side ∨
        k = 3 ∧ m.hasKind OpKind.isResult ∧ f = .afterResult i ∨
        k = 4 ∧ n.isData ∧ ∃ p rest, n.sources = p :: rest ∧ f = .secondProducer j p := by
  constructor
  · intro hb
    cases hb with
    | origin hi => exact absurd (contains_iff.2 ⟨m, hm⟩) hi
    | destination hj => exact absurd (contains_iff.2 ⟨n, hn⟩) hj
    | sameSide hm' hn' hside =>
      cases hm.symm.trans hm'
      cases hn.symm.trans hn'
      exact .inl ⟨rfl, hside, rfl⟩
    | result hm' hr =>
      cases hm.symm.trans hm'
      exact .inr (.inl ⟨rfl, hr, rfl⟩)
    | produced hn' hd hs =>
      cases hn.symm.trans hn'
      exact .inr (.inr ⟨rfl, hd, _, _, hs, rfl⟩)
  · rintro (⟨rfl, hside, rfl⟩ | ⟨rfl, hr, rfl⟩ | ⟨rfl, hd, p, rest, hs, rfl⟩)
    · exact .sameSide hm hn hside
    · exact .result hm hr
    · exact .produced hn hd hs

/-- There is one fault of each rank at most. -/
theorem Bars.unique (h : g.Bars i j k f) (h' : g.Bars i j k f') : f = f' := by
  cases h with
  | origin => cases h'; rfl
  | destination => cases h'; rfl
  | sameSide hm _ _ =>
    cases h' with
    | sameSide hm' _ _ =>
      cases hm.symm.trans hm'
      rfl
  | result => cases h'; rfl
  | produced hn _ hs =>
    cases h' with
    | produced hn' _ hs' =>
      cases hn.symm.trans hn'
      cases hs.symm.trans hs'
      rfl

/-- Nothing bars a legal edge. -/
theorem not_bars_of_edgeFault?_eq_none (hf : g.edgeFault? i j = none) : ¬ g.Bars i j k f := by
  obtain ⟨m, n, hm, hn, hside, hkind, hfree⟩ := edgeFault?_eq_none_iff.1 hf
  rw [bars_iff hm hn]
  rintro (⟨-, hsame, -⟩ | ⟨-, hr, -⟩ | ⟨-, hd, p, rest, hs, -⟩)
  · simp [hsame] at hside
  · simp [hkind] at hr
  · simp [hfree hd] at hs

/-- What the checks find between live nodes. -/
theorem edgeFault?_of_live (hm : g.node? i = some m) (hn : g.node? j = some n)
    (hf : g.edgeFault? i j = some f) :
    m.isOperation = n.isOperation ∧ f = .sameSide i j m.side ∨
      m.isOperation ≠ n.isOperation ∧ m.hasKind OpKind.isResult ∧ f = .afterResult i ∨
      m.isOperation ≠ n.isOperation ∧ ¬ m.hasKind OpKind.isResult ∧ n.isData ∧
        ∃ p rest, n.sources = p :: rest ∧ f = .secondProducer j p := by
  simp only [edgeFault?, hm, hn, Node.isData_eq_not] at hf ⊢
  by_cases hside : m.isOperation = n.isOperation
  · refine .inl ⟨hside, ?_⟩
    cases hno : n.isOperation <;> simp_all [Node.side]
  · have hboth : (m.isOperation && n.isOperation) = false ∧
        (!m.isOperation && !n.isOperation) = false := by
      cases hmo : m.isOperation <;> simp_all
    simp only [hboth, Bool.false_eq_true, if_false] at hf
    split at hf
    · rename_i hr
      exact .inr (.inl ⟨hside, hr, (Option.some.inj hf).symm⟩)
    · rename_i hr
      split at hf
      · rename_i hd
        obtain ⟨p, hp, rfl⟩ := Option.map_eq_some_iff.1 hf
        obtain ⟨rest, hs⟩ := List.head?_eq_some_iff.1 hp
        exact .inr (.inr ⟨hside, hr, hd, p, rest, hs, rfl⟩)
      · cases hf

/-- The fault that the checks find comes before all others. -/
theorem bars_of_edgeFault?_eq_some (hf : g.edgeFault? i j = some f) :
    ∃ k, g.Bars i j k f ∧ ∀ l f', g.Bars i j l f' → k ≤ l := by
  cases hm : g.node? i with
  | none =>
    have hi : ¬ g.contains i := by simp [contains_iff, hm]
    obtain rfl : .missing i = f := by simpa [edgeFault?, hm] using hf
    exact ⟨0, .origin hi, fun l _ _ => Nat.zero_le l⟩
  | some m =>
    cases hn : g.node? j with
    | none =>
      have hj : ¬ g.contains j := by simp [contains_iff, hn]
      obtain rfl : .missing j = f := by simpa [edgeFault?, hm, hn] using hf
      refine ⟨1, .destination hj, fun l f' hb => ?_⟩
      cases hb with
      | origin hi => exact absurd (contains_iff.2 ⟨m, hm⟩) hi
      | _ => omega
    | some n =>
      rcases edgeFault?_of_live hm hn hf with ⟨hside, rfl⟩ | ⟨hside, hr, rfl⟩ |
        ⟨hside, hr, hd, p, rest, hs, rfl⟩
      · refine ⟨2, .sameSide hm hn hside, fun l f' hb => ?_⟩
        rcases (bars_iff hm hn).1 hb with h | h | h <;> omega
      · refine ⟨3, .result hm hr, fun l f' hb => ?_⟩
        rcases (bars_iff hm hn).1 hb with h | h | h
        · exact absurd h.2.1 hside
        · omega
        · omega
      · refine ⟨4, .produced hn hd hs, fun l f' hb => ?_⟩
        rcases (bars_iff hm hn).1 hb with h | h | h
        · exact absurd h.2.1 hside
        · exact absurd h.2.1 hr
        · omega

theorem edgeFault?_eq_some_iff :
    g.edgeFault? i j = some f ↔ ∃ k, g.Bars i j k f ∧ ∀ l f', g.Bars i j l f' → k ≤ l := by
  refine ⟨bars_of_edgeFault?_eq_some, ?_⟩
  rintro ⟨k, hk, hfirst⟩
  cases hf : g.edgeFault? i j with
  | none => exact absurd hk (not_bars_of_edgeFault?_eq_none hf)
  | some f' =>
    obtain ⟨l, hl, hfirst'⟩ := bars_of_edgeFault?_eq_some hf
    obtain rfl : l = k := Nat.le_antisymm (hfirst' k f hk) (hfirst l f' hl)
    rw [hl.unique hk]

/-! ## An edge in steps -/

/-- An edge from `i` to `j` as three requests: the checks, and a write at either end, each of which
looks its node up anew. -/
def joinInSteps (g : Graph) (i j : NodeId) : Effect :=
  (Effect.ofChange g ((g.edgeFault? i j).elim (.ok g) .error)).andThen fun g =>
    (Effect.ofChange g (g.update i (Node.addTarget j))).andThen fun h =>
      Effect.ofChange h (h.update j (Node.addSource i))

/-- Once the checks are passed, no write is refused. -/
theorem joinInSteps_eq (g : Graph) (i j : NodeId) :
    g.joinInSteps i j = (Command.connect i j).exec g := by
  cases hf : g.edgeFault? i j with
  | some f => simp [joinInSteps, Command.exec, connect, Effect.ofChange, Effect.andThen, hf]
  | none =>
    obtain ⟨m, n, hm, hn, -⟩ := edgeFault?_eq_none_iff.1 hf
    have hfirst : g.update i (Node.addTarget j) =
        .ok { g with nodes := g.nodes.modify i (Node.addTarget j) } :=
      update_eq_ok_iff.2 ⟨contains_iff.2 ⟨m, hm⟩, rfl⟩
    -- the first write removes nothing, so the other end is still there for the second
    have hlive : ((g.nodes.modify i (Node.addTarget j)).get? j).isSome := by
      have hj : g.nodes.get? j = some n := hn
      rw [Arena.get?_modify, hj]
      split <;> rfl
    have hsecond : Graph.update { g with nodes := g.nodes.modify i (Node.addTarget j) } j
        (Node.addSource i) = .ok { g with
          nodes := (g.nodes.modify i (Node.addTarget j)).modify j (Node.addSource i) } :=
      update_eq_ok_iff.2 ⟨hlive, rfl⟩
    simp [joinInSteps, Command.exec, connect, Effect.ofChange, Effect.andThen, hf, hfirst, hsecond]

/-! ## Legal edges -/

theorem exec_connect_of_edgeFault?_eq_some (hf : g.edgeFault? i j = some f) :
    (Command.connect i j).exec g = { graph := g, reply := .refused f } := by
  simp only [Command.exec, connect, hf, Effect.ofChange]

theorem exec_connect_of_edgeFault?_eq_none (hf : g.edgeFault? i j = none) :
    (Command.connect i j).exec g =
      { graph := { g with
          nodes := (g.nodes.modify i (Node.addTarget j)).modify j (Node.addSource i) }
        reply := .done } := by
  simp only [Command.exec, connect, hf, Effect.ofChange]

/-- The node at the near end of a new edge. -/
theorem node?_connect_origin {h : Graph} (hc : g.connect i j = .ok h) (hij : i ≠ j)
    (hm : g.node? i = some m) :
    h.node? i = some { m with
      targets := if j ∈ m.targets then m.targets else m.targets ++ [j] } := by
  rw [node?_connect hc, hm, Option.map_some, if_neg hij, if_pos rfl, Node.addTarget]
  split <;> rfl

/-- The node at the far end of a new edge. -/
theorem node?_connect_destination {h : Graph} (hc : g.connect i j = .ok h) (hij : i ≠ j)
    (hn : g.node? j = some n) :
    h.node? j = some ({ n with sources := n.sources ++ [i] }.mapDatum fun d =>
      { d with orphaned := false }) := by
  rw [node?_connect hc, hn, Option.map_some, if_pos rfl, if_neg hij.symm, Node.addSource]

theorem node?_connect_of_ne {h : Graph} {k : NodeId} (hc : g.connect i j = .ok h) (hi : k ≠ i)
    (hj : k ≠ j) : h.node? k = g.node? k := by
  simp only [node?_connect hc, if_neg hi, if_neg hj, Option.map_id']

/-- The ends of an edge that is added are different nodes. -/
theorem ne_of_edgeFault?_eq_none (hf : g.edgeFault? i j = none) : i ≠ j := by
  obtain ⟨m, n, hm, hn, hside, -⟩ := edgeFault?_eq_none_iff.1 hf
  rintro rfl
  cases hm.symm.trans hn
  simp at hside

/-- **An edge is added if nothing bars it, and only then**, in any graph: both ends are live, one of
them is an operation, the origin is no result, and data at the far end has no source yet. Otherwise
the reply is the first reason against the edge, and the graph is left as it was. An edge that is
added is the last of the sources at its far end, which is no orphan from then on; it is the last of
the targets of its origin, unless it is among them already; nothing else changes. Of the writes at
the two ends none is refused once the checks are passed. -/
theorem connect_exact (g : Graph) (i j : NodeId) :
    let e := (Command.connect i j).exec g
    (e.reply = .done ↔ ∃ m n, g.node? i = some m ∧ g.node? j = some n ∧
        m.isOperation ≠ n.isOperation ∧ ¬ m.hasKind OpKind.isResult ∧
        (n.isData → n.sources = [])) ∧
      (∀ f, e.reply = .refused f ↔
        ∃ k, g.Bars i j k f ∧ ∀ l f', g.Bars i j l f' → k ≤ l) ∧
      (e.reply ≠ .done → (∃ f, e.reply = .refused f) ∧ e.graph = g) ∧
      (e.reply = .done → ∀ m n, g.node? i = some m → g.node? j = some n →
        e.graph.node? i = some { m with
          targets := if j ∈ m.targets then m.targets else m.targets ++ [j] } ∧
        e.graph.node? j = some ({ n with sources := n.sources ++ [i] }.mapDatum fun d =>
          { d with orphaned := false }) ∧
        (∀ k, k ≠ i → k ≠ j → e.graph.node? k = g.node? k) ∧
        e.graph.nodes.next = g.nodes.next ∧ e.graph.names = g.names ∧
        e.graph.options = g.options) ∧
      g.joinInSteps i j = e := by
  intro e
  have hlegal : g.edgeFault? i j = none ↔ ∃ m n, g.node? i = some m ∧ g.node? j = some n ∧
      m.isOperation ≠ n.isOperation ∧ ¬ m.hasKind OpKind.isResult ∧
      (n.isData → n.sources = []) := by
    simp only [edgeFault?_eq_none_iff, Bool.eq_not, ne_eq, Bool.not_eq_true]
  cases hf : g.edgeFault? i j with
  | some f =>
    have he : e = { graph := g, reply := .refused f } := exec_connect_of_edgeFault?_eq_some hf
    refine ⟨?_, fun f' => ?_, fun _ => ⟨⟨f, by rw [he]⟩, by rw [he]⟩, fun hdone => ?_,
      joinInSteps_eq g i j⟩
    · rw [← hlegal, hf, he]
      simp
    · rw [← edgeFault?_eq_some_iff, hf, he]
      simp
    · rw [he] at hdone
      cases hdone
  | none =>
    have hc : g.connect i j = .ok e.graph :=
      connect_eq_ok_iff.2 ⟨hf, congrArg Effect.graph (exec_connect_of_edgeFault?_eq_none hf)⟩
    have hreply : e.reply = .done := congrArg Effect.reply (exec_connect_of_edgeFault?_eq_none hf)
    refine ⟨?_, fun f => ?_, absurd hreply, fun _ m n hm hn => ?_, joinInSteps_eq g i j⟩
    · rw [← hlegal, hf, hreply]
      simp
    · rw [← edgeFault?_eq_some_iff, hf, hreply]
      simp
    · have hij : i ≠ j := ne_of_edgeFault?_eq_none hf
      have he : e.graph = { g with
          nodes := (g.nodes.modify i (Node.addTarget j)).modify j (Node.addSource i) } :=
        (connect_eq_ok_iff.1 hc).2
      exact ⟨node?_connect_origin hc hij hm, node?_connect_destination hc hij hn,
        fun k => node?_connect_of_ne hc, by simp [he], by rw [he], by rw [he]⟩

/-- A result with a target, data with two sources of which one was never there, and an operation
whose target does not know of it. -/
def crossroads : Graph :=
  let result : Node := { name := "r", body := .operation { kind := .result }, targets := [9] }
  let fed : Node := { name := "x", body := .data {}, sources := [7, 0] }
  let copy : Node := { name := "a", body := .operation { kind := .identity }, targets := [3] }
  let free : Node := { name := "y", body := .data { orphaned := true } }
  { Graph.empty {} with nodes := (((Arena.empty.push result).push fed).push copy).push free }

/-- Two reasons bar an edge out of the result, of which the first is given. The operation is joined
to its target, which it lists already, and the data loses its orphan mark. -/
theorem crossroads_connect_exact :
    let e := (Command.connect 0 1).exec crossroads
    let h := ((Command.connect 2 3).exec crossroads).graph
    e.reply = .refused (.afterResult 0) ∧ crossroads.Bars 0 1 4 (.secondProducer 1 7) ∧
      e.graph = crossroads ∧
      (∃ n, h.node? 2 = some n ∧ n.targets = [3]) ∧
      ∃ n, h.node? 3 = some n ∧ n.sources = [2] ∧ n.datum?.any (!·.orphaned) := by
  intro e h
  obtain ⟨-, hfirst, hleft, -, -⟩ := connect_exact crossroads 0 1
  obtain ⟨-, -, -, hdone, -⟩ := connect_exact crossroads 2 3
  obtain ⟨horigin, hdestination, -⟩ := hdone rfl _ _ rfl rfl
  have hrefused : e.reply = .refused (.afterResult 0) := by
    refine (hfirst _).2 ⟨3, .result rfl rfl, fun l f' hb => ?_⟩
    rcases (bars_iff rfl rfl).1 hb with ⟨-, hside, -⟩ | ⟨rfl, -⟩ | ⟨rfl, -⟩
    · cases hside
    · omega
    · omega
  have hnot : e.reply ≠ .done := by
    rw [hrefused]
    exact nofun
  exact ⟨hrefused, .produced rfl rfl rfl, (hleft hnot).2, ⟨_, horigin, rfl⟩,
    ⟨_, hdestination, rfl, rfl⟩⟩

end Graph

end Dataflow
