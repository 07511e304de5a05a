import Dataflow.Graph.Basic

/-!
# Building graphs

The requests that add nodes, edges and attributes. Each either succeeds or is refused with a
`Fault`, and what is refused leaves no trace, since no graph is returned.

* `insert_eq_ok_iff`, `connect_eq_ok_iff`, `update_eq_ok_iff`, `setValue_eq_ok_iff` and
  `setShape_eq_ok_iff` say when a request succeeds and what it makes.
* `node?_insert`, `node?_connect` and `node?_update` say what becomes of every node.
-/

namespace Dataflow.Graph

/-! ## Nodes -/

/-- Adds a node under a name that no node bears. -/
def insert (g : Graph) (name : String) (body : Body) : Except Fault (NodeId × Graph) :=
  match g.find? name with
  | some _ => .error (.nameTaken name)
  | none =>
    .ok (g.nodes.next,
      { g with
        nodes := g.nodes.push { name, body }
        names := g.names.insert name g.nodes.next })

/-- Adds an operation. -/
def addOperation (g : Graph) (kind : OpKind) (name : String) : Except Fault (NodeId × Graph) :=
  g.insert name (.operation { kind })

/-- Adds a data node that is computed when the graph runs. -/
def addData (g : Graph) (name : String) : Except Fault (NodeId × Graph) :=
  g.insert name (.data {})

/-- Adds a data node of known value, whose shape is that of the value. -/
def addConstant (g : Graph) (name : String) (v : Literal) : Except Fault (NodeId × Graph) :=
  g.insert name (.data { value := some v, shape := some v.shape })

theorem insert_eq_ok_iff {g h : Graph} {name : String} {body : Body} {i : NodeId} :
    g.insert name body = .ok (i, h) ↔
      g.find? name = none ∧ i = g.nodes.next ∧
        h = { g with
          nodes := g.nodes.push { name, body }
          names := g.names.insert name g.nodes.next } := by
  unfold insert
  cases g.find? name with
  | none => simp [eq_comm]
  | some j => simp

theorem node?_insert {g h : Graph} {name : String} {body : Body} {i : NodeId}
    (hi : g.insert name body = .ok (i, h)) (j : NodeId) :
    h.node? j = if j = i then some { name, body } else g.node? j := by
  obtain ⟨-, rfl, rfl⟩ := insert_eq_ok_iff.1 hi
  exact Arena.get?_push ..

/-! ## Edges -/

/-- What is wrong with an edge from `i` to `j`; of several faults the first in the order of the
checks. -/
def edgeFault? (g : Graph) (i j : NodeId) : Option Fault :=
  match g.node? i, g.node? j with
  | none, _ => some (.missing i)
  | some _, none => some (.missing j)
  | some m, some n =>
    if m.isOperation && n.isOperation then some (.sameSide i j .operation)
    else if m.isData && n.isData then some (.sameSide i j .data)
    else if m.hasKind OpKind.isResult then some (.afterResult i)
    else if n.isData then n.sources.head?.map (.secondProducer j)
    else none

/-- Adds an edge from `i` to `j`, as the next input of `j`. A node that feeds several inputs of
another has it once among its targets. -/
def connect (g : Graph) (i j : NodeId) : Except Fault Graph :=
  match g.edgeFault? i j with
  | some f => .error f
  | none =>
    .ok { g with nodes := (g.nodes.modify i (Node.addTarget j)).modify j (Node.addSource i) }

theorem connect_eq_ok_iff {g h : Graph} {i j : NodeId} :
    g.connect i j = .ok h ↔
      g.edgeFault? i j = none ∧
        h = { g with
          nodes := (g.nodes.modify i (Node.addTarget j)).modify j (Node.addSource i) } := by
  unfold connect
  cases g.edgeFault? i j with
  | none => simp [eq_comm]
  | some f => simp

theorem node?_connect {g h : Graph} {i j : NodeId} (hc : g.connect i j = .ok h) (k : NodeId) :
    h.node? k = (g.node? k).map fun n =>
      let m := if k = i then n.addTarget j else n
      if k = j then m.addSource i else m := by
  obtain ⟨-, rfl⟩ := connect_eq_ok_iff.1 hc
  simp only [node?, Arena.get?_modify]
  cases g.nodes.get? k <;> split <;> split <;> rfl

/-! ## Attributes -/

/-- Changes the node at a position, whatever the change. -/
def update (g : Graph) (i : NodeId) (f : Node → Node) : Except Fault Graph :=
  match g.node? i with
  | none => .error (.missing i)
  | some _ => .ok { g with nodes := g.nodes.modify i f }

theorem update_eq_ok_iff {g h : Graph} {i : NodeId} {f : Node → Node} :
    g.update i f = .ok h ↔ g.contains i ∧ h = { g with nodes := g.nodes.modify i f } := by
  unfold update contains Arena.contains node?
  cases g.nodes.get? i <;> simp [eq_comm]

theorem node?_update {g h : Graph} {i : NodeId} {f : Node → Node} (hu : g.update i f = .ok h)
    (j : NodeId) : h.node? j = if j = i then (g.node? j).map f else g.node? j := by
  obtain ⟨-, rfl⟩ := update_eq_ok_iff.1 hu
  exact Arena.get?_modify ..

/-- Declares a node as an output of the graph. -/
def declareOutput (g : Graph) (i : NodeId) : Except Fault Graph :=
  g.update i fun n => { n with isOutput := true }

/-- Makes the value of a data node known, and its shape with it. A known value stays. -/
def setValue (g : Graph) (i : NodeId) (v : Literal) : Except Fault Graph :=
  match g.node? i with
  | none => .error (.missing i)
  | some { body := .operation _, .. } => .error (.notData i)
  | some { body := .data d, .. } =>
    if d.value.isSome then .error (.valueKnown i)
    else g.update i (Node.mapDatum fun d => { d with value := some v, shape := some v.shape })

theorem setValue_eq_ok_iff {g h : Graph} {i : NodeId} {v : Literal} :
    g.setValue i v = .ok h ↔
      (∃ n d, g.node? i = some n ∧ n.datum? = some d ∧ d.value = none) ∧
        g.update i (Node.mapDatum fun d => { d with value := some v, shape := some v.shape }) =
          .ok h := by
  unfold setValue
  split
  · rename_i hn
    simp [hn]
  · rename_i hn
    simp [hn, Node.datum?]
  · rename_i d _ _ _ _ hn
    cases hv : d.value <;> simp [hn, Node.datum?, hv]

/-- Sets the shape of a data node, which need not be that of its value. -/
def setShape (g : Graph) (i : NodeId) (s : Shape) : Except Fault Graph :=
  match g.node? i with
  | none => .error (.missing i)
  | some { body := .operation _, .. } => .error (.notData i)
  | some { body := .data _, .. } => g.update i (Node.mapDatum fun d => { d with shape := some s })

theorem setShape_eq_ok_iff {g h : Graph} {i : NodeId} {s : Shape} :
    g.setShape i s = .ok h ↔
      (∃ n, g.node? i = some n ∧ n.isData) ∧
        g.update i (Node.mapDatum fun d => { d with shape := some s }) = .ok h := by
  unfold setShape
  split <;> rename_i hn <;> simp [hn, Node.isData, Node.datum?]

/-- Writes attributes of a node without any check but that it is there. -/
def edit (g : Graph) (i : NodeId) (e : NodeEdit) : Except Fault Graph := g.update i e.apply

/-- Puts a whole node, edges and name included, in the place of another. Neither the far ends of its
edges nor the name table take notice. -/
def overwrite (g : Graph) (i : NodeId) (n : Node) : Except Fault Graph := g.update i fun _ => n

/-! ## Comparing -/

/-- Whether two nodes agree in everything. -/
def same (g : Graph) (i j : NodeId) : Except Fault Bool :=
  match g.node i, g.node j with
  | .ok m, .ok n => .ok (m == n)
  | .error f, _ => .error f
  | _, .error f => .error f

/-- Positions at which two graphs differ: where only one has a live node, or their nodes
disagree. -/
def changes (old new : Graph) : List NodeId :=
  (List.range (max old.nodes.next new.nodes.next)).filter fun i => old.node? i != new.node? i

end Dataflow.Graph
