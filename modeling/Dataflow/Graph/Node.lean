import Dataflow.Literal
import Dataflow.OpKind

/-!
# Nodes

A dataflow graph has operations and data nodes. A `Node` is either of them together with its edges:
the nodes that feed it, one for each of its inputs (`sources`), and the nodes that it feeds, each
once (`targets`). Two tags hold what the analyses found out when they last ran: whether an output
needs the node (`needed`), and whether an operation yields constants only (`constant`).
-/

namespace Dataflow

/-- The position at which a graph stores a node. -/
abbrev NodeId := Nat

/-- What only operations have. -/
structure Operation where
  kind : OpKind
  constant : Option Bool := none
  deriving BEq

/-- What only data nodes have. `orphaned` tells a data node whose producer was erased from one that
never had a producer. -/
structure Datum where
  value : Option Literal := none
  shape : Option Shape := none
  orphaned : Bool := false
  deriving BEq

/-- What makes a node an operation or a data node. -/
inductive Body
  | operation (o : Operation)
  | data (d : Datum)
  deriving BEq

/-- An operation or a data node with its edges. -/
structure Node where
  name : String
  body : Body
  sources : List NodeId := []
  targets : List NodeId := []
  isOutput : Bool := false
  needed : Option Bool := none
  deriving BEq

namespace Node

/-! ## Reading -/

def operation? (n : Node) : Option Operation :=
  match n.body with
  | .operation o => some o
  | .data _ => none

def datum? (n : Node) : Option Datum :=
  match n.body with
  | .operation _ => none
  | .data d => some d

def isOperation (n : Node) : Bool := n.operation?.isSome

def isData (n : Node) : Bool := n.datum?.isSome

/-- The kind of an operation. -/
def kind? (n : Node) : Option OpKind := n.operation?.map Operation.kind

/-- The tag of an operation. -/
def constant? (n : Node) : Option Bool := n.operation?.bind Operation.constant

/-- The value of a data node. -/
def value? (n : Node) : Option Literal := n.datum?.bind Datum.value

/-- Whether the node is a data node of known value. -/
def hasValue (n : Node) : Bool := n.value?.isSome

/-- Whether the node is an operation whose kind satisfies `p`. -/
def hasKind (n : Node) (p : OpKind → Bool) : Bool := n.kind?.any p

/-- Whether the node anchors the search for what outputs need. -/
def isAnchor (n : Node) : Bool := n.isOutput || n.hasKind OpKind.isResult

/-- Whether the node is a data node that lost its producer and has nothing to offer instead. -/
def isStranded (n : Node) : Bool :=
  n.datum?.any fun d => d.orphaned && d.value.isNone && n.sources.isEmpty

/-- Whether the node is a constant that no operation produces. -/
def isLeaf (n : Node) : Bool := n.sources.isEmpty && n.hasValue

/-- The nodes at the other ends of the edges, one for each edge entry. -/
def neighbours (n : Node) : List NodeId := n.sources ++ n.targets

/-- The number of edge entries. -/
def degree (n : Node) : Nat := n.neighbours.length

/-- What the node is: the name of its kind, or that it is data, with the value if that is known. -/
def caption (n : Node) : String :=
  match n.body with
  | .operation o => o.kind.name
  | .data { value := some v, .. } => "Data(" ++ v.text ++ ")"
  | .data { value := none, .. } => "Data"

/-- The name with the caption in front of it, and with `OUT:` in front of declared outputs. -/
def label (n : Node) : String :=
  (if n.isOutput then "OUT:" else "") ++ n.caption ++ ":" ++ n.name

/-! ## Writing -/

/-- Changes what only operations have; a data node stays as it is. -/
def mapOperation (f : Operation → Operation) (n : Node) : Node :=
  match n.body with
  | .operation o => { n with body := .operation (f o) }
  | .data _ => n

/-- Changes what only data nodes have; an operation stays as it is. -/
def mapDatum (f : Datum → Datum) (n : Node) : Node :=
  match n.body with
  | .operation _ => n
  | .data d => { n with body := .data (f d) }

/-- Adds an input fed by `i`; a data node that is fed is no orphan. -/
def addSource (i : NodeId) (n : Node) : Node :=
  { n with sources := n.sources ++ [i] }.mapDatum fun d => { d with orphaned := false }

/-- Adds `i` to the nodes that this one feeds, unless it is among them. -/
def addTarget (i : NodeId) (n : Node) : Node :=
  if i ∈ n.targets then n else { n with targets := n.targets ++ [i] }

/-- Drops every edge entry for `i`. -/
def detach (i : NodeId) (n : Node) : Node :=
  { n with sources := n.sources.filter (· != i), targets := n.targets.filter (· != i) }

/-- Marks a data node as having lost its producer. -/
def orphan (n : Node) : Node := n.mapDatum fun d => { d with orphaned := true }

section Map

variable (f : Operation → Operation) (h : Datum → Datum) (n : Node)

@[simp] theorem name_mapOperation : (n.mapOperation f).name = n.name := by
  unfold mapOperation
  split <;> rfl

@[simp] theorem sources_mapOperation : (n.mapOperation f).sources = n.sources := by
  unfold mapOperation
  split <;> rfl

@[simp] theorem targets_mapOperation : (n.mapOperation f).targets = n.targets := by
  unfold mapOperation
  split <;> rfl

@[simp] theorem isOutput_mapOperation : (n.mapOperation f).isOutput = n.isOutput := by
  unfold mapOperation
  split <;> rfl

@[simp] theorem needed_mapOperation : (n.mapOperation f).needed = n.needed := by
  unfold mapOperation
  split <;> rfl

@[simp] theorem operation?_mapOperation :
    (n.mapOperation f).operation? = n.operation?.map f := by
  obtain ⟨_, _ | _, _, _, _, _⟩ := n <;> rfl

@[simp] theorem isOperation_mapOperation :
    (n.mapOperation f).isOperation = n.isOperation := by
  rw [isOperation, operation?_mapOperation, Option.isSome_map, isOperation]

@[simp] theorem datum?_mapOperation : (n.mapOperation f).datum? = n.datum? := by
  obtain ⟨_, _ | _, _, _, _, _⟩ := n <;> rfl

@[simp] theorem name_mapDatum : (n.mapDatum h).name = n.name := by
  unfold mapDatum
  split <;> rfl

@[simp] theorem sources_mapDatum : (n.mapDatum h).sources = n.sources := by
  unfold mapDatum
  split <;> rfl

@[simp] theorem targets_mapDatum : (n.mapDatum h).targets = n.targets := by
  unfold mapDatum
  split <;> rfl

@[simp] theorem isOutput_mapDatum : (n.mapDatum h).isOutput = n.isOutput := by
  unfold mapDatum
  split <;> rfl

@[simp] theorem needed_mapDatum : (n.mapDatum h).needed = n.needed := by
  unfold mapDatum
  split <;> rfl

@[simp] theorem operation?_mapDatum : (n.mapDatum h).operation? = n.operation? := by
  obtain ⟨_, _ | _, _, _, _, _⟩ := n <;> rfl

@[simp] theorem isOperation_mapDatum : (n.mapDatum h).isOperation = n.isOperation := by
  rw [isOperation, operation?_mapDatum, isOperation]

@[simp] theorem datum?_mapDatum : (n.mapDatum h).datum? = n.datum?.map h := by
  obtain ⟨_, _ | _, _, _, _, _⟩ := n <;> rfl

/-- What the change does not touch stays. -/
theorem mapOperation_eq_self {f : Operation → Operation} {n : Node}
    (h : ∀ o, n.operation? = some o → f o = o) : n.mapOperation f = n := by
  obtain ⟨_, o | _, _, _, _, _⟩ := n
  · simp only [mapOperation, h o rfl]
  · rfl

theorem mapOperation_of_not_isOperation {n : Node} (f : Operation → Operation)
    (h : ¬ n.isOperation) : n.mapOperation f = n :=
  mapOperation_eq_self fun _ ho => absurd (Option.isSome_iff_exists.2 ⟨_, ho⟩) h

end Map

theorem isData_eq_not (n : Node) : n.isData = !n.isOperation := by
  obtain ⟨_, _ | _, _, _, _, _⟩ := n <;> rfl

theorem isOperation_of_hasKind {n : Node} {q : OpKind → Bool} (h : n.hasKind q) :
    n.isOperation := by
  obtain ⟨_, _ | _, _, _, _, _⟩ := n
  · rfl
  · cases h

theorem isOperation_of_hasValue {n : Node} (h : n.hasValue) : n.isOperation = false := by
  obtain ⟨_, _ | _, _, _, _, _⟩ := n
  · cases h
  · rfl

theorem hasKind_of_hasValue {n : Node} {q : OpKind → Bool} (h : n.hasValue) :
    n.hasKind q = false := by
  obtain ⟨_, _ | _, _, _, _, _⟩ := n
  · cases h
  · rfl

theorem isOperation_of_datum? {n : Node} {d : Datum} (h : n.datum? = some d) :
    n.isOperation = false := by
  obtain ⟨_, _ | _, _, _, _, _⟩ := n
  · cases h
  · rfl

theorem degree_mapDatum (f : Datum → Datum) (n : Node) : (n.mapDatum f).degree = n.degree := by
  simp [degree, neighbours]

theorem degree_detach_le (i : NodeId) (n : Node) : (n.detach i).degree ≤ n.degree := by
  rw [degree, degree, neighbours, neighbours, List.length_append, List.length_append]
  exact Nat.add_le_add (List.length_filter_le ..) (List.length_filter_le ..)

end Node

/-- Changes to the attributes of a node that its owner may write at any time. `none` leaves an
attribute as it is; `kind` and `constant` concern operations only, `shape` data nodes only. -/
structure NodeEdit where
  isOutput : Option Bool := none
  needed : Option (Option Bool) := none
  kind : Option OpKind := none
  constant : Option (Option Bool) := none
  shape : Option (Option Shape) := none

/-- The node after an edit. -/
def NodeEdit.apply (e : NodeEdit) (n : Node) : Node :=
  let tagged :=
    { n with isOutput := e.isOutput.getD n.isOutput, needed := e.needed.getD n.needed }
  (tagged.mapOperation fun o =>
    { o with kind := e.kind.getD o.kind, constant := e.constant.getD o.constant }).mapDatum fun d =>
    { d with shape := e.shape.getD d.shape }

end Dataflow
