import Dataflow.Graph.Command
import Dataflow.Proofs.Sweeps

/-!
# Graphs that commands build

`Command.exec_induct` sums up what a command can make of a graph: it leaves the graph as it was,
adds the node that was asked for (`Command.newcomer?`) or an edge, rewrites nodes where they are
(`Graph.Rewrites`), erases a node or cleans up (`Command.cleaning?`).
Whatever each of these keeps is kept by every command, refused ones included, and so it holds of
every graph that commands build (`Built.induct`). This way all of them are linked (`Built.linked`).
-/

namespace Dataflow

namespace Effect

variable {g : Graph} {P : Graph → Prop}

/-- A request for a new node leaves the graph as it was, or gives the graph that was asked for. -/
theorem ofAdded_induct {r : Except Fault (NodeId × Graph)} (hg : P g)
    (hr : ∀ i h, r = .ok (i, h) → P h) : P (ofAdded g r).graph := by
  cases r with
  | error f => exact hg
  | ok x => exact hr x.1 x.2 rfl

/-- A request for a change leaves the graph as it was, or gives the graph that was asked for. -/
theorem ofChange_induct {r : Except Fault Graph} (hg : P g) (hr : ∀ h, r = .ok h → P h) :
    P (ofChange g r).graph := by
  cases r with
  | error f => exact hg
  | ok h => exact hr h rfl

end Effect

namespace Node

/-- Whether a data node is marked as an orphan. -/
def orphaned? (n : Node) : Option Bool := n.datum?.map Datum.orphaned

/-- `m` is `n` after a write to its attributes, which leaves the name, the edges, the orphan mark
and a known value as they are. -/
structure Rewrites (m n : Node) : Prop where
  name : m.name = n.name
  wiring : m.wiring = n.wiring
  orphaned? : m.orphaned? = n.orphaned?
  value? : n.hasValue → m.value? = n.value?

theorem Rewrites.refl (n : Node) : n.Rewrites n := ⟨rfl, rfl, rfl, fun _ => rfl⟩

theorem Rewrites.sources {m n : Node} (h : m.Rewrites n) : m.sources = n.sources :=
  congrArg (fun w => w.2.1) h.wiring

theorem Rewrites.targets {m n : Node} (h : m.Rewrites n) : m.targets = n.targets :=
  congrArg (fun w => w.2.2) h.wiring

variable (n : Node)

theorem kind?_mapDatum (f : Datum → Datum) : (n.mapDatum f).kind? = n.kind? := by
  simp [kind?]

theorem kind?_mapOperation {f : Operation → Operation} (hf : ∀ o, (f o).kind = o.kind) :
    (n.mapOperation f).kind? = n.kind? := by
  rw [kind?, kind?, operation?_mapOperation, Option.map_map]
  exact congrArg (Option.map · _) (funext hf)

theorem rewrites_mapOperation (f : Operation → Operation) : (n.mapOperation f).Rewrites n where
  name := name_mapOperation f n
  wiring := wiring_mapOperation f n
  orphaned? := by simp [Node.orphaned?]
  value? := by simp [Node.value?]

theorem rewrites_setIsOutput (b : Bool) : Rewrites { n with isOutput := b } n :=
  ⟨rfl, rfl, rfl, fun _ => rfl⟩

/-- A change to data that leaves orphan marks and known values alone rewrites every node. -/
theorem rewrites_mapDatum {f : Datum → Datum} (ho : ∀ d, (f d).orphaned = d.orphaned)
    (hv : ∀ d, n.datum? = some d → d.value.isSome → (f d).value = d.value) :
    (n.mapDatum f).Rewrites n where
  name := name_mapDatum f n
  wiring := wiring_mapDatum f n
  orphaned? := by
    rw [Node.orphaned?, Node.orphaned?, datum?_mapDatum, Option.map_map]
    exact congrArg (Option.map · _) (funext ho)
  value? := by
    intro hn
    cases hd : n.datum? with
    | none => simp [value?, hd]
    | some d =>
      have hs : d.value.isSome := by simpa [hasValue, value?, hd] using hn
      simp [value?, hd, hv d hd hs]

theorem rewrites_apply (e : NodeEdit) : (e.apply n).Rewrites n where
  name := by simp [NodeEdit.apply]
  wiring := wiring_apply e n
  orphaned? := by
    simp only [NodeEdit.apply, Node.orphaned?, datum?_mapDatum, datum?_mapOperation,
      Option.map_map]
    rfl
  value? := by
    intro _
    simp only [NodeEdit.apply, value?, datum?_mapDatum, datum?_mapOperation, Option.bind_map]
    rfl

end Node

namespace Graph

variable {g h : Graph} {i : NodeId}

/-- `h` is `g` with nodes rewritten where they are. -/
structure Rewrites (h g : Graph) : Prop where
  next : h.nodes.next = g.nodes.next
  names : h.names = g.names
  node? (i : NodeId) : Option.Rel Node.Rewrites (h.node? i) (g.node? i)

/-- The operations of `h` are of the same kinds as those of `g`. -/
def SameKinds (h g : Graph) : Prop :=
  ∀ i, (h.node? i).bind Node.kind? = (g.node? i).bind Node.kind?

theorem Rewrites.exists_of_node? (hw : h.Rewrites g) {m : Node} (hm : h.node? i = some m) :
    ∃ n, g.node? i = some n ∧ m.Rewrites n := by
  match g.node? i, hm ▸ hw.node? i with
  | _, .some hmn => exact ⟨_, rfl, hmn⟩

/-- What rewriting a node leaves as it is, it leaves at every position. -/
theorem Rewrites.map_eq {α : Type} {f : Node → α} (hw : h.Rewrites g)
    (hf : ∀ m n : Node, m.Rewrites n → f m = f n) (i : NodeId) :
    (h.node? i).map f = (g.node? i).map f := by
  match h.node? i, g.node? i, hw.node? i with
  | _, _, .none => rfl
  | _, _, .some hmn => exact congrArg some (hf _ _ hmn)

theorem Rewrites.wiring (hw : h.Rewrites g) (i : NodeId) :
    (h.node? i).map Node.wiring = (g.node? i).map Node.wiring :=
  hw.map_eq (fun _ _ => Node.Rewrites.wiring) i

theorem Rewrites.of_map {f : NodeId → Node → Node} (hnext : h.nodes.next = g.nodes.next)
    (hnames : h.names = g.names) (hmap : ∀ i, h.node? i = (g.node? i).map (f i))
    (hf : ∀ i n, g.node? i = some n → (f i n).Rewrites n) : h.Rewrites g := by
  refine ⟨hnext, hnames, fun i => ?_⟩
  rw [hmap]
  cases hn : g.node? i with
  | none => exact .none
  | some n => exact .some (hf i n hn)

theorem Rewrites.setOptions (g : Graph) (o : Options) : Rewrites { g with options := o } g :=
  .of_map rfl rfl (fun _ => Option.map_id_apply.symm) fun _ n _ => .refl n

theorem SameKinds.of_map {f : NodeId → Node → Node}
    (hmap : ∀ i, h.node? i = (g.node? i).map (f i))
    (hf : ∀ i n, g.node? i = some n → (f i n).kind? = n.kind?) : h.SameKinds g := by
  intro i
  rw [hmap]
  cases hn : g.node? i with
  | none => rfl
  | some n => exact hf i n hn

/-- A change of the node at `i` that rewrites it, and leaves its kind alone if `kept` holds. -/
theorem rewrites_update {f : Node → Node} {kept : Prop}
    (hf : ∀ n, g.node? i = some n → (f n).Rewrites n ∧ (kept → (f n).kind? = n.kind?))
    (hu : g.update i f = .ok h) : h.Rewrites g ∧ (kept → h.SameKinds g) := by
  have hmap : ∀ j, h.node? j = (g.node? j).map fun n => if j = i then f n else n := by
    intro j
    rw [node?_update hu]
    split
    · rfl
    · exact Option.map_id_apply.symm
  obtain ⟨-, rfl⟩ := update_eq_ok_iff.1 hu
  refine ⟨.of_map (Arena.next_modify ..) rfl hmap fun j n hn => ?_,
    fun hk => .of_map hmap fun j n hn => ?_⟩
  · split
    · rename_i hj
      exact (hf n (hj ▸ hn)).1
    · exact .refl n
  · split
    · rename_i hj
      exact (hf n (hj ▸ hn)).2 hk
    · rfl

theorem rewrites_tagNeeded (g : Graph) : g.tagNeeded.Rewrites g :=
  .of_map g.next_tagNeeded g.names_tagNeeded g.node?_tagNeeded
    fun _ _ _ => ⟨rfl, rfl, rfl, fun _ => rfl⟩

theorem sameKinds_tagNeeded (g : Graph) : g.tagNeeded.SameKinds g :=
  .of_map g.node?_tagNeeded fun _ _ _ => rfl

theorem rewrites_tagConstant (g : Graph) : g.tagConstant.Rewrites g :=
  .of_map g.next_tagConstant g.names_tagConstant g.node?_tagConstant
    fun _ n _ => n.rewrites_mapOperation _

theorem sameKinds_tagConstant (g : Graph) : g.tagConstant.SameKinds g :=
  .of_map g.node?_tagConstant fun _ n _ => n.kind?_mapOperation fun _ => rfl

end Graph

namespace Command

/-- Whether a command leaves the kinds of all operations as they are. Only an edit can change
one. -/
def keepsKind (g : Graph) : Command → Bool
  | .edit i e => (g.node? i).all fun n => (e.apply n).kind? == n.kind?
  | _ => true

/-- The name and the body of the node that a command asks for. -/
def newcomer? : Command → Option (String × Body)
  | .addOperation kind name => some (name, .operation { kind })
  | .addData name => some (name, .data {})
  | .addConstant name v => some (name, .data { value := some v, shape := some v.shape })
  | _ => none

theorem exec_of_newcomer? {c : Command} {name : String} {body : Body}
    (hc : c.newcomer? = some (name, body)) (g : Graph) :
    c.exec g = .ofAdded g (g.insert name body) := by
  cases c <;> cases hc <;> rfl

/-- No command asks for an orphan. -/
theorem orphaned_of_newcomer? {c : Command} {name : String} {d : Datum}
    (hc : c.newcomer? = some (name, .data d)) : d.orphaned = false := by
  cases c <;> cases hc <;> rfl

/-- The rule and the policy of the clean-up that a command asks for. -/
def cleaning? (g : Graph) : Command → Option (LeafRule × Policy)
  | .clean => some (g.options.leaves, g.options.policy)
  | .cleanBy o => some (o.leaves, o.policy)
  | .cleanUnder o p => some (o.leaves, p)
  | _ => none

/-- No command asks for a node and for a clean-up. -/
theorem cleaning?_of_newcomer? {c : Command} {x : String × Body} (hc : c.newcomer? = some x)
    (g : Graph) : c.cleaning? g = none := by
  cases c <;> cases hc <;> rfl

theorem exec_graph_of_cleaning? {g : Graph} {c : Command} {rule : LeafRule} {p : Policy}
    (hc : c.cleaning? g = some (rule, p)) : (c.exec g).graph = (g.clean rule p).graph := by
  cases c <;> cases hc <;> rfl

/-- An edit of a node changes the graph as the bare request does. -/
theorem exec_edit_graph (g : Graph) (i : NodeId) (e : NodeEdit) :
    ((Command.edit i e).exec g).graph = (Effect.ofChange g (g.edit i e)).graph := by
  simp only [Command.exec, Graph.node, Graph.edit, Graph.update]
  cases g.node? i <;> rfl

/-- An erasure hands out the node that was there. -/
theorem exec_erase (g : Graph) (i : NodeId) :
    (Command.erase i).exec g =
      { graph := g.erase i
        reply := .erased (g.node? i)
        log := (g.node? i).toList.map fun n => .erased n.label } := by
  rw [Command.exec]
  cases hn : g.node? i with
  | none =>
    rw [Graph.erase?_of_node?_eq_none hn, Graph.erase_of_node?_eq_none hn]
    rfl
  | some n =>
    rw [Graph.erase?_of_node? hn]
    rfl

/-- **What a command can make of a graph.** A property that the graph has, and that each of the
changes below brings about, holds after the command. -/
theorem exec_induct {g : Graph} {P : Graph → Prop} (c : Command) (start : P g)
    (insert : ∀ name body i h, c.newcomer? = some (name, body) →
      g.insert name body = .ok (i, h) → P h)
    (connect : ∀ i j h, c = .connect i j → g.connect i j = .ok h → P h)
    (rewrite : ∀ h, h.Rewrites g → (c.keepsKind g → h.SameKinds g) → P h)
    (erase : ∀ i, c = .erase i → P (g.erase i))
    (clean : ∀ rule p, c.cleaning? g = some (rule, p) → P (g.clean rule p).graph) :
    P (c.exec g).graph := by
  have write : ∀ i f h, (∀ n, g.node? i = some n →
      (f n).Rewrites n ∧ (c.keepsKind g → (f n).kind? = n.kind?)) → g.update i f = .ok h → P h :=
    fun i f h hf hu => (Graph.rewrites_update hf hu).elim (rewrite h)
  cases c with
  | addOperation kind name => exact Effect.ofAdded_induct start fun i h => insert name _ i h rfl
  | addData name => exact Effect.ofAdded_induct start fun i h => insert name _ i h rfl
  | addConstant name v => exact Effect.ofAdded_induct start fun i h => insert name _ i h rfl
  | connect i j => exact Effect.ofChange_induct start fun h => connect i j h rfl
  | declareOutput i =>
    exact Effect.ofChange_induct start fun h =>
      write i _ h fun n _ => ⟨n.rewrites_setIsOutput true, fun _ => rfl⟩
  | setValue i v =>
    refine Effect.ofChange_induct start fun h hs => ?_
    obtain ⟨⟨n, d, hn, hd, hv⟩, hu⟩ := Graph.setValue_eq_ok_iff.1 hs
    refine write i _ h (fun n' hn' => ⟨?_, fun _ => n'.kind?_mapDatum _⟩) hu
    cases hn.symm.trans hn'
    refine n.rewrites_mapDatum (fun _ => rfl) fun d' hd' hs' => ?_
    cases hd.symm.trans hd'
    simp [hv] at hs'
  | setShape i s =>
    refine Effect.ofChange_induct start fun h hs => ?_
    obtain ⟨-, hu⟩ := Graph.setShape_eq_ok_iff.1 hs
    refine write i _ h (fun n _ => ⟨?_, fun _ => n.kind?_mapDatum _⟩) hu
    exact n.rewrites_mapDatum (fun _ => rfl) fun _ _ _ => rfl
  | erase i =>
    rw [exec_erase]
    exact erase i rfl
  | edit i e =>
    rw [exec_edit_graph]
    refine Effect.ofChange_induct start fun h =>
      write i _ h fun n hn => ⟨n.rewrites_apply e, fun hk => ?_⟩
    simpa [keepsKind, hn] using hk
  | tagNeeded => exact rewrite _ g.rewrites_tagNeeded fun _ => g.sameKinds_tagNeeded
  | tagConstant => exact rewrite _ g.rewrites_tagConstant fun _ => g.sameKinds_tagConstant
  | setOptions o => exact rewrite _ (.setOptions g o) fun _ _ => rfl
  | clean => exact clean _ _ rfl
  | cleanBy o => exact clean _ _ rfl
  | cleanUnder o p => exact clean _ _ rfl

end Command

namespace Graph

/-- Commands lead from an empty graph to this one. -/
def Built (g : Graph) : Prop := ∃ o cs, ((Graph.empty o).runCommands cs).1 = g

variable {g h : Graph}

theorem runCommands_induct {P : Graph → Prop} (step : ∀ g c, P g → P (Command.exec g c).graph)
    (cs : List Command) (hg : P g) : P (g.runCommands cs).1 := by
  induction cs generalizing g with
  | nil => exact hg
  | cons c rest ih => exact ih (step g c hg)

theorem Built.induct {P : Graph → Prop} (start : ∀ o, P (Graph.empty o))
    (step : ∀ g c, P g → P (Command.exec g c).graph) (h : g.Built) : P g := by
  obtain ⟨o, cs, rfl⟩ := h
  exact runCommands_induct step cs (start o)

/-! ## Every command keeps a graph linked -/

theorem Linked.erase (hg : g.Linked) (i : NodeId) : (g.erase i).Linked := by
  cases hn : g.node? i with
  | none => rwa [erase_of_node?_eq_none hn]
  | some n => exact (hg.remains_erase hn).linked hg

theorem Linked.exec (hg : g.Linked) (c : Command) : (c.exec g).graph.Linked :=
  c.exec_induct hg (fun _ _ _ _ _ => hg.insert) (fun _ _ _ _ => hg.connect)
    (fun _ hw _ => hg.congr hw.wiring) (fun i _ => hg.erase i) (fun rule p _ => hg.clean rule p)

/-- **Commands build linked graphs only.** -/
theorem Built.linked (h : g.Built) : g.Linked :=
  h.induct Linked.empty fun _ c hg => hg.exec c

end Graph

end Dataflow
