import Dataflow.Cleanup.Clean
import Dataflow.Graph.Build

/-!
# Commands

`Command` lists the requests that change a graph through its operations, and `Command.exec` carries
one out. A refused command changes nothing. Putting a whole node in the place of another is no
command: all the laws that hold of every run of commands may fail after it.
-/

namespace Dataflow

/-- A request to change a graph. -/
inductive Command
  | addOperation (kind : OpKind) (name : String)
  | addData (name : String)
  | addConstant (name : String) (v : Literal)
  | connect (i j : NodeId)
  | declareOutput (i : NodeId)
  | setValue (i : NodeId) (v : Literal)
  | setShape (i : NodeId) (s : Shape)
  | erase (i : NodeId)
  | edit (i : NodeId) (e : NodeEdit)
  | tagNeeded
  | tagConstant
  | setOptions (o : Options)
  /-- Cleans up by the graph's own options. -/
  | clean
  | cleanBy (o : Options)
  /-- Cleans up by the leaf rule of the options and another policy. -/
  | cleanUnder (o : Options) (p : Policy)

/-- The answer to a command. -/
inductive Reply
  | added (i : NodeId)
  | done
  | refused (f : Fault)
  /-- The erased node as it was, if there was one. -/
  | erased (n : Option Node)
  | edited (n : Node)
  | cleaned (r : Report)

/-- The graph after a command, the reply to it, and what the graph had to tell meanwhile. -/
structure Effect where
  graph : Graph
  reply : Reply
  log : List Event := []

namespace Effect

/-- The effect of a request that adds a node. -/
def ofAdded (g : Graph) : Except Fault (NodeId × Graph) → Effect
  | .ok (i, h) => { graph := h, reply := .added i }
  | .error f => { graph := g, reply := .refused f }

/-- The effect of a request that gives no answer of its own. -/
def ofChange (g : Graph) : Except Fault Graph → Effect
  | .ok h => { graph := h, reply := .done }
  | .error f => { graph := g, reply := .refused f }

/-- The effect of a clean-up. -/
def ofCleaned (c : Cleaned) : Effect :=
  { graph := c.graph, reply := .cleaned c.report, log := c.log }

end Effect

/-- Carries out a command. -/
def Command.exec (g : Graph) : Command → Effect
  | .addOperation kind name => .ofAdded g (g.addOperation kind name)
  | .addData name => .ofAdded g (g.addData name)
  | .addConstant name v => .ofAdded g (g.addConstant name v)
  | .connect i j => .ofChange g (g.connect i j)
  | .declareOutput i => .ofChange g (g.declareOutput i)
  | .setValue i v => .ofChange g (g.setValue i v)
  | .setShape i s => .ofChange g (g.setShape i s)
  | .erase i =>
    match g.erase? i with
    | none => { graph := g, reply := .erased none }
    | some r => { graph := r.graph, reply := .erased (some r.node), log := [r.event] }
  | .edit i e =>
    match g.node i with
    | .error f => { graph := g, reply := .refused f }
    | .ok n => { Effect.ofChange g (g.edit i e) with reply := .edited (e.apply n) }
  | .tagNeeded => { graph := g.tagNeeded, reply := .done, log := [.anchored g.anchorNames] }
  | .tagConstant =>
    let (h, constants) := g.classify
    { graph := h, reply := .done, log := [.constants constants] }
  | .setOptions o => { graph := { g with options := o }, reply := .done }
  | .clean => .ofCleaned (g.cleanBy g.options)
  | .cleanBy o => .ofCleaned (g.cleanBy o)
  | .cleanUnder o p => .ofCleaned (g.clean o.leaves p)

/-- Commands one after the other, with the replies in order. -/
def Graph.runCommands (g : Graph) : List Command → Graph × List Reply
  | [] => (g, [])
  | c :: rest =>
    let e := c.exec g
    let (h, replies) := e.graph.runCommands rest
    (h, e.reply :: replies)

end Dataflow
