import Dataflow.Proofs.Erasure
import Mathlib.Data.List.Perm.Basic

/-!
# The order of erasures

Which graph erasures lead to depends on the set of their positions alone, and not on their order or
on repetitions (`foldl_erase_congr`). Nothing is assumed of the graph, and positions at which
nothing is live may be among them.

Two erasures may be interchanged (`erase_comm`) since each looks at a third node through the edge
entries of the erased node only. The other erasure drops entries from these, but none for a third
node (`node?_erase_erase`), and what the two do to a third node commutes (`afterLosing_comm`).
-/

namespace Dataflow

namespace Node

variable (i j : NodeId) (n : Node)

theorem detach_comm : (n.detach i).detach j = (n.detach j).detach i := by
  simp only [detach, List.filter_comm]

theorem detach_orphan : n.orphan.detach i = (n.detach i).orphan := by
  obtain ⟨_, _ | _, _, _, _, _⟩ := n <;> rfl

end Node

theorem NameTable.erase_comm (t : NameTable) (a b : String) :
    (t.erase a).erase b = (t.erase b).erase a := by
  simp only [NameTable.erase, List.filter_comm]

namespace Graph

variable {g h : Graph} {i j k : NodeId} {l m n : Node}

/-! ## Two erasures at a third node -/

theorem mem_targets_afterLosing_iff (hk : k ≠ i) :
    k ∈ (afterLosing i n j m).targets ↔ k ∈ m.targets := by
  unfold afterLosing
  split_ifs <;> simp [Node.orphan, Node.detach, hk]

theorem mem_sources_afterLosing_iff (hk : k ≠ i) :
    k ∈ (afterLosing i n j m).sources ↔ k ∈ m.sources := by
  unfold afterLosing
  split_ifs <;> simp [Node.orphan, Node.detach, hk]

/-- What the loss of a node does elsewhere depends on its edge entries alone, and these on other
lost nodes only as far as they name them. -/
theorem afterLosing_afterLosing (hk : k ≠ i) :
    afterLosing j (afterLosing i n j m) k l = afterLosing j m k l := by
  simp only [afterLosing.eq_def j, mem_targets_afterLosing_iff hk, mem_sources_afterLosing_iff hk]

/-- What the losses of two nodes do to a third one commutes. -/
theorem afterLosing_comm (i j k : NodeId) (l m n : Node) :
    afterLosing j m k (afterLosing i n k l) = afterLosing i n k (afterLosing j m k l) := by
  unfold afterLosing
  split_ifs <;> simp only [Node.detach_orphan, Node.detach_comm i j]

/-! ## Two erasures in a graph -/

theorem node?_erase_self (g : Graph) (i : NodeId) : (g.erase i).node? i = none := by
  cases hn : g.node? i with
  | none => rwa [erase_of_node?_eq_none hn]
  | some n => rw [node?_erase hn, if_pos rfl]

/-- Erasing a node twice is erasing it once. -/
theorem erase_erase_self (g : Graph) (i : NodeId) : (g.erase i).erase i = g.erase i :=
  erase_of_node?_eq_none (g.node?_erase_self i)

theorem node?_erase_eq_none (hi : g.node? i = none) (j : NodeId) : (g.erase j).node? i = none := by
  cases hm : g.node? j with
  | none => rwa [erase_of_node?_eq_none hm]
  | some m =>
    rw [node?_erase hm, hi]
    split <;> rfl

theorem node?_erase_of_ne (hn : g.node? i = some n) (hm : g.node? j = some m) (hij : i ≠ j) :
    (g.erase i).node? j = some (afterLosing i n j m) := by
  rw [node?_erase hn, if_neg hij.symm, hm, Option.map_some]

/-- What two erasures leave: at a third node, either loss is that of the node as it was at first. -/
theorem node?_erase_erase (hn : g.node? i = some n) (hm : g.node? j = some m) (hij : i ≠ j)
    (k : NodeId) :
    ((g.erase i).erase j).node? k = if k = i ∨ k = j then none else
      (g.node? k).map fun l => afterLosing j m k (afterLosing i n k l) := by
  rw [node?_erase (node?_erase_of_ne hn hm hij), node?_erase hn]
  by_cases hki : k = i
  · simp [hki]
  by_cases hkj : k = j
  · simp [hkj]
  simp only [hki, hkj, or_self, if_false, Option.map_map]
  exact congrArg (Option.map · (g.node? k)) (funext fun l => afterLosing_afterLosing hki)

/-- Two erasures may be interchanged. -/
theorem erase_comm (g : Graph) (i j : NodeId) : (g.erase i).erase j = (g.erase j).erase i := by
  by_cases hij : i = j
  · rw [hij]
  cases hn : g.node? i with
  | none => rw [erase_of_node?_eq_none hn, erase_of_node?_eq_none (node?_erase_eq_none hn j)]
  | some n =>
    cases hm : g.node? j with
    | none => rw [erase_of_node?_eq_none hm, erase_of_node?_eq_none (node?_erase_eq_none hm i)]
    | some m =>
      have hji : j ≠ i := Ne.symm hij
      refine ext_node? ?_ (fun k => ?_) ?_ ?_
      · simp only [next_erase]
      · rw [node?_erase_erase hn hm hij, node?_erase_erase hm hn hji]
        simp only [or_comm, afterLosing_comm i j]
      · rw [names_erase (node?_erase_of_ne hn hm hij), names_erase (node?_erase_of_ne hm hn hji),
          names_erase hn, names_erase hm, name_afterLosing, name_afterLosing, NameTable.erase_comm]
      · simp only [options_erase]

instance : RightCommutative Graph.erase := ⟨erase_comm⟩

/-! ## Erasures along a list -/

/-- A position that is erased later on need not be erased first. -/
theorem foldl_erase_of_mem {is : List NodeId} (hi : i ∈ is) (g : Graph) :
    is.foldl Graph.erase (g.erase i) = is.foldl Graph.erase g := by
  have hperm : is.Perm (i :: is.erase i) := List.perm_cons_erase hi
  calc is.foldl Graph.erase (g.erase i)
      = (is.erase i).foldl Graph.erase ((g.erase i).erase i) := hperm.foldl_eq (g.erase i)
    _ = (is.erase i).foldl Graph.erase (g.erase i) := by rw [erase_erase_self]
    _ = is.foldl Graph.erase g := (hperm.foldl_eq g).symm

/-- Nor do several such positions. -/
theorem foldl_erase_append {is js : List NodeId} (h : is ⊆ js) (g : Graph) :
    (is ++ js).foldl Graph.erase g = js.foldl Graph.erase g := by
  induction is generalizing g with
  | nil => rfl
  | cons i rest ih =>
    obtain ⟨hi, hrest⟩ := List.cons_subset.1 h
    calc ((i :: rest) ++ js).foldl Graph.erase g
        = js.foldl Graph.erase (g.erase i) := ih hrest (g.erase i)
      _ = js.foldl Graph.erase g := foldl_erase_of_mem hi g

/-- **Erasures depend on the set of their positions alone**, in any graph: two lists with the same
members lead to the same graph, in whatever order and however often these are listed, and whether or
not anything is live there. -/
theorem foldl_erase_congr (g : Graph) {is js : List NodeId} (h : ∀ i, i ∈ is ↔ i ∈ js) :
    is.foldl Graph.erase g = js.foldl Graph.erase g :=
  calc is.foldl Graph.erase g
      = (js ++ is).foldl Graph.erase g := (foldl_erase_append (fun i => (h i).2) g).symm
    _ = (is ++ js).foldl Graph.erase g := List.perm_append_comm.foldl_eq g
    _ = js.foldl Graph.erase g := foldl_erase_append (fun i => (h i).1) g

/-- Two operations of one name, one of which lists the other. Both list the data as well, which
knows of only one of them, and of a position where nothing ever was. -/
def knot : Graph :=
  let copy : Node := { name := "x", body := .operation { kind := .identity }, targets := [2] }
  let constant : Node := { name := "x", body := .operation { kind := .const }, targets := [0, 2] }
  let data : Node := { name := "y", body := .data {}, sources := [1, 3, 1] }
  { Graph.empty {} with
    nodes := ((Arena.empty.push copy).push constant).push data
    names := (NameTable.empty.insert "x" 1).insert "y" 2 }

/-- Both operations are erased, in either order, and nothing at position `9`. The data is left, as
an orphan. -/
theorem knot_foldl_erase :
    let h := [9, 0, 1].foldl Graph.erase knot
    [1, 0, 9, 1].foldl Graph.erase knot = h ∧ h.find? "x" = none ∧
      ∃ n, h.node? 2 = some n ∧ n.sources = [3] ∧ n.datum?.any Datum.orphaned := by
  intro h
  have hleft : (h.node? 2).any fun n => n.sources = [3] ∧ n.datum?.any Datum.orphaned := by
    decide +kernel
  exact ⟨foldl_erase_congr knot (by grind), by decide +kernel,
    by simpa [Option.any_eq_true] using hleft⟩

end Graph

end Dataflow
