import Dataflow.Proofs.Accounts
import Mathlib.Logic.Function.Iterate

/-!
# Work lists drain

Three loops take positions off a stack and push others onto it: the search that tags what outputs
need, the search for a removable region, and the sweep that follows the traces of erased nodes and
starts such a search at the stranded nodes that it meets. `Drains` says that a loop comes to its end
after a number of steps. The steps themselves know of no limit.

Every step lowers a measure of the state, so each loop drains from whatever state it starts.
Nothing is assumed of the graph: it may hold circles, nodes among their own targets, edges stored at
one end only or twice, and edge entries that lead nowhere. How many steps it takes is bounded by the
number of nodes and edge entries alone (`loops_drain`).

The search for a region may also be given up before its stack is empty. That is an end of its own,
and it is reached if and only if there is no such region.
-/

namespace Dataflow

section Drains

variable {σ : Type} {step : σ → σ} {Done : σ → Prop} {k : Nat} {s t : σ}

/-- After exactly `k` steps from `s` the work is done for the first time, in `t`. -/
structure Drains (step : σ → σ) (Done : σ → Prop) (k : Nat) (s t : σ) : Prop where
  iterate : step^[k] s = t
  done : Done t
  not_done (l : Nat) (hl : l < k) : ¬ Done (step^[l] s)

theorem Drains.idle (hs : Done s) : Drains step Done 0 s s :=
  ⟨rfl, hs, fun _ hl => absurd hl (Nat.not_lt_zero _)⟩

theorem Drains.succ (hs : ¬ Done s) (h : Drains step Done k (step s) t) :
    Drains step Done (k + 1) s t := by
  refine ⟨h.iterate, h.done, fun l hl => ?_⟩
  cases l with
  | zero => exact hs
  | succ l => exact h.not_done l (Nat.lt_of_succ_lt_succ hl)

/-- A function that steps until the work is done drains it, in at most as many steps as a weight
says that every step lowers. -/
theorem exists_drains (run : σ → σ) (weight : σ → Nat) (idle : ∀ s, Done s → run s = s)
    (busy : ∀ s, ¬ Done s → run s = run (step s))
    (step_lt : ∀ s, ¬ Done s → weight (step s) < weight s) (s : σ) :
    ∃ k ≤ weight s, Drains step Done k s (run s) := by
  induction hw : weight s using Nat.strong_induction_on generalizing s with
  | _ w ih =>
    by_cases hs : Done s
    · exact ⟨0, Nat.zero_le _, (idle s hs).symm ▸ .idle hs⟩
    · have hlt := step_lt s hs
      obtain ⟨k, hk, h⟩ := ih _ (hw ▸ hlt) (step s) rfl
      exact ⟨k + 1, by omega, (busy s hs).symm ▸ h.succ hs⟩

end Drains

/-! ## The loops -/

theorem Marking.exists_drains (s : Marking) :
    ∃ k ≤ s.pending, Drains Marking.step (fun s => s.work = []) k s s.run :=
  Dataflow.exists_drains Marking.run Marking.pending (fun _ => run_of_work_eq_nil)
    (fun _ => run_of_work_ne_nil) (fun _ => pending_step_lt) s

namespace Search

/-- One more step, unless the search was given up. -/
def advance (g : Graph) (p : Policy) (o : Option Search) : Option Search := o.bind (step g p)

/-- The search was given up, or nothing is left on its stack. -/
def Over (o : Option Search) : Prop := o = none ∨ ∃ s, o = some s ∧ s.work = []

theorem over_some_iff {s : Search} : Over (some s) ↔ s.work = [] := by
  simp [Over]

theorem exists_drains (g : Graph) (p : Policy) (s : Search) :
    ∃ k ≤ s.pending g, Drains (advance g p) Over k (some s) (s.run g p) := by
  refine Dataflow.exists_drains (fun o => o.bind (run g p)) (fun o => o.elim 0 (pending g))
    ?_ ?_ ?_ (some s)
  · rintro (_ | s) hs
    · rfl
    · exact run_of_work_eq_nil (over_some_iff.1 hs)
  · rintro (_ | s) hs
    · rfl
    · exact run_of_work_ne_nil (over_some_iff.not.1 hs)
  · rintro (_ | s) hs
    · exact absurd (.inl rfl) hs
    rw [over_some_iff] at hs
    cases ht : s.step g p with
    | none =>
      have hwork : 0 < s.work.length := List.length_pos_of_ne_nil hs
      simp only [advance, Option.bind_some, ht, Option.elim, pending, Walk.pending]
      omega
    | some t => simpa [advance, ht] using pending_step_lt hs ht

end Search

theorem Sweep.exists_drains (rule : LeafRule) (p : Policy) (s : Sweep) :
    ∃ k ≤ s.weight, Drains (Sweep.step rule p) (fun s => s.work = []) k s (s.run rule p) :=
  Dataflow.exists_drains (Sweep.run rule p) Sweep.weight (fun _ => run_of_work_eq_nil)
    (fun _ => run_of_work_ne_nil) (fun _ => weight_step_lt rule p) s

/-! ## Where they start -/

namespace Graph

variable {g : Graph} {p : Policy}

/-- What follows edges only can list no more than the edge entries, of whichever nodes. -/
theorem length_flatMap_entries_le {next : Node → List NodeId}
    (hnext : ∀ n, (next n).length ≤ n.degree) (q : NodeId × Node → Bool) :
    ((g.entries.filter q).flatMap fun e => next e.2).length ≤ g.degree := by
  rw [degree, ← Arena.flatMap_entries, ← entries]
  induction g.entries with
  | nil => exact Nat.le_refl _
  | cons e rest ih =>
    have he : (next e.2).length ≤ e.2.neighbours.length := hnext e.2
    rw [List.filter_cons, List.flatMap_cons, List.length_append]
    split
    · rw [List.flatMap_cons, List.length_append]
      exact Nat.add_le_add he ih
    · exact Nat.le_trans ih (Nat.le_add_left _ _)

theorem length_sources_le (n : Node) : n.sources.length ≤ n.degree := by
  rw [Node.degree, Node.neighbours, List.length_append]
  exact Nat.le_add_right _ _

theorem length_dependants_le (g : Graph) (n : Node) : (g.dependants n).length ≤ n.degree := by
  have htargets : n.targets.length ≤ n.degree := by
    rw [Node.degree, Node.neighbours, List.length_append]
    exact Nat.le_add_left _ _
  unfold dependants
  split
  · exact Nat.le_trans (List.length_filter_le _ _) htargets
  · exact htargets

theorem length_idsWhere_le (g : Graph) (q : Node → Bool) : (g.idsWhere q).length ≤ g.size := by
  rw [idsWhere, List.length_map]
  exact Nat.le_trans (List.length_filter_le _ _) (Nat.le_of_eq g.nodes.length_entries)

/-- The search for what outputs need starts with no more work than there are nodes and edge
entries. -/
theorem pending_marking_le (g : Graph) : g.marking.pending ≤ g.size + g.degree := by
  have hdegree : (g.marked []).degree ≤ g.degree := by
    refine Arena.length_gather_mapIds_le Node.neighbours Node.neighbours _ (fun _ n => ?_) g.nodes
    exact Nat.le_refl n.degree
  rw [marking_eq, Marking.pending, List.length_reverse]
  exact Nat.add_le_add (g.length_idsWhere_le _)
    (Nat.le_trans (length_flatMap_entries_le length_sources_le _) hdegree)

theorem degree_tagged_le (g : Graph) : g.tagged.degree ≤ g.degree := by
  rw [degree, nodes_tagged]
  refine Arena.length_gather_mapIds_le Node.neighbours Node.neighbours _ (fun _ n => ?_) g.nodes
  rw [Node.neighbours_tagged]

theorem size_foldl_erase_le (near : Node → List NodeId) (l : List NodeId) (s : Sweep) :
    (l.foldl (Sweep.erase near) s).graph.size ≤ s.graph.size := by
  induction l generalizing s with
  | nil => exact Nat.le_refl _
  | cons i rest ih =>
    refine Nat.le_trans (ih _) ?_
    rw [Sweep.graph_erase]
    cases hn : s.graph.node? i with
    | none => rw [erase_of_node?_eq_none hn]
    | some n => exact Nat.le_of_lt (Nat.lt_of_succ_le (Nat.le_of_eq (size_erase hn)))

/-- A sweep starts with no more work than there are nodes and edge entries. -/
theorem weight_fold_le (g : Graph) (p : Policy) : (g.tagged.fold p).weight ≤ g.size + g.degree := by
  have hnear : ∀ n : Node, (n.targets ++ n.sources).length ≤ n.degree := by
    intro n
    simp [Node.degree, Node.neighbours, Nat.add_comm]
  let start : Sweep := .start g.tagged (g.tagged.foldable p).length
  let s := (g.tagged.foldable p).foldl (Sweep.erase fun n => n.targets ++ n.sources) start
  have hfolded : s.weight ≤ g.tagged.degree := Sweep.weight_foldl_erase_le hnear _ start
  have hstranded : s.graph.stranded.length ≤ g.size :=
    calc s.graph.stranded.length
      _ ≤ s.graph.size := s.graph.length_idsWhere_le _
      _ ≤ g.tagged.size := size_foldl_erase_le _ _ start
      _ = g.size := g.size_tagged
  calc (g.tagged.fold p).weight
    _ = s.graph.stranded.length + s.weight := by
      rw [fold_eq, Sweep.weight, Sweep.graph_announce, Sweep.announce, List.length_append,
        List.length_reverse, Nat.add_left_comm]
      rfl
    _ ≤ g.size + g.degree := Nat.add_le_add hstranded (Nat.le_trans hfolded g.degree_tagged_le)

/-- **All work lists drain**, whatever the graph, the rule and the policy: that of the search that
tags what outputs need; that of the search for a removable region, unless it is given up, in which
case there is none; and that of the sweep after the fold, which ends with what a clean-up leaves. -/
theorem loops_drain (g : Graph) (rule : LeafRule) (p : Policy) :
    (∃ k s, k ≤ g.size + g.degree ∧
      Drains Marking.step (fun s => s.work = []) k g.marking s ∧ s.graph = g.tagNeeded) ∧
    (∀ i, ∃ k o, k ≤ 1 + g.degree ∧
      Drains (Search.advance g p) Search.Over k (some ⟨[i], [], []⟩) o ∧
      (o = none ∧ g.removableRegion? p i = none ∨
        ∃ s, o = some s ∧ s.work = [] ∧ g.removableRegion? p i = some s.found.reverse)) ∧
    ∃ k s, k ≤ g.size + g.degree ∧
      Drains (Sweep.step rule p) (fun s => s.work = []) k (g.tagNeeded.tagConstant.fold p) s ∧
      s.graph = (g.clean rule p).graph ∧ s.erased.reverse = (g.clean rule p).erased := by
  refine ⟨?_, fun i => ?_, ?_⟩
  · obtain ⟨k, hk, h⟩ := g.marking.exists_drains
    exact ⟨k, _, Nat.le_trans hk g.pending_marking_le, h, rfl⟩
  · obtain ⟨k, hk, h⟩ := Search.exists_drains g p ⟨[i], [], []⟩
    have hpending : Search.pending g ⟨[i], [], []⟩ ≤ 1 + g.degree :=
      Nat.add_le_add_left (length_flatMap_entries_le g.length_dependants_le _) 1
    refine ⟨k, _, Nat.le_trans hk hpending, h, ?_⟩
    rcases h.done with ho | ⟨s, ho, hs⟩
    · exact .inl ⟨ho, by rw [removableRegion?, ho, Option.map_none]⟩
    · exact .inr ⟨s, ho, hs, by rw [removableRegion?, ho, Option.map_some]⟩
  · obtain ⟨k, hk, h⟩ := Sweep.exists_drains rule p (g.tagged.fold p)
    exact ⟨k, _, Nat.le_trans hk (g.weight_fold_le p), h, rfl, rfl⟩

end Graph

end Dataflow
