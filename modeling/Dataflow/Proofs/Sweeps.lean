import Dataflow.Proofs.Leftover

/-!
# What a sweep does

In a linked graph a clean-up removes the nodes that `Graph.Removed` describes, and nothing else
(`Linked.clean_remains`).

Two invariants carry the proof. `Sweep.Traced` holds whatever is erased: the graph is what remains
of the tagged one, and every position on the stack has a reason to be there. `Sweep.Faithful` holds
between the steps of a sweep: what was erased is removed rightly and nothing that depends on it is
left over, and all that is still to be removed is announced on the stack.
-/

namespace Dataflow

namespace Sweep

/-- The positions erased so far. -/
def dead (s : Sweep) : List NodeId := s.erased.map Prod.fst

/-- What every sequence of erasures in a tagged graph keeps. -/
structure Traced (g : Graph) (s : Sweep) : Prop where
  leftover : g.Leftover s.dead s.graph
  cause : ∀ i ∈ s.work,
    g.Stranded i ∨ ∃ n, g.node? i = some n ∧ ∃ j ∈ n.neighbours, j ∈ s.dead

/-- The node at `i` has lost neighbours to `dead`, and has none left. -/
def Bereft (g : Graph) (dead : List NodeId) (i : NodeId) : Prop :=
  ∃ n, g.node? i = some n ∧ (∃ j ∈ n.neighbours, j ∈ dead) ∧ ∀ j ∈ n.neighbours, j ∈ dead

theorem bereft_iff {g : Graph} {dead : List NodeId} {i : NodeId} {n : Node}
    (hn : g.node? i = some n) :
    Bereft g dead i ↔ (∃ j ∈ n.neighbours, j ∈ dead) ∧ ∀ j ∈ n.neighbours, j ∈ dead := by
  simp [Bereft, hn]

/-- Nodes that satisfy `K` are gone or on the stack once they have no neighbours left. -/
def Announces (g : Graph) (K : NodeId → Prop) (s : Sweep) : Prop :=
  ∀ i, K i → Bereft g s.dead i → i ∈ s.dead ∨ i ∈ s.work

variable {g : Graph} {rule : LeafRule} {p : Policy} {s : Sweep} {near : Node → List NodeId}
  {K : NodeId → Prop} {i j : NodeId} {n m : Node}

/-! ## Erasures -/

theorem erase_of_not_contains (h : ¬ s.graph.contains i) : s.erase near i = s := by
  cases hm : s.graph.node? i with
  | none => exact erase_of_node?_eq_none hm
  | some m => exact absurd (Graph.contains_iff.2 ⟨m, hm⟩) h

/-- A node that was live and is not any more was erased. -/
theorem Traced.mem_dead (h : Traced g s) (hi : g.contains i) (hc : ¬ s.graph.contains i) :
    i ∈ s.dead := by
  by_cases hd : i ∈ s.dead
  · exact hd
  · exact absurd (h.leftover.contains_iff.2 ⟨hd, hi⟩) hc

theorem mem_dead_erase (h : Traced g s) (hi : g.contains i) :
    j ∈ (s.erase near i).dead ↔ j = i ∨ j ∈ s.dead := by
  by_cases hc : s.graph.contains i
  · obtain ⟨m, hm⟩ := Graph.contains_iff.1 hc
    rw [erase_of_node? hm, dead, List.map_cons, List.mem_cons]
    rfl
  · rw [erase_of_not_contains hc]
    have hd : i ∈ s.dead := h.mem_dead hi hc
    constructor
    · exact .inr
    · rintro (rfl | hj)
      · exact hd
      · exact hj

section Erase

variable (hg : g.Linked) (hnear : ∀ n j, j ∈ near n ↔ j ∈ n.neighbours)
include hg hnear

theorem Traced.erase (h : Traced g s) (i : NodeId) : Traced g (s.erase near i) := by
  by_cases hc : s.graph.contains i
  · obtain ⟨m, hm⟩ := Graph.contains_iff.1 hc
    obtain ⟨-, n, hn, rfl⟩ := h.leftover.node?_eq_some_iff.1 hm
    rw [erase_of_node? hm]
    refine ⟨Graph.Remains.erase h.leftover hg.tagged hc, fun j hj => ?_⟩
    rcases List.mem_append.1 hj with hj | hj
    · rw [List.mem_reverse, hnear, Node.mem_neighbours_without, Node.neighbours_tagged] at hj
      obtain ⟨l, hl⟩ := hg.neighbour_live hn hj.1
      exact .inr ⟨l, hl, i, (hg.mem_neighbours_comm hn hl).1 hj.1, List.mem_cons_self⟩
    · rcases h.cause j hj with hs | ⟨l, hl, k, hk, hd⟩
      · exact .inl hs
      · exact .inr ⟨l, hl, k, hk, List.mem_cons_of_mem _ hd⟩
  · rwa [erase_of_not_contains hc]

/-- A node that loses its last neighbour is put onto the stack by that. -/
theorem Announces.erase (h : Traced g s) (hK : Announces g K s) (i : NodeId) :
    Announces g K (s.erase near i) := by
  by_cases hc : s.graph.contains i
  · obtain ⟨m, hm⟩ := Graph.contains_iff.1 hc
    obtain ⟨-, n, hn, rfl⟩ := h.leftover.node?_eq_some_iff.1 hm
    rw [erase_of_node? hm]
    rintro j hj ⟨l, hl, ⟨k, hk, hkd⟩, hall⟩
    by_cases hd : j ∈ s.dead
    · exact .inl (List.mem_cons_of_mem _ hd)
    · by_cases hi : i ∈ l.neighbours
      · refine .inr (List.mem_append_left _ (List.mem_reverse.2 ((hnear _ _).2 ?_)))
        rw [Node.mem_neighbours_without, Node.neighbours_tagged]
        exact ⟨(hg.mem_neighbours_comm hl hn).1 hi, hd⟩
      · have hrest : ∀ k ∈ l.neighbours, k ∈ s.dead := by
          intro k hk
          rcases List.mem_cons.1 (hall k hk) with rfl | hkd
          · exact absurd hk hi
          · exact hkd
        rcases hK j hj ⟨l, hl, ⟨k, hk, hrest k hk⟩, hrest⟩ with hjd | hjw
        · exact absurd hjd hd
        · exact .inr (List.mem_append_right _ hjw)
  · rwa [erase_of_not_contains hc]

theorem Traced.foldl_erase (l : List NodeId) (h : Traced g s) :
    Traced g (l.foldl (Sweep.erase near) s) := by
  induction l generalizing s with
  | nil => exact h
  | cons i rest ih => exact ih (h.erase hg hnear i)

theorem Announces.foldl_erase (l : List NodeId) (h : Traced g s) (hK : Announces g K s) :
    Announces g K (l.foldl (Sweep.erase near) s) := by
  induction l generalizing s with
  | nil => exact hK
  | cons i rest ih => exact ih (h.erase hg hnear i) (hK.erase hg hnear h i)

theorem mem_dead_foldl_erase {l : List NodeId} (hl : ∀ i ∈ l, g.contains i) (h : Traced g s) :
    j ∈ (l.foldl (Sweep.erase near) s).dead ↔ j ∈ l ∨ j ∈ s.dead := by
  induction l generalizing s with
  | nil => simp
  | cons i rest ih =>
    rw [List.foldl_cons, ih (fun k hk => hl k (List.mem_cons_of_mem i hk)) (h.erase hg hnear i),
      mem_dead_erase h (hl i List.mem_cons_self), List.mem_cons, or_left_comm, or_assoc]

end Erase

theorem work_subset_foldl_erase (l : List NodeId) (hj : j ∈ s.work) :
    j ∈ (l.foldl (Sweep.erase near) s).work := by
  induction l generalizing s with
  | nil => exact hj
  | cons i rest ih =>
    refine ih ?_
    cases hn : s.graph.node? i with
    | none => rwa [erase_of_node?_eq_none hn]
    | some n =>
      rw [erase_of_node? hn]
      exact List.mem_append_right _ hj

/-! ## Steps -/

/-- The node at `i` is a constant that no output needs, and such constants are to be dropped. -/
def Droppable (g : Graph) (rule : LeafRule) (i : NodeId) : Prop :=
  rule = .drop ∧ ∃ n, g.node? i = some n ∧ n.hasValue ∧ ¬ g.Needed i

/-- What holds between the steps of a sweep. -/
structure Faithful (g : Graph) (rule : LeafRule) (p : Policy) (s : Sweep) : Prop extends
    Traced g s where
  removed : ∀ i ∈ s.dead, g.Removed rule p i
  folded : ∀ i, g.Folds p i → i ∈ s.dead
  closed : g.Closed p s.dead
  stranded_met : ∀ d, g.Stranded d → (∀ j, g.Depends p d j → ¬ g.Pinned p j) →
    d ∈ s.dead ∨ d ∈ s.work
  droppable_met : Announces g (Droppable g rule) s

/-- Once the stack is empty, everything that is to be removed is erased. -/
theorem Faithful.mem_dead_iff (h : Faithful g rule p s) (hw : s.work = []) :
    i ∈ s.dead ↔ g.Removed rule p i := by
  have hdoomed : ∀ j, g.Doomed p j → j ∈ s.dead := by
    rintro j (hf | ⟨d, hd, hfree, hj⟩)
    · exact h.folded j hf
    · induction hj with
      | refl => simpa [hw] using h.stranded_met d hd hfree
      | tail _ hs ih => exact h.closed _ ih _ hs
  constructor
  · exact h.removed i
  · rintro (hd | ⟨hrule, n, hn, hv, hneed, ⟨j, hj, hjd⟩, hall⟩)
    · exact hdoomed i hd
    · have hb : Bereft g s.dead i :=
        ⟨n, hn, ⟨j, hj, hdoomed j hjd⟩, fun k hk => hdoomed k (hall k hk)⟩
      simpa [hw] using h.droppable_met i ⟨hrule, n, hn, hv, hneed⟩ hb

/-- `v` is what a look at the position `i` may erase: all of it is to be removed, what depends on it
is in it or erased already, and the node at `i` is too if there is a reason to remove it. -/
structure Answers (g : Graph) (rule : LeafRule) (p : Policy) (s : Sweep) (i : NodeId)
    (v : List NodeId) : Prop where
  removed : ∀ j ∈ v, g.Removed rule p j
  closed : ∀ j ∈ v, ∀ k, g.Spreads p j k → k ∈ v ∨ k ∈ s.dead
  stranded (hs : g.Stranded i) (hfree : ∀ j, g.Depends p i j → ¬ g.Pinned p j) :
    i ∈ v ∨ i ∈ s.dead
  droppable (hd : Droppable g rule i) (hb : Bereft g s.dead i) : i ∈ v ∨ i ∈ s.dead

/-- Nothing need be erased if there is no reason to remove the node, or it is erased already. -/
theorem Answers.nothing
    (hs : g.Stranded i → (∀ j, g.Depends p i j → ¬ g.Pinned p j) → i ∈ s.dead)
    (hd : Droppable g rule i → Bereft g s.dead i → i ∈ s.dead) : Answers g rule p s i [] where
  removed := by simp
  closed := by simp
  stranded h hfree := .inr (hs h hfree)
  droppable h hb := .inr (hd h hb)

theorem droppable_iff (hn : g.node? i = some n) :
    Droppable g rule i ↔ rule = .drop ∧ n.hasValue ∧ ¬ g.Needed i := by
  simp [Droppable, hn]

theorem not_droppable_of_stranded (hs : g.Stranded i) : ¬ Droppable g rule i := by
  obtain ⟨n, d, hn, hd, -, hv, -⟩ := hs
  rintro ⟨-, n', hn', hv', -⟩
  cases hn.symm.trans hn'
  simp [Node.hasValue, Node.value?, hd, hv] at hv'

/-- A constant without neighbours is unread: those that it lost are operations, hence doomed. -/
theorem Faithful.unread (hg : g.Linked) (h : Faithful g rule p s) (hd : Droppable g rule i)
    (hb : Bereft g s.dead i) : g.Unread p i := by
  obtain ⟨-, n, hn, hv, hneed⟩ := hd
  obtain ⟨n', hn', ⟨j, hj, -⟩, hall⟩ := hb
  cases hn.symm.trans hn'
  exact Graph.unread_of_removed hg hn hv hneed (List.ne_nil_of_mem hj)
    fun k hk => h.removed k (hall k hk)

/-- The region of a stranded node goes as a whole, or not at all because something in it is
pinned. -/
theorem Faithful.answers_region (hg : g.Linked) (h : Faithful g rule p s) (hs : g.Stranded i)
    (hi : i ∉ s.dead) : Answers g rule p s i ((s.graph.removableRegion? p i).getD []) := by
  have hmem : ∀ j, j ∈ s.graph.region i ↔ j ∉ s.dead ∧ g.Depends p i j :=
    fun j => h.leftover.mem_region h.closed h.folded hs hi
  rw [Graph.removableRegion?_eq]
  by_cases hall : (s.graph.region i).all fun j => (s.graph.node? j).any (Graph.mayGo p)
  · rw [if_pos hall, Option.getD_some]
    rw [List.all_eq_true] at hall
    have hfree : ∀ j, g.Depends p i j → ¬ g.Pinned p j := by
      intro j hj
      by_cases hjd : j ∈ s.dead
      · exact (h.removed j hjd).not_pinned
      · exact (h.leftover.mayGo_iff.1 (hall j ((hmem j).2 ⟨hjd, hj⟩))).2.2.2
    have hiv : i ∈ s.graph.region i := (hmem i).2 ⟨hi, .refl⟩
    refine ⟨fun j hj => ?_, fun j hj k hk => ?_, fun _ _ => .inl hiv, fun _ _ => .inl hiv⟩
    · exact .inl (.inr ⟨i, hs, hfree, ((hmem j).1 hj).2⟩)
    · by_cases hkd : k ∈ s.dead
      · exact .inr hkd
      · exact .inl ((hmem k).2 ⟨hkd, ((hmem j).1 hj).2.tail hk⟩)
  · rw [if_neg hall, Option.getD_none]
    refine .nothing (fun _ hfree => absurd (List.all_eq_true.2 fun j hj => ?_) hall)
      fun hdrop => absurd hdrop (not_droppable_of_stranded hs)
    obtain ⟨hjd, hj⟩ := (hmem j).1 hj
    exact h.leftover.mayGo_iff.2 ⟨hjd, hj.contains hs, hj.not_needed hg hs, hfree j hj⟩

/-- What an output needs, and what is still fed, asks for nothing. -/
theorem answers_of_kept (hn : g.node? i = some n)
    (hk : g.Needed i ∨ ∃ j ∈ n.sources, j ∉ s.dead) : Answers g rule p s i [] := by
  refine .nothing (fun hs _ => ?_) fun hd hb => ?_
  · obtain ⟨n', d, hn', -, -, -, hnone, hneed⟩ := hs
    cases hn.symm.trans hn'
    simp [hneed, hnone] at hk
  · rw [droppable_iff hn] at hd
    rw [bereft_iff hn] at hb
    rcases hk with hneed | ⟨j, hj, hjd⟩
    · exact absurd hneed hd.2.2
    · exact absurd (hb.2 j (List.mem_append_left _ hj)) hjd

/-- A constant that is no longer fed or read goes, under the dropping rule. -/
theorem Faithful.answers_leaf (hg : g.Linked) (h : Faithful g rule p s) (hi : i ∈ s.work)
    (hn : g.node? i = some n) (hns : ¬ g.Stranded i) (hneed : ¬ g.Needed i)
    (hsources : ∀ j ∈ n.sources, j ∈ s.dead) :
    Answers g rule p s i
      (if n.hasValue ∧ (∀ j ∈ n.targets, j ∈ s.dead) ∧ rule = .drop then [i] else []) := by
  split
  · rename_i hleaf
    obtain ⟨hv, htargets, hrule⟩ := hleaf
    have hd : Droppable g rule i := (droppable_iff hn).2 ⟨hrule, hv, hneed⟩
    have hb : Bereft g s.dead i := by
      obtain ⟨l, hl, hlost⟩ := (h.cause i hi).resolve_left hns
      cases hn.symm.trans hl
      refine (bereft_iff hn).2 ⟨hlost, fun k hk => ?_⟩
      rcases List.mem_append.1 hk with hk | hk
      · exact hsources k hk
      · exact htargets k hk
    have hiv : i ∈ [i] := List.mem_cons_self
    refine ⟨fun j hj => ?_, fun j hj k hs => ?_, fun _ _ => .inl hiv, fun _ _ => .inl hiv⟩
    · rw [List.mem_singleton.1 hj]
      exact .inr ⟨hrule, h.unread hg hd hb⟩
    · rw [List.mem_singleton.1 hj] at hs
      obtain ⟨n', _, hn', -, hk, -⟩ := hs
      cases hn.symm.trans hn'
      exact .inr (htargets k hk)
  · rename_i hleaf
    refine .nothing (fun hs => absurd hs hns) fun hd hb => absurd ?_ hleaf
    rw [droppable_iff hn] at hd
    rw [bereft_iff hn] at hb
    exact ⟨hd.2.1, fun k hk => hb.2 k (List.mem_append_right _ hk), hd.1⟩

theorem Faithful.answers (hg : g.Linked) (h : Faithful g rule p s) (hi : i ∈ s.work) :
    Answers g rule p s i (victims rule p s.graph i) := by
  unfold victims
  cases hm : s.graph.node? i with
  | none =>
    have hc : ¬ s.graph.contains i := by simp [Graph.contains_iff, hm]
    refine .nothing (fun hs _ => h.mem_dead hs.contains hc) fun hd _ => ?_
    obtain ⟨-, n, hn, -⟩ := hd
    exact h.mem_dead (Graph.contains_iff.2 ⟨n, hn⟩) hc
  | some m =>
    have hstr := h.leftover.isStranded_iff hg h.closed hm
    obtain ⟨hid, n, hn, rfl⟩ := h.leftover.node?_eq_some_iff.1 hm
    simp only [Node.needed_without, Node.needed_tagged, Node.sources_without,
      Node.sources_tagged] at hstr ⊢
    split
    · rename_i hkeep
      exact answers_of_kept hn (by simpa using hkeep)
    · rename_i hfree
      obtain ⟨hneed, hsources⟩ : ¬ g.Needed i ∧ ∀ j ∈ n.sources, j ∈ s.dead := by
        simpa using hfree
      split
      · rename_i hst
        exact h.answers_region hg (hstr.1 ⟨hst, by simp [hneed]⟩) hid
      · rename_i hst
        have hns : ¬ g.Stranded i := fun hs => hst (hstr.2 hs).1
        have hleaf := h.answers_leaf hg hi hn hns hneed hsources
        have hempty : ∀ l : List NodeId,
            (l.filter (· ∉ s.dead)).isEmpty ↔ ∀ j ∈ l, j ∈ s.dead := by simp
        simpa only [Node.isLeaf, Node.sources_without, Node.sources_tagged,
          Node.hasValue_without, Node.hasValue_tagged, Node.targets_without,
          Node.targets_tagged, Bool.and_eq_true, hempty, beq_iff_eq, and_assoc,
          eq_true hsources, true_and] using hleaf

/-- Erasing what the look at a position may erase is all that need be done about the position. -/
theorem Faithful.erase_all (hg : g.Linked) {rest v : List NodeId}
    (hnear : ∀ n j, j ∈ near n ↔ j ∈ n.neighbours) (h : Faithful g rule p s)
    (hw : s.work = i :: rest) (hv : Answers g rule p s i v) :
    Faithful g rule p (v.foldl (Sweep.erase near) { s with work := rest }) := by
  have hmem : ∀ j ∈ s.work, j = i ∨ j ∈ rest := by
    intro j hj
    rw [hw] at hj
    exact List.mem_cons.1 hj
  have htraced : Traced g { s with work := rest } :=
    ⟨h.leftover, fun j hj => h.cause j (hw ▸ List.mem_cons_of_mem i hj)⟩
  have hdead := fun j => mem_dead_foldl_erase hg hnear (j := j)
    (fun k hk => (hv.removed k hk).contains) htraced
  have hgone := fun j => (hdead j).2
  refine ⟨htraced.foldl_erase hg hnear v, fun j hj => ?_,
    fun j hj => hgone j (.inr (h.folded j hj)), fun j hj k hs => ?_, fun d hd hfree => ?_,
    fun j hj hb => ?_⟩
  · rcases (hdead j).1 hj with hj | hj
    · exact hv.removed j hj
    · exact h.removed j hj
  · rcases (hdead j).1 hj with hj | hj
    · exact hgone k (hv.closed j hj k hs)
    · exact hgone k (.inr (h.closed j hj k hs))
  · rcases h.stranded_met d hd hfree with hdd | hdw
    · exact .inl (hgone d (.inr hdd))
    · rcases hmem d hdw with rfl | hdr
      · exact .inl (hgone d (hv.stranded hd hfree))
      · exact .inr (work_subset_foldl_erase v hdr)
  · by_cases hi : j = i ∧ Bereft g s.dead i
    · obtain ⟨rfl, hbi⟩ := hi
      exact .inl (hgone j (hv.droppable hj hbi))
    · -- all but the position itself is announced as before
      have hann : Announces g (fun k => Droppable g rule k ∧ ¬ (k = i ∧ Bereft g s.dead i))
          { s with work := rest } := by
        intro k hk hkb
        rcases h.droppable_met k hk.1 hkb with hkd | hkw
        · exact .inl hkd
        · rcases hmem k hkw with rfl | hkr
          · exact absurd ⟨rfl, hkb⟩ hk.2
          · exact .inr hkr
      exact hann.foldl_erase hg hnear v htraced j ⟨hj, hi⟩ hb

/-- **A step keeps a sweep faithful.** -/
theorem Faithful.step (hg : g.Linked) (h : Faithful g rule p s) :
    Faithful g rule p (s.step rule p) := by
  cases hw : s.work with
  | nil => rwa [step_of_work_eq_nil hw]
  | cons i rest =>
    have hi : i ∈ s.work := hw ▸ List.mem_cons_self
    rw [step_eq hw]
    exact h.erase_all hg (fun _ _ => .rfl) hw (h.answers hg hi)

/-! ## From the start to the end -/

theorem Traced.mem_stranded (h : Traced g s) (hg : g.Linked) (hc : g.Closed p s.dead) :
    i ∈ s.graph.stranded ↔ i ∉ s.dead ∧ g.Stranded i := by
  rw [Graph.stranded, Graph.mem_idsWhere]
  constructor
  · rintro ⟨m, hm, hs⟩
    have hst := (h.leftover.isStranded_iff hg hc hm).1 (by simpa using hs)
    exact ⟨(h.leftover.node?_eq_some_iff.1 hm).1, hst⟩
  · rintro ⟨hd, hst⟩
    obtain ⟨n, hn⟩ := Graph.contains_iff.1 hst.contains
    have hm := h.leftover.node? hd hn
    exact ⟨_, hm, by simpa using (h.leftover.isStranded_iff hg hc hm).2 hst⟩

/-- A sweep starts out faithful: all that is erased is folded, and these operations leave their
outputs behind as constants. -/
theorem Faithful.fold (hg : g.Linked) (rule : LeafRule) (p : Policy) :
    Faithful g rule p (g.tagged.fold p) := by
  have hnear : ∀ (n : Node) (j : NodeId), j ∈ n.targets ++ n.sources ↔ j ∈ n.neighbours := by
    intro n j
    rw [Node.neighbours, List.mem_append, List.mem_append, or_comm]
  let start : Sweep := .start g.tagged (g.tagged.foldable p).length
  have hstart : Traced g start := ⟨.refl _, fun _ hi => absurd hi List.not_mem_nil⟩
  have hnone : Announces g (Droppable g rule) start := by
    rintro i - ⟨n, -, ⟨j, -, hj⟩, -⟩
    cases hj
  have hdead := fun j => mem_dead_foldl_erase hg hnear (j := j) (l := g.tagged.foldable p)
    (fun k hk => Graph.Doomed.contains (.inl (Graph.mem_foldable.1 hk))) hstart
  have htraced := hstart.foldl_erase hg hnear (g.tagged.foldable p)
  have hann := hnone.foldl_erase hg hnear (g.tagged.foldable p) hstart
  rw [Graph.fold_eq]
  change Faithful g rule p (List.foldl _ start _).announce
  generalize (g.tagged.foldable p).foldl (Sweep.erase fun n => n.targets ++ n.sources) start = s
    at hdead htraced hann ⊢
  have hfolds : ∀ j, j ∈ s.dead ↔ g.Folds p j := by
    intro j
    rw [hdead j, Graph.mem_foldable]
    exact or_iff_left List.not_mem_nil
  have hclosed : g.Closed p s.dead := fun j hj k hs => absurd hs ((hfolds j).1 hj).not_spreads
  have hstranded : ∀ d, d ∈ s.graph.stranded ↔ g.Stranded d := by
    intro d
    rw [htraced.mem_stranded hg hclosed, and_iff_right_iff_imp]
    exact fun hs hd => hs.not_folds ((hfolds d).1 hd)
  refine ⟨⟨htraced.leftover, fun j hj => ?_⟩, fun j hj => .inl (.inl ((hfolds j).1 hj)),
    fun j hj => (hfolds j).2 hj, hclosed, fun d hd _ => ?_, fun j hj hb => ?_⟩
  · rcases List.mem_append.1 hj with hj | hj
    · exact .inl ((hstranded j).1 (List.mem_reverse.1 hj))
    · exact htraced.cause j hj
  · exact .inr (List.mem_append_left _ (List.mem_reverse.2 ((hstranded d).2 hd)))
  · rcases hann j hj hb with hjd | hjw
    · exact .inl hjd
    · exact .inr (List.mem_append_right _ hjw)

/-- A sweep ends with an empty stack, and faithful. -/
theorem Faithful.run (hg : g.Linked) (h : Faithful g rule p s) :
    Faithful g rule p (s.run rule p) ∧ (s.run rule p).work = [] := by
  induction s using Sweep.run.induct rule p with
  | case1 s hw =>
    rw [run_of_work_eq_nil hw]
    exact ⟨h, hw⟩
  | case2 s hw ih =>
    rw [run_of_work_ne_nil hw]
    exact ih (h.step hg)

end Sweep

namespace Graph

variable {g : Graph} {rule : LeafRule} {p : Policy} {i : NodeId}

/-- **A clean-up of a linked graph leaves the graph tagged and less the removed nodes.** -/
theorem Linked.clean_remains (hg : g.Linked) (rule : LeafRule) (p : Policy) :
    ∃ dead, g.Leftover dead (g.clean rule p).graph ∧
      ∀ i, i ∈ dead ↔ g.Removed rule p i := by
  obtain ⟨h, hw⟩ := (Sweep.Faithful.fold hg rule p).run hg
  exact ⟨_, h.leftover, fun i => h.mem_dead_iff hw⟩

/-- Its record lists the removed nodes. -/
theorem Linked.mem_erased (hg : g.Linked) :
    i ∈ (g.clean rule p).erased.map Prod.fst ↔ g.Removed rule p i := by
  obtain ⟨h, hw⟩ := (Sweep.Faithful.fold hg rule p).run hg
  rw [Graph.clean, List.map_reverse, List.mem_reverse]
  exact h.mem_dead_iff hw

/-- What was live and is not removed is live afterwards, and nothing else is. -/
theorem Linked.contains_clean_iff (hg : g.Linked) :
    (g.clean rule p).graph.contains i ↔ g.contains i ∧ ¬ g.Removed rule p i := by
  obtain ⟨dead, hr, hdead⟩ := hg.clean_remains rule p
  rw [hr.contains_iff, hdead, and_comm]

theorem Linked.clean (hg : g.Linked) (rule : LeafRule) (p : Policy) :
    (g.clean rule p).graph.Linked := by
  obtain ⟨_, hr, -⟩ := hg.clean_remains rule p
  exact hr.linked hg

end Graph

end Dataflow
