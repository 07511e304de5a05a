import Dataflow.Proofs.Accounts
import Dataflow.Proofs.Settled

/-!
# Clean-ups of one graph compared

Two clean-ups of a graph that commands built are compared by what they remove.

* More outputs declared and more kinds pinned: nothing goes that stayed before
  (`Built.clean_protected`). Fewer operations are folded then, so losses could spread further. But
  what may go as a whole holds no operation that only the other clean-up folds
  (`Depends.of_declaring`).
* The two rules for unread constants: the dropping rule removes constants that the keeping one
  leaves without neighbours, and makes no other difference (`Built.clean_leaves`).
-/

namespace Dataflow.Graph

variable {g h : Graph} {rule : LeafRule} {p q : Policy} {out : NodeId → Bool} {d i j : NodeId}
  {n m : Node}

/-! ## More protection -/

/-- The graph with more outputs declared: those at which `out` holds. -/
def declaring (g : Graph) (out : NodeId → Bool) : Graph :=
  { g with nodes := g.nodes.mapIds fun i n => { n with isOutput := n.isOutput || out i } }

theorem node?_declaring (g : Graph) (out : NodeId → Bool) (i : NodeId) :
    (g.declaring out).node? i =
      (g.node? i).map fun n => { n with isOutput := n.isOutput || out i } :=
  Arena.get?_mapIds ..

theorem node?_declaring_eq_some_iff : (g.declaring out).node? i = some m ↔
    ∃ n, g.node? i = some n ∧ { n with isOutput := n.isOutput || out i } = m := by
  rw [node?_declaring, Option.map_eq_some_iff]

theorem contains_declaring : (g.declaring out).contains i ↔ g.contains i := by
  rw [contains_iff, contains_iff, node?_declaring]
  cases g.node? i <;> simp

theorem Linked.declaring (hg : g.Linked) (out : NodeId → Bool) : (g.declaring out).Linked := by
  refine hg.congr fun i => ?_
  rw [node?_declaring, Option.map_map]
  rfl

theorem node?_declaring_of_node? (hn : g.node? i = some n) :
    (g.declaring out).node? i = some { n with isOutput := n.isOutput || out i } :=
  node?_declaring_eq_some_iff.2 ⟨n, hn, rfl⟩

/-- What an output needs it needs when more are declared. -/
theorem Needed.declaring (hi : g.Needed i) (out : NodeId → Bool) :
    (g.declaring out).Needed i := by
  refine Needed.induct (fun j n hn ha => ?_) (fun j k n hk hn hj hc => ?_) hi
  · refine .anchor (node?_declaring_of_node? hn) ?_
    simp only [Node.isAnchor, Bool.or_eq_true] at ha ⊢
    exact ha.imp_left .inl
  · exact hk.source (node?_declaring_of_node? hn) hj (contains_declaring.2 hc)

theorem yieldsConstants_declaring (b : Bool) :
    (g.declaring out).YieldsConstants { n with isOutput := b } ↔ g.YieldsConstants n := by
  have hvalue : ∀ j, (∃ m, (g.declaring out).node? j = some m ∧ m.hasValue) ↔
      ∃ m, g.node? j = some m ∧ m.hasValue := by
    intro j
    rw [node?_declaring]
    cases g.node? j with
    | none => simp
    | some m => simp [Node.hasValue, Node.value?, Node.datum?]
  simp only [YieldsConstants, hvalue]
  rfl

theorem Stranded.of_declaring (hd : (g.declaring out).Stranded d) : g.Stranded d := by
  obtain ⟨_, e, hn', he, ho, hv, hs, hneed⟩ := hd
  obtain ⟨n, hn, rfl⟩ := node?_declaring_eq_some_iff.1 hn'
  exact ⟨n, e, hn, he, ho, hv, hs, fun hi => hneed (hi.declaring out)⟩

/-- If nothing pinned depends on a stranded node, what depends on it does so under less protection
too: an operation that is folded there and not here would have to be needed or pinned here. -/
theorem Depends.of_declaring (hg : g.Linked) (hd : (g.declaring out).Stranded d)
    (hfree : ∀ j, (g.declaring out).Depends q d j → ¬ (g.declaring out).Pinned q j)
    (hi : (g.declaring out).Depends q d i) : g.Depends p d i := by
  induction hi with
  | refl => exact .refl
  | @tail j k hj hs ih =>
    have hk : (g.declaring out).Depends q d k := hj.tail hs
    obtain ⟨_, _, hn', hm', hjk, hf, hv⟩ := hs
    obtain ⟨n, hn, rfl⟩ := node?_declaring_eq_some_iff.1 hn'
    obtain ⟨m, hm, rfl⟩ := node?_declaring_eq_some_iff.1 hm'
    refine ih.tail ⟨n, m, hn, hm, hjk, fun hfold => hf ?_, hv⟩
    obtain ⟨m', hm'', -, hy, -⟩ := hfold
    cases hm.symm.trans hm''
    have hneed : ¬ (g.declaring out).Needed k := hk.not_needed (hg.declaring out) hd
    refine ⟨_, hm', hneed, (yieldsConstants_declaring _).2 hy, fun hq => ?_⟩
    exact hfree k hk ⟨_, hm', hq⟩

section Protected

variable (hpq : ∀ k, p k → q k)
include hpq

theorem Pinned.declaring (hi : g.Pinned p i) (out : NodeId → Bool) :
    (g.declaring out).Pinned q i := by
  obtain ⟨n, hn, hp⟩ := hi
  obtain ⟨k, hk, hpk⟩ := (Option.any_eq_true _ _).1 hp
  exact ⟨_, node?_declaring_of_node? hn, (Option.any_eq_true _ _).2 ⟨k, hk, hpq k hpk⟩⟩

theorem Folds.of_declaring (hf : (g.declaring out).Folds q i) : g.Folds p i := by
  have hpin := hf.not_pinned
  obtain ⟨_, hn', hneed, hy, -⟩ := hf
  obtain ⟨n, hn, rfl⟩ := node?_declaring_eq_some_iff.1 hn'
  refine ⟨n, hn, fun hi => hneed (hi.declaring out), (yieldsConstants_declaring _).1 hy, ?_⟩
  exact fun hp => hpin (Pinned.declaring hpq ⟨n, hn, hp⟩ out)

/-- Where fewer operations are folded, losses spread at least as far. -/
theorem Spreads.declaring (hs : g.Spreads p i j) (out : NodeId → Bool) :
    (g.declaring out).Spreads q i j := by
  obtain ⟨n, m, hn, hm, hij, hf, hv⟩ := hs
  exact ⟨_, _, node?_declaring_of_node? hn, node?_declaring_of_node? hm, hij,
    fun hf' => hf (hf'.of_declaring hpq), hv⟩

theorem Doomed.of_declaring (hg : g.Linked) (hi : (g.declaring out).Doomed q i) :
    g.Doomed p i := by
  rcases hi with hf | ⟨d, hd, hfree, hi⟩
  · exact .inl (hf.of_declaring hpq)
  · refine .inr ⟨d, hd.of_declaring, fun j hj hp => ?_, hi.of_declaring hg hd hfree⟩
    have hj' : (g.declaring out).Depends q d j :=
      Relation.ReflTransGen.mono (fun _ _ hs => hs.declaring hpq out) d j hj
    exact hfree j hj' (Pinned.declaring hpq hp out)

/-- **What goes under more protection goes under less.** -/
theorem Removed.of_declaring (hg : g.Linked) (hi : (g.declaring out).Removed rule q i) :
    g.Removed rule p i := by
  rcases hi with hd | ⟨hrule, _, hn', hv, hneed, ⟨j, hj, hjd⟩, hall⟩
  · exact .inl (hd.of_declaring hpq hg)
  · obtain ⟨n, hn, rfl⟩ := node?_declaring_eq_some_iff.1 hn'
    exact .inr ⟨hrule, n, hn, hv, fun hi => hneed (hi.declaring out),
      ⟨j, hj, hjd.of_declaring hpq hg⟩, fun k hk => (hall k hk).of_declaring hpq hg⟩

end Protected

/-- The lost nodes of a linked graph are the removed ones. -/
theorem Linked.lost_clean (hg : g.Linked) (rule : LeafRule) (p : Policy) (f : Node → Bool) :
    g.lost (g.clean rule p).graph f = {i | ∃ n, g.node? i = some n ∧ f n ∧ g.Removed rule p i} := by
  ext i
  simp only [lost, Set.mem_ofPred_eq, hg.contains_clean_iff, Graph.contains_iff]
  refine exists_congr fun n => and_congr_right fun hn => and_congr_right fun _ => ?_
  simp [hn]

/-- **Protecting more never removes more.** With more outputs declared, and a policy that pins all
that the other one pins, a clean-up removes nodes only that the other one removes as well, and so no
more operations and no more data nodes. -/
theorem Built.clean_protected (hb : g.Built) (hpq : ∀ k, p k → q k) (out : NodeId → Bool)
    (rule : LeafRule) :
    let less := g.clean rule p
    let more := (g.declaring out).clean rule q
    {i | (g.declaring out).contains i ∧ ¬ more.graph.contains i} ⊆
        {i | g.contains i ∧ ¬ less.graph.contains i} ∧
      more.report.removedOperations ≤ less.report.removedOperations ∧
      more.report.removedData ≤ less.report.removedData := by
  intro less more
  have hg := hb.linked
  have hg' := hg.declaring out
  have hlost : ∀ f : Node → Bool, (∀ (n : Node) b, f { n with isOutput := b } = f n) →
      (g.declaring out).lost more.graph f ⊆ g.lost less.graph f := by
    intro f hf i
    rw [hg'.lost_clean, hg.lost_clean]
    rintro ⟨_, hn', hfn, hr⟩
    obtain ⟨n, hn, rfl⟩ := node?_declaring_eq_some_iff.1 hn'
    exact ⟨n, hn, (hf n _).symm.trans hfn, hr.of_declaring hpq hg⟩
  refine ⟨?_, ?_, ?_⟩
  · rintro i ⟨hi, hmore⟩
    obtain ⟨n, hn⟩ := contains_iff.1 hi
    obtain ⟨m, hm, -, hless⟩ := hlost (fun _ => true) (fun _ _ => rfl) ⟨n, hn, rfl, hmore⟩
    exact ⟨contains_iff.2 ⟨m, hm⟩, hless⟩
  · have hle := Set.encard_le_encard (hlost Node.isOperation fun _ _ => rfl)
    rw [encard_lost_operations, encard_lost_operations] at hle
    exact_mod_cast hle
  · have hle := Set.encard_le_encard (hlost Node.isData fun _ _ => rfl)
    rw [encard_lost_data, encard_lost_data] at hle
    exact_mod_cast hle

/-- Two operations that yield a constant each, of which nothing is an output. -/
def constants : Graph :=
  ((Graph.empty {}).runCommands [.addOperation .const "c", .addConstant "v" ⟨[0, 3], #[], rfl⟩,
    .connect 0 1, .addOperation .const "d", .addConstant "w" ⟨[0, 4], #[], rfl⟩,
    .connect 2 3]).1

/-- One of the constants is declared an output, and another kind is pinned: the operation that goes
all the same goes without that, too. -/
theorem constants_clean_protected :
    (∀ k, Policy.nothing k → Policy.ofList [.identity] k) ∧
      ((constants.declaring (· == 1)).clean .keep (.ofList [.identity])).graph.contains 0 ∧
      ¬ ((constants.declaring (· == 1)).clean .keep (.ofList [.identity])).graph.contains 2 ∧
      ¬ (constants.clean .keep .nothing).graph.contains 2 := by
  have hpq : ∀ k, Policy.nothing k → Policy.ofList [.identity] k := fun _ hk => nomatch hk
  have hgone : ¬ ((constants.declaring (· == 1)).clean .keep
      (.ofList [.identity])).graph.contains 2 := by decide +kernel
  have hsub := (Built.clean_protected (g := constants) ⟨_, _, rfl⟩ hpq (· == 1) .keep).1
  exact ⟨hpq, by decide +kernel, hgone, (hsub ⟨by decide +kernel, hgone⟩).2⟩

/-! ## The two rules for unread constants -/

theorem removed_keep_iff : g.Removed .keep p i ↔ g.Doomed p i := by
  simp [Removed]

theorem removed_drop_iff : g.Removed .drop p i ↔ g.Doomed p i ∨ g.Unread p i := by
  simp [Removed]

theorem Unread.isData (hu : g.Unread p i) (hn : g.node? i = some n) : n.isData := by
  obtain ⟨n', hn', hv, -⟩ := hu
  cases hn.symm.trans hn'
  rw [Node.isData_eq_not, Node.isOperation_of_hasValue hv, Bool.not_false]

theorem Unread.not_doomed (hg : g.Linked) (hu : g.Unread p i) : ¬ g.Doomed p i := by
  obtain ⟨n, hn, hv, -⟩ := hu
  exact fun hd => (hd.data hg hn (Node.isOperation_of_hasValue hv)).1 hv

/-- The unread constants are what only the dropping rule removes. -/
theorem Linked.unread_iff (hg : g.Linked) : g.Unread p i ↔
    (g.clean .keep p).graph.contains i ∧ ¬ (g.clean .drop p).graph.contains i := by
  rw [hg.contains_clean_iff, hg.contains_clean_iff, removed_keep_iff, removed_drop_iff]
  constructor
  · intro hu
    obtain ⟨n, hn, -⟩ := id hu
    exact ⟨⟨contains_iff.2 ⟨n, hn⟩, hu.not_doomed hg⟩, fun hc => hc.2 (.inr hu)⟩
  · rintro ⟨⟨hi, hd⟩, hc⟩
    by_contra hu
    exact hc ⟨hi, not_or.2 ⟨hd, hu⟩⟩

/-- A constant that is unread loses all its neighbours under the keeping rule. -/
theorem Unread.leftover (hu : g.Unread p i) {dead : List NodeId} (hl : g.Leftover dead h)
    (hdead : ∀ i, i ∈ dead ↔ g.Removed .keep p i) (hm : h.node? i = some m) :
    m.isData ∧ m.hasValue ∧ m.needed = some false ∧ m.sources = [] ∧ m.targets = [] := by
  obtain ⟨-, n, hn, rfl⟩ := hl.node?_eq_some_iff.1 hm
  have hd : n.isData := hu.isData hn
  obtain ⟨n', hn', hv, hneed, -, hall⟩ := hu
  cases hn.symm.trans hn'
  have hlost : ∀ j ∈ n.neighbours, j ∈ dead :=
    fun j hj => (hdead j).2 (removed_keep_iff.2 (hall j hj))
  have hsources : ∀ j ∈ n.sources, j ∈ dead := fun j hj => hlost j (List.mem_append_left _ hj)
  have htargets : ∀ j ∈ n.targets, j ∈ dead := fun j hj => hlost j (List.mem_append_right _ hj)
  refine ⟨by simpa using hd, by simpa using hv, by simp [hneed], ?_, ?_⟩
  · simpa using hsources
  · simpa using htargets

/-- A node that stays under the dropping rule loses the same neighbours under both: one that only
this rule removes would have all its own neighbours doomed. -/
theorem Linked.node?_clean_keep (hg : g.Linked) (hm : (g.clean .drop p).graph.node? i = some m) :
    (g.clean .keep p).graph.node? i = some m := by
  obtain ⟨kept, hk, hkept⟩ := hg.clean_remains .keep p
  obtain ⟨dropped, hd, hdropped⟩ := hg.clean_remains .drop p
  obtain ⟨hi, n, hn, rfl⟩ := hd.node?_eq_some_iff.1 hm
  rw [hdropped, removed_drop_iff, not_or] at hi
  have hik : i ∉ kept := by
    rw [hkept, removed_keep_iff]
    exact hi.1
  rw [hk.node? hik hn]
  refine congrArg some (Node.without_congr fun j hj => ?_)
  rw [Node.neighbours_tagged] at hj
  rw [hkept, hdropped, removed_keep_iff, removed_drop_iff, or_iff_left_of_imp]
  rintro ⟨l, hl, -, -, -, hall⟩
  exact absurd (hall i ((hg.mem_neighbours_comm hn hl).1 hj)) hi.1

/-- Both rules lose the same operations. -/
theorem Linked.lost_operations_drop (hg : g.Linked) (p : Policy) :
    g.lost (g.clean .drop p).graph Node.isOperation =
      g.lost (g.clean .keep p).graph Node.isOperation := by
  rw [hg.lost_clean, hg.lost_clean]
  ext i
  simp only [Set.mem_ofPred_eq, removed_keep_iff, removed_drop_iff]
  refine exists_congr fun n => and_congr_right fun hn => and_congr_right fun ho => ?_
  refine or_iff_left fun hu => ?_
  have hd := hu.isData hn
  rw [Node.isData_eq_not, ho] at hd
  cases hd

/-- The data nodes that the dropping rule loses are those of the keeping rule and the unread
constants. -/
theorem Linked.lost_data_drop (hg : g.Linked) (p : Policy) :
    g.lost (g.clean .drop p).graph Node.isData =
      g.lost (g.clean .keep p).graph Node.isData ∪ {i | g.Unread p i} := by
  rw [hg.lost_clean, hg.lost_clean]
  ext i
  simp only [Set.mem_union, Set.mem_ofPred_eq, removed_keep_iff, removed_drop_iff]
  constructor
  · rintro ⟨n, hn, hd, hi | hu⟩
    · exact .inl ⟨n, hn, hd, hi⟩
    · exact .inr hu
  · rintro (⟨n, hn, hd, hi⟩ | hu)
    · exact ⟨n, hn, hd, .inl hi⟩
    · obtain ⟨n, hn, -⟩ := id hu
      exact ⟨n, hn, hu.isData hn, .inr hu⟩

/-- **The dropping rule refines the keeping one.** Both remove the same operations and the same data
nodes without a value, and whatever stays under the former is the same node under the latter. What
only the former removes is, under the latter, a constant without neighbours that no output needs;
the reports differ by the number of these. -/
theorem Built.clean_leaves (hb : g.Built) (p : Policy) :
    let kept := g.clean .keep p
    let dropped := g.clean .drop p
    (∀ i n, g.node? i = some n → n.isOperation ∨ ¬ n.hasValue →
      (kept.graph.contains i ↔ dropped.graph.contains i)) ∧
    (∀ i m, kept.graph.node? i = some m → ¬ dropped.graph.contains i →
      m.isData ∧ m.hasValue ∧ m.needed = some false ∧ ¬ kept.graph.Needed i ∧ m.sources = [] ∧
        m.targets = []) ∧
    (∀ i m, dropped.graph.node? i = some m → kept.graph.node? i = some m) ∧
    dropped.report.removedOperations = kept.report.removedOperations ∧
    (dropped.report.removedData : ℕ∞) = kept.report.removedData +
      {i | kept.graph.contains i ∧ ¬ dropped.graph.contains i}.encard := by
  intro kept dropped
  have hg := hb.linked
  obtain ⟨dead, hl, hdead⟩ := hg.clean_remains .keep p
  refine ⟨fun i n hn hside => ?_, fun i m hm hi => ?_, fun i m => hg.node?_clean_keep, ?_, ?_⟩
  · have hu : ¬ g.Unread p i := by
      rintro ⟨n', hn', hv, -⟩
      cases hn.symm.trans hn'
      rw [Node.isOperation_of_hasValue hv] at hside
      simp [hv] at hside
    rw [hg.contains_clean_iff, hg.contains_clean_iff, removed_keep_iff, removed_drop_iff,
      or_iff_left hu]
  · have hu : g.Unread p i := hg.unread_iff.2 ⟨contains_iff.2 ⟨m, hm⟩, hi⟩
    obtain ⟨hd, hv, hneed, hs, ht⟩ := hu.leftover hl hdead hm
    have hr : g.Removed .drop p i := removed_drop_iff.2 (.inr hu)
    have hi' : ¬ kept.graph.Needed i := by
      rw [hl.needed_iff hg hdead]
      exact hr.not_needed hg
    exact ⟨hd, hv, hneed, hi', hs, ht⟩
  · have hcard := congrArg Set.encard (hg.lost_operations_drop p)
    rw [encard_lost_operations, encard_lost_operations] at hcard
    exact_mod_cast hcard
  · have hdisjoint : Disjoint (g.lost kept.graph Node.isData) {i | g.Unread p i} := by
      rw [Set.disjoint_left, hg.lost_clean]
      rintro i ⟨_, -, -, hr⟩ hu
      exact hu.not_doomed hg (removed_keep_iff.1 hr)
    have hunread : {i | kept.graph.contains i ∧ ¬ dropped.graph.contains i} =
        {i | g.Unread p i} := Set.ext fun i => hg.unread_iff.symm
    have hcard := Set.encard_union_eq hdisjoint
    rwa [← hg.lost_data_drop, encard_lost_data, encard_lost_data, ← hunread] at hcard

/-- Both constants lose their operations; only the dropping rule removes them, too. -/
theorem constants_clean_leaves :
    (∃ m, (constants.clean .keep .nothing).graph.node? 1 = some m ∧ m.hasValue ∧ m.sources = []) ∧
      ¬ (constants.clean .drop .nothing).graph.contains 1 ∧
      (constants.clean .drop .nothing).report.removedOperations = 2 := by
  obtain ⟨-, hextra, -, hops, -⟩ := Built.clean_leaves (g := constants) ⟨_, _, rfl⟩ .nothing
  obtain ⟨m, hm⟩ := contains_iff.1
    (show (constants.clean .keep .nothing).graph.contains 1 by decide +kernel)
  have hgone : ¬ (constants.clean .drop .nothing).graph.contains 1 := by decide +kernel
  obtain ⟨-, hv, -, -, hs, -⟩ := hextra 1 m hm hgone
  exact ⟨⟨m, hm, hv, hs⟩, hgone, hops.trans (by decide +kernel)⟩

end Dataflow.Graph
