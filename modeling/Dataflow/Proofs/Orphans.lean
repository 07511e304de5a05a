import Dataflow.Proofs.Persistence

/-!
# What orphan marks tell

The orphan mark of a data node is one bit, and stands for the past of the node: it is set if and
only if the node had a producer at some time of the run and has none now (`runCommands_orphaned`).
So what was never fed is no orphan, and no clean-up takes an input of the graph for one.

`Graph.Recalls` is the invariant, in which the nodes that were fed so far are a parameter. Erasing
keeps it since data has one producer at most: a data node that loses a source has lost its producer,
and has no other (`Recalls.remains`).
-/

namespace Dataflow

namespace Command

/-- Whether `c` connects a node to `i`, and `r` says that this is done. -/
def feeds (i : NodeId) (c : Command) (r : Reply) : Bool :=
  match c, r with
  | .connect _ j, .done => j == i
  | _, _ => false

theorem connect_of_feeds {g : Graph} {c : Command} {i : NodeId}
    (hf : c.feeds i (c.exec g).reply) : ∃ k h, c = .connect k i ∧ g.connect k i = .ok h := by
  cases c with
  | connect k j =>
    cases hc : g.connect k j with
    | error f => simp [feeds, exec, Effect.ofChange, hc] at hf
    | ok h =>
      obtain rfl : j = i := by simpa [feeds, exec, Effect.ofChange, hc] using hf
      exact ⟨k, h, rfl, hc⟩
  | _ => cases hf

end Command

namespace Graph

variable {g h : Graph} {past : NodeId → Bool} {dead : List NodeId} {i j : NodeId} {n m : Node}
  {rule : LeafRule} {p : Policy}

/-! ## The mark under the changes to a graph -/

theorem orphaned?_without (dead : List NodeId) (n : Node) :
    (n.without dead).orphaned? = n.orphaned?.map fun b => b || n.sources.any (· ∈ dead) := by
  rw [Node.orphaned?, Node.orphaned?, Node.datum?_without, Option.map_map, Option.map_map]
  rfl

theorem orphaned?_addTarget (j : NodeId) (n : Node) :
    (n.addTarget j).orphaned? = n.orphaned? := by
  unfold Node.addTarget
  split <;> rfl

theorem orphaned?_addSource (i : NodeId) (n : Node) :
    (n.addSource i).orphaned? = n.orphaned?.map fun _ => false := by
  rw [Node.addSource, Node.orphaned?, Node.orphaned?, Node.datum?_mapDatum, Option.map_map,
    Option.map_map]
  rfl

theorem orphaned?_afterJoining (i j k : NodeId) (n : Node) :
    (afterJoining i j k n).orphaned? =
      if k = j then n.orphaned?.map fun _ => false else n.orphaned? := by
  have hfirst : (if k = i then n.addTarget j else n).orphaned? = n.orphaned? := by
    split
    · exact orphaned?_addTarget j n
    · rfl
  by_cases hj : k = j
  · rw [afterJoining, if_pos hj, if_pos hj, orphaned?_addSource, hfirst]
  · rw [afterJoining, if_neg hj, if_neg hj, hfirst]

theorem isData_of_orphaned? {b : Bool} (hb : n.orphaned? = some b) : n.isData := by
  obtain ⟨d, hd, -⟩ := Option.map_eq_some_iff.1 hb
  simp [Node.isData, hd]

/-! ## The invariant -/

/-- The orphans of `g` are the data nodes of `past` that have no sources, and whatever has sources
is in `past`. It holds of the nodes that were fed so far. -/
structure Recalls (g : Graph) (past : NodeId → Bool) : Prop where
  issued {i : NodeId} (hi : past i) : i < g.nodes.next
  past_of_sources {i : NodeId} {n : Node} (hn : g.node? i = some n) (hs : n.sources ≠ []) : past i
  orphaned_iff {i : NodeId} {n : Node} {b : Bool} (hn : g.node? i = some n)
    (hb : n.orphaned? = some b) : b ↔ past i ∧ n.sources = []

theorem Recalls.empty (o : Options) : (Graph.empty o).Recalls fun _ => false where
  issued hi := nomatch hi
  past_of_sources hn := nomatch hn
  orphaned_iff hn := nomatch hn

theorem Recalls.rewrite (hg : g.Recalls past) (hw : h.Rewrites g) : h.Recalls past where
  issued hi := hw.next ▸ hg.issued hi
  past_of_sources {i m} hm hs := by
    obtain ⟨n, hn, hmn⟩ := hw.exists_of_node? hm
    exact hg.past_of_sources hn (hmn.sources ▸ hs)
  orphaned_iff {i m b} hm hb := by
    obtain ⟨n, hn, hmn⟩ := hw.exists_of_node? hm
    rw [hmn.sources]
    exact hg.orphaned_iff hn (hmn.orphaned? ▸ hb)

/-- A new node is at a position that was not handed out yet, and is no orphan. -/
theorem Recalls.insert {name : String} {body : Body} (hg : g.Recalls past)
    (hbody : ∀ d, body = .data d → d.orphaned = false)
    (hi : g.insert name body = .ok (i, h)) : h.Recalls past := by
  obtain ⟨rfl, hnext⟩ := next_insert hi
  have hfresh : ¬ past g.nodes.next := fun hp => Nat.lt_irrefl _ (hg.issued hp)
  refine ⟨fun {j} hj => hnext ▸ Nat.lt_succ_of_lt (hg.issued hj), fun {j m} hm hs => ?_,
    fun {j m b} hm hb => ?_⟩
  · rw [node?_insert hi] at hm
    split at hm
    · cases hm
      exact absurd rfl hs
    · exact hg.past_of_sources hm hs
  · rw [node?_insert hi] at hm
    split at hm
    · rename_i hj
      cases hm
      obtain ⟨d, hd, rfl⟩ := Option.map_eq_some_iff.1 hb
      have hbd : body = .data d := by
        cases body with
        | operation o => cases hd
        | data d' => cases hd; rfl
      simp [hbody d hbd, hj, hfresh]
    · exact hg.orphaned_iff hm hb

/-- What is connected to a node feeds it from then on. -/
theorem Recalls.connect (hg : g.Recalls past) (hc : g.connect i j = .ok h) :
    h.Recalls fun k => past k || j == k := by
  have hback : ∀ {k l'}, h.node? k = some l' →
      ∃ l, g.node? k = some l ∧ afterJoining i j k l = l' :=
    fun {k l'} hl => Option.map_eq_some_iff.1 (node?_connect hc k ▸ hl)
  obtain ⟨-, n, -, hn, -⟩ := edgeFault?_eq_none_iff.1 (connect_eq_ok_iff.1 hc).1
  refine ⟨fun {k} hk => ?_, fun {k _} hm hs => ?_, fun {k _ b} hm hb => ?_⟩
  · rw [next_connect hc]
    rcases Bool.or_eq_true_iff.1 hk with hk | hk
    · exact hg.issued hk
    · exact beq_iff_eq.1 hk ▸ Arena.lt_next_of_get? hn
  · obtain ⟨l, hl, rfl⟩ := hback hm
    rw [sources_afterJoining] at hs
    by_cases hk : k = j
    · simp [hk]
    · rw [if_neg hk] at hs
      simp [hg.past_of_sources hl hs]
  · obtain ⟨l, hl, rfl⟩ := hback hm
    rw [orphaned?_afterJoining] at hb
    rw [sources_afterJoining]
    by_cases hk : k = j
    · rw [if_pos hk] at hb ⊢
      obtain ⟨_, -, rfl⟩ := Option.map_eq_some_iff.1 hb
      simp
    · rw [if_neg hk] at hb ⊢
      simp [hg.orphaned_iff hl hb, Ne.symm hk]

/-- A data node that loses a source has lost its only producer, so it is an orphan rightly. -/
theorem Recalls.remains (hg : g.Recalls past) (hl : g.Linked) (hr : g.Remains dead h)
    (hnext : h.nodes.next = g.nodes.next) : h.Recalls past := by
  refine ⟨fun {j} hj => hnext ▸ hg.issued hj, fun {j _} hm hs => ?_, fun {j _ b} hm hb => ?_⟩
  · obtain ⟨-, n, hn, rfl⟩ := hr.node?_eq_some_iff.1 hm
    refine hg.past_of_sources hn fun hnone => hs ?_
    rw [Node.sources_without, hnone, List.filter_nil]
  · obtain ⟨-, n, hn, rfl⟩ := hr.node?_eq_some_iff.1 hm
    rw [orphaned?_without] at hb
    obtain ⟨a, ha, rfl⟩ := Option.map_eq_some_iff.1 hb
    have hone := hl.one_source hn (isData_of_orphaned? ha)
    rw [Node.sources_without, Bool.or_eq_true_iff, hg.orphaned_iff hn ha]
    cases hs : n.sources with
    | nil => simp
    | cons k rest =>
      have hpast : past j := hg.past_of_sources hn (by simp [hs])
      obtain rfl : rest = [] := List.length_eq_zero_iff.1 (by simpa [hs] using hone)
      by_cases hk : k ∈ dead <;> simp [hk, hpast]

theorem Recalls.erase (hg : g.Recalls past) (hl : g.Linked) (i : NodeId) :
    (g.erase i).Recalls past := by
  cases hn : g.node? i with
  | none => rwa [erase_of_node?_eq_none hn]
  | some n => exact hg.remains hl (hl.remains_erase hn) (next_erase g i)

theorem Recalls.clean (hg : g.Recalls past) (hl : g.Linked) (rule : LeafRule) (p : Policy) :
    (g.clean rule p).graph.Recalls past := by
  obtain ⟨dead, hr, -⟩ := hl.clean_remains rule p
  have htagged : g.tagged.Recalls past :=
    (hg.rewrite g.rewrites_tagNeeded).rewrite g.tagNeeded.rewrites_tagConstant
  exact htagged.remains hl.tagged hr ((next_clean g rule p).trans (next_tagged g).symm)

/-- Only a connection that is made feeds a node. -/
theorem Recalls.exec (hg : g.Recalls past) (hl : g.Linked) (c : Command) :
    (c.exec g).graph.Recalls fun i => past i || c.feeds i (c.exec g).reply := by
  by_cases hc : ∃ i j h, c = .connect i j ∧ g.connect i j = .ok h
  · obtain ⟨i, j, h, rfl, hc⟩ := hc
    simpa only [Command.exec, hc, Effect.ofChange, Command.feeds] using hg.connect hc
  · have hnone : (fun i => past i || c.feeds i (c.exec g).reply) = past := by
      funext i
      cases hf : c.feeds i (c.exec g).reply with
      | false => exact Bool.or_false _
      | true =>
        obtain ⟨k, h, hk, hok⟩ := Command.connect_of_feeds hf
        exact absurd ⟨k, i, h, hk, hok⟩ hc
    rw [hnone]
    exact c.exec_induct hg
      (fun _ _ _ _ hn => hg.insert fun d hd => Command.orphaned_of_newcomer? (hd ▸ hn))
      (fun i j h hk hok => absurd ⟨i, j, h, hk, hok⟩ hc)
      (fun _ hw _ => hg.rewrite hw) (fun i _ => hg.erase hl i) (fun rule p _ => hg.clean hl rule p)

/-! ## What feeds the graph -/

/-- Data without a value that was never fed is not removed. -/
theorem Recalls.not_removed (hg : g.Recalls past) (hl : g.Linked) (hn : g.node? i = some n)
    (hd : n.isData) (hv : ¬ n.hasValue) (hp : ¬ past i) : ¬ g.Removed rule p i := by
  intro hr
  rcases hr.reason hl hn with hf | ⟨n', d, hn', hd', ho, -⟩ | ⟨n', hn', hv', -⟩ | hs
  · rw [Node.isData_eq_not, hf.isOperation hn] at hd
    cases hd
  · cases hn.symm.trans hn'
    have hb : n.orphaned? = some d.orphaned := by rw [Node.orphaned?, hd', Option.map_some]
    exact hp ((hg.orphaned_iff hn hb).1 ho).1
  · cases hn.symm.trans hn'
    exact hv hv'
  · exact hp (hg.past_of_sources hn hs)

/-- An operation that feeds the graph and reads nothing is not removed. -/
theorem Linked.not_removed_of_parameter (hl : g.Linked) (hn : g.node? i = some n)
    (hk : n.hasKind OpKind.isParameter) (hs : n.sources = []) : ¬ g.Removed rule p i := by
  intro hr
  rcases hr.reason hl hn with ⟨n', hn', -, hy, -⟩ | ⟨n', d, hn', hd, -⟩ | ⟨n', hn', hv, -⟩ | hne
  · cases hn.symm.trans hn'
    obtain ⟨k, hkind, hpar⟩ := (Option.any_eq_true _ _).1 hk
    simp [YieldsConstants, Node.hasKind, hkind, hpar] at hy
  · cases hn.symm.trans hn'
    have ho := Node.isOperation_of_hasKind hk
    rw [Node.isOperation_of_datum? hd] at ho
    cases ho
  · cases hn.symm.trans hn'
    rw [Node.hasKind_of_hasValue hv] at hk
    cases hk
  · exact hne hs

/-! ## Runs -/

/-- Whether the node at `i` is fed in a run: a command connects a node to it, and this is done. -/
def fed (g : Graph) (cs : List Command) (i : NodeId) : Bool :=
  (cs.zip (g.runCommands cs).2).any fun e => e.1.feeds i e.2

theorem Recalls.runCommands (cs : List Command) (hg : g.Recalls past) (hl : g.Linked) :
    (g.runCommands cs).1.Recalls fun i => past i || g.fed cs i := by
  induction cs generalizing g past with
  | nil => simpa [Graph.runCommands, Graph.fed] using hg
  | cons c rest ih =>
    simpa [Graph.runCommands, Graph.fed, Bool.or_assoc] using ih (hg.exec hl c) (hl.exec c)

/-- Data that has a producer is no orphan. -/
theorem Built.not_orphaned {d : Datum} (hg : g.Built) (hn : g.node? i = some n)
    (hd : n.datum? = some d) (hs : n.sources ≠ []) : ¬ d.orphaned := by
  obtain ⟨o, cs, rfl⟩ := hg
  have hrecalls := (Recalls.empty o).runCommands cs (Linked.empty o)
  intro ho
  exact hs ((hrecalls.orphaned_iff hn (by rw [Node.orphaned?, hd, Option.map_some])).1 ho).2

/-- **The orphan mark tells the past of a data node**: it was fed some time in the run, and no
producer is left. So no clean-up removes data without a value that was never fed, nor an operation
that feeds the graph and reads nothing. -/
theorem runCommands_orphaned (o : Options) (cs : List Command) :
    let g := ((Graph.empty o).runCommands cs).1
    let fed := (Graph.empty o).fed cs
    (∀ i n d, g.node? i = some n → n.datum? = some d →
      (d.orphaned ↔ fed i ∧ n.sources = [])) ∧
    ∀ rule p i n, g.node? i = some n →
      (n.isData ∧ ¬ n.hasValue ∧ ¬ fed i ∨ n.hasKind OpKind.isParameter ∧ n.sources = []) →
      (g.clean rule p).graph.contains i := by
  intro g fed
  have hl : g.Linked := Built.linked ⟨o, cs, rfl⟩
  have hg : g.Recalls fed := by simpa using (Recalls.empty o).runCommands cs (Linked.empty o)
  refine ⟨fun i n d hn hd => ?_, fun rule p i n hn hkeep => ?_⟩
  · exact hg.orphaned_iff hn (by rw [Node.orphaned?, hd, Option.map_some])
  · refine hl.contains_clean_iff.2 ⟨contains_iff.2 ⟨n, hn⟩, ?_⟩
    rcases hkeep with ⟨hd, hv, hf⟩ | ⟨hk, hs⟩
    · exact hg.not_removed hl hn hd hv hf
    · exact hl.not_removed_of_parameter hn hk hs

/-- An operation reads what feeds the graph, data that nothing feeds, and what it yields itself.
Then it is erased. -/
def intake : List Command :=
  [.addData "x", .addOperation .parameter "p", .addData "y", .connect 1 2,
    .addOperation .identity "a", .addData "z", .connect 2 3, .connect 0 3, .connect 3 4,
    .connect 4 3, .connect 1 4, .erase 3]

/-- What it yielded is an orphan, whereas the data that it read is none. The former goes, the data
that was never fed and the source of the rest stay. -/
theorem intake_orphaned :
    let g := ((Graph.empty {}).runCommands intake).1
    (∃ n d, g.node? 4 = some n ∧ n.datum? = some d ∧ d.orphaned) ∧
      (∃ n d, g.node? 2 = some n ∧ n.datum? = some d ∧ ¬ d.orphaned) ∧
      ¬ (g.clean .drop .nothing).graph.contains 4 ∧
      (g.clean .drop .nothing).graph.contains 0 ∧ (g.clean .drop .nothing).graph.contains 1 := by
  intro g
  obtain ⟨hmark, hkept⟩ := runCommands_orphaned {} intake
  obtain ⟨z, d, hz, hzd, hzs⟩ : ∃ n d, g.node? 4 = some n ∧ n.datum? = some d ∧ n.sources = [] := by
    simpa [Option.any_eq_true, Option.isSome_iff_exists] using
      (show (g.node? 4).any fun n => n.datum?.isSome && n.sources == [] by decide +kernel)
  obtain ⟨y, e, hy, hye, hys⟩ : ∃ n d, g.node? 2 = some n ∧ n.datum? = some d ∧ n.sources ≠ [] := by
    simpa [Option.any_eq_true, Option.isSome_iff_exists] using
      (show (g.node? 2).any fun n => n.datum?.isSome && n.sources != [] by decide +kernel)
  obtain ⟨x, hx, hxd, hxv⟩ : ∃ n, g.node? 0 = some n ∧ n.isData ∧ ¬ n.hasValue := by
    simpa [Option.any_eq_true] using
      (show (g.node? 0).any fun n => n.isData && !n.hasValue by decide +kernel)
  obtain ⟨q, hq, hqk, hqs⟩ :
      ∃ n, g.node? 1 = some n ∧ n.hasKind OpKind.isParameter ∧ n.sources = [] := by
    simpa [Option.any_eq_true] using
      (show (g.node? 1).any fun n => n.hasKind OpKind.isParameter && n.sources == [] by
        decide +kernel)
  exact ⟨⟨z, d, hz, hzd, (hmark 4 z d hz hzd).2 ⟨by decide +kernel, hzs⟩⟩,
    ⟨y, e, hy, hye, fun ho => hys ((hmark 2 y e hy hye).1 ho).2⟩, by decide +kernel,
    hkept .drop .nothing 0 x hx (.inl ⟨hxd, hxv, by decide +kernel⟩),
    hkept .drop .nothing 1 q hq (.inr ⟨hqk, hqs⟩)⟩

end Graph

end Dataflow
