import Dataflow.Proofs.Accounts
import Dataflow.Proofs.Persistence

/-!
# The table of names

A name stands twice in a graph: in the node that bears it, and in the table, which only adding and
erasing a node write to. `Graph.Indexed` says that the table is exact. Commands keep it so
(`Indexed.exec`), clean-ups among them, since these erase nodes one by one like the bare request.

So no two live nodes share a name, a request for a new node is refused if and only if a live node
bears the name, and a name is free again as soon as its node is gone (`runCommands_indexed`).
-/

namespace Dataflow

namespace Graph

variable {g h : Graph} {i j : NodeId} {n m : Node} {name : String} {body : Body}

/-! ## Exact tables -/

/-- The table leads from a name to a position if and only if a node of that name is live there. -/
def Indexed (g : Graph) : Prop :=
  ∀ name i, g.find? name = some i ↔ ∃ n, g.node? i = some n ∧ n.name = name

theorem Indexed.find? (hg : g.Indexed) (hn : g.node? i = some n) : g.find? n.name = some i :=
  (hg n.name i).2 ⟨n, hn, rfl⟩

/-- No two live nodes share a name. -/
theorem Indexed.unique (hg : g.Indexed) (hn : g.node? i = some n) (hm : g.node? j = some m)
    (h : n.name = m.name) : i = j := by
  have hi := hg.find? hn
  rw [h, hg.find? hm] at hi
  exact (Option.some.inj hi).symm

theorem Indexed.find?_eq_none_iff (hg : g.Indexed) :
    g.find? name = none ↔ ¬ ∃ i n, g.node? i = some n ∧ n.name = name := by
  rw [Option.eq_none_iff_forall_ne_some, not_exists]
  exact forall_congr' fun i => not_congr (hg name i)

/-! ## What keeps tables exact -/

theorem Indexed.empty (o : Options) : (Graph.empty o).Indexed := by
  intro name i
  constructor
  · intro hf
    cases hf
  · rintro ⟨n, hn, -⟩
    cases hn

/-- Exactness is a matter of names and positions alone. -/
theorem Indexed.congr (hg : g.Indexed) (hnames : h.names = g.names)
    (hnode : ∀ i, (h.node? i).map Node.name = (g.node? i).map Node.name) : h.Indexed := by
  intro name i
  have hfind : h.find? name = g.find? name := congrArg (·.find? name) hnames
  rw [hfind, hg name i, ← Option.map_eq_some_iff, ← Option.map_eq_some_iff, hnode]

theorem Indexed.rewrite (hg : g.Indexed) (hw : h.Rewrites g) : h.Indexed :=
  hg.congr hw.names (hw.map_eq fun _ _ => Node.Rewrites.name)

theorem Indexed.connect (hg : g.Indexed) (hc : g.connect i j = .ok h) : h.Indexed := by
  have hnames : h.names = g.names := by
    obtain ⟨-, rfl⟩ := connect_eq_ok_iff.1 hc
    rfl
  refine hg.congr hnames fun k => ?_
  rw [node?_connect hc, Option.map_map]
  exact congrArg (Option.map · _) (funext fun n => (continues_afterJoining i j k n).name)

/-- The new node bears a name that no node bore, and is the only one at a new position. -/
theorem Indexed.insert (hg : g.Indexed) (hi : g.insert name body = .ok (i, h)) : h.Indexed := by
  obtain ⟨hfree, hnext, hh⟩ := insert_eq_ok_iff.1 hi
  have hfresh : g.node? i = none := hnext ▸ node?_next g
  have hfind : ∀ other, h.find? other = if other = name then some i else g.find? other := by
    intro other
    rw [hh, hnext]
    exact NameTable.find?_insert ..
  intro other j
  rw [hfind, node?_insert hi]
  by_cases ho : other = name <;> by_cases hj : j = i
  · simp [ho, hj]
  · have hnone : ¬ ∃ n, g.node? j = some n ∧ n.name = name := by
      rw [← hg name j, hfree]
      exact nofun
    simpa [ho, hj, Ne.symm hj] using hnone
  · have hnone : g.find? other ≠ some i := by
      rw [Ne, hg other i, hfresh]
      rintro ⟨n, hn, -⟩
      cases hn
    simpa [ho, hj, Ne.symm ho] using hnone
  · simpa [ho, hj] using hg other j

/-- The name of an erased node goes with it, and it was the only node of that name. -/
theorem Indexed.erase (hg : g.Indexed) (i : NodeId) : (g.erase i).Indexed := by
  cases hn : g.node? i with
  | none => rwa [erase_of_node?_eq_none hn]
  | some n =>
    intro other j
    rw [find?_erase hn, node?_erase hn]
    by_cases hj : j = i
    · subst hj
      by_cases ho : other = n.name
      · simp [ho]
      · simp [ho, hg other j, hn, Ne.symm ho]
    · by_cases ho : other = n.name
      · have hnone : ∀ m, g.node? j = some m → m.name ≠ n.name :=
          fun m hm hmn => hj (hg.unique hm hn hmn)
        simpa [ho, hj, name_afterLosing] using hnone
      · simp [ho, hj, hg other j, name_afterLosing]

theorem Indexed.clean (hg : g.Indexed) (rule : LeafRule) (p : Policy) :
    (g.clean rule p).graph.Indexed :=
  clean_induct (p := p) (P := fun h _ => h.Indexed)
    ((hg.rewrite g.rewrites_tagNeeded).rewrite g.tagNeeded.rewrites_tagConstant)
    fun _ _ i _ hh _ _ _ _ => hh.erase i

theorem Indexed.exec (hg : g.Indexed) (c : Command) : (c.exec g).graph.Indexed :=
  c.exec_induct hg (fun _ _ _ _ _ => hg.insert) (fun _ _ _ _ => hg.connect)
    (fun _ hw _ => hg.rewrite hw) (fun i _ => hg.erase i) fun rule p _ => hg.clean rule p

/-- Commands build graphs with exact tables only. -/
theorem Built.indexed (hg : g.Built) : g.Indexed :=
  hg.induct Indexed.empty fun _ c hh => hh.exec c

/-! ## Names that are taken -/

/-- A request for a new node is refused for its name if a live node bears that, and only then. -/
theorem Indexed.exec_of_newcomer? (hg : g.Indexed) {c : Command}
    (hc : c.newcomer? = some (name, body)) :
    ((c.exec g).reply = .refused (.nameTaken name) ↔ ∃ i n, g.node? i = some n ∧ n.name = name) ∧
      ((∃ i, (c.exec g).reply = .added i) ↔ ¬ ∃ i n, g.node? i = some n ∧ n.name = name) := by
  rw [← hg.find?_eq_none_iff, Command.exec_of_newcomer? hc, Graph.insert]
  cases hf : g.find? name with
  | none => simpa [Effect.ofAdded] using hg.find?_eq_none_iff.1 hf
  | some j => simpa [Effect.ofAdded] using ⟨j, (hg name j).1 hf⟩

/-! ## Names that are free again -/

theorem contains_insert_of_contains (hi : g.insert name body = .ok (i, h)) (hj : g.contains j) :
    h.contains j := by
  obtain ⟨n, hn⟩ := contains_iff.1 hj
  by_cases hji : j = i
  · exact contains_iff.2 ⟨_, by rw [node?_insert hi, if_pos hji]⟩
  · exact contains_iff.2 ⟨n, by rw [node?_insert hi, if_neg hji, hn]⟩

theorem contains_connect {k : NodeId} (hc : g.connect i j = .ok h) :
    h.contains k = g.contains k := by
  show (h.node? k).isSome = (g.node? k).isSome
  rw [node?_connect hc, Option.isSome_map]

theorem Rewrites.contains (hw : h.Rewrites g) (i : NodeId) : h.contains i = g.contains i := by
  have hi := congrArg Option.isSome (hw.map_eq (f := Node.name) (fun _ _ => Node.Rewrites.name) i)
  rwa [Option.isSome_map, Option.isSome_map] at hi

end Graph

namespace Command

variable {g : Graph} {c : Command} {i : NodeId} {n : Node}

/-- Whether a command erases the node at `i`, on request or as part of a clean-up. -/
def Erases (g : Graph) (c : Command) (i : NodeId) : Prop :=
  c = .erase i ∨
    ∃ rule p, c.cleaning? g = some (rule, p) ∧ i ∈ (g.clean rule p).erased.map Prod.fst

theorem Erases.newcomer? (he : c.Erases g i) : c.newcomer? = none := by
  obtain rfl | ⟨rule, p, hc, -⟩ := he
  · rfl
  · cases hx : c.newcomer? with
    | none => rfl
    | some x =>
      rw [cleaning?_of_newcomer? hx] at hc
      cases hc

theorem Erases.not_contains (he : c.Erases g i) : ¬ (c.exec g).graph.contains i := by
  obtain rfl | ⟨rule, p, hc, hr⟩ := he
  · rw [exec_erase]
    exact fun h => (Graph.contains_erase.1 h).1 rfl
  · rw [exec_graph_of_cleaning? hc]
    exact ((g.clean_accounts rule p).mem_iff.1 hr).2

/-- A live node is gone after a command if and only if the command erases it. -/
theorem not_contains_exec_iff (hi : g.contains i) :
    ¬ (c.exec g).graph.contains i ↔ c.Erases g i := by
  refine ⟨?_, Erases.not_contains⟩
  refine c.exec_induct (P := fun h => ¬ h.contains i → c.Erases g i) (absurd hi)
    (fun _ _ _ h _ hok hn => absurd (Graph.contains_insert_of_contains hok hi) hn)
    (fun _ _ h _ hok hn => absurd ((Graph.contains_connect hok).trans hi) hn)
    (fun h hw _ hn => absurd ((hw.contains i).trans hi) hn) (fun j hc hn => ?_)
    fun rule p hc hn => ?_
  · rw [Graph.contains_erase, not_and_or, Decidable.not_not] at hn
    obtain rfl := hn.resolve_right (not_not_intro hi)
    exact .inl hc
  · exact .inr ⟨rule, p, hc, (g.clean_accounts rule p).mem_iff.2 ⟨hi, hn⟩⟩

end Command

namespace Graph

variable {g : Graph} {c : Command} {i : NodeId} {n : Node}

/-- The name of a live node is free after a command if and only if the node is gone. -/
theorem Indexed.free_exec_iff (hg : g.Indexed) (hn : g.node? i = some n) :
    (c.exec g).graph.find? n.name = none ↔ ¬ (c.exec g).graph.contains i := by
  have hi : g.contains i := contains_iff.2 ⟨n, hn⟩
  have hlater : (c.exec g).graph.Continues g := g.continues_exec c
  rw [(hg.exec c).find?_eq_none_iff]
  constructor
  · intro hfree hi'
    obtain ⟨m, hm⟩ := contains_iff.1 hi'
    exact hfree ⟨i, m, hm, (hlater.of_node? hn hm).name⟩
  · rintro hgone ⟨j, m, hm, hname⟩
    -- a command that erases adds nothing, so the node at `j` was there before
    have hnext : (c.exec g).graph.nodes.next = g.nodes.next :=
      Command.next_exec_of_newcomer?_eq_none
        ((Command.not_contains_exec_iff hi).1 hgone).newcomer? g
    obtain ⟨n', hn', hmn⟩ := hlater.node? (hnext ▸ Arena.lt_next_of_get? hm) hm
    obtain rfl := hg.unique hn' hn (hmn.name.symm.trans hname)
    exact hgone (contains_iff.2 ⟨m, hm⟩)

/-- **The table of names is exact in every graph that commands build**, whether or not they were
refused. So live nodes have different names; a request for a new node is refused for its name if and
only if a live node bears it, and carried out otherwise; and what command makes the name of a node
free again is exactly one that erases the node, on request or in a clean-up. -/
theorem runCommands_indexed (o : Options) (cs : List Command) :
    let g := ((Graph.empty o).runCommands cs).1
    (∀ name i, g.find? name = some i ↔ ∃ n, g.node? i = some n ∧ n.name = name) ∧
      (∀ i j n m, g.node? i = some n → g.node? j = some m → n.name = m.name → i = j) ∧
      (∀ (c : Command) name body, c.newcomer? = some (name, body) →
        ((c.exec g).reply = .refused (.nameTaken name) ↔
          ∃ i n, g.node? i = some n ∧ n.name = name) ∧
        ((∃ i, (c.exec g).reply = .added i) ↔ ¬ ∃ i n, g.node? i = some n ∧ n.name = name)) ∧
      ∀ (c : Command) i n, g.node? i = some n →
        ((c.exec g).graph.find? n.name = none ↔ ¬ (c.exec g).graph.contains i) ∧
        (¬ (c.exec g).graph.contains i ↔ c.Erases g i) := by
  intro g
  have hg : g.Indexed := Built.indexed ⟨o, cs, rfl⟩
  refine ⟨hg, fun i j n m => hg.unique, fun c name body => hg.exec_of_newcomer?,
    fun c i n hn => ⟨hg.free_exec_iff hn, ?_⟩⟩
  exact Command.not_contains_exec_iff (contains_iff.2 ⟨n, hn⟩)

/-- Data that is erased, and whose name another node takes afterwards. The name of an operation is
refused, as long as no clean-up folds the operation. -/
def roster : List Command :=
  [.addOperation .const "c", .addConstant "v" ⟨[0, 12], #[], rfl⟩, .connect 0 1, .addData "x",
    .erase 2, .addData "c", .addData "x"]

/-- The table leads to the new bearer of the one name, and the other is taken until the clean-up. -/
theorem roster_indexed :
    let g := ((Graph.empty {}).runCommands roster).1
    g.find? "x" = some 3 ∧
      ((Command.addData "c").exec g).reply = .refused (.nameTaken "c") ∧
      Command.clean.Erases g 0 ∧ (Command.clean.exec g).graph.find? "c" = none := by
  intro g
  obtain ⟨htable, -, htaken, hfree⟩ := runCommands_indexed {} roster
  obtain ⟨x, hx, hxname⟩ : ∃ n, g.node? 3 = some n ∧ n.name = "x" := by
    simpa [Option.any_eq_true] using
      (show (g.node? 3).any fun n => n.name == "x" by decide +kernel)
  obtain ⟨c, hc, hcname⟩ : ∃ n, g.node? 0 = some n ∧ n.name = "c" := by
    simpa [Option.any_eq_true] using
      (show (g.node? 0).any fun n => n.name == "c" by decide +kernel)
  obtain ⟨hname, hgone⟩ := hfree .clean 0 c hc
  have hlost : ¬ (Command.clean.exec g).graph.contains 0 := by decide +kernel
  exact ⟨(htable "x" 3).2 ⟨x, hx, hxname⟩, (htaken (.addData "c") "c" _ rfl).1.2 ⟨0, c, hc, hcname⟩,
    hgone.1 hlost, hcname ▸ hname.2 hlost⟩

end Graph

end Dataflow
