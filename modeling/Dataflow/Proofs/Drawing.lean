import Dataflow.Graph.Dot
import Dataflow.Proofs.Built
import Dataflow.Proofs.Labels
import Mathlib.Data.List.Nodup
import Mathlib.Data.Prod.Basic

/-!
# What a drawing tells

The text of a drawing can be read back (`Dot.textBy_injective`). Its lines are written in a code
that shows where each of them ends (`Dot.Line.instant_chars`), since a label ends at the first quote
that no backslash marks, whatever quotes, line breaks or arrows are in it. For the same reason there
are as many lines as nodes and edges, and two more (`Dot.count_newline_textBy`). All this holds for
every way to quote that is a `Text.Quoting`.

A graph is drawn with its live nodes numbered in their order, without gaps, and with an edge for
each pair of neighbours. What the labels tell of the nodes can be read back as well, if no custom
kind bears a misleading name (`Graph.told_of_dot_eq`). `Graph.dot_exact` takes all this together.
-/

namespace Dataflow

namespace Dot

open Text

/-! ## Labels -/

/-- What stands for a character of a quoted label. -/
def mark (c : Char) : List Char := if c = '"' ∨ c = '\\' then ['\\', c] else [c]

theorem instant_mark : Instant mark := by
  intro a b r s h
  unfold mark at h
  -- A character takes a mark or is none, so the first symbol tells which of the two it is.
  by_cases ha : a = '"' ∨ a = '\\' <;> by_cases hb : b = '"' ∨ b = '\\' <;>
    simp only [ha, hb, if_true, if_false] at h
  · exact List.cons.inj (List.cons.inj h).2
  · exact absurd (.inr (List.cons.inj h).1.symm) hb
  · exact absurd (.inr (List.cons.inj h).1) ha
  · exact List.cons.inj h

theorem mark_eq_cons (c : Char) : ∃ x w, mark c = x :: w ∧ x ≠ '"' := by
  unfold mark
  split
  · exact ⟨'\\', [c], rfl, by decide⟩
  · rename_i hc
    exact ⟨c, [], rfl, fun hq => hc (.inl hq)⟩

variable {q : Char → List Char}

/-- A label ends at its closing quote. -/
theorem instant_escapeLabel (hq : Quoting q) : Instant fun label => escapeLabel q label ++ ['"'] :=
  (instant_mark.many mark_eq_cons).comp
    (hq.quotedChars_injective.comp fun _ _ => String.toList_inj.1)

/-- A label stays on one line. -/
theorem newline_not_mem_escapeLabel (hq : Quoting q) (label : String) :
    '\n' ∉ escapeLabel q label := by
  simp only [escapeLabel, List.mem_flatMap, not_exists, not_and]
  intro c hc
  have hnot : c ≠ '\n' := ne_of_mem_of_not_mem hc (hq.newline_not_mem_quotedChars _)
  split
  · simp [hnot.symm]
  · simp [hnot.symm]

/-! ## Lines -/

/-- What a line tells of the node whose number it begins with: its label, or the number of a node to
which it has an edge. -/
abbrev Line := Nat × (String ⊕ Nat)

/-- A number with a space after it. -/
def numeral (i : Nat) : List Char := Nat.toDigits 10 i ++ [' ']

/-- A line, as it is written for a node or for an edge. -/
def Line.chars (q : Char → List Char) (l : Line) : List Char :=
  "    ".toList ++ (numeral l.1 ++ Sum.elim
    (fun label => '[' :: (" label = \"".toList ++ (escapeLabel q label ++ ['"'] ++ " ]\n".toList)))
    (fun j => '-' :: ("> ".toList ++ (numeral j ++ "[ ]\n".toList))) l.2)

theorem toList_nodeLine (label : String) (i : Nat) :
    (nodeLine q label i).toList = Line.chars q (i, .inl label) := by
  simp [nodeLine, Line.chars, numeral]

theorem toList_edgeLine (e : Nat × Nat) :
    (edgeLine e).toList = Line.chars q (e.1, .inr e.2) := by
  simp [edgeLine, Line.chars, numeral]

theorem instant_numeral : Instant numeral :=
  instant_toDigits (by decide) (by decide) fun _ => Nat.digitChar_ne _ rfl

/-- A line shows where it ends, and whether it is that of a node or of an edge. -/
theorem Line.instant_chars (hq : Quoting q) : Instant (Line.chars q) := by
  have hnode : Instant fun label =>
      " label = \"".toList ++ (escapeLabel q label ++ ['"'] ++ " ]\n".toList) :=
    ((instant_escapeLabel hq).before _).after _
  have hedge : Instant fun j => "> ".toList ++ (numeral j ++ "[ ]\n".toList) :=
    (instant_numeral.before _).after _
  exact (instant_numeral.seq (hnode.sum hedge (by decide))).after _

theorem Line.chars_eq_cons (l : Line) : ∃ x w, l.chars q = x :: w ∧ x ≠ '\x7d' :=
  ⟨' ', _, rfl, by decide⟩

theorem newline_not_mem_numeral (i : Nat) : '\n' ∉ numeral i := by
  have hdigits : '\n' ∉ Nat.toDigits 10 i :=
    not_mem_toDigits (by decide) (fun _ => Nat.digitChar_ne _ rfl) i
  simp [numeral, hdigits]

theorem Line.count_newline (hq : Quoting q) (l : Line) : (l.chars q).count '\n' = 1 := by
  have hlabel : ∀ label, (escapeLabel q label).count '\n' = 0 :=
    fun label => List.count_eq_zero.2 (newline_not_mem_escapeLabel hq label)
  have hnumeral : ∀ i, (numeral i).count '\n' = 0 :=
    fun i => List.count_eq_zero.2 (newline_not_mem_numeral i)
  obtain ⟨i, label | j⟩ := l
  · simp [Line.chars, hlabel, hnumeral]
  · simp [Line.chars, hnumeral]

/-! ## Drawings -/

/-- The lines of a drawing. -/
def lines (d : Dot) : List Line :=
  (d.labels.zipIdx.map fun p => (p.2, .inl p.1)) ++ d.edges.map fun e => (e.1, .inr e.2)

theorem toList_textBy (d : Dot) : (d.textBy q).toList =
    "digraph \x7b\n".toList ++ (d.lines.flatMap (Line.chars q) ++ ['\x7d'] ++ ['\n']) := by
  have hnodes : (d.labels.mapIdx fun i label => nodeLine q label i).map String.toList =
      (d.labels.zipIdx.map fun p => (p.2, Sum.inl p.1)).map (Line.chars q) := by
    rw [List.mapIdx_eq_zipIdx_map, List.map_map, List.map_map]
    exact List.map_congr_left fun p _ => toList_nodeLine p.1 p.2
  have hedges : (d.edges.map edgeLine).map String.toList =
      (d.edges.map fun e => (e.1, Sum.inr e.2)).map (Line.chars q) := by
    rw [List.map_map, List.map_map]
    exact List.map_congr_left fun e _ => toList_edgeLine e
  simp [textBy, lines, List.flatMap_def, hnodes, hedges]

/-- The labels are found in the lines of nodes, and the edges in the others. -/
theorem lines_injective : Function.Injective lines := by
  have hlabels : ∀ d : Dot, (lines d).filterMap (fun l => l.2.getLeft?) = d.labels := by
    intro d
    simp [lines, Function.comp_def]
  have hedges : ∀ d : Dot, (lines d).filterMap (fun l => l.2.getRight?.map (l.1, ·)) = d.edges := by
    intro d
    simp [lines, Function.comp_def]
  intro d d' h
  calc d = ⟨d.labels, d.edges⟩ := rfl
    _ = ⟨d'.labels, d'.edges⟩ := by rw [← hlabels, ← hedges, h, hlabels, hedges]

/-- **The text of a drawing can be read back.** -/
theorem textBy_injective (hq : Quoting q) : Function.Injective (textBy q) := by
  intro d d' h
  have hchars := congrArg String.toList h
  rw [toList_textBy, toList_textBy] at hchars
  have hlines : Instant fun l : List Line => l.flatMap (Line.chars q) ++ ['\x7d'] :=
    (Line.instant_chars hq).many Line.chars_eq_cons
  exact lines_injective (hlines (List.append_cancel_left hchars)).1

/-- Every node and every edge has a line of its own, and nothing else but the first and the last
line is there. -/
theorem count_newline_textBy (hq : Quoting q) (d : Dot) :
    (d.textBy q).toList.count '\n' = d.labels.length + d.edges.length + 2 := by
  have hlines : (d.lines.flatMap (Line.chars q)).count '\n' = d.labels.length + d.edges.length := by
    simp [List.count_flatMap, Line.count_newline hq, Function.comp_def, lines]
  rw [toList_textBy, List.count_append, List.count_append, List.count_append, hlines]
  -- Of the two more, one ends the first line, and one ends the last.
  exact Nat.add_comm ..

end Dot

namespace Graph

variable {g : Graph} {i j : NodeId} {n : Node} {a b k : Nat}

/-! ## Numbers of nodes -/

theorem ids_lt_of_lt {ha : a < g.ids.length} {hb : b < g.ids.length} (hab : a < b) :
    g.ids[a] < g.ids[b] :=
  List.pairwise_iff_getElem.1 g.nodes.ids_pairwise a b ha hb hab

theorem rank?_eq_some_iff : g.rank? i = some k ↔ g.ids[k]? = some i := by
  rw [rank?, List.idxOf?_eq_some_iff, List.getElem?_eq_some_iff]
  constructor
  · rintro ⟨hk, hi, -⟩
    exact ⟨hk, hi⟩
  · rintro ⟨hk, hi⟩
    exact ⟨hk, hi, fun l hl hli => absurd (hli.trans hi.symm) (Nat.ne_of_lt (ids_lt_of_lt hl))⟩

theorem exists_rank?_iff_contains : (∃ k, g.rank? i = some k) ↔ g.contains i := by
  simp only [rank?_eq_some_iff]
  exact List.mem_iff_getElem?.symm.trans Arena.mem_ids

theorem exists_rank?_iff_lt : (∃ i, g.rank? i = some k) ↔ k < g.size := by
  have hsize : g.ids.length = g.size := Arena.length_ids g.nodes
  simp [rank?_eq_some_iff, List.getElem?_eq_some_iff, hsize]

/-- Numbers are in the order of the nodes. -/
theorem lt_iff_lt_of_rank? (hi : g.rank? i = some a) (hj : g.rank? j = some b) :
    i < j ↔ a < b := by
  obtain ⟨ha, rfl⟩ := List.getElem?_eq_some_iff.1 (rank?_eq_some_iff.1 hi)
  obtain ⟨hb, rfl⟩ := List.getElem?_eq_some_iff.1 (rank?_eq_some_iff.1 hj)
  rcases Nat.lt_trichotomy a b with hab | rfl | hba
  · exact iff_of_true (ids_lt_of_lt hab) hab
  · simp
  · exact iff_of_false (Nat.lt_asymm (ids_lt_of_lt hba)) (Nat.lt_asymm hba)

theorem rank?_inj (hi : g.rank? i = some k) (hj : g.rank? j = some k) : i = j :=
  Option.some.inj ((rank?_eq_some_iff.1 hi).symm.trans (rank?_eq_some_iff.1 hj))

theorem entries_getElem?_iff :
    g.entries[k]? = some (i, n) ↔ g.rank? i = some k ∧ g.node? i = some n := by
  have hids : g.ids[k]? = g.entries[k]?.map Prod.fst := List.getElem?_map
  rw [rank?_eq_some_iff, hids]
  constructor
  · intro he
    exact ⟨by rw [he, Option.map_some], mem_entries.1 (List.mem_of_getElem? he)⟩
  · rintro ⟨he, hn⟩
    obtain ⟨⟨i', n'⟩, he', rfl⟩ := Option.map_eq_some_iff.1 he
    cases hn.symm.trans (mem_entries.1 (List.mem_of_getElem? he'))
    exact he'

/-! ## Edges between numbers -/

theorem mem_rankedEdges : (a, b) ∈ g.rankedEdges ↔ ∃ i j n, g.node? i = some n ∧
    j ∈ n.targets ∧ g.rank? i = some a ∧ g.rank? j = some b := by
  simp only [rankedEdges, List.mem_flatten, List.mem_mapIdx]
  constructor
  · rintro ⟨_, ⟨k, hk, rfl⟩, hmem⟩
    obtain ⟨b', hb, hab⟩ := List.mem_map.1 hmem
    cases hab
    obtain ⟨j, hj, hjb⟩ := List.mem_filterMap.1 hb
    obtain ⟨hi, hn⟩ := entries_getElem?_iff.1 (List.getElem?_eq_getElem hk)
    exact ⟨_, j, _, hn, hj, hi, hjb⟩
  · rintro ⟨i, j, n, hn, hj, ha, hb⟩
    obtain ⟨hk, he⟩ := List.getElem?_eq_some_iff.1 (entries_getElem?_iff.2 ⟨ha, hn⟩)
    refine ⟨_, ⟨a, hk, rfl⟩, List.mem_map.2 ⟨b, List.mem_filterMap.2 ⟨j, ?_, hb⟩, rfl⟩⟩
    rwa [he]

theorem Linked.nodup_rankedEdges (hg : g.Linked) : g.rankedEdges.Nodup := by
  rw [rankedEdges, List.nodup_flatten]
  constructor
  · intro l hl
    obtain ⟨k, hk, rfl⟩ := List.mem_mapIdx.1 hl
    obtain ⟨-, hn⟩ := entries_getElem?_iff.1 (List.getElem?_eq_getElem hk)
    have htargets : (g.entries[k].2.targets.filterMap g.rank?).Nodup :=
      (hg.nodup_targets hn).filterMap fun i j b hi hj => rank?_inj hi hj
    exact htargets.map (Prod.mk_right_injective k)
  · rw [List.pairwise_iff_getElem]
    intro k l hk hl hkl e hek hel
    simp only [List.getElem_mapIdx, List.mem_map] at hek hel
    obtain ⟨_, -, rfl⟩ := hek
    obtain ⟨_, -, he⟩ := hel
    exact Nat.ne_of_lt hkl (congrArg Prod.fst he).symm

theorem getElem?_labels_dot (hi : g.rank? i = some k) (hn : g.node? i = some n) :
    g.dot.labels[k]? = some n.label := by
  have he : g.entries[k]? = some (i, n) := entries_getElem?_iff.2 ⟨hi, hn⟩
  simp [dot, he]

theorem length_labels_dot (g : Graph) : g.dot.labels.length = g.size :=
  calc g.dot.labels.length = g.ids.length := by simp [dot, ids, Arena.ids, entries]
    _ = g.size := Arena.length_ids g.nodes

/-- In equal drawings, nodes with the same number have the same name, are declared outputs or not,
are operations with kinds of the same name, or data with values of the same text. -/
theorem told_of_dot_eq {h : Graph} {m : Node} (hdot : g.dot = h.dot) (hi : g.rank? i = some k)
    (hj : h.rank? j = some k) (hm : g.node? i = some m) (hn : h.node? j = some n) (hpm : m.Plain)
    (hpn : n.Plain) :
    m.name = n.name ∧ m.isOutput = n.isOutput ∧
      m.kind?.map OpKind.name = n.kind?.map OpKind.name ∧
      m.value?.map Literal.text = n.value?.map Literal.text := by
  have hlabel : some m.label = some n.label := by
    rw [← getElem?_labels_dot hi hm, ← getElem?_labels_dot hj hn, hdot]
  obtain ⟨ho, hc, hname⟩ := (Node.label_eq_iff hpm hpn).1 (Option.some.inj hlabel)
  exact ⟨hname, ho, (Node.caption_eq_iff hpm hpn).1 hc⟩

/-- **A drawing loses and forges nothing**, in whichever way labels are quoted. The labels of the
live nodes and the edges between their numbers can be read from the text, which has a line for each
of them; whatever is in a label, it makes no line. With the labels, all that these tell of nodes of
plain kinds can be read. The numbers are those below the size of the graph, in the order of the
nodes. In a graph that commands build the edges are those between the nodes, each once, and none is
left out. -/
theorem dot_exact {q : Char → List Char} (hq : Text.Quoting q) (g : Graph) :
    (∀ h : Graph, g.dot.textBy q = h.dot.textBy q →
      (g.entries.map fun e => e.2.label) = (h.entries.map fun e => e.2.label) ∧
        g.rankedEdges = h.rankedEdges ∧
        ∀ i j k m n, g.rank? i = some k → h.rank? j = some k → g.node? i = some m →
          h.node? j = some n → m.Plain → n.Plain →
          m.name = n.name ∧ m.isOutput = n.isOutput ∧
            m.kind?.map OpKind.name = n.kind?.map OpKind.name ∧
            m.value?.map Literal.text = n.value?.map Literal.text) ∧
      (g.dot.textBy q).toList.count '\n' = g.size + g.rankedEdges.length + 2 ∧
      (∀ i, (∃ k, g.rank? i = some k) ↔ g.contains i) ∧
      (∀ k, (∃ i, g.rank? i = some k) ↔ k < g.size) ∧
      (∀ i j a b, g.rank? i = some a → g.rank? j = some b → (i < j ↔ a < b)) ∧
      (∀ i n k, g.node? i = some n → g.rank? i = some k → g.dot.labels[k]? = some n.label) ∧
      (g.Built → g.rankedEdges.Nodup ∧
        (∀ a b, (a, b) ∈ g.rankedEdges ↔ ∃ i j n, g.node? i = some n ∧ j ∈ n.targets ∧
          g.rank? i = some a ∧ g.rank? j = some b) ∧
        ∀ i n, g.node? i = some n → ∀ j ∈ n.targets, ∃ a b, g.rank? i = some a ∧
          g.rank? j = some b) := by
  refine ⟨fun h hd => ?_, ?_, fun i => exists_rank?_iff_contains, fun k => exists_rank?_iff_lt,
    fun i j a b => lt_iff_lt_of_rank?, fun i n k hn hk => getElem?_labels_dot hk hn,
    fun hg => ⟨hg.linked.nodup_rankedEdges, fun a b => mem_rankedEdges, fun i n hn j hj => ?_⟩⟩
  · have hdot : g.dot = h.dot := Dot.textBy_injective hq hd
    exact ⟨congrArg Dot.labels hdot, congrArg Dot.edges hdot, fun i j k m n => told_of_dot_eq hdot⟩
  · rw [Dot.count_newline_textBy hq, length_labels_dot]
    rfl
  · obtain ⟨a, ha⟩ := exists_rank?_iff_contains.2 (contains_iff.2 ⟨n, hn⟩)
    obtain ⟨m, hm, -⟩ := hg.linked.source_of_target hn hj
    obtain ⟨b, hb⟩ := exists_rank?_iff_contains.2 (contains_iff.2 ⟨m, hm⟩)
    exact ⟨a, b, ha, hb⟩

/-- An operation whose name looks like the lines of a node and of an edge back to it, after a hole
in the numbering. -/
def forged : List Command :=
  [.addData "gone", .addOperation (.custom "->\\") "a\" ]\n    1 -> 0 [ ]\n    2 [ label = \"",
    .addData "x", .connect 1 2, .erase 0]

/-- The same operation without the hole, with an edge back to it or without. -/
def genuine (back : List Command) : List Command :=
  [.addOperation (.custom "->\\") "a\" ]\n    1 -> 0 [ ]\n    2 [ label = \"", .addData "x",
    .connect 0 1] ++ back

/-- The hole does not show in the drawing, and the name makes no edge. -/
theorem forged_dot_exact :
    let g := ((Graph.empty {}).runCommands forged).1
    let h := ((Graph.empty {}).runCommands (genuine [])).1
    let k := ((Graph.empty {}).runCommands (genuine [.connect 1 0])).1
    g.dot.text = h.dot.text ∧ g.rankedEdges = h.rankedEdges ∧ (0, 1) ∈ g.rankedEdges ∧
      g.dot.text ≠ k.dot.text := by
  intro g h k
  obtain ⟨hsame, -, -, -, -, -, hbuilt⟩ := dot_exact Text.quoting_escape g
  obtain ⟨-, hedges, -⟩ := hbuilt ⟨{}, forged, rfl⟩
  have hdot : g.dot = h.dot := by decide +kernel
  have htext : g.dot.text = h.dot.text := congrArg Dot.text hdot
  obtain ⟨n, hn, hj⟩ : ∃ n, g.node? 1 = some n ∧ 2 ∈ n.targets := by
    simpa [Option.any_eq_true] using
      (show (g.node? 1).any fun n => n.targets.contains 2 by decide +kernel)
  refine ⟨htext, (hsame h htext).2.1,
    (hedges 0 1).2 ⟨1, 2, n, hn, hj, by decide +kernel, by decide +kernel⟩, fun hk => ?_⟩
  exact absurd (hsame k hk).2.1 (by decide +kernel)

end Graph

end Dataflow
