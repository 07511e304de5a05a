import Dataflow.Graph.Node
import Dataflow.Proofs.Codes

/-!
# What a label tells

A label has the mark of a declared output in front, then the caption, which says what the node is,
then a colon and the name. Captions of data hold no colon (`Literal.colon_not_mem_text`), so the
caption ends where the first colon is that does not belong to the mark.

A custom kind may bear any name, also one that looks like a mark, a caption of data, or a caption
with the name of a node behind it. Of nodes whose kinds do not (`Node.Plain`), a label tells
everything that is in it (`Node.label_eq_iff`, `Node.caption_eq_iff`). Well-known kinds do not
(`OpKind.plain_of_not_isCustom`).
-/

namespace Dataflow

/-! ## Texts without a colon -/

namespace Text

theorem colon_not_mem_toDigits (n : Nat) : ':' ∉ Nat.toDigits 10 n :=
  not_mem_toDigits (by decide) (fun _ => Nat.digitChar_ne _ rfl) n

theorem not_mem_intercalate {α : Type} {t : α} {sep : List α} {l : List (List α)} (hs : t ∉ sep)
    (hl : ∀ w ∈ l, t ∉ w) : t ∉ sep.intercalate l := by
  induction l with
  | nil => simp
  | cons w rest ih =>
    obtain ⟨hw, hrest⟩ := List.forall_mem_cons.1 hl
    cases rest with
    | nil => simpa using hw
    | cons w' rest' =>
      rw [List.intercalate_cons_cons, List.mem_append, List.mem_append]
      simp only [hw, hs, ih hrest, or_self, not_false_eq_true]

end Text

theorem Decimal.colon_not_mem_text (d : Decimal) : ':' ∉ d.text.toList := by
  simp only [text]
  split
  · simp [Text.colon_not_mem_toDigits]
  · simp [Text.colon_not_mem_toDigits]

theorem Reading.colon_not_mem_text (digits : Magnitude → Decimal) (r : Reading) :
    ':' ∉ (r.text digits).toList := by
  cases r with
  | notANumber => simp [text]
  | infinite negative => cases negative <;> simp [text]
  | finite negative m => cases negative <;> simp [text, (digits m).colon_not_mem_text]

theorem colon_not_mem_floatText (x : Float) : ':' ∉ (floatText x).toList :=
  Reading.colon_not_mem_text Magnitude.shortest _

theorem Literal.colon_not_mem_text (v : Literal) : ':' ∉ v.text.toList := by
  have hdimensions : ∀ w ∈ v.shape.map fun d => Nat.toDigits 10 d.toNat, ':' ∉ w := by
    intro w hw
    obtain ⟨d, -, rfl⟩ := List.mem_map.1 hw
    exact Text.colon_not_mem_toDigits _
  have hseparator : ':' ∉ [',', ' '] := by decide
  unfold Literal.text
  split
  · exact colon_not_mem_floatText _
  · simpa [String.toList_intercalate, Function.comp_def] using
      Text.not_mem_intercalate hseparator hdimensions

/-! ## Labels -/

/-- The name of the kind does not look like a mark, a caption of data, or a caption with a name
behind it. -/
structure OpKind.Plain (k : OpKind) : Prop where
  colon_not_mem : ':' ∉ k.name.toList
  name_ne_mark : k.name ≠ "OUT"
  not_data : ¬ "Data".toList <+: k.name.toList

/-- Well-known kinds are plain. -/
theorem OpKind.plain_of_not_isCustom {k : OpKind} (hk : ¬ k.isCustom) : k.Plain := by
  cases k with
  | custom name => exact absurd rfl hk
  | _ => exact ⟨by decide, by decide, by decide⟩

namespace Node

/-- The kind of the node is plain if it is an operation. -/
def Plain (n : Node) : Prop := ∀ k, n.kind? = some k → k.Plain

variable {m n : Node}

theorem caption_of_kind? {k : OpKind} (hk : n.kind? = some k) :
    n.caption = k.name ∧ n.value? = none := by
  obtain ⟨_, o | _, _, _, _, _⟩ := n
  · cases hk
    exact ⟨rfl, rfl⟩
  · cases hk

theorem caption_of_kind?_eq_none (hk : n.kind? = none) :
    n.caption = "Data" ++ (n.value?.map Literal.text).elim "" fun t => "(" ++ t ++ ")" := by
  obtain ⟨_, _ | ⟨_ | v, _, _⟩, _, _, _, _⟩ := n
  · cases hk
  · rfl
  · simp [caption, value?, datum?, ← String.toList_inj]

theorem Plain.colon_not_mem_caption (hn : n.Plain) : ':' ∉ n.caption.toList := by
  cases hk : n.kind? with
  | some k =>
    rw [(caption_of_kind? hk).1]
    exact (hn k hk).colon_not_mem
  | none =>
    rw [caption_of_kind?_eq_none hk]
    cases n.value? with
    | none => decide
    | some v => simp [v.colon_not_mem_text]

/-- Captions of data are told from those of operations. -/
theorem Plain.data_prefix_caption_iff (hn : n.Plain) :
    "Data".toList <+: n.caption.toList ↔ n.kind? = none := by
  cases hk : n.kind? with
  | some k =>
    rw [(caption_of_kind? hk).1]
    exact iff_of_false (hn k hk).not_data (Option.some_ne_none k)
  | none =>
    rw [caption_of_kind?_eq_none hk, String.toList_append]
    exact iff_of_true (List.prefix_append _ _) rfl

theorem Plain.caption_ne_mark (hn : n.Plain) : n.caption ≠ "OUT" := by
  intro h
  cases hk : n.kind? with
  | some k => exact (hn k hk).name_ne_mark ((caption_of_kind? hk).1 ▸ h)
  | none =>
    have hdata := hn.data_prefix_caption_iff.2 hk
    rw [h] at hdata
    exact absurd hdata (by decide)

theorem toList_label (n : Node) :
    n.label.toList = (if n.isOutput then "OUT".toList ++ [':'] else []) ++
      (n.caption.toList ++ ':' :: n.name.toList) := by
  cases h : n.isOutput <;> simp [label, h]

/-- The mark of a declared output is no part of a caption. -/
theorem Plain.isOutput_of_label_eq (hn : n.Plain) (h : m.label = n.label) (hm : m.isOutput) :
    n.isOutput := by
  by_contra hno
  have hchars := congrArg String.toList h
  rw [toList_label, toList_label, if_pos hm, if_neg hno, List.nil_append,
    List.append_assoc] at hchars
  obtain ⟨hcaption, -⟩ :=
    Text.append_cons_inj_of_not_mem (by decide) hn.colon_not_mem_caption hchars
  exact hn.caption_ne_mark (String.toList_inj.1 hcaption).symm

/-- **A label tells** whether the node is a declared output, what its caption is, and its name. -/
theorem label_eq_iff (hm : m.Plain) (hn : n.Plain) :
    m.label = n.label ↔
      m.isOutput = n.isOutput ∧ m.caption = n.caption ∧ m.name = n.name := by
  constructor
  · intro h
    have ho : m.isOutput = n.isOutput :=
      Bool.eq_iff_iff.2 ⟨hn.isOutput_of_label_eq h, hm.isOutput_of_label_eq h.symm⟩
    have hchars := congrArg String.toList h
    rw [toList_label, toList_label, ho] at hchars
    obtain ⟨hcaption, hname⟩ := Text.append_cons_inj_of_not_mem hm.colon_not_mem_caption
      hn.colon_not_mem_caption (List.append_cancel_left hchars)
    exact ⟨ho, String.toList_inj.1 hcaption, String.toList_inj.1 hname⟩
  · rintro ⟨ho, hc, hname⟩
    rw [label, label, ho, hc, hname]

/-- A custom kind may hide where the name begins. -/
example :
    label { name := "c", body := .operation { kind := .custom "a:b" } } =
      label { name := "b:c", body := .operation { kind := .custom "a" } } := by
  decide

theorem inParentheses_inj {a b : Option String}
    (h : (a.elim "" fun t => "(" ++ t ++ ")") = b.elim "" fun t => "(" ++ t ++ ")") : a = b := by
  cases a <;> cases b <;> simp_all [← String.toList_inj]

/-- **A caption tells** the name of the kind of an operation, and the text of the value of data. -/
theorem caption_eq_iff (hm : m.Plain) (hn : n.Plain) :
    m.caption = n.caption ↔ m.kind?.map OpKind.name = n.kind?.map OpKind.name ∧
      m.value?.map Literal.text = n.value?.map Literal.text := by
  cases hk : m.kind? with
  | some k =>
    obtain ⟨hcm, hvm⟩ := caption_of_kind? hk
    cases hl : n.kind? with
    | some l =>
      obtain ⟨hcn, hvn⟩ := caption_of_kind? hl
      simp [hcm, hcn, hvm, hvn]
    | none =>
      refine iff_of_false (fun h => ?_) (by simp)
      exact (hm k hk).not_data (hcm ▸ h ▸ hn.data_prefix_caption_iff.2 hl)
  | none =>
    have hcm := caption_of_kind?_eq_none hk
    cases hl : n.kind? with
    | some l =>
      refine iff_of_false (fun h => ?_) (by simp)
      exact (hn l hl).not_data ((caption_of_kind? hl).1 ▸ h ▸ hm.data_prefix_caption_iff.2 hk)
    | none =>
      have hcn := caption_of_kind?_eq_none hl
      constructor
      · intro h
        rw [hcm, hcn] at h
        exact ⟨rfl, inParentheses_inj ((String.append_right_inj _).1 h)⟩
      · rintro ⟨-, hv⟩
        rw [hcm, hcn, hv]

end Node

end Dataflow
