import Dataflow.Text.Quoted
import Mathlib.Logic.Function.Basic

/-!
# Texts that tell where they end

A code is `Instant` if each of its words shows where it ends: whatever is written after a word, it
can be read in one way only. Such codes can be written one after the other (`Instant.seq`), told
apart by their first symbols (`Instant.sum`), and repeated up to a symbol that begins no word
(`Instant.many`).

So are numbers up to a symbol that is no digit (`instant_toDigits`), and what stands for a character
between quotes (`Quoting.instant`). Of the latter no more is asked than `Quoting` says: a character
stands for itself or has an escape of its own, which begins with a backslash. Thus quoted text can
be read back (`Quoting.quotedChars_injective`), whichever characters are escaped, and how.
`Text.escape` is one way to do it (`quoting_escape`).
-/

namespace Dataflow.Text

variable {α β γ : Type} {code : α → List γ} {code' : β → List γ}

/-- No word, whatever follows it, can be taken for another one. -/
def Instant (code : α → List γ) : Prop :=
  ∀ ⦃a b r s⦄, code a ++ r = code b ++ s → a = b ∧ r = s

/-! ## Codes from codes -/

theorem append_cons_inj_of_not_mem {t : γ} {u w r s : List γ} (hu : t ∉ u) (hw : t ∉ w)
    (h : u ++ t :: r = w ++ t :: s) : u = w ∧ r = s := by
  induction u generalizing w with
  | nil =>
    cases w with
    | nil => exact ⟨rfl, (List.cons.inj h).2⟩
    | cons y w => exact absurd ((List.cons.inj h).1 ▸ List.mem_cons_self) hw
  | cons x u ih =>
    cases w with
    | nil => exact absurd ((List.cons.inj h).1 ▸ List.mem_cons_self) hu
    | cons y w =>
      obtain ⟨rfl, hrest⟩ := List.cons.inj h
      obtain ⟨rfl, hrs⟩ :=
        ih (List.not_mem_of_not_mem_cons hu) (List.not_mem_of_not_mem_cons hw) hrest
      exact ⟨rfl, hrs⟩

namespace Instant

theorem injective (hc : Instant code) : Function.Injective code := by
  intro a b hab
  exact (hc (congrArg (· ++ []) hab)).1

theorem comp (hc : Instant code) {f : β → α} (hf : Function.Injective f) :
    Instant fun b => code (f b) := by
  intro a b r s h
  obtain ⟨hab, hrs⟩ := hc h
  exact ⟨hf hab, hrs⟩

theorem after (hc : Instant code) (w : List γ) : Instant fun a => w ++ code a := by
  intro a b r s h
  rw [List.append_assoc, List.append_assoc] at h
  exact hc (List.append_cancel_left h)

theorem before (hc : Instant code) (w : List γ) : Instant fun a => code a ++ w := by
  intro a b r s h
  rw [List.append_assoc, List.append_assoc] at h
  obtain ⟨hab, hrs⟩ := hc h
  exact ⟨hab, List.append_cancel_left hrs⟩

theorem seq (hc : Instant code) (hd : Instant code') :
    Instant fun p : α × β => code p.1 ++ code' p.2 := by
  rintro ⟨a, b⟩ ⟨a', b'⟩ r s h
  simp only [List.append_assoc] at h
  obtain ⟨rfl, hrest⟩ := hc h
  obtain ⟨rfl, hrs⟩ := hd hrest
  exact ⟨rfl, hrs⟩

theorem sum (hc : Instant code) (hd : Instant code') {x y : γ} (hxy : x ≠ y) :
    Instant (Sum.elim (fun a => x :: code a) fun b => y :: code' b) := by
  rintro (a | b) (a' | b') r s h <;> obtain ⟨hfirst, hrest⟩ := List.cons.inj h
  · obtain ⟨rfl, hrs⟩ := hc hrest
    exact ⟨rfl, hrs⟩
  · exact absurd hfirst hxy
  · exact absurd hfirst hxy.symm
  · obtain ⟨rfl, hrs⟩ := hd hrest
    exact ⟨rfl, hrs⟩

/-- Words one after the other, up to a symbol that begins none of them. -/
theorem many (hc : Instant code) {t : γ} (ht : ∀ a, ∃ x w, code a = x :: w ∧ x ≠ t) :
    Instant fun l : List α => l.flatMap code ++ [t] := by
  intro l
  induction l with
  | nil =>
    rintro (_ | ⟨b, rest'⟩) r s h
    · exact ⟨rfl, (List.cons.inj h).2⟩
    · obtain ⟨x, w, hb, hx⟩ := ht b
      simp [hb, hx.symm] at h
  | cons a rest ih =>
    rintro (_ | ⟨b, rest'⟩) r s h
    · obtain ⟨x, w, ha, hx⟩ := ht a
      simp [ha, hx] at h
    · simp only [List.flatMap_cons, List.append_assoc] at h ih
      obtain ⟨rfl, hrest⟩ := hc h
      obtain ⟨rfl, hrs⟩ := ih hrest
      exact ⟨rfl, hrs⟩

/-- Words that can be told apart, up to a symbol that occurs in none of them. -/
theorem upTo (hc : Function.Injective code) {t : γ} (ht : ∀ a, t ∉ code a) :
    Instant fun a => code a ++ [t] := by
  intro a b r s h
  rw [List.append_assoc, List.append_assoc] at h
  obtain ⟨hab, hrs⟩ := append_cons_inj_of_not_mem (ht a) (ht b) h
  exact ⟨hc hab, hrs⟩

end Instant

/-! ## Numbers -/

theorem digitChar_injOn : ∀ m < 16, ∀ n < 16, Nat.digitChar m = Nat.digitChar n → m = n := by
  decide

/-- Numbers with the same digits are equal, by induction on their number of digits. -/
theorem toDigits_injective {b : Nat} (hb : 1 < b) (hb' : b ≤ 16) :
    Function.Injective (Nat.toDigits b) := by
  intro m
  induction m using Nat.strongRecOn with
  | ind m ih =>
    intro n h
    rw [Nat.toDigits_eq_if hb, Nat.toDigits_eq_if (n := n) hb] at h
    have hdigit : ∀ {k l}, k < b → l < b → Nat.digitChar k = Nat.digitChar l → k = l :=
      fun hk hl => digitChar_injOn _ (Nat.lt_of_lt_of_le hk hb') _ (Nat.lt_of_lt_of_le hl hb')
    have hpos : 0 < b := Nat.lt_of_succ_lt hb
    by_cases hm : m < b <;> by_cases hn : n < b <;> simp only [hm, hn, if_true, if_false] at h
    · exact hdigit hm hn (List.singleton_inj.1 h)
    · simpa using congrArg List.length h
    · simpa using congrArg List.length h
    · obtain ⟨hdiv, hmod⟩ := List.append_inj' h rfl
      have hlt : m / b < m := Nat.div_lt_self (by omega) hb
      rw [← Nat.div_add_mod m b, ← Nat.div_add_mod n b, ih _ hlt hdiv,
        hdigit (Nat.mod_lt m hpos) (Nat.mod_lt n hpos) (List.singleton_inj.1 hmod)]

theorem not_mem_toDigits {b : Nat} {t : Char} (hb : 1 < b) (ht : ∀ n, Nat.digitChar n ≠ t)
    (n : Nat) : t ∉ Nat.toDigits b n := by
  induction n using Nat.strongRecOn with
  | ind n ih =>
    rw [Nat.toDigits_eq_if hb]
    split
    · simpa using (ht n).symm
    · simpa [(ht _).symm] using ih _ (Nat.div_lt_self (by omega) hb)

/-- A number ends where no digit follows. -/
theorem instant_toDigits {b : Nat} {t : Char} (hb : 1 < b) (hb' : b ≤ 16)
    (ht : ∀ n, Nat.digitChar n ≠ t) : Instant fun n => Nat.toDigits b n ++ [t] :=
  .upTo (toDigits_injective hb hb') (not_mem_toDigits hb ht)

/-! ## Quoted text -/

/-- What stands for a character between quotes is the character itself, or it is an escape, which a
backslash begins. Quotes, backslashes and line breaks are escaped, without a line break, and no
escape begins with that of another character. -/
structure Quoting (q : Char → List Char) : Prop where
  plain_or_escaped (c : Char) :
    q c = [c] ∧ c ≠ '"' ∧ c ≠ '\\' ∧ c ≠ '\n' ∨ ∃ w, q c = '\\' :: w ∧ '\n' ∉ w
  own {a b : Char} {v w : List Char} (ha : q a = '\\' :: v) (hb : q b = '\\' :: w)
    (hvw : v <+: w) : a = b

namespace Quoting

variable {q : Char → List Char} (hq : Quoting q)
include hq

/-- What stands for a character shows where it ends. -/
theorem instant : Instant q := by
  intro a b r s h
  -- Only an escape begins with a backslash.
  rcases hq.plain_or_escaped a with ⟨ea, -, ha, -⟩ | ⟨v, ea, -⟩ <;>
    rcases hq.plain_or_escaped b with ⟨eb, -, hb, -⟩ | ⟨w, eb, -⟩
  · rw [ea, eb] at h
    exact List.cons.inj h
  · rw [ea, eb] at h
    exact absurd (List.cons.inj h).1 ha
  · rw [ea, eb] at h
    exact absurd (List.cons.inj h).1.symm hb
  · obtain rfl : a = b := by
      rw [ea, eb] at h
      have hrest : v ++ r = w ++ s := (List.cons.inj h).2
      rcases List.prefix_or_prefix_of_prefix ⟨r, hrest⟩ ⟨s, rfl⟩ with hvw | hwv
      · exact hq.own ea eb hvw
      · exact (hq.own eb ea hwv).symm
    exact ⟨rfl, List.append_cancel_left h⟩

/-- Nothing that stands for a character begins with a quote. -/
theorem eq_cons (c : Char) : ∃ x w, q c = x :: w ∧ x ≠ '"' := by
  rcases hq.plain_or_escaped c with ⟨e, hc, -, -⟩ | ⟨w, e, -⟩
  · exact ⟨c, [], e, hc⟩
  · exact ⟨'\\', w, e, by decide⟩

/-- **Quoted text can be read back.** -/
theorem quotedChars_injective : Function.Injective (quotedChars q) :=
  ((hq.instant.many hq.eq_cons).after ['"']).injective

theorem newline_not_mem (c : Char) : '\n' ∉ q c := by
  rcases hq.plain_or_escaped c with ⟨e, -, -, hc⟩ | ⟨w, e, hw⟩
  · simpa [e] using hc.symm
  · simpa [e] using hw

/-- Quoted text stays on one line. -/
theorem newline_not_mem_quotedChars (s : List Char) : '\n' ∉ quotedChars q s := by
  simp [quotedChars, hq.newline_not_mem]

end Quoting

/-! ## One way to quote -/

/-- The characters that are written as a letter after a backslash, with these letters. -/
def lettered : List (Char × Char) :=
  [('"', '"'), ('\\', '\\'), ('\x00', '0'), ('\t', 't'), ('\r', 'r'), ('\n', 'n')]

theorem escape_cases (c : Char) :
    (c ∉ lettered.map Prod.fst ∧ escape c = [c]) ∨
      (∃ x, (c, x) ∈ lettered ∧ escape c = ['\\', x]) ∨ escape c = byNumber c := by
  unfold escape
  split
  case h_7 =>
    split
    · exact .inr (.inr rfl)
    · exact .inl ⟨by simp_all [lettered], rfl⟩
  all_goals exact .inr (.inl ⟨_, by simp [lettered], rfl⟩)

theorem ne_of_not_lettered {c x : Char} (hc : c ∉ lettered.map Prod.fst)
    (hx : x ∈ lettered.map Prod.fst) : c ≠ x := by
  rintro rfl
  exact hc hx

theorem lettered_inj : ∀ e ∈ lettered, ∀ f ∈ lettered, e.2 = f.2 → e.1 = f.1 := by decide

theorem not_lettered_u : ∀ e ∈ lettered, e.2 ≠ 'u' := by decide

theorem instant_byNumber : Instant byNumber := by
  have hdigits : Instant fun n => Nat.toDigits 16 n ++ ['\x7d'] :=
    instant_toDigits (by decide) (by decide) fun n => Nat.digitChar_ne _ rfl
  have hnumber : Function.Injective Char.toNat := fun c d => Char.toNat_inj.1
  exact (hdigits.comp hnumber).after ['\\', 'u', '\x7b']

theorem newline_not_mem_byNumber (c : Char) : '\n' ∉ byNumber c := by
  have hdigits : '\n' ∉ Nat.toDigits 16 c.toNat :=
    not_mem_toDigits (by decide) (fun _ => Nat.digitChar_ne _ rfl) _
  simp [byNumber, hdigits]

/-- After the backslash of an escape stands the letter of the character, or `u` and its number. -/
theorem escape_eq_backslash {c : Char} {w : List Char} (h : escape c = '\\' :: w) :
    (∃ x, (c, x) ∈ lettered ∧ w = [x]) ∨ ∃ v, w = 'u' :: v ∧ byNumber c = '\\' :: 'u' :: v := by
  rcases escape_cases c with ⟨hc, e⟩ | ⟨x, hx, e⟩ | e
  · rw [h] at e
    exact absurd (List.cons.inj e).1.symm (ne_of_not_lettered hc (by decide))
  · exact .inl ⟨x, hx, (List.cons.inj (h.symm.trans e)).2⟩
  · exact .inr ⟨_, (List.cons.inj (h.symm.trans e)).2, rfl⟩

theorem quoting_escape : Quoting escape where
  plain_or_escaped c := by
    rcases escape_cases c with ⟨hc, e⟩ | ⟨x, hx, e⟩ | e
    · exact .inl ⟨e, ne_of_not_lettered hc (by decide), ne_of_not_lettered hc (by decide),
        ne_of_not_lettered hc (by decide)⟩
    · have hletter : ∀ e ∈ lettered, '\n' ∉ [e.2] := by decide
      exact .inr ⟨[x], e, hletter _ hx⟩
    · exact .inr ⟨_, e, fun h => newline_not_mem_byNumber c (List.mem_cons_of_mem _ h)⟩
  own {a b v w} ha hb hvw := by
    rcases escape_eq_backslash ha with ⟨x, hx, rfl⟩ | ⟨v', rfl, ea⟩ <;>
      rcases escape_eq_backslash hb with ⟨y, hy, rfl⟩ | ⟨w', rfl, eb⟩
    · exact lettered_inj _ hx _ hy (List.cons_prefix_cons.1 hvw).1
    · exact absurd (List.cons_prefix_cons.1 hvw).1 (not_lettered_u _ hx)
    · exact absurd (List.cons_prefix_cons.1 hvw).1.symm (not_lettered_u _ hy)
    · obtain ⟨r, hr⟩ := hvw
      have hnumbers : byNumber a ++ r = byNumber b ++ [] := by
        rw [ea, eb, List.append_nil, ← hr, List.cons_append]
      exact (instant_byNumber hnumbers).1

end Dataflow.Text
