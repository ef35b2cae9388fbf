import Valops.Py.Dumps

/-!
# Texts inside a serialised value

A string inside a value appears in the text of the value, escaped. So a search of the text finds a
part `t` of the string when `t` occurs in the escaped form of `t`, and where it does not there is a
value in whose text it is not found: the string that has `t` between two runs of a plain character.

Main results: `Json.escaped_infix_text`, `infix_of_padded`.
-/

set_option autoImplicit false

namespace Py

/-! ## Occurrences -/

section Infix

variable {α : Type} {t a b : List α} {c : α} {n : Nat}

/-- An occurrence that ends inside the first part. -/
theorem infix_left {front back : List α} (h : front ++ t ++ back = a ++ b)
    (hlen : (front ++ t).length ≤ a.length) : t <:+: a := by
  have hpre : front ++ t <+: a :=
    List.prefix_of_prefix_length_le (h ▸ List.prefix_append _ back) (List.prefix_append a b) hlen
  exact (List.suffix_append front t).isInfix.trans hpre.isInfix

/-- An occurrence that starts inside the second part. -/
theorem infix_right {front back : List α} (h : front ++ t ++ back = a ++ b)
    (hlen : a.length ≤ front.length) : t <:+: b := by
  have hsuf : t ++ back <:+ b := by
    refine List.suffix_of_suffix_length_le (h ▸ ⟨front, by simp⟩) (List.suffix_append a b) ?_
    have := congrArg List.length h
    simp only [List.length_append] at *
    omega
  exact (List.prefix_append t back).isInfix.trans hsuf.isInfix

/-- A text that neither starts nor ends with `c` and is not longer than a run of `c` occurs before the
run or after it. -/
theorem infix_of_padded (hne : t ≠ []) (hhead : t.head hne ≠ c) (hlast : t.getLast hne ≠ c)
    (hn : t.length ≤ n) (h : t <:+: a ++ (List.replicate n c ++ b)) : t <:+: a ∨ t <:+: b := by
  obtain ⟨front, back, h⟩ := h
  have hpos := List.length_pos_iff.2 hne
  have hrun : ∀ i (hi : i < t.length), t[i] ≠ c →
      front.length + i < a.length ∨ a.length + n ≤ front.length + i := by
    intro i hi hci
    by_contra hin
    push Not at hin
    have hget : (front ++ t ++ back)[front.length + i]? = some t[i] := by
      rw [List.append_assoc, List.getElem?_append_right (by omega), Nat.add_sub_cancel_left,
        List.getElem?_append_left hi, List.getElem?_eq_getElem hi]
    rw [h, List.getElem?_append_right hin.1, List.getElem?_append_left (by simp; omega),
      List.getElem?_replicate, if_pos (by omega)] at hget
    exact hci (Option.some.inj hget).symm
  have hfirst := hrun 0 hpos (by rwa [← List.head_eq_getElem])
  have hend := hrun (t.length - 1) (by omega) (by rwa [← List.getLast_eq_getElem])
  rcases hfirst with hfirst | hfirst
  · left
    exact infix_left h (by rw [List.length_append]; omega)
  · right
    rw [← List.append_assoc] at h
    exact infix_right h (by rw [List.length_append, List.length_replicate]; omega)

end Infix

/-! ## Escaped texts -/

theorem charsText_within {ascii : Bool} {t s : PyStr} (h : t <:+: s) :
    charsText ascii t <:+: charsText ascii s := by
  obtain ⟨front, back, rfl⟩ := h
  exact ⟨charsText ascii front, charsText ascii back, by simp [charsText]⟩

/-- Three characters that are not escaped. -/
theorem charText_plain {ascii : Bool} {c : Nat} (h : c = 120 ∨ c = 121 ∨ c = 122) :
    charText ascii c = [c] := by
  rcases h with rfl | rfl | rfl <;> cases ascii <;> decide

theorem charsText_replicate {ascii : Bool} {c : Nat} (h : charText ascii c = [c]) (n : Nat) :
    charsText ascii (List.replicate n c) = List.replicate n c := by
  induction n with
  | zero => rfl
  | succ n ih =>
    rw [List.replicate_succ, charsText, List.flatMap_cons, h]
    exact congrArg (c :: ·) ih

/-- One of three characters is neither the first nor the last of a text. -/
theorem exists_plain (t : PyStr) (hne : t ≠ []) :
    ∃ c, (c = 120 ∨ c = 121 ∨ c = 122) ∧ t.head hne ≠ c ∧ t.getLast hne ≠ c := by
  by_cases h1 : t.head hne ≠ 120 ∧ t.getLast hne ≠ 120
  · exact ⟨120, .inl rfl, h1⟩
  by_cases h2 : t.head hne ≠ 121 ∧ t.getLast hne ≠ 121
  · exact ⟨121, .inr (.inl rfl), h2⟩
  · refine ⟨122, .inr (.inr rfl), ?_⟩
    omega

/-! ## Strings inside a value -/

namespace Json

/-- The string is the value, or inside it at any depth. -/
inductive Within (s : PyStr) : Json → Prop
  | here : Within s (.str s)
  | item {xs : List Json} {x : Json} (hx : x ∈ xs) (h : Within s x) : Within s (.arr xs)
  | field {kvs : Fields} {kv : PyStr × Json} (hkv : kv ∈ kvs) (h : Within s kv.2) : Within s (.obj kvs)

section Text

variable {st : Style}

theorem text_infix_items {x : Json} : ∀ {xs : List Json}, x ∈ xs → text st x <:+: itemsText st xs
  | [], hx => absurd hx List.not_mem_nil
  | y :: ys, hx => by
    rw [itemsText]
    rcases List.mem_cons.1 hx with rfl | hx
    · exact (List.prefix_append _ _).isInfix
    · have hne : ys.isEmpty = false := by
        rw [List.isEmpty_eq_false_iff]
        exact List.ne_nil_of_mem hx
      rw [hne, if_neg Bool.false_ne_true]
      obtain ⟨front, back, h⟩ := text_infix_items hx
      exact ⟨text st y ++ 44 :: (st.pad ++ front), back, by simp [← h]⟩

theorem text_infix_fields {kv : PyStr × Json} : ∀ {kvs : Fields}, kv ∈ kvs →
    text st kv.2 <:+: fieldsText st kvs
  | [], hkv => absurd hkv List.not_mem_nil
  | kw :: rest, hkv => by
    rw [fieldsText]
    rcases List.mem_cons.1 hkv with rfl | hkv
    · refine List.IsInfix.trans ?_ (List.prefix_append _ _).isInfix
      obtain ⟨k, v⟩ := kv
      exact ⟨strText st.ascii k ++ 58 :: st.pad, [], by simp [fieldText]⟩
    · have hne : rest.isEmpty = false := by
        rw [List.isEmpty_eq_false_iff]
        exact List.ne_nil_of_mem hkv
      rw [hne, if_neg Bool.false_ne_true]
      obtain ⟨front, back, h⟩ := text_infix_fields hkv
      exact ⟨fieldText st kw ++ 44 :: (st.pad ++ front), back, by simp [← h]⟩

/-- **A string inside a value is in the text of the value, escaped.** -/
theorem escaped_infix_text {s : PyStr} {v : Json} (h : Within s v) :
    charsText st.ascii s <:+: text st v := by
  induction h with
  | here => exact ⟨[34], [34], by simp [text, strText]⟩
  | item hx h ih =>
    refine (ih.trans (text_infix_items hx)).trans ?_
    exact ⟨[91], [93], by simp [text]⟩
  | field hkv h ih =>
    refine (ih.trans (text_infix_fields hkv)).trans ?_
    exact ⟨[123], [125], by simp [text]⟩

end Text

end Json

end Py
