import Valops.Py.RoundTrip

/-!
# Texts that go on

The decoder finds the end of an object by its last brace and never looks beyond it, so what it reads at
the front of a text it reads at the front of every longer one. Hence an object's text that is cut off
before its end is not JSON.

Main result: `loads_extend`.
-/

set_option autoImplicit false

namespace Py

/-- Something follows that cannot belong to a number. -/
def Closed (rest : PyStr) : Prop := rest ≠ [] ∧ NumberEnd rest

theorem Closed.append {rest : PyStr} (h : Closed rest) (ext : PyStr) : Closed (rest ++ ext) := by
  obtain ⟨c, t, rfl⟩ := List.exists_cons_of_ne_nil h.1
  refine ⟨List.cons_ne_nil _ _, ?_⟩
  rintro d u hdu
  cases hdu
  exact h.2 c t rfl

section Extend

variable {s rest : PyStr} (ext : PyStr)

theorem dropPrefix_extend {p : PyStr} (h : dropPrefix p s = some rest) :
    dropPrefix p (s ++ ext) = some (rest ++ ext) := by
  induction p generalizing s with
  | nil =>
    cases h
    rfl
  | cons a p ih =>
    cases s with
    | nil => cases h
    | cons b s =>
      rw [dropPrefix] at h
      split at h
      · rename_i hab
        rw [List.cons_append, dropPrefix, if_pos hab]
        exact ih h
      · cases h

theorem skipWs_extend (h : skipWs s ≠ []) : skipWs (s ++ ext) = skipWs s ++ ext := by
  induction s with
  | nil => exact absurd rfl h
  | cons c s ih =>
    unfold skipWs at h ih ⊢
    rw [List.cons_append, List.dropWhile_cons, List.dropWhile_cons] at *
    split
    · rename_i hc
      rw [if_pos hc] at h
      exact ih h
    · rfl

/-- A token that is found after white space is found in the longer text. -/
theorem dropPrefix_skipWs_extend {a : Nat} (h : dropPrefix [a] (skipWs s) = some rest) :
    dropPrefix [a] (skipWs (s ++ ext)) = some (rest ++ ext) := by
  have hne : skipWs s ≠ [] := by
    intro hnil
    rw [hnil] at h
    cases h
  rw [skipWs_extend ext hne]
  exact dropPrefix_extend ext h

/-- A token that is not found there is not found in the longer text either, if there is any text. -/
theorem dropPrefix_skipWs_none {a : Nat} (h : dropPrefix [a] (skipWs s) = none)
    (hne : skipWs s ≠ []) : dropPrefix [a] (skipWs (s ++ ext)) = none := by
  obtain ⟨c, t, hct⟩ := List.exists_cons_of_ne_nil hne
  rw [skipWs_extend ext hne, hct, List.cons_append]
  rw [hct] at h
  rw [dropPrefix] at h ⊢
  split
  · rename_i hac
    rw [if_pos hac] at h
    cases h
  · rfl

/-! ## Strings -/

theorem scanHex4_extend {n : Nat} (h : scanHex4 s = some (n, rest)) :
    scanHex4 (s ++ ext) = some (n, rest ++ ext) := by
  unfold scanHex4 at h
  split at h
  · rename_i a b c d t
    change scanHex4 (a :: b :: c :: d :: (t ++ ext)) = _
    rw [scanHex4]
    split at h
    · rename_i x y z w hx hy hz hw
      cases h
      simp only [hx, hy, hz, hw]
    · cases h
  · cases h

theorem scanString_nil (k : Nat) : scanString k [] = none := by
  cases k <;> rfl

theorem scanString_backslash (k : Nat) : scanString k [92] = none := by
  cases k <;> rfl

/-- A text in which a literal ends does not stop within an escape. -/
theorem dropPrefix_escape_none (h : dropPrefix [92, 117] s = none)
    (hend : ∃ k p, scanString k s = some p) : dropPrefix [92, 117] (s ++ ext) = none := by
  obtain ⟨k, p, hk⟩ := hend
  cases s with
  | nil =>
    rw [scanString_nil] at hk
    cases hk
  | cons a s =>
    rw [List.cons_append, dropPrefix]
    split
    · rename_i ha
      subst ha
      cases s with
      | nil =>
        rw [scanString_backslash] at hk
        cases hk
      | cons b s =>
        rw [dropPrefix, if_pos rfl, dropPrefix] at h
        split at h
        · cases h
        · rename_i hb
          rw [List.cons_append, dropPrefix, if_neg hb]
    · rfl

/-- What follows a high surrogate is read in the same way when the literal ends in the text. -/
theorem scanUnicode_extend {n : Nat} (h : scanUnicode s = some (n, rest))
    (hend : ∃ k p, scanString k rest = some p) :
    scanUnicode (s ++ ext) = some (n, rest ++ ext) := by
  unfold scanUnicode at h ⊢
  cases hhex : scanHex4 s with
  | none =>
    rw [hhex] at h
    cases h
  | some q =>
    obtain ⟨hi, t⟩ := q
    rw [hhex] at h
    rw [scanHex4_extend ext hhex]
    simp only at h ⊢
    split at h
    · rename_i hhi
      rw [if_pos hhi]
      cases hdrop : dropPrefix [92, 117] t with
      | none =>
        rw [hdrop] at h
        cases h
        rw [dropPrefix_escape_none ext hdrop hend]
      | some t' =>
        rw [hdrop] at h
        rw [dropPrefix_extend ext hdrop]
        simp only at h ⊢
        cases hlow : scanHex4 t' with
        | none =>
          -- then the literal would not end in the text
          rw [hlow] at h
          cases h
        | some q =>
          obtain ⟨lo, t''⟩ := q
          rw [hlow] at h
          rw [scanHex4_extend ext hlow]
          simp only at h ⊢
          split at h
          · rename_i hlo
            rw [Option.some.injEq, Prod.mk.injEq] at h
            rw [if_pos hlo, h.1, h.2]
          · rename_i hlo
            rw [Option.some.injEq, Prod.mk.injEq] at h
            rw [if_neg hlo, h.1, h.2]
    · rename_i hhi
      rw [if_neg hhi]
      cases h
      rfl

theorem scanEscape_extend {n : Nat} (h : scanEscape s = some (n, rest))
    (hend : ∃ k p, scanString k rest = some p) :
    scanEscape (s ++ ext) = some (n, rest ++ ext) := by
  cases s with
  | nil => cases h
  | cons e s =>
    rw [List.cons_append]
    rw [scanEscape] at h ⊢
    split at h
    · rename_i he
      rw [if_pos he]
      exact scanUnicode_extend ext h hend
    · rename_i he
      rw [if_neg he]
      split_ifs at h ⊢ <;> cases h <;> rfl

/-- A literal that ends in the text ends at the same place in a longer one. -/
theorem scanString_extend {fuel : Nat} {p : PyStr} (h : scanString fuel s = some (p, rest)) :
    ∀ fuel', fuel ≤ fuel' → scanString fuel' (s ++ ext) = some (p, rest ++ ext) := by
  induction fuel generalizing s p with
  | zero => cases h
  | succ n ih =>
    intro fuel' hf
    obtain ⟨m, rfl⟩ : ∃ m, fuel' = m + 1 := ⟨fuel' - 1, by omega⟩
    cases s with
    | nil => cases h
    | cons c s =>
      rw [List.cons_append]
      rw [scanString] at h ⊢
      split at h
      · rename_i hc
        rw [if_pos hc]
        cases h
        rfl
      rename_i hquote
      rw [if_neg hquote]
      split at h
      · rename_i hc
        rw [if_pos hc]
        cases hesc : scanEscape s with
        | none =>
          rw [hesc] at h
          cases h
        | some q =>
          obtain ⟨c', t⟩ := q
          rw [hesc] at h
          obtain ⟨q, hq, heq⟩ := Option.map_eq_some_iff.1 h
          cases heq
          rw [scanEscape_extend ext hesc ⟨n, q, hq⟩]
          simp only [ih hq m (by omega), Option.map_some]
      rename_i hback
      rw [if_neg hback]
      split at h
      · cases h
      · rename_i hlow
        rw [if_neg hlow]
        obtain ⟨q, hq, heq⟩ := Option.map_eq_some_iff.1 h
        cases heq
        simp only [ih hq m (by omega), Option.map_some]

/-! ## Numbers -/

theorem scanDigits_extend (h : (scanDigits s).2 ≠ []) :
    scanDigits (s ++ ext) = ((scanDigits s).1, (scanDigits s).2 ++ ext) := by
  have hne : ∀ {t : PyStr}, t.dropWhile isDigit ≠ [] →
      (t ++ ext).takeWhile isDigit = t.takeWhile isDigit ∧
        (t ++ ext).dropWhile isDigit = t.dropWhile isDigit ++ ext := by
    intro t
    induction t with
    | nil => exact fun h => absurd rfl h
    | cons c t ih =>
      rw [List.cons_append, List.takeWhile_cons, List.takeWhile_cons, List.dropWhile_cons,
        List.dropWhile_cons]
      split
      · intro h
        rw [(ih h).1, (ih h).2]
        exact ⟨rfl, rfl⟩
      · exact fun _ => ⟨rfl, rfl⟩
  exact Prod.ext (hne h).1 (hne h).2

theorem scanInt_extend {ip : PyStr} (h : scanInt s = some (ip, rest)) (hne : rest ≠ []) :
    scanInt (s ++ ext) = some (ip, rest ++ ext) := by
  cases s with
  | nil => cases h
  | cons c s =>
    rw [List.cons_append]
    rw [scanInt] at h ⊢
    split at h
    · rename_i hc
      cases h
      rw [if_pos hc]
    · rename_i hc
      rw [if_neg hc]
      split at h
      · rename_i hdigit
        have hdigits : scanDigits (c :: s) = (ip, rest) := Option.some.inj h
        have hext := scanDigits_extend (s := c :: s) ext (by rw [hdigits]; exact hne)
        rw [hdigits, List.cons_append] at hext
        rw [if_pos hdigit, hext]
      · cases h

theorem scanFrac_extend {fp : PyStr} (h : scanFrac s = some (fp, rest)) (hne : rest ≠ []) :
    scanFrac (s ++ ext) = some (fp, rest ++ ext) := by
  unfold scanFrac at h
  split at h
  · rename_i t
    split at h
    · cases h
    · rename_i hdigits
      have hread : scanDigits t = (fp, rest) := Option.some.inj h
      have hext := scanDigits_extend (s := t) ext (by rw [hread]; exact hne)
      show (if (scanDigits (t ++ ext)).1 = [] then none else some (scanDigits (t ++ ext))) = _
      rw [hext, if_neg hdigits, hread]
  · cases h

/-- Without a point there is no fraction in the longer text either. -/
theorem scanFrac_none_extend (hne : s ≠ []) (h : scanFrac s = none) (hpoint : ∀ t, s ≠ 46 :: t) :
    scanFrac (s ++ ext) = none := by
  obtain ⟨c, t, rfl⟩ := List.exists_cons_of_ne_nil hne
  refine scanFrac_none ?_
  rintro d u hdu rfl
  cases hdu
  exact hpoint t rfl

theorem scanExpSign_extend (h : s ≠ []) :
    scanExpSign (s ++ ext) = ((scanExpSign s).1, (scanExpSign s).2 ++ ext) := by
  obtain ⟨c, t, rfl⟩ := List.exists_cons_of_ne_nil h
  rw [List.cons_append]
  by_cases h45 : c = 45
  · subst h45
    rfl
  by_cases h43 : c = 43
  · subst h43
    rfl
  have hplain : ∀ u, scanExpSign (c :: u) = (false, c :: u) := by
    intro u
    unfold scanExpSign
    split
    · rename_i heq
      exact absurd (List.cons.inj heq).1 h45
    · rename_i heq
      exact absurd (List.cons.inj heq).1 h43
    · rfl
  rw [hplain, hplain]
  rfl

theorem scanExp_extend {e : Int} (h : scanExp s = some (e, rest)) (hne : rest ≠ []) :
    scanExp (s ++ ext) = some (e, rest ++ ext) := by
  cases s with
  | nil => cases h
  | cons c s =>
    have h : (if c = 101 ∨ c = 69 then
        if (scanDigits (scanExpSign s).2).1 = [] then none
        else some (if (scanExpSign s).1 then -(digitsVal (scanDigits (scanExpSign s).2).1 : Int)
          else digitsVal (scanDigits (scanExpSign s).2).1, (scanDigits (scanExpSign s).2).2)
      else none) = some (e, rest) := h
    split at h
    · rename_i hc
      split at h
      · cases h
      · rename_i hdigits
        rw [Option.some.injEq, Prod.mk.injEq] at h
        have hs : s ≠ [] := by
          rintro rfl
          exact hdigits rfl
        have hext := scanDigits_extend (s := (scanExpSign s).2) ext (by rw [h.2]; exact hne)
        rw [List.cons_append, scanExp, if_pos hc]
        simp only [scanExpSign_extend ext hs, hext]
        rw [if_neg hdigits, h.1, h.2]
    · cases h

/-- An exponent that is not there is not there in the longer text, unless the text ends in its start. -/
theorem scanExp_none_extend (h : Closed s) : scanExp (s ++ ext) = none :=
  scanExp_none (h.append ext).2

/-- A number is read in the same way if what follows it cannot belong to it. -/
theorem scanMagnitude_extend {neg : Bool} {v : Json} (h : scanMagnitude neg s = some (v, rest))
    (hend : Closed rest) : scanMagnitude neg (s ++ ext) = some (v, rest ++ ext) := by
  unfold scanMagnitude at h ⊢
  cases hint : scanInt s with
  | none =>
    rw [hint] at h
    cases h
  | some q =>
    obtain ⟨ip, s1⟩ := q
    rw [hint] at h
    simp only at h
    cases hfrac : scanFrac s1 with
    | none =>
      cases hexp : scanExp s1 with
      | none =>
        -- an integer
        simp only [hfrac, hexp, Option.map_none, Option.getD_none, Option.isNone_none, Bool.and_self,
          if_true] at h
        split at h
        · rename_i hlen
          rw [Option.some.injEq, Prod.mk.injEq] at h
          obtain ⟨hv, rfl⟩ := h
          have hfrac' : scanFrac (s1 ++ ext) = none := by
            refine scanFrac_none_extend ext hend.1 hfrac ?_
            rintro t rfl
            exact (hend.2 46 t rfl).2.1 rfl
          have hexp' := scanExp_none_extend ext hend
          rw [scanInt_extend ext hint hend.1]
          simp only [hfrac', hexp', Option.map_none, Option.getD_none, Option.isNone_none,
            Bool.and_self, if_true, if_pos hlen, hv]
        · cases h
      | some q =>
        obtain ⟨e, s3⟩ := q
        simp only [hfrac, hexp, Option.map_none, Option.getD_none, Option.isNone_none,
          Option.isNone_some, Bool.and_false, Bool.false_eq_true, if_false, Option.map_some,
          Option.getD_some, Option.some.injEq, Prod.mk.injEq] at h
        obtain ⟨hv, rfl⟩ := h
        have hs1 : s1 ≠ [] := by
          rintro rfl
          cases hexp
        have hfrac' : scanFrac (s1 ++ ext) = none := by
          refine scanFrac_none_extend ext hs1 hfrac ?_
          rintro t rfl
          cases hexp
        rw [scanInt_extend ext hint hs1]
        simp only [hfrac', scanExp_extend ext hexp hend.1, Option.map_none, Option.getD_none,
          Option.isNone_none, Option.isNone_some, Bool.and_false, Bool.false_eq_true, if_false,
          Option.map_some, Option.getD_some, hv]
    | some q =>
      obtain ⟨fp, s2⟩ := q
      have hs2 : s2 ≠ [] := by
        rintro rfl
        simp only [hfrac, scanExp, Option.map_some, Option.getD_some, Option.isNone_some,
          Bool.false_and, Bool.false_eq_true, if_false, Option.map_none, Option.getD_none,
          Option.some.injEq, Prod.mk.injEq] at h
        exact hend.1 h.2.symm
      have hs1 : s1 ≠ [] := by
        rintro rfl
        cases hfrac
      cases hexp : scanExp s2 with
      | none =>
        simp only [hfrac, hexp, Option.map_some, Option.getD_some, Option.isNone_some,
          Bool.false_and, Bool.false_eq_true, if_false, Option.map_none, Option.getD_none,
          Option.some.injEq, Prod.mk.injEq] at h
        obtain ⟨hv, rfl⟩ := h
        have hexp' := scanExp_none_extend ext hend
        rw [scanInt_extend ext hint hs1]
        simp only [scanFrac_extend ext hfrac hs2, hexp', Option.map_some, Option.getD_some,
          Option.isNone_some, Bool.false_and, Bool.false_eq_true, if_false, Option.map_none,
          Option.getD_none, hv]
      | some q =>
        obtain ⟨e, s3⟩ := q
        simp only [hfrac, hexp, Option.map_some, Option.getD_some, Option.isNone_some,
          Bool.false_and, Bool.false_eq_true, if_false, Option.some.injEq, Prod.mk.injEq] at h
        obtain ⟨hv, rfl⟩ := h
        rw [scanInt_extend ext hint hs1]
        simp only [scanFrac_extend ext hfrac hs2, scanExp_extend ext hexp hend.1, Option.map_some,
          Option.getD_some, Option.isNone_some, Bool.false_and, Bool.false_eq_true, if_false, hv]

theorem scanNumber_extend {v : Json} (h : scanNumber s = some (v, rest)) (hend : Closed rest) :
    scanNumber (s ++ ext) = some (v, rest ++ ext) := by
  cases s with
  | nil => cases h
  | cons c s =>
    by_cases hc : c = 45
    · subst hc
      exact scanMagnitude_extend (s := s) ext h hend
    · have hplain : ∀ u, scanNumber (c :: u) = scanMagnitude false (c :: u) := by
        intro u
        unfold scanNumber
        split
        · rename_i heq
          exact absurd (List.cons.inj heq).1 hc
        · rfl
      rw [hplain] at h
      rw [List.cons_append, hplain]
      exact scanMagnitude_extend (s := c :: s) ext h hend

/-! ## Values -/

theorem dropPrefix_eq_some {p : PyStr} (h : dropPrefix p s = some rest) : s = p ++ rest := by
  induction p generalizing s with
  | nil => exact Option.some.inj h
  | cons a p ih =>
    cases s with
    | nil => cases h
    | cons b s =>
      rw [dropPrefix] at h
      split at h
      · rename_i hab
        rw [hab, ih h, List.cons_append]
      · cases h

/-- A constant is recognised by its first character. -/
theorem scanConst_extend {v : Json} (h : scanConst s = some (v, rest)) :
    scanConst (s ++ ext) = some (v, rest ++ ext) := by
  obtain ⟨⟨w, u⟩, hmem, heq⟩ := List.exists_of_findSome?_eq_some h
  obtain ⟨t, ht, heq⟩ := Option.map_eq_some_iff.1 heq
  cases heq
  rw [dropPrefix_eq_some ht, List.append_assoc]
  simp only [constants, List.mem_cons, Prod.mk.injEq, List.not_mem_nil, or_false] at hmem
  rcases hmem with ⟨rfl, rfl⟩ | ⟨rfl, rfl⟩ | ⟨rfl, rfl⟩ | ⟨rfl, rfl⟩ | ⟨rfl, rfl⟩ | ⟨rfl, rfl⟩
  · rfl
  · rfl
  · rfl
  · rfl
  · rfl
  · rfl

theorem scanMagnitude_head {neg : Bool} {p : Json × PyStr} (h : scanMagnitude neg s = some p) :
    ∃ c t, s = c :: t ∧ isDigit c = true := by
  cases s with
  | nil => cases h
  | cons c t =>
    refine ⟨c, t, rfl, ?_⟩
    by_contra hc
    have h48 : c ≠ 48 := by
      rintro rfl
      exact hc rfl
    rw [scanMagnitude, scanInt, if_neg h48, if_neg hc] at h
    cases h

/-- No constant starts like a number. -/
theorem scanConst_number {c : Nat} {t : PyStr} {p : Json × PyStr} (h : scanNumber (c :: t) = some p) :
    scanConst (c :: t ++ ext) = none := by
  rw [List.cons_append]
  by_cases hc : c = 45
  · subst hc
    have h : scanMagnitude true t = some p := h
    obtain ⟨d, u, rfl, hd⟩ := scanMagnitude_head h
    refine scanConst_none (.inr ⟨rfl, ?_⟩)
    rintro d' u' hdu
    cases hdu
    exact hd
  · have h : scanMagnitude false (c :: t) = some p := by
      unfold scanNumber at h
      split at h
      · rename_i heq
        exact absurd (List.cons.inj heq).1 hc
      · exact h
    obtain ⟨d, u, heq, hd⟩ := scanMagnitude_head h
    cases heq
    exact scanConst_none (.inl hd)

/-- What is followed by a token cannot be a number that goes on. -/
theorem closed_of_token {a : Nat} (ha : a ∈ [44, 93, 125]) {r : PyStr}
    (h : dropPrefix [a] (skipWs rest) = some r) : Closed rest := by
  cases rest with
  | nil => cases h
  | cons c t =>
    refine ⟨List.cons_ne_nil _ _, numberEnd_cons ?_⟩
    by_cases hc : isWs c = true
    · simp only [isWs, Bool.or_eq_true, beq_iff_eq] at hc
      rcases hc with ((rfl | rfl) | rfl) | rfl <;> decide
    · rw [skipWs_cons (Bool.not_eq_true _ ▸ hc), dropPrefix] at h
      split at h
      · rename_i hac
        rw [← hac]
        simp only [List.mem_cons, List.not_mem_nil, or_false] at ha
        rcases ha with rfl | rfl | rfl <;> decide
      · cases h

theorem skipWs_ne_nil_of_token {a : Nat} {r : PyStr} (h : dropPrefix [a] (skipWs s) = some r) :
    skipWs s ≠ [] := by
  intro hnil
  rw [hnil] at h
  cases h

theorem scanValue_nil (fuel : Nat) : scanValue fuel [] = none := by
  cases fuel <;> rfl

theorem scanItems_nil (fuel : Nat) : scanItems fuel [] = none := by
  cases fuel with
  | zero => rfl
  | succ n => rw [scanItems, scanValue_nil]

theorem scanField_nil (fuel : Nat) : scanField fuel [] = none := by
  cases fuel <;> rfl

theorem scanFields_nil (fuel : Nat) : scanFields fuel [] = none := by
  cases fuel with
  | zero => rfl
  | succ n => rw [scanFields, scanField_nil]

/-- What the four scanners read, they read of a longer text, with any more fuel. -/
structure Extends (fuel : Nat) : Prop where
  value : ∀ {s rest : PyStr} {v : Json}, scanValue fuel s = some (v, rest) →
    Closed rest ∨ s.head? = some 123 → ∀ fuel', fuel ≤ fuel' →
      scanValue fuel' (s ++ ext) = some (v, rest ++ ext)
  items : ∀ {s rest : PyStr} {xs : List Json}, scanItems fuel s = some (xs, rest) →
    ∀ fuel', fuel ≤ fuel' → scanItems fuel' (s ++ ext) = some (xs, rest ++ ext)
  fields : ∀ {s rest : PyStr} {kvs : Fields}, scanFields fuel s = some (kvs, rest) →
    ∀ fuel', fuel ≤ fuel' → scanFields fuel' (s ++ ext) = some (kvs, rest ++ ext)
  field : ∀ {s rest : PyStr} {kv : PyStr × Json}, scanField fuel s = some (kv, rest) →
    Closed rest → ∀ fuel', fuel ≤ fuel' → scanField fuel' (s ++ ext) = some (kv, rest ++ ext)

theorem Extends.value_succ {n : Nat} (ih : Extends ext n) {v : Json}
    (h : scanValue (n + 1) s = some (v, rest)) (hend : Closed rest ∨ s.head? = some 123)
    {m : Nat} (hm : n ≤ m) : scanValue (m + 1) (s ++ ext) = some (v, rest ++ ext) := by
  cases s with
  | nil => cases h
  | cons c s =>
    rw [List.cons_append]
    rw [scanValue] at h ⊢
    split at h
    · rename_i hc
      rw [if_pos hc]
      obtain ⟨⟨p, r⟩, hp, heq⟩ := Option.map_eq_some_iff.1 h
      cases heq
      rw [scanString_extend ext hp m hm]
      rfl
    rename_i hquote
    rw [if_neg hquote]
    split at h
    · rename_i hc
      rw [if_pos hc]
      cases hdrop : dropPrefix [93] (skipWs s) with
      | some r =>
        rw [hdrop] at h
        cases h
        rw [dropPrefix_skipWs_extend ext hdrop]
      | none =>
        rw [hdrop] at h
        obtain ⟨⟨xs, r⟩, hxs, heq⟩ := Option.map_eq_some_iff.1 h
        cases heq
        have hne : skipWs s ≠ [] := by
          intro hnil
          rw [hnil, scanItems_nil] at hxs
          cases hxs
        rw [dropPrefix_skipWs_none ext hdrop hne, skipWs_extend ext hne]
        simp only [ih.items hxs m hm, Option.map_some]
    rename_i hbracket
    rw [if_neg hbracket]
    split at h
    · rename_i hc
      rw [if_pos hc]
      cases hdrop : dropPrefix [125] (skipWs s) with
      | some r =>
        rw [hdrop] at h
        cases h
        rw [dropPrefix_skipWs_extend ext hdrop]
      | none =>
        rw [hdrop] at h
        obtain ⟨⟨kvs, r⟩, hkvs, heq⟩ := Option.map_eq_some_iff.1 h
        cases heq
        have hne : skipWs s ≠ [] := by
          intro hnil
          rw [hnil, scanFields_nil] at hkvs
          cases hkvs
        rw [dropPrefix_skipWs_none ext hdrop hne, skipWs_extend ext hne]
        simp only [ih.fields hkvs m hm, Option.map_some]
    rename_i hbrace
    rw [if_neg hbrace]
    cases hconst : scanConst (c :: s) with
    | some p =>
      rw [hconst] at h
      cases h
      have hext := scanConst_extend ext hconst
      rw [List.cons_append] at hext
      rw [hext]
    | none =>
      rw [hconst] at h
      have hclosed : Closed rest := hend.resolve_right fun h => hbrace (Option.some.inj h)
      have hnone := scanConst_number ext h
      have hnumber := scanNumber_extend ext h hclosed
      rw [List.cons_append] at hnone hnumber
      rw [hnone]
      exact hnumber

theorem Extends.items_succ {n : Nat} (ih : Extends ext n) {xs : List Json}
    (h : scanItems (n + 1) s = some (xs, rest)) {m : Nat} (hm : n ≤ m) :
    scanItems (m + 1) (s ++ ext) = some (xs, rest ++ ext) := by
  rw [scanItems] at h ⊢
  cases hv : scanValue n s with
  | none =>
    rw [hv] at h
    cases h
  | some p =>
    obtain ⟨v, r⟩ := p
    rw [hv] at h
    simp only at h
    cases hcomma : dropPrefix [44] (skipWs r) with
    | some r' =>
      rw [hcomma] at h
      obtain ⟨⟨ys, t⟩, hys, heq⟩ := Option.map_eq_some_iff.1 h
      cases heq
      have hne : skipWs r' ≠ [] := by
        intro hnil
        rw [hnil, scanItems_nil] at hys
        cases hys
      have hvalue := ih.value hv (.inl (closed_of_token (by decide) hcomma)) m hm
      simp only [hvalue, dropPrefix_skipWs_extend ext hcomma, skipWs_extend ext hne,
        ih.items hys m hm, Option.map_some]
    | none =>
      rw [hcomma] at h
      obtain ⟨t, ht, heq⟩ := Option.map_eq_some_iff.1 h
      cases heq
      have hvalue := ih.value hv (.inl (closed_of_token (by decide) ht)) m hm
      simp only [hvalue, dropPrefix_skipWs_none ext hcomma (skipWs_ne_nil_of_token ht),
        dropPrefix_skipWs_extend ext ht, Option.map_some]

theorem Extends.fields_succ {n : Nat} (ih : Extends ext n) {kvs : Fields}
    (h : scanFields (n + 1) s = some (kvs, rest)) {m : Nat} (hm : n ≤ m) :
    scanFields (m + 1) (s ++ ext) = some (kvs, rest ++ ext) := by
  rw [scanFields] at h ⊢
  cases hv : scanField n s with
  | none =>
    rw [hv] at h
    cases h
  | some p =>
    obtain ⟨kv, r⟩ := p
    rw [hv] at h
    simp only at h
    cases hcomma : dropPrefix [44] (skipWs r) with
    | some r' =>
      rw [hcomma] at h
      obtain ⟨⟨ys, t⟩, hys, heq⟩ := Option.map_eq_some_iff.1 h
      cases heq
      have hne : skipWs r' ≠ [] := by
        intro hnil
        rw [hnil, scanFields_nil] at hys
        cases hys
      have hfield := ih.field hv (closed_of_token (by decide) hcomma) m hm
      simp only [hfield, dropPrefix_skipWs_extend ext hcomma, skipWs_extend ext hne,
        ih.fields hys m hm, Option.map_some]
    | none =>
      rw [hcomma] at h
      obtain ⟨t, ht, heq⟩ := Option.map_eq_some_iff.1 h
      cases heq
      have hfield := ih.field hv (closed_of_token (by decide) ht) m hm
      simp only [hfield, dropPrefix_skipWs_none ext hcomma (skipWs_ne_nil_of_token ht),
        dropPrefix_skipWs_extend ext ht, Option.map_some]

theorem Extends.field_succ {n : Nat} (ih : Extends ext n) {kv : PyStr × Json}
    (h : scanField (n + 1) s = some (kv, rest)) (hend : Closed rest) {m : Nat} (hm : n ≤ m) :
    scanField (m + 1) (s ++ ext) = some (kv, rest ++ ext) := by
  rw [scanField] at h ⊢
  cases hquote : dropPrefix [34] s with
  | none =>
    rw [hquote] at h
    cases h
  | some s1 =>
    rw [hquote] at h
    simp only at h
    cases hkey : scanString n s1 with
    | none =>
      rw [hkey] at h
      cases h
    | some p =>
      obtain ⟨k, r⟩ := p
      rw [hkey] at h
      simp only at h
      cases hcolon : dropPrefix [58] (skipWs r) with
      | none =>
        rw [hcolon] at h
        cases h
      | some r' =>
        rw [hcolon] at h
        obtain ⟨⟨v, t⟩, hv, heq⟩ := Option.map_eq_some_iff.1 h
        cases heq
        have hne : skipWs r' ≠ [] := by
          intro hnil
          rw [hnil, scanValue_nil] at hv
          cases hv
        simp only [dropPrefix_extend ext hquote, scanString_extend ext hkey m hm,
          dropPrefix_skipWs_extend ext hcolon, skipWs_extend ext hne, ih.value hv (.inl hend) m hm,
          Option.map_some]

/-- **What is read at the front of a text is read at the front of a longer one.** Induction on the
fuel. -/
theorem scan_extends (fuel : Nat) : Extends ext fuel := by
  have hmore : ∀ {n fuel' : Nat}, n + 1 ≤ fuel' → ∃ m, fuel' = m + 1 ∧ n ≤ m := by
    intro n fuel' h
    exact ⟨fuel' - 1, by omega, by omega⟩
  induction fuel with
  | zero =>
    refine ⟨?_, ?_, ?_, ?_⟩
    · intro s rest v h
      cases h
    · intro s rest xs h
      cases h
    · intro s rest kvs h
      cases h
    · intro s rest kv h
      cases h
  | succ n ih =>
    refine ⟨?_, ?_, ?_, ?_⟩
    · intro s rest v h hend fuel' hf
      obtain ⟨m, rfl, hm⟩ := hmore hf
      exact ih.value_succ ext h hend hm
    · intro s rest xs h fuel' hf
      obtain ⟨m, rfl, hm⟩ := hmore hf
      exact ih.items_succ ext h hm
    · intro s rest kvs h fuel' hf
      obtain ⟨m, rfl, hm⟩ := hmore hf
      exact ih.fields_succ ext h hm
    · intro s rest kv h hend fuel' hf
      obtain ⟨m, rfl, hm⟩ := hmore hf
      exact ih.field_succ ext h hend hm

end Extend

/-- **Of two texts of objects of which one goes on where the other ends, it goes on with white space.** -/
theorem loads_extend {t ext : PyStr} {v w : Json} (h : loads (123 :: t) = some v)
    (hext : loads (123 :: t ++ ext) = some w) : ∀ c ∈ ext, isWs c = true := by
  have hskip : ∀ u, skipWs (123 :: u) = 123 :: u := fun u => rfl
  unfold loads at h hext
  rw [hskip] at h
  rw [List.cons_append, hskip] at hext
  split at h
  · rename_i v' rest hscan
    split at h
    · rename_i hrest
      have hlonger := (scan_extends ext _).value hscan (.inr rfl)
        (3 * (123 :: (t ++ ext)).length + 3) (by simp)
      rw [List.cons_append] at hlonger
      rw [hlonger] at hext
      simp only at hext
      split at hext
      · rename_i hall
        have hblank := List.dropWhile_eq_nil_iff.1 hall
        exact fun c hc => hblank c (List.mem_append_right _ hc)
      · cases hext
    · cases h
  · cases h

end Py
