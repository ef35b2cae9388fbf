import Valops.Py.Text

/-!
# Lines with their ends

The lines of a text, each with the line feed that ends it. The text is their concatenation, and a
split of the text falls into one of them.

Main results: `flatten_keptLines` and `keptLines_cut` (where a split of the text falls).
-/

set_option autoImplicit false

namespace Py

/-- One more character in front of the first line. -/
def extendFirst (c : Nat) : List PyStr → List PyStr
  | [] => [[c]]
  | l :: ls => (c :: l) :: ls

/-- The lines of a text. -/
def keptLines : PyStr → List PyStr
  | [] => []
  | c :: s => if c = 10 then [10] :: keptLines s else extendFirst c (keptLines s)

variable {c : Nat} {s l pre post : PyStr} {ls front rest : List PyStr}

theorem flatten_extendFirst : (extendFirst c ls).flatten = c :: ls.flatten := by
  cases ls <;> rfl

theorem flatten_keptLines (s : PyStr) : (keptLines s).flatten = s := by
  induction s with
  | nil => rfl
  | cons c s ih =>
    rw [keptLines]
    split
    · rename_i hc
      rw [List.flatten_cons, ih, hc]
      rfl
    · rw [flatten_extendFirst, ih]

theorem keptLines_newline (s : PyStr) : keptLines (10 :: s) = [10] :: keptLines s := if_pos rfl

theorem keptLines_cons (hc : c ≠ 10) (s : PyStr) : keptLines (c :: s) = extendFirst c (keptLines s) := if_neg hc

/-- A line is not empty, and it ends with its line feed, if it has one. -/
theorem line_shape (h : l ∈ keptLines s) : ∃ u, 10 ∉ u ∧ l ≠ [] ∧ (l = u ∨ l = u ++ [10]) := by
  induction s generalizing l with
  | nil => cases h
  | cons c s ih =>
    by_cases hc : c = 10
    · rw [hc, keptLines_newline] at h
      rcases List.mem_cons.1 h with rfl | h
      · exact ⟨[], List.not_mem_nil, by simp, .inr rfl⟩
      · exact ih h
    · rw [keptLines_cons hc] at h
      cases hls : keptLines s with
      | nil =>
        rw [hls] at h
        cases List.mem_singleton.1 h
        exact ⟨[c], by simpa using Ne.symm hc, by simp, .inl rfl⟩
      | cons l' ls =>
        rw [hls] at h ih
        rcases List.mem_cons.1 h with rfl | h
        · obtain ⟨u, hu, -, hl⟩ := ih List.mem_cons_self
          refine ⟨c :: u, by simpa using ⟨Ne.symm hc, hu⟩, by simp, ?_⟩
          rcases hl with rfl | rfl
          · exact .inl rfl
          · exact .inr rfl
        · exact ih (List.mem_cons_of_mem _ h)

/-- **Where a split of a text falls**: into a line that goes on behind it. -/
theorem keptLines_cut (hpost : post ≠ []) : ∃ front p r rest, keptLines (pre ++ post) = front ++ (p ++ r) :: rest ∧
    pre = front.flatten ++ p ∧ keptLines post = r :: rest ∧ 10 ∉ p := by
  induction pre with
  | nil =>
    cases hls : keptLines post with
    | nil =>
      have hnil := flatten_keptLines post
      rw [hls] at hnil
      exact absurd hnil.symm hpost
    | cons r rest => exact ⟨[], [], r, rest, hls, rfl, rfl, List.not_mem_nil⟩
  | cons c pre ih =>
    obtain ⟨front, p, r, rest, hls, rfl, hpost', hp⟩ := ih
    by_cases hc : c = 10
    · refine ⟨[10] :: front, p, r, rest, ?_, by rw [hc]; rfl, hpost', hp⟩
      rw [hc, List.cons_append, keptLines_newline, hls]
      rfl
    · rw [List.cons_append, keptLines_cons hc, hls]
      cases front with
      | nil => exact ⟨[], c :: p, r, rest, rfl, rfl, hpost', by simpa using ⟨Ne.symm hc, hp⟩⟩
      | cons f front => exact ⟨(c :: f) :: front, p, r, rest, rfl, rfl, hpost', hp⟩

/-- The lines from a line on are the lines of their text. -/
theorem keptLines_suffix (h : keptLines s = front ++ rest) : keptLines rest.flatten = rest := by
  induction front generalizing s with
  | nil =>
    rw [List.nil_append] at h
    rw [← h, flatten_keptLines]
  | cons l front ih =>
    induction s generalizing l with
    | nil => cases h
    | cons c s ihs =>
      by_cases hc : c = 10
      · rw [hc, keptLines_newline] at h
        exact ih (List.cons.inj h).2
      · rw [keptLines_cons hc] at h
        cases hls : keptLines s with
        | nil =>
          rw [hls] at h
          obtain ⟨rfl, rfl⟩ := List.append_eq_nil_iff.1 (List.cons.inj h).2.symm
          rfl
        | cons l' ls =>
          rw [hls] at h
          refine ihs l' ?_
          rw [hls, (List.cons.inj h).2]
          rfl

/-- The lines up to a line are the lines of their text. -/
theorem keptLines_prefix (h : keptLines s = ls ++ rest) : keptLines ls.flatten = ls := by
  induction s generalizing ls with
  | nil =>
    obtain ⟨rfl, -⟩ := List.append_eq_nil_iff.1 h.symm
    rfl
  | cons c s ih =>
    cases ls with
    | nil => rfl
    | cons l ls =>
      by_cases hc : c = 10
      · rw [hc, keptLines_newline] at h
        obtain ⟨rfl, hrest⟩ := List.cons.inj h
        rw [List.flatten_cons, List.singleton_append, keptLines_newline, ih hrest]
      · rw [keptLines_cons hc] at h
        cases hls : keptLines s with
        | nil =>
          rw [hls] at h
          obtain ⟨rfl, hnil⟩ := List.cons.inj h
          obtain ⟨rfl, -⟩ := List.append_eq_nil_iff.1 hnil.symm
          simp [keptLines, hc, extendFirst]
        | cons l' ls' =>
          rw [hls] at h
          obtain ⟨rfl, hrest⟩ := List.cons.inj h
          have hrec := @ih (l' :: ls) (by rw [hls, hrest]; rfl)
          rw [List.flatten_cons] at hrec
          rw [List.flatten_cons, List.cons_append, keptLines_cons hc, hrec]
          rfl

/-- The lines of a word without a line feed and of what is behind it. -/
theorem keptLines_word (hl : 10 ∉ l) (hne : l ≠ []) : ∃ r, keptLines (l ++ s) = (l ++ r) :: (keptLines s).tail ∧
    s = r ++ (keptLines s).tail.flatten ∧ (r = [] → s = []) := by
  induction l with
  | nil => exact absurd rfl hne
  | cons c l ih =>
    obtain ⟨hc, hl⟩ := List.ne_and_not_mem_of_not_mem_cons hl
    rw [List.cons_append, keptLines_cons hc.symm]
    by_cases hnil : l = []
    · have hflat := flatten_keptLines s
      rw [hnil, List.nil_append]
      cases hls : keptLines s with
      | nil =>
        rw [hls] at hflat
        exact ⟨[], rfl, hflat.symm, fun _ => hflat.symm⟩
      | cons r rest =>
        obtain ⟨_, -, hr, -⟩ := line_shape (hls ▸ List.mem_cons_self : r ∈ keptLines s)
        rw [hls] at hflat
        exact ⟨r, rfl, hflat.symm, fun h => absurd h hr⟩
    · obtain ⟨r, hls, hs, hr⟩ := ih hl hnil
      exact ⟨r, by rw [hls]; rfl, hs, hr⟩

/-- A line with another one behind it ends with a line feed. -/
theorem line_end (h : keptLines s = front ++ l :: rest) (hrest : rest ≠ []) : ∃ u, l = u ++ [10] := by
  have hmem : ∀ x ∈ l :: rest, x ≠ [] := fun x hx => by
    obtain ⟨_, -, hne, -⟩ := line_shape (h ▸ List.mem_append_right front hx)
    exact hne
  obtain ⟨u, hu, hne, rfl | hl⟩ := line_shape (h ▸ List.mem_append_right front List.mem_cons_self)
  · obtain ⟨r, hls, -, hr⟩ := @keptLines_word rest.flatten l hu hne
    rw [show l ++ rest.flatten = (l :: rest).flatten from rfl, keptLines_suffix h] at hls
    obtain ⟨hl, -⟩ := List.cons.inj hls
    have hflat := hr (List.append_right_eq_self.1 hl.symm)
    obtain ⟨x, rest', rfl⟩ := List.exists_cons_of_ne_nil hrest
    rw [List.flatten_cons] at hflat
    exact absurd (List.append_eq_nil_iff.1 hflat).1 (hmem x (List.mem_cons_of_mem _ List.mem_cons_self))
  · exact ⟨u, hl⟩

end Py
