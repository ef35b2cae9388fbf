import Valops.Brokers.Catalogue
import Valops.Observer.Builtins
import Valops.Py.LineEnds

/-!
# The failover checklist

`draft_failover_runbook` answers with the section of the confirmed consensus mode, which `_section`
cuts out of the skill with one pattern. The pattern starts at the first level-2 heading of the text
behind which the word of the mode occurs at all, goes on to the last line that has the word, and ends
before the next heading.

Main results: `_section_cases` (what is cut out) and `checklist_of_mode_iff` (when that is a section
headed by the mode).
-/

set_option autoImplicit false

namespace Valops.Brokers

open Py Regex Store Observer

/-! ## The pattern -/

/-- `.` with `re.S`. -/
def anyChar : Regex Nat := char fun _ => true

/-- `(?=^##\s|\Z)`. -/
def nextSection : Regex Nat :=
  ahead (alts [seqs [lineStart, char fun c => c = 35, char fun c => c = 35, char isSpace], atEnd])

/-- `^##\s+.*\b{mode}\b.*?$(.*?)(?=^##\s|\Z)` with `re.I`, `re.M` and `re.S`; nobody reads the group. -/
def sectionRegex (u : UnicodeData) (mode : PyStr) : Regex Nat :=
  seqs [lineStart, char fun c => c = 35, char fun c => c = 35, plus (char isSpace), star anyChar,
    wordBoundary u, seqs (mode.map fun c => char (caseless c)), wordBoundary u, lazyStar anyChar, lineEnd, lazyStar anyChar,
    nextSection]

/-- `_section`. -/
def _section (u : UnicodeData) (text : PyStr) (mode : PyStr) : Option PyStr :=
  ((sectionRegex u mode).search text).map fun m => strip (m.1.upTo m.2)

/-! ## Headings and words -/

/-- The text starts with a level-2 heading. -/
def isHeading : PyStr → Bool
  | 35 :: 35 :: c :: _ => isSpace c
  | _ => false

/-- A word of a text, between what is before it, backwards, and what is after it. -/
structure Occurs (u : UnicodeData) (mode : PyStr) (before w after : PyStr) : Prop where
  same : List.Forall₂ (fun c d => caseless c d = true) (mode) w
  left : before.head?.any (isWord u) = false
  right : after.head?.any (isWord u) = false

/-- The line has the mode as a word. -/
def Names (u : UnicodeData) (mode : PyStr) (l : PyStr) : Prop :=
  ∃ a w z, l = a ++ w ++ z ∧ Occurs u mode a.reverse w z

/-- A mode in letters that no character beyond ASCII stands for. -/
def Lettered (mode : PyStr) : Prop :=
  mode ≠ [] ∧ ∀ c ∈ mode, isLower c = true ∧ c ≠ 105 ∧ c ≠ 107 ∧ c ≠ 115

variable {u : UnicodeData} {mode before after w x y z s text : PyStr}
  {groups : List (Nat × PyStr)} {q : Place Nat} {l : PyStr} {ls front rest body : List PyStr}

theorem letter_of_caseless {c d : Nat} (hc : isLower c = true ∧ c ≠ 105 ∧ c ≠ 107 ∧ c ≠ 115)
    (h : caseless c d = true) : isLower d = true ∨ isUpper d = true := by
  obtain ⟨hlow, hi, hk, hs⟩ := hc
  simp only [caseless, isLower, isUpper, Bool.or_eq_true, Bool.and_eq_true, beq_iff_eq,
    decide_eq_true_eq] at *
  omega

/-- The letters of a word that occurs. -/
theorem Occurs.letters (hm : Lettered mode) (h : Occurs u mode before w after) :
    ∀ d ∈ w, isLower d = true ∨ isUpper d = true := by
  intro d hd
  obtain ⟨i, hi, rfl⟩ := List.mem_iff_getElem.1 hd
  have hlen := h.same.length_eq
  exact letter_of_caseless (hm.2 _ (List.getElem_mem (hlen ▸ hi))) (h.same.get (hlen ▸ hi) hi)

theorem letter_word {d : Nat} (h : isLower d = true ∨ isUpper d = true) :
    isWord u d = true ∧ isSpace d = false ∧ d ≠ 35 ∧ d ≠ 10 := by
  simp only [isWord, isLower, isUpper, isSpace, isDigit, Bool.and_eq_true, decide_eq_true_eq] at *
  refine ⟨?_, ?_, by omega, by omega⟩
  · rw [if_pos (by omega)]
    simp only [Bool.or_eq_true, Bool.and_eq_true, decide_eq_true_eq, beq_iff_eq]
    omega
  · simp only [Bool.or_eq_false_iff, Bool.and_eq_false_iff, decide_eq_false_iff_not, beq_eq_false_iff_ne]
    omega

theorem Occurs.ne_nil (hm : Lettered mode) (h : Occurs u mode before w after) : w ≠ [] := by
  intro hw
  have hlen := h.same.length_eq
  rw [hw, List.length_nil, List.length_eq_zero_iff] at hlen
  exact hm.1 hlen

theorem Occurs.no_newline (hm : Lettered mode) (h : Occurs u mode before w after) : 10 ∉ w := fun h10 =>
  (letter_word (u := u) (h.letters hm 10 h10)).2.2.2 rfl

/-! ## Where the pattern ends -/

theorem isHeading_first (hpost : after ≠ []) : ∃ r rest, keptLines after = r :: rest ∧
    isHeading r = isHeading after := by
  obtain ⟨front, p, r, rest, -, -, hls, -⟩ := @keptLines_cut [] after hpost
  refine ⟨r, rest, hls, ?_⟩
  have hflat := flatten_keptLines after
  rw [hls, List.flatten_cons] at hflat
  rw [Bool.eq_iff_iff]
  constructor
  · intro h
    unfold isHeading at h
    split at h
    · rw [← hflat]
      exact h
    · cases h
  · intro h
    unfold isHeading at h
    split at h
    · rename_i c z
      rw [keptLines_cons (by decide), keptLines_cons (by decide)] at hls
      obtain ⟨_, _, d, rest', -, -, hz, -⟩ := @keptLines_cut [] (c :: z) (by simp)
      have hd := flatten_keptLines (c :: z)
      rw [hz, List.flatten_cons] at hd
      rw [hz] at hls
      obtain ⟨rfl, -⟩ := List.cons.inj hls
      obtain ⟨_, _, hne, -⟩ := line_shape (hz ▸ List.mem_cons_self : d ∈ keptLines (c :: z))
      obtain ⟨e, d, rfl⟩ := List.exists_cons_of_ne_nil hne
      obtain ⟨rfl, -⟩ := List.cons.inj hd
      exact h
    · cases h

/-- A place at the start of a line. -/
def AtLine (before : PyStr) : Prop := before.head?.all (fun c => decide (c = 10)) = true

instance (before : PyStr) : Decidable (AtLine before) := inferInstanceAs (Decidable (_ = true))

theorem nextSection_here : nextSection.here ⟨before, after, groups⟩ =
    if AtLine before ∧ isHeading after = true ∨ after = [] then some ⟨before, after, groups⟩ else none := by
  have htest : ((alts [seqs [lineStart, char fun c => c = 35, char fun c => c = 35, char isSpace], atEnd]).here
      ⟨before, after, []⟩).isSome = true ↔ AtLine before ∧ isHeading after = true ∨ after = [] := by
    rw [here_isSome]
    simp only [alts, mem_ends_alt, exists_or]
    refine or_congr ?_ ?_
    · simp only [← here_isSome, seqs, lineStart, here_look, AtLine]
      split
      · rename_i hline
        rw [and_iff_right hline]
        rcases after with _ | ⟨a, _ | ⟨b, _ | ⟨c, after⟩⟩⟩
        · simp [here_char_nil, isHeading]
        · rw [here_char_cons, here_char_nil]
          simp [isHeading]
        · rw [here_char_cons, here_char_cons]
          simp [isHeading, here, ends]
        · rw [here_char_cons, here_char_cons]
          by_cases ha : a = 35
          · by_cases hb : b = 35
            · simp [ha, hb, isHeading, here, ends]
            · simp [ha, hb, isHeading]
          · simp [ha, isHeading]
      · rename_i hline
        exact iff_of_false Bool.false_ne_true fun h => hline h.1
    · simp [atEnd]
  rw [nextSection, ahead, here, ends]
  by_cases h : AtLine before ∧ isHeading after = true ∨ after = []
  · rw [if_pos (htest.2 h), if_pos h]
    rfl
  · rw [if_neg fun hc => h (htest.1 hc), if_neg h]
    rfl

/-- The lines up to the next heading are passed over. -/
def upToHeading (ls : List PyStr) : List PyStr := ls.dropWhile fun l => !isHeading l

/-- **The lazy rest of the pattern ends before the next heading.** -/
theorem next_here : ∃ q, (seq (lazyStar anyChar) nextSection).here ⟨before, after, groups⟩ = some q ∧
    q.after = (upToHeading (if AtLine before then keptLines after else (keptLines after).tail)).flatten := by
  induction after generalizing before with
  | nil =>
    refine ⟨⟨before, [], groups⟩, ?_, by simp [keptLines, upToHeading]⟩
    rw [anyChar, here_lazyStar_nil, nextSection_here, if_pos (.inr rfl)]
  | cons c after ih =>
    rw [anyChar, here_lazyStar_cons rfl, nextSection_here]
    by_cases hstop : AtLine before ∧ isHeading (c :: after) = true
    · refine ⟨⟨before, c :: after, groups⟩, by rw [if_pos (.inl hstop)]; rfl, ?_⟩
      obtain ⟨r, rest, hls, hr⟩ := @isHeading_first (c :: after) (by simp)
      rw [if_pos hstop.1, hls, upToHeading, List.dropWhile_cons_of_neg (by simp [hr, hstop.2]), ← hls,
        flatten_keptLines]
    · obtain ⟨q, hq, hafter⟩ := @ih (c :: before)
      refine ⟨q, ?_, ?_⟩
      · rw [if_neg (by simpa using hstop)]
        exact hq
      · rw [hafter]
        by_cases hc : c = 10
        · have hline : AtLine (c :: before) := by simp [AtLine, hc]
          have hhead : isHeading [10] = false := rfl
          rw [if_pos hline, hc, keptLines_newline, List.tail_cons]
          split
          · rw [upToHeading, upToHeading, List.dropWhile_cons_of_pos (by simp [hhead])]
          · rfl
        · have hline : ¬ AtLine (c :: before) := by simp [AtLine, hc]
          obtain ⟨r, rest, hls, hr⟩ := @isHeading_first (c :: after) (by simp)
          have htail : rest = (keptLines after).tail := by
            rw [keptLines_cons hc] at hls
            cases hafter : keptLines after with
            | nil =>
              rw [hafter] at hls
              exact (List.cons.inj hls).2.symm
            | cons l ls =>
              rw [hafter] at hls
              exact (List.cons.inj hls).2.symm
          rw [if_neg hline, hls, List.tail_cons, ← htail]
          split
          · rename_i hbefore
            have hnot : isHeading (c :: after) = false :=
              Bool.eq_false_iff.2 fun h => hstop ⟨hbefore, h⟩
            rw [upToHeading, upToHeading, List.dropWhile_cons_of_pos (by simp [hr, hnot])]
          · rfl

/-- **Behind the word**: the rest of its line, then the lines up to the next heading. -/
theorem rest_here (hbefore : ¬ AtLine before) :
    ∃ q, (seq (lazyStar anyChar) (seq lineEnd (seq (lazyStar anyChar) nextSection))).here
      ⟨before, after, groups⟩ = some q ∧ q.after = (upToHeading (keptLines after).tail).flatten := by
  induction after generalizing before with
  | nil =>
    obtain ⟨q, hq, hafter⟩ := @next_here before [] groups
    refine ⟨q, ?_, by rw [hafter, if_neg hbefore]⟩
    rw [anyChar, here_lazyStar_nil, lineEnd, here_look]
    exact (if_pos rfl).trans hq
  | cons c after ih =>
    rw [anyChar, here_lazyStar_cons rfl, lineEnd, here_look]
    by_cases hc : c = 10
    · obtain ⟨q, hq, hafter⟩ := @next_here before (c :: after) groups
      rw [if_pos (by simp [hc])]
      refine ⟨q, ?_, by rw [hafter, if_neg hbefore]⟩
      rw [show (seq (lazyStar (char fun _ => true)) nextSection).here ⟨before, c :: after, groups⟩ = some q
        from hq]
      rfl
    · obtain ⟨q, hq, hafter⟩ := @ih (c :: before) (by simp [AtLine, hc])
      rw [if_neg (by simp [hc])]
      refine ⟨q, hq, ?_⟩
      rw [hafter, keptLines_cons hc]
      cases keptLines after <;> rfl

/-- The pattern from the word on. -/
def wordOn (u : UnicodeData) (mode : PyStr) : Regex Nat :=
  seq (wordBoundary u) (seq (seqs (mode.map fun c => char (caseless c))) (seq (wordBoundary u)
    (seq (lazyStar anyChar) (seq lineEnd (seq (lazyStar anyChar) nextSection)))))

/-- Between two letters or none there is a boundary exactly at the ends of a word. -/
theorem boundary_iff {o o' : Option Nat} (h : o'.any (isWord u) = true) :
    ((o.any (isWord u) != o'.any (isWord u)) = true) ↔ o.any (isWord u) = false := by
  rw [h]
  cases o.any (isWord u) <;> decide

theorem wordOn_here (hm : Lettered mode) : (wordOn u mode).here ⟨before, after, groups⟩ = some q ↔
    ∃ w z, after = w ++ z ∧ Occurs u mode before w z ∧
      (seq (lazyStar anyChar) (seq lineEnd (seq (lazyStar anyChar) nextSection))).here
        ⟨w.reverse ++ before, z, groups⟩ = some q := by
  have hends : ∀ {w : PyStr}, List.Forall₂ (fun p c => p c = true) (mode.map fun c => caseless c) w →
      ∀ {z}, (w ++ z).head?.any (isWord u) = true ∧ (w.reverse ++ before).head?.any (isWord u) = true := by
    intro w hw z
    have hsame : List.Forall₂ (fun c d => caseless c d = true) mode w := List.forall₂_map_left_iff.1 hw
    have hocc : Occurs u mode [] w [] := ⟨hsame, rfl, rfl⟩
    have hne := hocc.ne_nil hm
    obtain ⟨d, w', rfl⟩ := List.exists_cons_of_ne_nil hne
    refine ⟨(letter_word (hocc.letters hm d List.mem_cons_self)).1, ?_⟩
    obtain ⟨v, e, hlast⟩ := List.eq_nil_or_concat (d :: w') |>.resolve_left hne
    rw [hlast, List.concat_eq_append, List.reverse_append]
    refine (letter_word (hocc.letters hm e ?_)).1
    rw [hlast, List.concat_eq_append]
    exact List.mem_append_right _ List.mem_cons_self
  have hchars : (mode.map fun c => char (caseless c)) = (mode.map fun c => caseless c).map char := by
    rw [List.map_map]
    rfl
  rw [wordOn, wordBoundary, here_look]
  constructor
  · intro h
    split at h
    · rename_i hleft
      rw [hchars] at h
      obtain ⟨w, z, hafter, hw, h⟩ := (here_chars _).1 h
      have hskip : (Place.mk before after groups).skip w.length = ⟨w.reverse ++ before, z, groups⟩ := by
        rw [show after = w ++ z from hafter, Place.skip]
        simp
      obtain ⟨hfirst, hlast⟩ := hends hw (z := z)
      rw [hskip, here_look] at h
      split at h
      · rename_i hright
        refine ⟨w, z, hafter, ⟨List.forall₂_map_left_iff.1 hw, ?_, ?_⟩, h⟩
        · rw [show after = w ++ z from hafter] at hleft
          exact (boundary_iff hfirst).1 hleft
        · rw [bne_comm] at hright
          exact (boundary_iff hlast).1 hright
      · cases h
    · cases h
  · rintro ⟨w, z, rfl, hocc, h⟩
    have hw : List.Forall₂ (fun p c => p c = true) (mode.map fun c => caseless c) w :=
      List.forall₂_map_left_iff.2 hocc.same
    obtain ⟨hfirst, hlast⟩ := hends hw (z := z)
    rw [if_pos ((boundary_iff hfirst).2 hocc.left), hchars]
    refine (here_chars _).2 ⟨w, z, rfl, hw, ?_⟩
    have hskip : (Place.mk before (w ++ z) groups).skip w.length = ⟨w.reverse ++ before, z, groups⟩ := by
      rw [Place.skip]
      simp
    rw [hskip, here_look, if_pos ?_]
    · exact h
    · rw [bne_comm]
      exact (boundary_iff hlast).2 hocc.right

/-- What the pattern finds behind a place: the last occurrence of the word. -/
structure LastFound (u : UnicodeData) (mode before after : PyStr) (q : Place Nat) (x w z : PyStr) :
    Prop where
  split : after = x ++ w ++ z
  occurs : Occurs u mode (x.reverse ++ before) w z
  last : ∀ x' w' z', after = x' ++ w' ++ z' → Occurs u mode (x'.reverse ++ before) w' z' →
    x'.length ≤ x.length
  ends : q.after = (upToHeading (keptLines z).tail).flatten

/-- No word of the mode behind a place. -/
def Lacks (u : UnicodeData) (mode before after : PyStr) : Prop :=
  ∀ x w z, after = x ++ w ++ z → ¬ Occurs u mode (x.reverse ++ before) w z

theorem Occurs.mid_line (hm : Lettered mode) (h : Occurs u mode before w after) :
    ¬ AtLine (w.reverse ++ before) := by
  have hne := h.ne_nil hm
  obtain ⟨v, e, rfl⟩ := List.eq_nil_or_concat w |>.resolve_left hne
  have he := h.no_newline hm
  rw [List.concat_eq_append] at he ⊢
  have hne10 : e ≠ 10 := fun hc => he (by simp [hc])
  simp [AtLine, hne10]

/-- **The greedy part goes to the last occurrence**; induction on the text behind the place. -/
theorem last_found (hm : Lettered mode) :
    match (seq (star anyChar) (wordOn u mode)).here ⟨before, after, groups⟩ with
    | none => Lacks u mode before after
    | some q => ∃ x w z, LastFound u mode before after q x w z := by
  have hstep : ∀ {before after : PyStr} {q : Place Nat},
      (wordOn u mode).here ⟨before, after, groups⟩ = some q → ∃ w z, after = w ++ z ∧
        Occurs u mode before w z ∧ q.after = (upToHeading (keptLines z).tail).flatten := by
    intro before after q h
    obtain ⟨w, z, hafter, hocc, hq⟩ := (wordOn_here hm).1 h
    obtain ⟨q', hq', hends⟩ := @rest_here (w.reverse ++ before) z groups (hocc.mid_line hm)
    cases hq.symm.trans hq'
    exact ⟨w, z, hafter, hocc, hends⟩
  have hnone : ∀ {before after : PyStr}, (wordOn u mode).here ⟨before, after, groups⟩ = none →
      ∀ w z, after = w ++ z → ¬ Occurs u mode before w z := by
    rintro before after h w z rfl hocc
    obtain ⟨q, hq, -⟩ := @rest_here (w.reverse ++ before) z groups (hocc.mid_line hm)
    cases h.symm.trans ((wordOn_here hm).2 ⟨w, z, rfl, hocc, hq⟩)
  induction after generalizing before with
  | nil =>
    rw [anyChar, here_star_nil]
    cases h : (wordOn u mode).here ⟨before, [], groups⟩ with
    | none =>
      intro x w z heq
      obtain ⟨hxw, rfl⟩ := List.append_eq_nil_iff.1 heq.symm
      obtain ⟨rfl, rfl⟩ := List.append_eq_nil_iff.1 hxw
      exact hnone h [] [] rfl
    | some q =>
      obtain ⟨w, z, heq, hocc, -⟩ := hstep h
      exact absurd (List.append_eq_nil_iff.1 heq.symm).1 (hocc.ne_nil hm)
  | cons c after ih =>
    rw [anyChar, here_star_cons rfl]
    have hlater := @ih (c :: before)
    rw [anyChar] at hlater
    -- an occurrence further on is one in the whole text, and it comes later
    have hshift : ∀ {x w z : PyStr}, c :: after = x ++ w ++ z → x ≠ [] →
        ∃ x', x = c :: x' ∧ after = x' ++ w ++ z := by
      intro x w z heq hx
      obtain ⟨d, x', rfl⟩ := List.exists_cons_of_ne_nil hx
      obtain ⟨rfl, hrest⟩ := List.cons.inj heq
      exact ⟨x', rfl, hrest⟩
    cases h : (seq (star (char fun _ => true)) (wordOn u mode)).here ⟨c :: before, after, groups⟩ with
    | some q =>
      rw [h] at hlater
      obtain ⟨x, w, z, hfound⟩ := hlater
      refine ⟨c :: x, w, z, ⟨by rw [hfound.split]; rfl, ?_, ?_, hfound.ends⟩⟩
      · rw [List.reverse_cons, List.append_assoc]
        exact hfound.occurs
      · intro x' w' z' heq hocc
        by_cases hx : x' = []
        · rw [hx]
          exact Nat.zero_le _
        · obtain ⟨x'', rfl, hrest⟩ := hshift heq hx
          rw [List.reverse_cons, List.append_assoc] at hocc
          exact Nat.succ_le_succ (hfound.last x'' w' z' hrest hocc)
    | none =>
      rw [h] at hlater
      have hfirst : ∀ x' w' z', c :: after = x' ++ w' ++ z' →
          Occurs u mode (x'.reverse ++ before) w' z' → x' = [] := by
        intro x' w' z' heq hocc
        by_contra hx
        obtain ⟨x'', rfl, hrest⟩ := hshift heq hx
        rw [List.reverse_cons, List.append_assoc] at hocc
        exact hlater x'' w' z' hrest hocc
      rw [Option.none_or]
      cases hhere : (wordOn u mode).here ⟨before, c :: after, groups⟩ with
      | some q =>
        obtain ⟨w, z, heq, hocc, hends⟩ := hstep hhere
        refine ⟨[], w, z, ⟨heq, hocc, fun x' w' z' heq' hocc' => ?_, hends⟩⟩
        rw [hfirst x' w' z' heq' hocc']
      | none =>
        intro x w z heq hocc
        obtain rfl := hfirst x w z heq hocc
        exact hnone hhere w z heq hocc

/-- What is before the word has no letter of it: the word comes behind it. -/
theorem occurs_behind (hm : Lettered mode) {head tail : PyStr} (heq : head ++ tail = x ++ w ++ z)
    (hocc : Occurs u mode before w after) (hhead : ∀ c ∈ head, isSpace c = true ∨ c = 35) :
    ∃ x', x = head ++ x' ∧ tail = x' ++ w ++ z := by
  rw [List.append_assoc] at heq
  rcases List.append_eq_append_iff.1 heq with ⟨x', hx, htail⟩ | ⟨v, hv, htail⟩
  · exact ⟨x', hx, by rw [List.append_assoc]; exact htail⟩
  · cases v with
    | nil => exact ⟨[], by simp [hv], htail.symm⟩
    | cons d v =>
      have hne := hocc.ne_nil hm
      obtain ⟨e, w', rfl⟩ := List.exists_cons_of_ne_nil hne
      obtain ⟨rfl, -⟩ := List.cons.inj htail
      obtain ⟨-, hspace, h35, -⟩ := letter_word (u := u) (hocc.letters hm e List.mem_cons_self)
      rcases hhead e (hv ▸ List.mem_append_right _ List.mem_cons_self) with h | h
      · rw [hspace] at h
        cases h
      · exact absurd h h35

theorem LastFound.behind (hm : Lettered mode) {head tail : PyStr} (hhead : ∀ c ∈ head, isSpace c = true ∨ c = 35)
    (h : LastFound u mode (head.reverse ++ before) tail q x w z) :
    LastFound u mode before (head ++ tail) q (head ++ x) w z := by
  refine ⟨by rw [h.split]; simp, ?_, ?_, h.ends⟩
  · rw [List.reverse_append, List.append_assoc]
    exact h.occurs
  · intro x' w' z' heq hocc
    obtain ⟨x'', rfl, htail⟩ := occurs_behind hm heq hocc hhead
    rw [List.reverse_append, List.append_assoc] at hocc
    have hle := h.last x'' w' z' htail hocc
    rw [List.length_append, List.length_append]
    exact Nat.add_le_add_left hle _

theorem Lacks.behind (hm : Lettered mode) {head tail : PyStr} (hhead : ∀ c ∈ head, isSpace c = true ∨ c = 35)
    (h : Lacks u mode (head.reverse ++ before) tail) : Lacks u mode before (head ++ tail) := by
  intro x w z heq hocc
  obtain ⟨x', rfl, htail⟩ := occurs_behind hm heq hocc hhead
  rw [List.reverse_append, List.append_assoc] at hocc
  exact h x' w z htail hocc

theorem isHeading_iff : isHeading after = true ↔ ∃ c t, after = 35 :: 35 :: c :: t ∧ isSpace c = true := by
  constructor
  · intro h
    unfold isHeading at h
    split at h
    · exact ⟨_, _, rfl, h⟩
    · cases h
  · rintro ⟨c, t, rfl, hc⟩
    exact hc

/-- **Where the pattern matches**: at a heading behind which the word occurs, and then up to the next
heading behind its last occurrence. -/
theorem section_here (hm : Lettered mode) :
    match (sectionRegex u mode).here ⟨before, after, []⟩ with
    | none => AtLine before → isHeading after = true → Lacks u mode before after
    | some q => AtLine before ∧ isHeading after = true ∧ ∃ x w z, LastFound u mode before after q x w z := by
  have hregex : (sectionRegex u mode).here ⟨before, after, []⟩ =
      (seq lineStart (seq (char fun c => c = 35) (seq (char fun c => c = 35)
        (seq (plus (char isSpace)) (seq (star anyChar) (wordOn u mode)))))).here ⟨before, after, []⟩ := rfl
  cases h : (sectionRegex u mode).here ⟨before, after, []⟩ with
  | none =>
    intro hline hhead
    obtain ⟨c, t, rfl, hc⟩ := isHeading_iff.1 hhead
    rw [hregex, lineStart, here_look] at h
    replace h := (if_pos hline).symm.trans h
    rw [here_char_cons, if_pos (decide_eq_true rfl), here_char_cons, if_pos (decide_eq_true rfl), here_seq,
      List.findSome?_eq_none_iff] at h
    -- one white-space character is one of the ends that are tried
    have hend := h ((Place.mk (35 :: 35 :: before) (c :: t) []).skip 1)
      (mem_ends_rep_char.2 ⟨1, rfl, by simp, by simp [hc], le_refl 1, by simp⟩)
    have hlacks := @last_found u mode (c :: 35 :: 35 :: before) t [] hm
    rw [Place.skip_cons] at hend
    rw [hend] at hlacks
    have hmarks : ∀ d ∈ [35, 35, c], isSpace d = true ∨ d = 35 := by simp [hc]
    have hbehind := Lacks.behind hm hmarks hlacks
    exact hbehind
  | some q =>
    rw [hregex, lineStart, here_look] at h
    split at h
    · rename_i hline
      rcases after with _ | ⟨a, _ | ⟨b, t⟩⟩
      · cases h
      · rw [here_char_cons, here_char_nil, ite_self] at h
        cases h
      · rw [here_char_cons] at h
        split at h
        · rename_i ha
          rw [here_char_cons] at h
          split at h
          · rename_i hb
            obtain rfl := of_decide_eq_true ha
            obtain rfl := of_decide_eq_true hb
            rw [here_seq] at h
            obtain ⟨m, hm', hq⟩ := List.exists_of_findSome?_eq_some h
            obtain ⟨n, rfl, hlen, hall, hn, -⟩ := mem_ends_rep_char.1 hm'
            rw [Place.skip] at hq
            have hfound := @last_found u mode ((t.take n).reverse ++ 35 :: 35 :: before) (t.drop n) [] hm
            rw [hq] at hfound
            obtain ⟨x, w, z, hfound⟩ := hfound
            have hcut : (35 :: 35 :: t.take n) ++ t.drop n = 35 :: 35 :: t := by simp
            refine ⟨hline, ?_, 35 :: 35 :: t.take n ++ x, w, z, ?_⟩
            · cases t with
              | nil => exact absurd hlen (by simpa using Nat.not_le.2 hn)
              | cons c t =>
                refine hall c ?_
                obtain ⟨n, rfl⟩ := Nat.exists_eq_succ_of_ne_zero (Nat.pos_iff_ne_zero.1 hn)
                simp
            · rw [← hcut]
              refine LastFound.behind hm ?_ ?_
              · intro c hc
                rcases List.mem_cons.1 hc with rfl | hc
                · exact .inr rfl
                rcases List.mem_cons.1 hc with rfl | hc
                · exact .inr rfl
                · exact .inl (hall c hc)
              · simpa using hfound
          · cases h
        · cases h
    · cases h

/-! ## Lines -/

/-- The line in which a word occurs. -/
theorem occurs_line (hm : Lettered mode) (heq : after = x ++ w ++ z)
    (hocc : Occurs u mode (x.reverse ++ before) w z) : ∃ front l, keptLines after =
      front ++ l :: (keptLines z).tail ∧ Names u mode l ∧ x.length < (front ++ [l]).flatten.length ∧
      (10 ∉ x → front = []) := by
  have hne := hocc.ne_nil hm
  obtain ⟨front, p, r, rest, hls, rfl, hword, -⟩ := @keptLines_cut x (w ++ z) (by simp [hne])
  obtain ⟨r', hwz, hz, hr'⟩ := @keptLines_word z w (hocc.no_newline hm) hne
  rw [hwz] at hword
  obtain ⟨rfl, rfl⟩ := List.cons.inj hword
  refine ⟨front, p ++ (w ++ r'), by rw [heq, List.append_assoc]; exact hls, ⟨p, w, r', by simp, hocc.same, ?_, ?_⟩, ?_, ?_⟩
  · have hleft := hocc.left
    cases hp : p.reverse with
    | nil => rfl
    | cons d p' =>
      rw [List.reverse_append, hp] at hleft
      exact hleft
  · have hright := hocc.right
    cases r' with
    | nil => rfl
    | cons d r'' =>
      rw [hz] at hright
      exact hright
  · have hpos := List.length_pos_iff.2 hne
    simp only [List.flatten_append, List.flatten_singleton, List.length_append]
    omega
  · intro hx
    by_contra hfront
    obtain ⟨front, f, rfl⟩ := List.eq_nil_or_concat front |>.resolve_left hfront
    have hcut : front.concat f ++ (p ++ (w ++ r')) :: (keptLines z).tail =
        front ++ f :: (p ++ (w ++ r')) :: (keptLines z).tail := by simp
    obtain ⟨v, rfl⟩ := line_end (hls.trans hcut) (by simp)
    exact hx (by simp)

/-- A line starts where the lines before it end. -/
theorem atLine_front (hline : AtLine before) (hls : keptLines after = front ++ l :: rest) :
    AtLine (front.flatten.reverse ++ before) := by
  rcases List.eq_nil_or_concat front with rfl | ⟨front, f, rfl⟩
  · exact hline
  · rw [List.concat_eq_append, List.append_assoc] at hls
    obtain ⟨v, rfl⟩ := line_end hls (by simp)
    simp [AtLine]

/-- A word of a line occurs in the text. -/
theorem names_occurs (hm : Lettered mode) (hline : AtLine before) (hls : keptLines after = front ++ l :: rest) (h : Names u mode l) :
    ∃ a w z, after = front.flatten ++ a ++ w ++ z ∧
      Occurs u mode ((front.flatten ++ a).reverse ++ before) w z ∧ 10 ∉ a := by
  obtain ⟨a, w, r, rfl, hocc⟩ := h
  have hflat := flatten_keptLines after
  rw [hls, List.flatten_append, List.flatten_cons] at hflat
  refine ⟨a, w, r ++ rest.flatten, by rw [← hflat]; simp, ⟨hocc.same, ?_, ?_⟩, ?_⟩
  · cases ha : a.reverse with
    | cons d a' =>
      have hleft := hocc.left
      rw [ha] at hleft
      rw [List.reverse_append, ha]
      exact hleft
    | nil =>
      rw [List.reverse_eq_nil_iff.1 ha, List.append_nil]
      -- what is before the line ends with a line feed
      have hhead := atLine_front hline hls
      revert hhead
      cases (front.flatten.reverse ++ before) with
      | nil => exact fun _ => rfl
      | cons d s =>
        intro hd
        have hd : d = 10 := by simpa [AtLine] using hd
        rw [hd]
        rfl
  · have hright := hocc.right
    cases r with
    | cons d r => exact hright
    | nil =>
      cases rest with
      | nil => rfl
      | cons y rest =>
        obtain ⟨v, hv⟩ := line_end hls (by simp)
        obtain ⟨w', e, rfl⟩ := List.eq_nil_or_concat w |>.resolve_left (hocc.ne_nil hm)
        have he : e = 10 := by simpa using congrArg List.getLast? hv
        exact absurd (by simp [he]) (hocc.no_newline hm)
  · obtain ⟨v, hv, -, heq⟩ := line_shape (hls ▸ List.mem_append_right front List.mem_cons_self)
    obtain ⟨d, w', rfl⟩ := List.exists_cons_of_ne_nil (hocc.ne_nil hm)
    intro h10
    rcases heq with heq | heq
    · exact hv (heq ▸ by simp [h10])
    · -- the line feed that ends the line is not before the word
      have hpre : a <+: v := by
        refine List.prefix_of_prefix_length_le ⟨d :: w' ++ r, ?_⟩ ⟨[10], heq.symm⟩ ?_
        · simp
        · have hlen := congrArg List.length heq
          simp only [List.length_append, List.length_cons, List.length_nil] at hlen
          omega
      exact hv (hpre.subset h10)

/-! ## What is cut out -/

theorem start_skip (heq : text = x ++ y) :
    (Place.mk [] text []).skip x.length = ⟨x.reverse, y, []⟩ := by
  rw [heq, Place.skip]
  simp

/-- A heading where the pattern does not match is behind all words of the mode. -/
theorem lacks_at (hm : Lettered mode) (hls : keptLines text = front ++ l :: rest) (hl : isHeading l = true)
    (hnone : (sectionRegex u mode).here ((Place.mk [] text []).skip front.flatten.length) = none) :
    ∀ y ∈ l :: rest, ¬ Names u mode y := by
  intro y hy hnames
  have hflat := flatten_keptLines text
  rw [hls, List.flatten_append] at hflat
  have hrest := keptLines_suffix hls
  have hline : AtLine front.flatten.reverse := by simpa using atLine_front (show AtLine [] from rfl) hls
  rw [start_skip hflat.symm] at hnone
  have hlacks := @section_here u mode front.flatten.reverse (l :: rest).flatten hm
  rw [hnone] at hlacks
  obtain ⟨r, _, hr, hhead⟩ := @isHeading_first (l :: rest).flatten (by
    intro hnil
    rw [hnil] at hrest
    cases hrest)
  obtain ⟨rfl, -⟩ := List.cons.inj (hrest.symm.trans hr)
  obtain ⟨f, b, hsplit⟩ := List.append_of_mem hy
  obtain ⟨a, w, z, heq, hocc, -⟩ := names_occurs hm hline (hrest.trans hsplit) hnames
  exact hlacks hline (hhead.symm.trans hl) _ w z heq hocc

/-- What `_section` cuts out: the lines from the first heading of the text to the last line that has
the word, and what is left of the section of that line. -/
structure Cut (u : UnicodeData) (mode text : PyStr) (front span : List PyStr) (x : PyStr)
    (tail : List PyStr) (s : PyStr) : Prop where
  lines : keptLines text = front ++ (span ++ x :: tail)
  before : ∀ l ∈ front, isHeading l = false
  heading : ∀ l ∈ (span ++ [x]).head?, isHeading l = true
  last : Names u mode x
  later : ∀ l ∈ tail, ¬ Names u mode l
  text : s = strip (span ++ x :: tail.takeWhile fun l => !isHeading l).flatten

theorem _section_none (hm : Lettered mode) (h : _section u text mode = none)
    (hls : keptLines text = front ++ l :: rest) (hl : isHeading l = true) :
    ∀ y ∈ l :: rest, ¬ Names u mode y := by
  have hsearch : (sectionRegex u mode).search text = none := Option.map_eq_none_iff.1 h
  have hflat := flatten_keptLines text
  rw [hls, List.flatten_append] at hflat
  refine lacks_at hm hls hl (searchFrom_eq_none hsearch _ ?_)
  rw [← hflat, List.length_append]
  exact Nat.le_add_right _ _

/-- **What the pattern cuts out.** -/
theorem _section_some (hm : Lettered mode) (h : _section u text mode = some s) :
    ∃ front span x tail, Cut u mode text front span x tail s := by
  obtain ⟨⟨a, b⟩, hsearch, rfl⟩ := Option.map_eq_some_iff.1 h
  obtain ⟨n, hn, rfl, hb, hearlier⟩ := searchFrom_eq_some hsearch
  have htext : text = text.take n ++ text.drop n := (List.take_append_drop n text).symm
  have hlen : (text.take n).length = n := List.length_take_of_le hn
  have hplace : (Place.mk [] text []).skip n = ⟨(text.take n).reverse, text.drop n, []⟩ := by
    have := start_skip htext
    rwa [hlen] at this
  rw [hplace] at hb ⊢
  have hhere := @section_here u mode (text.take n).reverse (text.drop n) hm
  rw [hb] at hhere
  obtain ⟨hline, hhead, x, w, z, hfound⟩ := hhere
  have hdrop : text.drop n ≠ [] := by
    intro hnil
    rw [hnil] at hhead
    cases hhead
  obtain ⟨front, p, r, rest, hls, hpre, hpost, hp⟩ := @keptLines_cut (text.take n) _ hdrop
  -- the match starts at the start of a line
  have hpnil : p = [] := by
    rcases List.eq_nil_or_concat p with hnil | ⟨p', c, rfl⟩
    · exact hnil
    · have hc : c = 10 := by
        rw [hpre] at hline
        simpa [AtLine] using hline
      exact absurd (by simp [hc]) hp
  subst hpnil
  rw [← htext, List.nil_append, ← hpost] at hls
  rw [List.append_nil] at hpre
  obtain ⟨span, x', hspan, hnames, hbound, -⟩ := occurs_line hm hfound.split hfound.occurs
  have hfirst : ∀ l ∈ (span ++ [x']).head?, isHeading l = true := by
    intro l hl
    obtain ⟨r', rest', hr', hiff⟩ := isHeading_first hdrop
    have hsame : (span ++ x' :: (keptLines z).tail).head? = some r' := by rw [← hspan, hr']; rfl
    have hl' : (span ++ x' :: (keptLines z).tail).head? = some l := by
      cases span <;> simpa using hl
    cases hsame.symm.trans hl'
    exact hiff.trans hhead
  refine ⟨front, span, x', (keptLines z).tail, by rw [hls, hspan], ?_, hfirst, hnames, ?_, ?_⟩
  · intro l hl
    rw [Bool.eq_false_iff]
    intro hheading
    obtain ⟨f, f', rfl⟩ := List.append_of_mem hl
    have hls' : keptLines text = f ++ l :: (f' ++ keptLines (text.drop n)) := by
      rw [hls]
      simp
    have hnone : (sectionRegex u mode).here ((Place.mk [] text []).skip f.flatten.length) = none := by
      refine hearlier _ ?_
      obtain ⟨_, -, hne, -⟩ := line_shape (hls' ▸ List.mem_append_right f List.mem_cons_self : l ∈ keptLines text)
      have hpos := List.length_pos_iff.2 hne
      have hlen' := congrArg List.length hpre
      rw [hlen, List.flatten_append, List.flatten_cons, List.length_append, List.length_append] at hlen'
      omega
    refine lacks_at hm hls' hheading hnone x' ?_ hnames
    rw [hspan]
    simp
  · intro l hl hlater
    obtain ⟨t, t', htail⟩ := List.append_of_mem hl
    have hcut : keptLines (text.drop n) = (span ++ x' :: t) ++ l :: t' := by rw [hspan, htail]; simp
    obtain ⟨a, w', z', heq, hocc, -⟩ := names_occurs hm hline hcut hlater
    have hle := hfound.last _ w' z' heq hocc
    simp only [List.flatten_append, List.flatten_cons, List.length_append, List.flatten_nil, List.length_nil] at *
    omega
  · have hflat := flatten_keptLines (text.drop n)
    have hsplit : (keptLines z).tail.flatten = ((keptLines z).tail.takeWhile fun l => !isHeading l).flatten ++
        (upToHeading (keptLines z).tail).flatten := by
      rw [← List.flatten_append, upToHeading, List.takeWhile_append_dropWhile]
    rw [hspan, List.flatten_append, List.flatten_cons, hsplit] at hflat
    have hup : (text.drop n) = (span ++ x' :: (keptLines z).tail.takeWhile fun l => !isHeading l).flatten ++
        b.after := by
      rw [hfound.ends, ← hflat]
      simp
    dsimp only
    rw [Place.upTo, hup, List.length_append, Nat.add_sub_cancel, List.take_left']
    rfl

/-! ## Sections -/

/-- The lines of a section headed by the mode: from such a heading up to the next level-2 heading or
the end of the text. -/
structure SectionAt (u : UnicodeData) (mode text : PyStr) (front : List PyStr) (l : PyStr)
    (body back : List PyStr) : Prop where
  lines : keptLines text = front ++ l :: (body ++ back)
  heading : isHeading l = true
  names : Names u mode l
  body : ∀ y ∈ body, isHeading y = false
  next : ∀ y ∈ back.head?, isHeading y = true

/-- The text is a section headed by the mode, trimmed. -/
def IsSection (u : UnicodeData) (mode text s : PyStr) : Prop :=
  ∃ front l body back, SectionAt u mode text front l body back ∧ s = strip (l :: body).flatten

/-- What is cut out is a section headed by the mode, and so is the checklist if there is one. -/
def Confined (u : UnicodeData) (mode : Mode) (text : PyStr) : Prop :=
  (∀ s, _section u text mode.text = some s → IsSection u mode.text text s) ∧
  ∀ (w : ReadWorld) (view : View) (t : PyStr), w.section_of = (fun text m => _section u text m.text) →
    w.skill_file = .ok (some text) → draft_failover_runbook w view = .ok (.checklist mode t) →
    (∃ l ∈ keptLines text, isHeading l = true ∧ Names u mode.text l) → IsSection u mode.text text t

/-- The first level-2 heading has the word of the mode on its line and no later section has it
anywhere, unless the word does not occur behind that heading at all. -/
def Unmixed (u : UnicodeData) (mode text : PyStr) : Prop :=
  ∀ front l body back, keptLines text = front ++ l :: (body ++ back) →
    (∀ y ∈ front, isHeading y = false) → isHeading l = true → (∀ y ∈ body, isHeading y = false) →
    (∀ y ∈ back.head?, isHeading y = true) → (∃ y ∈ l :: (body ++ back), Names u mode y) →
    Names u mode l ∧ ∀ y ∈ back, ¬ Names u mode y

theorem mode_lettered {mode : Mode} (h : mode ≠ .unknown) : Lettered mode.text := by
  cases mode with
  | tower => exact ⟨by decide, by decide⟩
  | alpenglow => exact ⟨by decide, by decide⟩
  | unknown => exact absurd rfl h

/-- A text that starts with a heading loses white space at its end only. -/
theorem strip_heading (h : isHeading text = true) : ∃ w, text = strip text ++ w ∧ ∀ c ∈ w, isSpace c = true := by
  obtain ⟨c, t, rfl, -⟩ := isHeading_iff.1 h
  have hfront : (35 :: 35 :: c :: t).dropWhile isSpace = 35 :: 35 :: c :: t :=
    List.dropWhile_cons_of_neg (by decide)
  refine ⟨((35 :: 35 :: c :: t).reverse.takeWhile isSpace).reverse, ?_, fun d hd => ?_⟩
  · rw [strip, hfront, ← List.reverse_append, List.takeWhile_append_dropWhile, List.reverse_reverse]
  · exact List.mem_takeWhile_imp (List.mem_reverse.1 hd)

/-- What is not white space belongs to the trimmed text. -/
theorem word_within {a blank r : PyStr} (hw : w ≠ []) (hletters : ∀ d ∈ w, isSpace d = false)
    (hblank : ∀ c ∈ blank, isSpace c = true) (heq : a ++ w ++ r = s ++ blank) :
    ∃ r', s = a ++ w ++ r' ∧ r = r' ++ blank := by
  rcases List.append_eq_append_iff.1 heq with ⟨r', hs, hr⟩ | ⟨v, haw, hb⟩
  · exact ⟨r', hs, hr⟩
  · cases v with
    | nil => exact ⟨[], by simpa using haw.symm, by simpa using hb.symm⟩
    | cons d v =>
      obtain ⟨w', e, rfl⟩ := List.eq_nil_or_concat w |>.resolve_left hw
      obtain ⟨v', e', hv⟩ := List.eq_nil_or_concat (d :: v) |>.resolve_left (by simp)
      rw [hv, List.concat_eq_append, List.concat_eq_append, ← List.append_assoc, ← List.append_assoc] at haw
      have he : e = e' := by simpa using congrArg List.getLast? haw
      have hspace := hblank e' (by rw [hb, hv]; simp)
      rw [← he, hletters e (by simp)] at hspace
      cases hspace

/-- The first heading is in one place. -/
theorem first_heading {l' : PyStr} {front' rest' : List PyStr} (h : front ++ l :: rest = front' ++ l' :: rest')
    (hfront : ∀ y ∈ front, isHeading y = false) (hfront' : ∀ y ∈ front', isHeading y = false)
    (hl : isHeading l = true) (hl' : isHeading l' = true) : front = front' ∧ l :: rest = l' :: rest' := by
  rcases List.append_eq_append_iff.1 h with ⟨v, hf, hr⟩ | ⟨v, hf, hr⟩
  · cases v with
    | nil => exact ⟨by simpa using hf.symm, hr⟩
    | cons y v =>
      obtain ⟨rfl, -⟩ := List.cons.inj hr
      rw [hfront' l (by rw [hf]; simp)] at hl
      cases hl
  · cases v with
    | nil => exact ⟨by simpa using hf, hr.symm⟩
    | cons y v =>
      obtain ⟨rfl, -⟩ := List.cons.inj hr
      rw [hfront l' (by rw [hf]; simp)] at hl'
      cases hl'

/-- The first lines of two texts that differ by white space at their ends. -/
theorem first_line_names {a b blank blank' l' : PyStr} {rest' : List PyStr} (hm : Lettered mode)
    (hu : ∀ c, isSpace c = true → isWord u c = false) (ha : keptLines a = l :: rest)
    (hb : keptLines b = l' :: rest') (heq : a = s ++ blank) (heq' : b = s ++ blank')
    (hblank : ∀ c ∈ blank, isSpace c = true) (hblank' : ∀ c ∈ blank', isSpace c = true)
    (h : Names u mode l') : Names u mode l := by
  obtain ⟨v, w, z, hsplit, hocc, hv⟩ := names_occurs hm (show AtLine [] from rfl)
    (show keptLines b = [] ++ l' :: rest' from hb) h
  obtain ⟨r, rfl, rfl⟩ := word_within (hocc.ne_nil hm)
    (fun d hd => (letter_word (u := u) (hocc.letters hm d hd)).2.1) hblank' (hsplit.symm.trans heq')
  have hocc' : Occurs u mode (v.reverse ++ []) w (r ++ blank) := by
    refine ⟨hocc.same, hocc.left, ?_⟩
    cases r with
    | nil =>
      cases blank with
      | nil => rfl
      | cons c blank => exact hu c (hblank c List.mem_cons_self)
    | cons c r => exact hocc.right
  rw [List.flatten_nil, List.nil_append, List.append_assoc] at heq
  obtain ⟨front, l₂, hls, hnames, -, hfirst⟩ := occurs_line hm (heq.trans (by simp)) hocc'
  rw [hfirst hv, ha] at hls
  obtain ⟨rfl, -⟩ := List.cons.inj hls
  exact hnames

/-- A text that goes on with a heading and the word is no section, trimmed or not. -/
theorem no_second_heading {b front blank blank' back l' : PyStr} {body : List PyStr} (hm : Lettered mode)
    (hback : isHeading back = true) (hword : back = x ++ w ++ z) (hocc : Occurs u mode before w after)
    (heq : front ++ [10] ++ back = s ++ blank) (hblank : ∀ c ∈ blank, isSpace c = true)
    (heq' : b = s ++ blank') (hb : keptLines b = l' :: body) : ∃ y ∈ body, isHeading y = true := by
  obtain ⟨c, t, rfl, hc⟩ := isHeading_iff.1 hback
  obtain ⟨x', rfl, -⟩ := occurs_behind hm (show [35, 35, c] ++ t = x ++ w ++ z from hword) hocc (by simp [hc])
  rw [hword, ← List.append_assoc, ← List.append_assoc] at heq
  obtain ⟨r, rfl, -⟩ := word_within (hocc.ne_nil hm)
    (fun d hd => (letter_word (u := u) (hocc.letters hm d hd)).2.1) hblank heq
  have hpost : b = (front ++ [10]) ++ 35 :: 35 :: c :: (x' ++ w ++ r ++ blank') := by
    rw [heq']
    simp
  obtain ⟨lines, p, y, rest, hls, hpre, hy, hp⟩ :=
    @keptLines_cut (front ++ [10]) (35 :: 35 :: c :: (x' ++ w ++ r ++ blank')) (by simp)
  obtain ⟨y', rest', hy', hhead⟩ := @isHeading_first (35 :: 35 :: c :: (x' ++ w ++ r ++ blank')) (by simp)
  obtain ⟨rfl, rfl⟩ := List.cons.inj (hy.symm.trans hy')
  have hpnil : p = [] := by
    rcases List.eq_nil_or_concat p with hnil | ⟨p', d, rfl⟩
    · exact hnil
    · have hd : d = 10 := by simpa using (congrArg List.getLast? hpre).symm
      exact absurd (by simp [hd]) hp
  subst hpnil
  rw [← hpost, hb] at hls
  cases lines with
  | nil => simp at hpre
  | cons f lines =>
    obtain ⟨-, rfl⟩ := List.cons.inj hls
    exact ⟨y, by simp, hhead.trans hc⟩

/-- The first line of what is cut out. -/
theorem Cut.first {front span tail : List PyStr} (h : Cut u mode text front span x tail s) :
    ∃ l rest, span ++ x :: tail = l :: rest ∧ isHeading l = true := by
  have hheading := h.heading
  cases span with
  | nil => exact ⟨x, tail, rfl, hheading x rfl⟩
  | cons l span => exact ⟨l, span ++ x :: tail, rfl, hheading l rfl⟩

/-- Lines that start with a heading start a text that does. -/
theorem heading_flatten (rest : List PyStr) (hl : isHeading l = true) :
    isHeading (l :: rest).flatten = true := by
  obtain ⟨c, t, rfl, hc⟩ := isHeading_iff.1 hl
  exact hc

theorem SectionAt.trimmed {back : List PyStr} (h : SectionAt u mode text front l body back) :
    keptLines (l :: body).flatten = l :: body ∧
      ∃ w, (l :: body).flatten = strip (l :: body).flatten ++ w ∧ ∀ c ∈ w, isSpace c = true := by
  have hrest := keptLines_suffix h.lines
  have hls : keptLines (l :: body).flatten = l :: body :=
    keptLines_prefix (show _ = (l :: body) ++ back from hrest)
  exact ⟨hls, strip_heading (heading_flatten body h.heading)⟩

/-- What the pattern cuts out, when it is a section headed by the mode. -/
theorem Cut.unmixed {mode : Mode} {front span tail : List PyStr} (hm : Lettered mode.text)
    (hu : ∀ c, isSpace c = true → isWord u c = false) (hcut : Cut u mode.text text front span x tail s)
    (hsec : IsSection u mode.text text s) {l : PyStr} {body back : List PyStr}
    (hls : span ++ x :: tail = l :: (body ++ back)) (hl : isHeading l = true)
    (hback : ∀ y ∈ back.head?, isHeading y = true) :
    Names u mode.text l ∧ ∀ y ∈ back, ¬ Names u mode.text y := by
  obtain ⟨front', l', body', back', hat, htext⟩ := hsec
  obtain ⟨hlines', w', hw', hblank'⟩ := hat.trimmed
  -- the lines that are cut out
  have hsuffix := keptLines_suffix hcut.lines
  have hsplit : span ++ x :: tail = (span ++ x :: tail.takeWhile fun y => !isHeading y) ++
      tail.dropWhile fun y => !isHeading y := by
    rw [List.append_assoc, List.cons_append, List.takeWhile_append_dropWhile]
  have hlines := keptLines_prefix (hsuffix.trans hsplit)
  obtain ⟨kept, hkept⟩ : ∃ kept, span ++ x :: tail.takeWhile (fun y => !isHeading y) = l :: kept := by
    cases span with
    | nil => exact ⟨_, by rw [(List.cons.inj hls).1]; rfl⟩
    | cons y span => exact ⟨_, by rw [(List.cons.inj hls).1]; rfl⟩
  have hheading : isHeading (span ++ x :: tail.takeWhile fun y => !isHeading y).flatten = true := by
    rw [hkept]
    exact heading_flatten _ hl
  obtain ⟨w, hw, hblank⟩ := strip_heading hheading
  rw [← hcut.text] at hw
  rw [← htext] at hw'
  refine ⟨first_line_names hm hu (hlines.trans hkept) hlines' hw hw' hblank hblank' hat.names, ?_⟩
  intro y hy hnames
  -- the last line with the word is behind the next heading, which is then within what is cut out
  obtain ⟨v, hspan, hv⟩ : ∃ v, span = (l :: body) ++ v ∧ back = v ++ x :: tail := by
    rcases List.append_eq_append_iff.1 (show span ++ x :: tail = (l :: body) ++ back from hls) with
      ⟨v, hfront, hrest⟩ | ⟨v, hfront, hrest⟩
    · cases v with
      | nil => exact ⟨[], by rw [hfront]; simp, by simpa using hrest.symm⟩
      | cons y' v =>
        obtain ⟨-, htail⟩ := List.cons.inj hrest
        exact absurd hnames (hcut.later y (htail ▸ List.mem_append_right _ hy))
    · exact ⟨v, hfront, hrest⟩
  have hcutlines : span ++ x :: tail.takeWhile (fun y => !isHeading y) =
      (l :: body) ++ (v ++ x :: tail.takeWhile fun y => !isHeading y) := by
    rw [hspan, List.append_assoc]
  have hlines := hlines.trans hcutlines
  have hbackLines := keptLines_suffix hlines
  obtain ⟨a, c, z, hsplit', hocc, -⟩ := names_occurs hm (show AtLine [] from rfl) hbackLines hcut.last
  have hbackHeading : isHeading (v ++ x :: tail.takeWhile fun y => !isHeading y).flatten = true := by
    cases v with
    | nil => exact heading_flatten _ (hback x (by rw [hv]; rfl))
    | cons h v => exact heading_flatten _ (hback h (by rw [hv]; rfl))
  obtain ⟨f, e, hfe⟩ := List.eq_nil_or_concat (l :: body) |>.resolve_left (by simp)
  obtain ⟨e, rfl⟩ : ∃ v, e = v ++ [10] := by
    have hend : keptLines (span ++ x :: tail.takeWhile fun y => !isHeading y).flatten =
        f ++ e :: (v ++ x :: tail.takeWhile fun y => !isHeading y) := by
      rw [hlines, hfe]
      simp
    exact line_end hend (by simp)
  rw [hcutlines, hfe, List.flatten_append] at hw
  have hwhole : (f.flatten ++ e) ++ [10] ++ (v ++ x :: tail.takeWhile fun y => !isHeading y).flatten = s ++ w := by
    simpa using hw
  obtain ⟨y', hy', hhead⟩ := no_second_heading hm hbackHeading hsplit' hocc hwhole hblank hw' hlines'
  rw [hat.body y' hy'] at hhead
  cases hhead

theorem IsSection.ne_nil (h : IsSection u mode text s) : s ≠ [] := by
  obtain ⟨front, l, body, back, hat, rfl⟩ := h
  obtain ⟨-, w, hw, hblank⟩ := hat.trimmed
  intro hnil
  rw [hnil, List.nil_append] at hw
  obtain ⟨c, t, hflat, -⟩ := isHeading_iff.1 (heading_flatten body hat.heading)
  have h35 := hblank 35 (by rw [← hw, hflat]; simp)
  revert h35
  decide

/-- A section ends at the next heading. -/
theorem section_split {back : List PyStr} (hbody : ∀ y ∈ body, isHeading y = false)
    (hback : ∀ y ∈ back.head?, isHeading y = true) :
    (body ++ back).takeWhile (fun y => !isHeading y) = body ∧
      (body ++ back).dropWhile (fun y => !isHeading y) = back := by
  have hpos : ∀ y ∈ body, (!isHeading y) = true := fun y hy => by simp [hbody y hy]
  rw [List.takeWhile_append_of_pos hpos, List.dropWhile_append_of_pos hpos]
  cases back with
  | nil => simp
  | cons b back => simp [hback b rfl]

/-- The pattern cuts out a section when the text is not mixed. -/
theorem Cut.isSection {front span tail : List PyStr} (hcut : Cut u mode text front span x tail s)
    (h : Unmixed u mode text) : IsSection u mode text s := by
  obtain ⟨l, rest, hls, hl⟩ := hcut.first
  have hsplit : rest = rest.takeWhile (fun y => !isHeading y) ++ rest.dropWhile fun y => !isHeading y :=
    List.takeWhile_append_dropWhile.symm
  have hbody : ∀ y ∈ rest.takeWhile (fun y => !isHeading y), isHeading y = false := fun y hy => by
    simpa using List.mem_takeWhile_imp hy
  have hback : ∀ y ∈ (rest.dropWhile fun y => !isHeading y).head?, isHeading y = true := fun y hy => by
    have := List.head?_dropWhile_not (fun y => !isHeading y) rest
    rw [Option.mem_def.1 hy] at this
    simpa using this
  have hlines : keptLines text = front ++ l :: (rest.takeWhile (fun y => !isHeading y) ++
      rest.dropWhile fun y => !isHeading y) := by rw [← hsplit, hcut.lines, hls]
  obtain ⟨hnames, hlater⟩ := h _ _ _ _ hlines hcut.before hl hbody hback
    ⟨x, by rw [← hsplit, ← hls]; simp, hcut.last⟩
  refine ⟨front, l, _, _, ⟨hlines, hl, hnames, hbody, hback⟩, ?_⟩
  rw [hcut.text]
  -- the last line with the word is before the next heading, so the rest of its section is cut out
  rw [hsplit] at hls
  rcases List.append_eq_append_iff.1 (hls.trans List.cons_append.symm) with ⟨v, hfront, hrest⟩ | ⟨v, hfront, hrest⟩
  · cases v with
    | nil =>
      exact absurd hcut.last (hlater x (by rw [← List.nil_append (rest.dropWhile _), ← hrest]; simp))
    | cons y v =>
      obtain ⟨rfl, htail⟩ := List.cons.inj hrest
      have hv : ∀ y ∈ v, isHeading y = false := by
        intro y hy
        refine hbody y ?_
        cases span with
        | nil => exact (List.cons.inj hfront).2 ▸ hy
        | cons l' span => exact (List.cons.inj hfront).2 ▸ List.mem_append_right _ (List.mem_cons_of_mem _ hy)
      rw [hfront, htail, List.append_eq, (section_split hv hback).1]
  · exact absurd hcut.last (hlater x (by rw [hrest]; simp))

/-- A text whose checklist is a section of the mode is not mixed. -/
theorem unmixed_of_confined (hu : ∀ c, isSpace c = true → isWord u c = false) {mode : Mode}
    (hm : Lettered mode.text) (h : Confined u mode text) : Unmixed u mode.text text := by
  intro front l body back hls hfront hl hbody hback ⟨y, hy, hnames⟩
  cases hs : _section u text mode.text with
  | none => exact absurd hnames (_section_none hm hs hls hl y hy)
  | some s =>
    obtain ⟨front', span, x, tail, hcut⟩ := _section_some hm hs
    obtain ⟨l', rest, hfirst, hl'⟩ := hcut.first
    have hsame := hcut.lines.symm.trans hls
    rw [hfirst] at hsame
    obtain ⟨-, hlines⟩ := first_heading hsame hcut.before hfront hl' hl
    exact hcut.unmixed hm hu (h.1 s hs) (hfirst.trans hlines) hl hback

/-- **The checklist is a section headed by the confirmed mode exactly when the text is not mixed.** -/
theorem checklist_of_mode_iff (hu : ∀ c, isSpace c = true → isWord u c = false) {mode : Mode}
    (hmode : mode ≠ .unknown) : Confined u mode text ↔ Unmixed u mode.text text := by
  have hm := mode_lettered hmode
  refine ⟨unmixed_of_confined hu hm, fun h => ?_⟩
  have hsection : ∀ s, _section u text mode.text = some s → IsSection u mode.text text s := by
    intro s hs
    obtain ⟨front, span, x, tail, hcut⟩ := _section_some hm hs
    exact hcut.isSection h
  refine ⟨hsection, fun w view t hw hfile hcall hhead => ?_⟩
  obtain ⟨l, hl, hheading, hnames⟩ := hhead
  obtain ⟨front, rest, hls⟩ := List.append_of_mem hl
  -- a heading with the word lets the pattern match
  obtain ⟨s, hs⟩ : ∃ s, _section u text mode.text = some s := by
    refine Option.ne_none_iff_exists'.1 fun hnone => ?_
    exact _section_none hm hnone hls hheading l List.mem_cons_self hnames
  obtain ⟨mode', hmode', hcall⟩ := bind_eq_ok.1 hcall
  obtain ⟨_, _, hcall⟩ := bind_eq_ok.1 hcall
  obtain ⟨f, hf, hcall⟩ := bind_eq_ok.1 hcall
  obtain ⟨text', htext, hcall⟩ := bind_eq_ok.1 hcall
  obtain ⟨_, _, hcall⟩ := bind_eq_ok.1 hcall
  cases hfile.symm.trans hf
  cases orRaise_eq_ok.1 htext
  cases pure_eq_ok.1 hcall
  have hfound : w.section_of text mode = some s := by rw [hw, ← hs]
  rw [hfound, Option.getD_some, if_neg (hsection s hs).ne_nil]
  exact hsection s hs

/-! ## Two skills -/

theorem ascii_space (c : Nat) (h : isSpace c = true) : isWord asciiData c = false := by
  rw [isWord]
  split
  · simp only [isSpace, Bool.or_eq_true, Bool.and_eq_true, decide_eq_true_eq, beq_iff_eq] at h
    simp only [isDigit, isUpper, isLower, Bool.or_eq_false_iff, Bool.and_eq_false_iff, decide_eq_false_iff_not,
      beq_eq_false_iff_ne]
    omega
  · rfl

/-- A line that has the word has its letters. -/
theorem names_letters (h : Names u mode l) : ∀ c ∈ mode, l.any (caseless c) = true := by
  obtain ⟨a, w, z, rfl, hocc⟩ := h
  have hsame : ∀ {m w : PyStr}, List.Forall₂ (fun c d => caseless c d = true) m w →
      ∀ c ∈ m, ∃ d ∈ w, caseless c d = true := by
    intro m w h
    induction h with
    | nil => exact fun c hc => absurd hc List.not_mem_nil
    | @cons c d m w hcd _ ih =>
      intro e he
      rcases List.mem_cons.1 he with rfl | he
      · exact ⟨d, List.mem_cons_self, hcd⟩
      · obtain ⟨d', hd', hed⟩ := ih e he
        exact ⟨d', List.mem_cons_of_mem _ hd', hed⟩
  intro c hc
  obtain ⟨d, hd, hcd⟩ := hsame hocc.same c hc
  exact List.any_eq_true.2 ⟨d, List.mem_append_left _ (List.mem_append_right _ hd), hcd⟩

/-- A text whose first heading starts the only section with the word is not mixed. -/
theorem SectionAt.unmixed {back : List PyStr} (h : SectionAt u mode text front l body back)
    (hfront : ∀ y ∈ front, isHeading y = false) (hlater : ∀ y ∈ back, ¬ Names u mode y) :
    Unmixed u mode text := by
  intro front' l' body' back' hls hfront' hl' hbody' hback' _
  obtain ⟨-, hsame⟩ := first_heading (h.lines.symm.trans hls) hfront hfront' h.heading hl'
  obtain ⟨rfl, hrest⟩ := List.cons.inj hsame
  have hback : back = back' := by
    rw [← (section_split h.body h.next).2, hrest, (section_split hbody' hback').2]
  exact ⟨h.names, hback ▸ hlater⟩

/-- A skill with one section for each mode. -/
def pairedLines : List PyStr :=
  ["## Tower mode\n", "- Move the file.\n", "## Alpenglow mode\n", "- Move the log.\n"].map py

theorem checklist_of_mode_sample : Confined asciiData .tower pairedLines.flatten := by
  have hnames : Names asciiData (Mode.text .tower) (py "## Tower mode\n") :=
    ⟨py "## ", py "Tower", py " mode\n", rfl, ⟨by decide, rfl, rfl⟩⟩
  have hat : SectionAt asciiData (Mode.text .tower) pairedLines.flatten [] (py "## Tower mode\n")
      [py "- Move the file.\n"] [py "## Alpenglow mode\n", py "- Move the log.\n"] :=
    ⟨by decide, rfl, hnames, by decide, by decide⟩
  refine (checklist_of_mode_iff ascii_space (by decide)).2 (hat.unmixed (by decide) ?_)
  intro y hy hy'
  -- neither line has a `t` and an `r`
  have hletters : ∀ y ∈ [py "## Alpenglow mode\n", py "- Move the log.\n"],
      ¬ ∀ c ∈ Mode.text .tower, y.any (caseless c) = true := by decide
  exact hletters y hy (names_letters hy')

/-- The skill as it is shipped: its second section names the tower file. -/
def shippedLines : List PyStr :=
  ["# Skill: failover-runbook-draft (text only; mode-specific)\n", "\n",
    "Source: Anza *Setup Node Failover* (S5). Re-verify both sections in W13. Withheld when the " ++
      "consensus mode is `unknown`.\n", "\n",
    "## Tower BFT mode\n",
    "- The tower file (`tower-*.bin`) carries vote/lockout state; it must move with the identity to the " ++
      "standby before the standby votes. [E] S5\n",
    "- Never run two voting instances with the same identity. [E] S5\n",
    "- The operator performs every step by hand.\n", "\n",
    "## Alpenglow mode\n",
    "- Vote history (`vote_history-<IDENTITY>.bin`) replaces the tower file; follow the Alpenglow section " ++
      "of S5 for what must move. [E] S5\n",
    "- Never run two voting instances with the same identity. [E] S5\n",
    "- The operator performs every step by hand.\n"].map py

/-- **The checklist of the shipped skill has the sections of both modes**, whichever is confirmed. -/
theorem shipped_checklist_mixed : ¬ Confined asciiData .tower shippedLines.flatten ∧
    ¬ Confined asciiData .alpenglow shippedLines.flatten := by
  have hlines : keptLines shippedLines.flatten = shippedLines.take 4 ++ py "## Tower BFT mode\n" ::
      ((shippedLines.drop 5).take 4 ++ shippedLines.drop 9) := by decide +kernel
  have hfront : ∀ y ∈ shippedLines.take 4, isHeading y = false := by decide +kernel
  have hbody : ∀ y ∈ (shippedLines.drop 5).take 4, isHeading y = false := by decide +kernel
  have hback : ∀ y ∈ (shippedLines.drop 9).head?, isHeading y = true := by decide +kernel
  have htower : Names asciiData (Mode.text .tower) (py "## Tower BFT mode\n") :=
    ⟨py "## ", py "Tower", py " BFT mode\n", rfl, ⟨by decide, rfl, rfl⟩⟩
  have hmixed : {mode : Mode} → (hm : Lettered mode.text) → (y : PyStr) →
      y ∈ py "## Tower BFT mode\n" :: ((shippedLines.drop 5).take 4 ++ shippedLines.drop 9) →
      Names asciiData mode.text y → Confined asciiData mode shippedLines.flatten →
      Names asciiData mode.text (py "## Tower BFT mode\n") ∧
        ∀ y ∈ shippedLines.drop 9, ¬ Names asciiData mode.text y :=
    fun hm y hy hnames h => unmixed_of_confined ascii_space hm h _ _ _ _ hlines hfront rfl hbody hback
      ⟨y, hy, hnames⟩
  constructor
  · intro h
    -- the section of the other mode speaks of the tower file
    have hline : Names asciiData (Mode.text .tower) (py ("- Vote history (`vote_history-<IDENTITY>.bin`) " ++
        "replaces the tower file; follow the Alpenglow section of S5 for what must move. [E] S5\n")) :=
      ⟨py "- Vote history (`vote_history-<IDENTITY>.bin`) replaces the ", py "tower",
        py " file; follow the Alpenglow section of S5 for what must move. [E] S5\n", by decide +kernel,
        ⟨by decide, by decide +kernel, rfl⟩⟩
    exact (hmixed (mode_lettered (by decide)) _ List.mem_cons_self htower h).2 _ (by decide +kernel) hline
  · intro h
    have hline : Names asciiData (Mode.text .alpenglow) (py "## Alpenglow mode\n") :=
      ⟨py "## ", py "Alpenglow", py " mode\n", rfl, ⟨by decide, rfl, rfl⟩⟩
    have hfirst := (hmixed (mode_lettered (by decide)) _ (by decide +kernel) hline h).1
    have hletters : ¬ ∀ c ∈ Mode.text .alpenglow, (py "## Tower BFT mode\n").any (caseless c) = true := by
      decide
    exact hletters (names_letters hfirst)

end Valops.Brokers
