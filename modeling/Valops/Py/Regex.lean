import Mathlib.Data.List.TakeWhile
import Mathlib.Data.List.Basic

/-!
# Backtracking regular expressions

A pattern tried at a place of a text gives the places where it may end, in the order in which a
backtracking matcher tries them; the match is the first one. A sequence goes through the ends of its
first part in that order, an alternative prefers its first branch, and a repetition prefers more
rounds if it is greedy and fewer if it is lazy. Each round of a repetition has to consume something.

Main results: `mem_ends_rep_char` and `ends_rep_char` (a repeated character class ends at every
length up to the longest, in order), `search_eq_some` (a search finds the leftmost place).
-/

set_option autoImplicit false

variable {α : Type}

/-- A place in a text: what is before it, backwards, and what is after it. The groups that have been
matched are kept with their texts, the last one first. -/
structure Place (α : Type) where
  before : List α
  after : List α
  groups : List (Nat × List α) := []

namespace Place

/-- The start of a text. -/
def start (text : List α) : Place α := ⟨[], text, []⟩

/-- Some characters further on. -/
def skip (s : Place α) (n : Nat) : Place α :=
  { s with before := (s.after.take n).reverse ++ s.before, after := s.after.drop n }

/-- The text between two places. -/
def upTo (s t : Place α) : List α := s.after.take (s.after.length - t.after.length)

@[simp] theorem skip_zero (s : Place α) : s.skip 0 = s := by
  simp [skip]

@[simp] theorem skip_after (s : Place α) (n : Nat) : (s.skip n).after = s.after.drop n := rfl

@[simp] theorem skip_groups (s : Place α) (n : Nat) : (s.skip n).groups = s.groups := rfl

theorem skip_before (s : Place α) (n : Nat) :
    (s.skip n).before = (s.after.take n).reverse ++ s.before := rfl

theorem skip_skip (s : Place α) (m n : Nat) : (s.skip m).skip n = s.skip (m + n) := by
  simp only [skip, List.drop_drop, List.take_add, List.reverse_append, List.append_assoc]

theorem skip_cons (before : List α) (c : α) (after : List α) (groups : List (Nat × List α)) :
    (Place.mk before (c :: after) groups).skip 1 = ⟨c :: before, after, groups⟩ := by
  simp [skip]

theorem upTo_skip {s : Place α} {n : Nat} (h : n ≤ s.after.length) :
    s.upTo (s.skip n) = s.after.take n := by
  rw [upTo, skip_after, List.length_drop, Nat.sub_sub_self h]

end Place

/-- Patterns. `look` is a test of what is before a place, backwards, and what is after it. -/
inductive Regex (α : Type) where
  | eps
  | char (p : α → Bool)
  | look (test : List α → List α → Bool)
  | seq (r s : Regex α)
  | alt (r s : Regex α)
  | rep (greedy : Bool) (lo : Nat) (hi : Option Nat) (r : Regex α)
  | group (n : Nat) (r : Regex α)

namespace Regex

/-! ## Where a pattern may end -/

/-- A number of rounds. -/
def exactly (step : Place α → List (Place α)) : Nat → Place α → List (Place α)
  | 0, s => [s]
  | n + 1, s => (step s).flatMap (exactly step n)

/-- Further rounds, as long as each consumes something and at most as many as the bound says. -/
def more (step : Place α → List (Place α)) (greedy : Bool) : Nat → Place α → List (Place α)
  | 0, s => [s]
  | n + 1, s =>
    let rest := (step s).flatMap fun t =>
      if t.after.length < s.after.length then more step greedy n t else []
    if greedy then rest ++ [s] else s :: rest

/-- The ends of a pattern, in the order in which they are tried. -/
def ends : Regex α → Place α → List (Place α)
  | eps, s => [s]
  | char p, s => if s.after.head?.any p then [s.skip 1] else []
  | look test, s => if test s.before s.after then [s] else []
  | seq r t, s => (ends r s).flatMap (ends t)
  | alt r t, s => ends r s ++ ends t s
  | rep greedy lo hi r, s => (exactly (ends r) lo s).flatMap fun t =>
      more (ends r) greedy ((hi.map fun n => n - lo).getD t.after.length) t
  | group n r, s => (ends r s).map fun t => { t with groups := (n, s.upTo t) :: t.groups }

/-- `re.match`: the first end at a place. -/
def here (r : Regex α) (s : Place α) : Option (Place α) := (r.ends s).head?

/-- The search from a place on: where the match starts and where it ends. -/
def searchFrom (r : Regex α) : List α → List α → Option (Place α × Place α)
  | before, after =>
    match r.here ⟨before, after, []⟩ with
    | some t => some (⟨before, after, []⟩, t)
    | none =>
      match after with
      | [] => none
      | c :: after => searchFrom r (c :: before) after
termination_by structural _ after => after

/-- `re.search`. -/
def search (r : Regex α) (text : List α) : Option (Place α × Place α) := r.searchFrom [] text

/-! ### Going on behind a match -/

/-- A piece of a text that is searched to its end: a character outside of all matches, or a match. -/
inductive Piece (α : Type) where
  | kept (c : α)
  | cut (m : Place α) (text : List α)

/-- The pieces of a text: the leftmost match, then the leftmost one behind it, and so on. The first
number says how much of the text belongs to the last match. A match has to consume something. -/
def piecesFrom (r : Regex α) : Nat → List α → List α → List (Piece α)
  | _, _, [] => []
  | n + 1, before, c :: after => piecesFrom r n (c :: before) after
  | 0, before, c :: after =>
    match r.here ⟨before, c :: after, []⟩ with
    | some m =>
      if m.after.length ≤ after.length then
        .cut m ((Place.mk before (c :: after) []).upTo m) ::
          piecesFrom r (after.length - m.after.length) (c :: before) after
      else .kept c :: piecesFrom r 0 (c :: before) after
    | none => .kept c :: piecesFrom r 0 (c :: before) after
termination_by structural _ _ after => after

/-- `re.finditer`, with the text of each match. -/
def pieces (r : Regex α) (text : List α) : List (Piece α) := r.piecesFrom 0 [] text

namespace Piece

/-- The text of the piece. -/
def text : Piece α → List α
  | kept c => [c]
  | cut _ t => t

/-- The text of the piece when matches are replaced. -/
def replaced (repl : List α) : Piece α → List α
  | kept c => [c]
  | cut _ _ => repl

/-- The match, if the piece is one. -/
def found : Piece α → Option (Place α × List α)
  | kept _ => none
  | cut m t => some (m, t)

end Piece

/-- `re.sub`. -/
def sub (r : Regex α) (repl text : List α) : List α := (r.pieces text).flatMap (Piece.replaced repl)

/-- The matches of `re.finditer`. -/
def found (r : Regex α) (text : List α) : List (Place α × List α) :=
  (r.pieces text).filterMap Piece.found

/-! ### Patterns often used -/

/-- A list of patterns one after another. -/
def seqs : List (Regex α) → Regex α
  | [] => eps
  | [r] => r
  | r :: rs => seq r (seqs rs)

/-- `a|b|c`. -/
def alts : List (Regex α) → Regex α
  | [] => look fun _ _ => false
  | [r] => r
  | r :: rs => alt r (alts rs)

/-- `r*`. -/
def star (r : Regex α) : Regex α := rep true 0 none r

/-- `r+`. -/
def plus (r : Regex α) : Regex α := rep true 1 none r

/-- `r*?`. -/
def lazyStar (r : Regex α) : Regex α := rep false 0 none r

/-- `r?`. -/
def opt (r : Regex α) : Regex α := rep true 0 (some 1) r

/-- `(?=r)`. -/
def ahead (r : Regex α) : Regex α := look fun before after => (r.here ⟨before, after, []⟩).isSome

/-- These characters. -/
def word [DecidableEq α] (w : List α) : Regex α := seqs (w.map fun c => char fun d => d = c)

/-! ## Rules -/

section Rules

variable {r t : Regex α} {s q : Place α} {p : α → Bool} {test : List α → List α → Bool}

@[simp] theorem mem_ends_eps : q ∈ ends eps s ↔ q = s := List.mem_singleton

@[simp] theorem mem_ends_look : q ∈ ends (look test) s ↔ test s.before s.after = true ∧ q = s := by
  rw [ends]
  split
  · rename_i h
    simp [h]
  · rename_i h
    simp [h]

theorem mem_ends_char : q ∈ ends (char p) s ↔ ∃ c rest, s.after = c :: rest ∧ p c = true ∧ q = s.skip 1 := by
  rw [ends]
  cases h : s.after with
  | nil => simp
  | cons c rest =>
    by_cases hc : p c = true
    · simp [hc]
    · simp [hc]

@[simp] theorem mem_ends_seq : q ∈ ends (seq r t) s ↔ ∃ m ∈ ends r s, q ∈ ends t m := List.mem_flatMap

@[simp] theorem mem_ends_alt : q ∈ ends (alt r t) s ↔ q ∈ ends r s ∨ q ∈ ends t s := List.mem_append

theorem here_isSome : (r.here s).isSome = true ↔ ∃ q, q ∈ r.ends s := by
  rw [here, List.isSome_head?]
  exact ⟨List.exists_mem_of_ne_nil _, fun ⟨q, hq⟩ => List.ne_nil_of_mem hq⟩

theorem here_eq_none : r.here s = none ↔ r.ends s = [] := List.head?_eq_none_iff

/-- The first end of a sequence: the first end of the first part from which the second goes on. -/
theorem here_seq : (seq r t).here s = (r.ends s).findSome? t.here := List.head?_flatMap

end Rules

/-! ## Repeated characters -/

section Chars

variable {p : α → Bool} {s q : Place α}

/-- How many characters of the class follow. -/
def run (p : α → Bool) (xs : List α) : Nat := (xs.takeWhile p).length

theorem run_le (xs : List α) : run p xs ≤ xs.length :=
  (List.takeWhile_prefix p).length_le

@[simp] theorem run_nil : run p ([] : List α) = 0 := rfl

theorem run_cons_of_pos {c : α} {xs : List α} (h : p c = true) : run p (c :: xs) = run p xs + 1 := by
  rw [run, List.takeWhile_cons_of_pos h, List.length_cons, ← run]

theorem run_cons_of_neg {c : α} {xs : List α} (h : ¬ p c = true) : run p (c :: xs) = 0 := by
  rw [run, List.takeWhile_cons_of_neg h, List.length_nil]

/-- The numbers up to `n`, in the order in which they are tried. -/
def counts (greedy : Bool) (n : Nat) : List Nat :=
  if greedy then (List.range (n + 1)).reverse else List.range (n + 1)

theorem mem_counts {greedy : Bool} {n k : Nat} : k ∈ counts greedy n ↔ k ≤ n := by
  cases greedy <;> simp [counts, Nat.lt_succ_iff]

theorem counts_succ (greedy : Bool) (n : Nat) : counts greedy (n + 1) =
    if greedy then (counts greedy n).map (· + 1) ++ [0] else 0 :: (counts greedy n).map (· + 1) := by
  cases greedy <;> simp [counts, List.range_succ_eq_map]

/-- **Further rounds of a character class**: every number of characters up to the longest run. -/
theorem more_char (greedy : Bool) : ∀ (n : Nat) (s : Place α), more (ends (char p)) greedy n s =
    (counts greedy (min n (run p s.after))).map s.skip := by
  intro n
  induction n with
  | zero =>
    intro s
    rw [Nat.zero_min]
    cases greedy <;> simp [more, counts]
  | succ n ih =>
    intro s
    obtain ⟨before, after, groups⟩ := s
    rw [more]
    cases after with
    | nil => cases greedy <;> simp [ends, counts]
    | cons c after =>
      by_cases hc : p c = true
      · have hstep : ends (char p) ⟨before, c :: after, groups⟩ = [⟨c :: before, after, groups⟩] := by
          rw [ends, List.head?_cons, Option.any_some, if_pos hc, Place.skip_cons]
        have hmap : (counts greedy (min n (run p after))).map (Place.mk (c :: before) after groups).skip =
            ((counts greedy (min n (run p after))).map (· + 1)).map
              (Place.mk before (c :: after) groups).skip := by
          rw [List.map_map]
          refine List.map_congr_left fun k _ => ?_
          rw [← Place.skip_cons, Place.skip_skip, Nat.add_comm]
          rfl
        have hlt : after.length < (c :: after).length := Nat.lt_succ_self _
        rw [hstep, List.flatMap_singleton]
        dsimp only
        rw [if_pos hlt, ih, hmap, run_cons_of_pos hc,
          Nat.add_min_add_right, counts_succ]
        cases greedy <;> simp
      · have hstep : ends (char p) ⟨before, c :: after, groups⟩ = [] := by
          rw [ends, List.head?_cons, Option.any_some, if_neg hc]
        rw [hstep, run_cons_of_neg hc, Nat.min_zero]
        cases greedy <;> simp [counts]

/-- A number of characters of a class. -/
theorem exactly_char : ∀ (n : Nat) (s : Place α), exactly (ends (char p)) n s =
    if n ≤ run p s.after then [s.skip n] else [] := by
  intro n
  induction n with
  | zero =>
    intro s
    simp [exactly]
  | succ n ih =>
    intro s
    obtain ⟨before, after, groups⟩ := s
    rw [exactly]
    cases after with
    | nil => simp [ends]
    | cons c after =>
      by_cases hc : p c = true
      · rw [ends, List.head?_cons, Option.any_some, if_pos hc, Place.skip_cons, List.flatMap_singleton, ih,
          run_cons_of_pos hc, ← Place.skip_cons, Place.skip_skip, Nat.add_comm 1]
        simp only [Nat.add_le_add_iff_right, Place.skip_after, List.drop_succ_cons, List.drop_zero]
      · rw [ends, List.head?_cons, Option.any_some, if_neg hc, run_cons_of_neg hc,
          if_neg (Nat.not_succ_le_zero n)]
        rfl

theorem run_drop {n : Nat} : ∀ {xs : List α}, n ≤ run p xs → run p (xs.drop n) = run p xs - n := by
  induction n with
  | zero => exact fun _ => rfl
  | succ n ih =>
    intro xs h
    cases xs with
    | nil => simp at h
    | cons c xs =>
      by_cases hc : p c = true
      · rw [run_cons_of_pos hc] at h ⊢
        rw [List.drop_succ_cons, ih (Nat.le_of_succ_le_succ h), Nat.add_sub_add_right]
      · rw [run_cons_of_neg hc] at h
        exact absurd h (Nat.not_succ_le_zero n)

/-- The greatest number of characters that a bounded repetition may take. -/
def most (p : α → Bool) (lo : Nat) (hi : Option Nat) (xs : List α) : Nat :=
  match hi with
  | none => run p xs - lo
  | some n => min (n - lo) (run p xs - lo)

/-- **A repeated character class** ends at every length within its bounds, in order. -/
theorem ends_rep_char (greedy : Bool) (lo : Nat) (hi : Option Nat) (s : Place α) :
    ends (rep greedy lo hi (char p)) s =
      if lo ≤ run p s.after then (counts greedy (most p lo hi s.after)).map fun k => s.skip (lo + k)
      else [] := by
  rw [ends, exactly_char]
  split
  · rename_i h
    rw [List.flatMap_singleton, more_char, Place.skip_after, run_drop h]
    have hmost : min ((hi.map fun n => n - lo).getD (s.after.drop lo).length) (run p s.after - lo) =
        most p lo hi s.after := by
      cases hi with
      | none =>
        have hle : run p s.after - lo ≤ s.after.length - lo := Nat.sub_le_sub_right (run_le _) lo
        rw [Option.map_none, Option.getD_none, List.length_drop]
        exact min_eq_right hle
      | some n => rfl
    rw [hmost]
    refine List.map_congr_left fun k _ => ?_
    rw [Place.skip_skip]
  · rfl

/-- `r*` of a class. -/
theorem ends_star_char (s : Place α) :
    ends (star (char p)) s = (counts true (run p s.after)).map s.skip := by
  rw [star, ends_rep_char, if_pos (Nat.zero_le _)]
  simp [most]

/-- `r*?` of a class. -/
theorem ends_lazyStar_char (s : Place α) :
    ends (lazyStar (char p)) s = (counts false (run p s.after)).map s.skip := by
  rw [lazyStar, ends_rep_char, if_pos (Nat.zero_le _)]
  simp [most]

theorem le_run_iff {n : Nat} : ∀ {xs : List α},
    n ≤ run p xs ↔ n ≤ xs.length ∧ ∀ c ∈ xs.take n, p c = true := by
  induction n with
  | zero => simp
  | succ n ih =>
    intro xs
    cases xs with
    | nil => simp
    | cons c xs =>
      by_cases hc : p c = true
      · rw [run_cons_of_pos hc, Nat.add_le_add_iff_right, ih]
        simp [hc]
      · rw [run_cons_of_neg hc]
        simp [hc]

/-- A repeated character class ends after a word of the class whose length is within the bounds. -/
theorem mem_ends_rep_char {greedy : Bool} {lo : Nat} {hi : Option Nat} :
    q ∈ ends (rep greedy lo hi (char p)) s ↔ ∃ n, q = s.skip n ∧ n ≤ s.after.length ∧
      (∀ c ∈ s.after.take n, p c = true) ∧ lo ≤ n ∧ ∀ h ∈ hi, n ≤ max lo h := by
  rw [ends_rep_char]
  constructor
  · intro h
    split at h
    · rename_i hlo
      obtain ⟨k, hk, rfl⟩ := List.mem_map.1 h
      have hk := mem_counts.1 hk
      have hrun : lo + k ≤ run p s.after ∧ ∀ h ∈ hi, lo + k ≤ max lo h := by
        cases hi with
        | none =>
          rw [most] at hk
          exact ⟨by omega, nofun⟩
        | some n =>
          rw [most] at hk
          refine ⟨by omega, ?_⟩
          rintro h ⟨⟩
          omega
      obtain ⟨hlen, hall⟩ := le_run_iff.1 hrun.1
      exact ⟨lo + k, rfl, hlen, hall, Nat.le_add_right lo k, hrun.2⟩
    · cases h
  · rintro ⟨n, rfl, hlen, hall, hlo, hhi⟩
    have hrun := le_run_iff.2 ⟨hlen, hall⟩
    rw [if_pos (hlo.trans hrun)]
    refine List.mem_map.2 ⟨n - lo, mem_counts.2 ?_, by rw [Nat.add_sub_cancel' hlo]⟩
    cases hi with
    | none => exact Nat.sub_le_sub_right hrun lo
    | some h =>
      have := hhi h rfl
      rw [most]
      omega

end Chars

/-! ### What comes behind a part -/

section Behind

variable {r t v : Regex α} {p : α → Bool} {test : List α → List α → Bool} {before after : List α}
  {c : α} {groups : List (Nat × List α)} {s q : Place α}

theorem here_look : (seq (look test) t).here s = if test s.before s.after then t.here s else none := by
  rw [here_seq, ends]
  split
  · simp
  · rfl

theorem here_char_nil : (seq (char p) t).here ⟨before, [], groups⟩ = none := rfl

theorem here_char_cons : (seq (char p) t).here ⟨before, c :: after, groups⟩ =
    if p c then t.here ⟨c :: before, after, groups⟩ else none := by
  rw [here_seq, ends, List.head?_cons, Option.any_some, Place.skip_cons]
  split
  · simp
  · rfl

theorem here_assoc : (seq (seq r v) t).here s = (seq r (seq v t)).here s := by
  rw [here, here, ends, ends, ends, List.flatMap_assoc]
  rfl

theorem here_lazyStar_nil : (seq (lazyStar (char p)) t).here ⟨before, [], groups⟩ =
    t.here ⟨before, [], groups⟩ := by
  rw [here_seq, ends_lazyStar_char]
  simp [counts]

/-- Behind a lazy repetition: here, and if not here, then one character further on. -/
theorem here_lazyStar_cons (hc : p c = true) :
    (seq (lazyStar (char p)) t).here ⟨before, c :: after, groups⟩ =
      (t.here ⟨before, c :: after, groups⟩).or
        ((seq (lazyStar (char p)) t).here ⟨c :: before, after, groups⟩) := by
  rw [here_seq, here_seq, ends_lazyStar_char, ends_lazyStar_char, run_cons_of_pos hc, counts_succ,
    if_neg Bool.false_ne_true, List.map_cons, List.findSome?_cons, Place.skip_zero, List.map_map]
  have hmap : (counts false (run p after)).map ((Place.mk before (c :: after) groups).skip ∘ (· + 1)) =
      (counts false (run p after)).map (Place.mk (c :: before) after groups).skip := by
    refine List.map_congr_left fun k _ => ?_
    rw [← Place.skip_cons, Place.skip_skip, Nat.add_comm]
    rfl
  rw [hmap]
  cases t.here ⟨before, c :: after, groups⟩ <;> rfl

theorem here_star_nil : (seq (star (char p)) t).here ⟨before, [], groups⟩ =
    t.here ⟨before, [], groups⟩ := by
  rw [here_seq, ends_star_char]
  simp [counts]

/-- Behind a greedy repetition: further on, and if not further on, then here. -/
theorem here_star_cons (hc : p c = true) :
    (seq (star (char p)) t).here ⟨before, c :: after, groups⟩ =
      ((seq (star (char p)) t).here ⟨c :: before, after, groups⟩).or
        (t.here ⟨before, c :: after, groups⟩) := by
  rw [here_seq, here_seq, ends_star_char, ends_star_char, run_cons_of_pos hc, counts_succ,
    if_pos rfl, List.map_append, List.findSome?_append, List.map_map]
  have hmap : (counts true (run p after)).map ((Place.mk before (c :: after) groups).skip ∘ (· + 1)) =
      (counts true (run p after)).map (Place.mk (c :: before) after groups).skip := by
    refine List.map_congr_left fun k _ => ?_
    rw [← Place.skip_cons, Place.skip_skip, Nat.add_comm]
    rfl
  rw [hmap, List.map_singleton, Place.skip_zero, List.findSome?_singleton]

/-- Behind a word. -/
theorem here_chars (ps : List (α → Bool)) : (seq (seqs (ps.map char)) t).here s = some q ↔
    ∃ w rest, s.after = w ++ rest ∧ List.Forall₂ (fun p c => p c = true) ps w ∧
      t.here (s.skip w.length) = some q := by
  induction ps generalizing s with
  | nil =>
    constructor
    · intro h
      refine ⟨[], s.after, rfl, .nil, ?_⟩
      rw [List.length_nil, Place.skip_zero]
      simpa [here_seq, seqs, ends] using h
    · rintro ⟨w, rest, -, hw, h⟩
      cases hw
      rw [List.length_nil, Place.skip_zero] at h
      simpa [here_seq, seqs, ends] using h
  | cons p ps ih =>
    have hsplit : (seq (seqs ((p :: ps).map char)) t).here s =
        (seq (char p) (seq (seqs (ps.map char)) t)).here s := by
      cases ps with
      | nil =>
        rw [here_seq, here_seq]
        refine congrFun (congrArg List.findSome? (funext fun m => ?_)) _
        simp [here_seq, seqs, ends]
      | cons p' ps => exact here_assoc
    rw [hsplit]
    obtain ⟨before, after, groups⟩ := s
    cases after with
    | nil =>
      refine iff_of_false (by rw [here_char_nil]; simp) ?_
      rintro ⟨w, rest, heq, hw, -⟩
      cases hw
      cases heq
    | cons c after =>
      rw [here_char_cons]
      constructor
      · intro h
        split at h
        · rename_i hc
          obtain ⟨w, rest, rfl, hw, hq⟩ := ih.1 h
          refine ⟨c :: w, rest, rfl, .cons hc hw, ?_⟩
          rwa [List.length_cons, Nat.add_comm, ← Place.skip_skip, Place.skip_cons]
        · cases h
      · rintro ⟨w, rest, heq, hw, hq⟩
        cases hw with
        | @cons _ d _ w hd hw =>
          obtain ⟨rfl, rfl⟩ := List.cons.inj heq
          rw [if_pos hd]
          refine ih.2 ⟨w, rest, rfl, hw, ?_⟩
          rwa [List.length_cons, Nat.add_comm, ← Place.skip_skip, Place.skip_cons] at hq

end Behind

/-! ## Every end is further on -/

section Ends

variable {r : Regex α} {s q : Place α}

/-- A place some characters further on; groups may have been added. -/
def Ahead (s q : Place α) : Prop :=
  ∃ n ≤ s.after.length, q.before = (s.skip n).before ∧ q.after = (s.skip n).after

theorem Ahead.refl (s : Place α) : Ahead s s := ⟨0, Nat.zero_le _, by simp, by simp⟩

theorem Ahead.trans {m : Place α} (h : Ahead s m) (h' : Ahead m q) : Ahead s q := by
  obtain ⟨n, hn, hb, ha⟩ := h
  obtain ⟨k, hk, hb', ha'⟩ := h'
  refine ⟨n + k, ?_, ?_, ?_⟩
  · rw [ha, Place.skip_after, List.length_drop] at hk
    omega
  · rw [hb', Place.skip_before, ha, hb, ← Place.skip_skip]
    rfl
  · rw [ha', Place.skip_after, ha, ← Place.skip_skip]
    rfl

theorem ahead_exactly {step : Place α → List (Place α)} (hstep : ∀ s, ∀ q ∈ step s, Ahead s q) :
    ∀ n s, ∀ q ∈ exactly step n s, Ahead s q := by
  intro n
  induction n with
  | zero =>
    intro s q h
    rw [List.mem_singleton.1 h]
    exact .refl s
  | succ n ih =>
    intro s q h
    obtain ⟨m, hm, hq⟩ := List.mem_flatMap.1 h
    exact (hstep s m hm).trans (ih m q hq)

theorem ahead_more {step : Place α → List (Place α)} (hstep : ∀ s, ∀ q ∈ step s, Ahead s q)
    (greedy : Bool) : ∀ n s, ∀ q ∈ more step greedy n s, Ahead s q := by
  intro n
  induction n with
  | zero =>
    intro s q h
    rw [List.mem_singleton.1 h]
    exact .refl s
  | succ n ih =>
    intro s q h
    have hcases : q = s ∨ ∃ m ∈ step s, q ∈ more step greedy n m := by
      have hrest : q ∈ ((step s).flatMap fun t =>
          if t.after.length < s.after.length then more step greedy n t else []) →
          ∃ m ∈ step s, q ∈ more step greedy n m := by
        intro hq
        obtain ⟨m, hm, hq⟩ := List.mem_flatMap.1 hq
        split at hq
        · exact ⟨m, hm, hq⟩
        · cases hq
      rw [more] at h
      cases greedy with
      | true =>
        rcases List.mem_append.1 h with h | h
        · exact .inr (hrest h)
        · exact .inl (List.mem_singleton.1 h)
      | false =>
        rcases List.mem_cons.1 h with h | h
        · exact .inl h
        · exact .inr (hrest h)
    rcases hcases with rfl | ⟨m, hm, hq⟩
    · exact .refl q
    · exact (hstep s m hm).trans (ih m q hq)

/-- **A pattern ends where it started, or further on.** -/
theorem ahead_of_mem_ends : ∀ {s q : Place α}, q ∈ r.ends s → Ahead s q := by
  induction r with
  | eps =>
    intro s q h
    rw [mem_ends_eps.1 h]
    exact .refl s
  | char p =>
    intro s q h
    obtain ⟨c, rest, hs, -, rfl⟩ := mem_ends_char.1 h
    exact ⟨1, by rw [hs]; exact Nat.succ_le_succ (Nat.zero_le _), rfl, rfl⟩
  | look test =>
    intro s q h
    rw [(mem_ends_look.1 h).2]
    exact .refl s
  | seq r t ihr iht =>
    intro s q h
    obtain ⟨m, hm, hq⟩ := mem_ends_seq.1 h
    exact (ihr hm).trans (iht hq)
  | alt r t ihr iht =>
    intro s q h
    rcases mem_ends_alt.1 h with h | h
    · exact ihr h
    · exact iht h
  | rep greedy lo hi r ih =>
    intro s q h
    obtain ⟨m, hm, hq⟩ := List.mem_flatMap.1 h
    have hstep : ∀ s, ∀ q ∈ r.ends s, Ahead s q := fun s q h => ih h
    exact (ahead_exactly hstep lo s m hm).trans (ahead_more hstep greedy _ m q hq)
  | group n r ih =>
    intro s q h
    obtain ⟨m, hm, heq⟩ := List.mem_map.1 h
    obtain ⟨k, hk, hb, ha⟩ := ih hm
    rw [← heq]
    exact ⟨k, hk, hb, ha⟩

end Ends

/-! ## Searching -/

section Search

variable {r : Regex α} {a b : Place α}

/-- **A search finds the leftmost place** where the pattern matches, and the first end there. -/
theorem searchFrom_eq_some : ∀ {before after : List α}, r.searchFrom before after = some (a, b) →
    ∃ n ≤ after.length, a = (Place.mk before after []).skip n ∧ r.here a = some b ∧
      ∀ m < n, r.here ((Place.mk before after []).skip m) = none := by
  intro before after
  induction after generalizing before with
  | nil =>
    intro h
    rw [searchFrom] at h
    split at h
    · rename_i t ht
      cases h
      exact ⟨0, le_refl 0, rfl, ht, fun m hm => absurd hm (Nat.not_lt_zero m)⟩
    · cases h
  | cons c after ih =>
    intro h
    rw [searchFrom] at h
    split at h
    · rename_i t ht
      cases h
      exact ⟨0, Nat.zero_le _, (Place.skip_zero _).symm, ht, fun m hm => absurd hm (Nat.not_lt_zero m)⟩
    · rename_i hnone
      obtain ⟨n, hn, ha, hb, hbefore⟩ := ih h
      have hskip : ∀ k, (Place.mk (c :: before) after []).skip k =
          (Place.mk before (c :: after) []).skip (k + 1) := fun k => by
        rw [← Place.skip_cons, Place.skip_skip, Nat.add_comm]
      refine ⟨n + 1, Nat.succ_le_succ hn, by rw [ha, hskip], hb, fun m hm => ?_⟩
      cases m with
      | zero => rwa [Place.skip_zero]
      | succ m =>
        rw [← hskip]
        exact hbefore m (Nat.lt_of_succ_lt_succ hm)

theorem searchFrom_eq_none : ∀ {before after : List α}, r.searchFrom before after = none →
    ∀ n ≤ after.length, r.here ((Place.mk before after []).skip n) = none := by
  intro before after
  induction after generalizing before with
  | nil =>
    intro h n hn
    rw [searchFrom] at h
    split at h
    · cases h
    · rename_i hnone
      rw [Nat.le_zero.1 hn, Place.skip_zero]
      exact hnone
  | cons c after ih =>
    intro h n hn
    rw [searchFrom] at h
    split at h
    · cases h
    · rename_i hnone
      cases n with
      | zero => rwa [Place.skip_zero]
      | succ n =>
        have := ih h n (Nat.le_of_succ_le_succ hn)
        rwa [← Place.skip_cons, Place.skip_skip, Nat.add_comm] at this

end Search

end Regex
