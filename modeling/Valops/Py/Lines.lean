import Valops.Py.Text
import Mathlib.Data.List.Infix

/-!
# Lines of text

`"\n".join` and `str.splitlines`. A newline may occur in what is joined, so joined lines can be read
back in more than one way. Two lists of lines with the same text are the same list when their lines
have the same numbers of newlines (`joinLines_injective`), and when every line starts with a head
that is not found after a newline of any other (`joinLines_headed`).
-/

set_option autoImplicit false

namespace Py

/-- `"\n".join(lines) + "\n"`. -/
def joinLines (lines : List PyStr) : PyStr := List.intercalate [10] lines ++ [10]

/-- What follows the first line's newline. -/
def joinRest (lines : List PyStr) : PyStr := if lines = [] then [] else joinLines lines

/-- The characters that end a line for `str.splitlines`. -/
def isLineBreak (c : Nat) : Bool :=
  [0x0A, 0x0B, 0x0C, 0x0D, 0x1C, 0x1D, 0x1E, 0x85, 0x2028, 0x2029].contains c

/-- The loop of `str.splitlines`, with the line it is in. -/
def splitlinesLoop : PyStr → PyStr → List PyStr
  | line, [] => if line = [] then [] else [line]
  | line, 0x0D :: 0x0A :: rest => line :: splitlinesLoop [] rest
  | line, c :: rest =>
    if isLineBreak c then line :: splitlinesLoop [] rest else splitlinesLoop (line ++ [c]) rest

/-- `str.splitlines`. -/
def splitlines (s : PyStr) : List PyStr := splitlinesLoop [] s

theorem splitlinesLoop_line {l : PyStr} {c : Nat} (rest : PyStr) (hc : isLineBreak c = true)
    (hcr : c ≠ 13) : ∀ {line : PyStr}, (∀ x ∈ l, isLineBreak x = false) →
      splitlinesLoop line (l ++ c :: rest) = (line ++ l) :: splitlines rest := by
  induction l with
  | nil =>
    intro line _
    rw [List.nil_append, List.append_nil, splitlinesLoop, if_pos hc]
    · rfl
    · exact fun _ h => absurd h hcr
  | cons x l ih =>
    intro line hl
    obtain ⟨hx, hl⟩ := List.forall_mem_cons.1 hl
    rw [List.cons_append, splitlinesLoop, if_neg (by rw [hx]; exact Bool.false_ne_true), ih hl,
      List.append_assoc]
    · rfl
    · rintro _ rfl
      exact absurd hx (by decide)

/-- A line without line breaks, and what follows it. -/
theorem splitlines_line {l : PyStr} {c : Nat} (rest : PyStr) (hl : ∀ x ∈ l, isLineBreak x = false)
    (hc : isLineBreak c = true) (hcr : c ≠ 13) : splitlines (l ++ c :: rest) = l :: splitlines rest :=
  splitlinesLoop_line rest hc hcr hl

/-- The loop of `bytes.splitlines`, with the line it is in. -/
def byteLinesLoop : Bytes → Bytes → List Bytes
  | line, [] => if line = [] then [] else [line]
  | line, 13 :: 10 :: rest => line :: byteLinesLoop [] rest
  | line, b :: rest =>
    if b = 10 ∨ b = 13 then line :: byteLinesLoop [] rest else byteLinesLoop (line ++ [b]) rest

/-- `bytes.splitlines`. -/
def byteLines (bs : Bytes) : List Bytes := byteLinesLoop [] bs

theorem byteLinesLoop_line {l : Bytes} (rest : Bytes) : ∀ {line : Bytes}, (10 : UInt8) ∉ l →
    (13 : UInt8) ∉ l → byteLinesLoop line (l ++ 10 :: rest) = (line ++ l) :: byteLines rest := by
  induction l with
  | nil =>
    intro line _ _
    rw [List.nil_append, List.append_nil, byteLinesLoop, if_pos (.inl rfl)]
    · rfl
    · intro _ h
      cases h
  | cons b l ih =>
    intro line hn hr
    obtain ⟨hbn, hn⟩ := not_or.1 (mt List.mem_cons.2 hn)
    obtain ⟨hbr, hr⟩ := not_or.1 (mt List.mem_cons.2 hr)
    rw [List.cons_append, byteLinesLoop, if_neg, ih hn hr, List.append_assoc]
    · rfl
    · exact fun h => h.elim (fun h => hbn h.symm) fun h => hbr h.symm
    · exact fun _ h => absurd h.symm hbr

/-- A line without line breaks, and what follows it. -/
theorem byteLines_line {l : Bytes} (rest : Bytes) (hn : (10 : UInt8) ∉ l) (hr : (13 : UInt8) ∉ l) :
    byteLines (l ++ 10 :: rest) = l :: byteLines rest :=
  byteLinesLoop_line rest hn hr

section Join

variable {l m : PyStr} {ls ms : List PyStr}

theorem joinLines_cons (l : PyStr) (ls : List PyStr) :
    joinLines (l :: ls) = l ++ 10 :: joinRest ls := by
  cases ls with
  | nil => simp [joinLines, joinRest, List.intercalate]
  | cons m ls => simp [joinLines, joinRest, List.intercalate, List.intersperse]

theorem joinLines_ne_nil (ls : List PyStr) : joinLines ls ≠ [] := by
  intro h
  exact List.cons_ne_nil 10 [] (List.append_eq_nil_iff.1 h).2

theorem joinRest_eq_iff : joinRest ls = joinRest ms ↔
    (ls = [] ↔ ms = []) ∧ (ls ≠ [] → joinLines ls = joinLines ms) := by
  unfold joinRest
  by_cases hl : ls = []
  · by_cases hm : ms = []
    · simp [hl, hm]
    · simp [hl, hm, (joinLines_ne_nil ms).symm]
  · by_cases hm : ms = []
    · simp [hl, hm, joinLines_ne_nil]
    · simp [hl, hm]

/-- Two texts agree up to a separator if as many separators come before it. -/
theorem split_count {α : Type} [DecidableEq α] {sep : α} {a b x y : List α}
    (h : a ++ sep :: x = b ++ sep :: y) (hcount : a.count sep = b.count sep) : a = b ∧ x = y := by
  induction a generalizing b with
  | nil =>
    cases b with
    | nil => exact ⟨rfl, (List.cons.inj h).2⟩
    | cons c b =>
      rw [← (List.cons.inj h).1] at hcount
      simp at hcount
  | cons d a ih =>
    cases b with
    | nil =>
      rw [(List.cons.inj h).1] at hcount
      simp at hcount
    | cons c b =>
      obtain ⟨rfl, htail⟩ := List.cons.inj h
      have hcount : a.count sep = b.count sep := by
        simpa [List.count_cons] using hcount
      obtain ⟨rfl, rfl⟩ := ih htail hcount
      exact ⟨rfl, rfl⟩

/-- **Lines are recovered from their text and their numbers of newlines.** -/
theorem joinLines_injective (h : joinLines ls = joinLines ms)
    (hcount : ls.map (List.count 10) = ms.map (List.count 10)) : ls = ms := by
  induction ls generalizing ms with
  | nil => exact (List.map_eq_nil_iff.1 hcount.symm).symm
  | cons l ls ih =>
    cases ms with
    | nil => exact absurd hcount (by simp)
    | cons m ms =>
      obtain ⟨hhead, htail⟩ := List.cons.inj hcount
      rw [joinLines_cons, joinLines_cons] at h
      obtain ⟨rfl, hrest⟩ := split_count h hhead
      by_cases hls : ls = []
      · rw [hls, (joinRest_eq_iff.1 hrest).1.1 hls]
      · rw [ih ((joinRest_eq_iff.1 hrest).2 hls) htail]

end Join

/-! ## Lines with heads -/

section Headed

variable (H : PyStr → Prop)

/-- The line starts with a head. -/
def Headed (l : PyStr) : Prop := ∃ d rest, H d ∧ l = d ++ rest

/-- A newline of the line is followed by a head. -/
def Embeds (l : PyStr) : Prop := ∃ front d rest, H d ∧ l = front ++ 10 :: (d ++ rest)

variable {H} {l m : PyStr} {ls ms : List PyStr}

/-- A newline cannot lie within a text that has none. -/
theorem newline_beyond {x y a z : PyStr} (h : x ++ y = a ++ 10 :: z) (hx : 10 ∉ x) :
    ∃ w, a = x ++ w ∧ y = w ++ 10 :: z := by
  rcases List.append_eq_append_iff.1 h with ⟨w, ha, hy⟩ | ⟨w, hx', hz⟩
  · exact ⟨w, ha, hy⟩
  · cases w with
    | nil => exact ⟨[], by rw [hx', List.append_nil, List.append_nil], hz.symm⟩
    | cons c w =>
      obtain ⟨rfl, _⟩ := List.cons.inj hz
      exact absurd (by rw [hx']; simp) hx

theorem Embeds.of_append {d r : PyStr} (hd : 10 ∉ d) (h : Embeds H (d ++ r)) : Embeds H r := by
  obtain ⟨front, d', rest, hd', heq⟩ := h
  obtain ⟨w, _, hr⟩ := newline_beyond heq hd
  exact ⟨w, d', rest, hd', hr⟩

theorem Embeds.append {r : PyStr} (d : PyStr) (h : Embeds H r) : Embeds H (d ++ r) := by
  obtain ⟨front, d', rest, hd', rfl⟩ := h
  exact ⟨d ++ front, d', rest, hd', (List.append_assoc ..).symm⟩

/-- A line that goes on where another one ends embeds the head of the next one. -/
theorem Embeds.of_overrun (hH : ∀ d, H d → 10 ∉ d) (hls : ∀ x ∈ ls, Headed H x) {a : PyStr}
    {rest : PyStr} (hm : m = l ++ a) (h : 10 :: joinRest ls = a ++ 10 :: rest) (ha : a ≠ []) :
    Embeds H m := by
  obtain ⟨c, a, rfl⟩ := List.exists_cons_of_ne_nil ha
  obtain ⟨rfl, hrest⟩ := List.cons.inj h
  cases ls with
  | nil => exact absurd hrest.symm (by simp [joinRest])
  | cons x ls =>
    obtain ⟨d, tail, hd, rfl⟩ := hls x List.mem_cons_self
    rw [joinRest, if_neg (List.cons_ne_nil _ _), joinLines_cons, List.append_assoc] at hrest
    obtain ⟨w, rfl, _⟩ := newline_beyond hrest (hH d hd)
    exact ⟨l, d, w, hd, hm⟩

/-- **Lines are recovered from their text if none embeds a head.** -/
theorem joinLines_headed (hH : ∀ d, H d → 10 ∉ d ∧ d ≠ []) (hls : ∀ x ∈ ls, Headed H x)
    (hms : ∀ x ∈ ms, Headed H x) (hls' : ∀ x ∈ ls, ¬ Embeds H x) (hms' : ∀ x ∈ ms, ¬ Embeds H x)
    (h : joinLines ls = joinLines ms) : ls = ms := by
  have hnil : ∀ {x : PyStr} {xs : List PyStr}, Headed H x → joinLines (x :: xs) ≠ joinLines [] := by
    rintro x xs ⟨d, rest, hd, rfl⟩ heq
    obtain ⟨c, d, rfl⟩ := List.exists_cons_of_ne_nil (hH d hd).2
    have hc : c = 10 := by
      rw [joinLines_cons] at heq
      exact (List.cons.inj heq).1
    exact (hH _ hd).1 (hc ▸ List.mem_cons_self)
  induction ls generalizing ms with
  | nil =>
    cases ms with
    | nil => rfl
    | cons m ms => exact absurd h.symm (hnil (hms m List.mem_cons_self))
  | cons l ls ih =>
    cases ms with
    | nil => exact absurd h (hnil (hls l List.mem_cons_self))
    | cons m ms =>
      obtain ⟨_, hlsT⟩ := List.forall_mem_cons.1 hls
      obtain ⟨_, hmsT⟩ := List.forall_mem_cons.1 hms
      obtain ⟨hl', hlsT'⟩ := List.forall_mem_cons.1 hls'
      obtain ⟨hm', hmsT'⟩ := List.forall_mem_cons.1 hms'
      have hlm : l = m ∧ joinRest ls = joinRest ms := by
        rw [joinLines_cons, joinLines_cons] at h
        rcases List.append_eq_append_iff.1 h with ⟨a, hm, ha⟩ | ⟨a, hl, ha⟩
        · by_cases hnil : a = []
          · subst hnil
            exact ⟨by rw [hm, List.append_nil], (List.cons.inj ha).2⟩
          · exact absurd (Embeds.of_overrun (fun d hd => (hH d hd).1) hlsT hm ha hnil) hm'
        · by_cases hnil : a = []
          · subst hnil
            exact ⟨by rw [hl, List.append_nil], (List.cons.inj ha).2.symm⟩
          · exact absurd (Embeds.of_overrun (fun d hd => (hH d hd).1) hmsT hl ha hnil) hl'
      obtain ⟨rfl, hrest⟩ := hlm
      by_cases hnil : ls = []
      · rw [hnil, (joinRest_eq_iff.1 hrest).1.1 hnil]
      · rw [ih hlsT hmsT hlsT' hmsT' ((joinRest_eq_iff.1 hrest).2 hnil)]

end Headed

end Py
