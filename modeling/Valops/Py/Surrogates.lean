import Valops.Py.RoundTrip

/-!
# Surrogates in string literals

A Python string may hold surrogates. In a literal they are escaped one by one, and the reader joins a
high one with a low one that follows it. So a literal of any string is read, as `joinUnits` of the
string.

Main results: `scanString_joined` for a literal, and `loads_joined` for the text of any value.
-/

set_option autoImplicit false

namespace Py

/-- A string: code points only. -/
def IsText (s : PyStr) : Prop := ∀ c ∈ s, c < 0x110000

theorem joinUnits_ne_nil {s : PyStr} (h : s ≠ []) : joinUnits s ≠ [] := by
  fun_cases joinUnits s
  · exact absurd rfl h
  · exact List.cons_ne_nil _ _
  · exact List.cons_ne_nil _ _
  · exact List.cons_ne_nil _ _

/-- What follows is not the escape of a low surrogate. -/
def NoLow (t : PyStr) : Prop :=
  dropPrefix [92, 117] t = none ∨ ∃ t' lo u, dropPrefix [92, 117] t = some t' ∧
    scanHex4 t' = some (lo, u) ∧ ¬ (0xDC00 ≤ lo ∧ lo < 0xE000)

theorem noLow_unit {n : Nat} (h : n < 65536) (hn : ¬ (0xDC00 ≤ n ∧ n < 0xE000)) (u : PyStr) :
    NoLow (unitEscape n ++ u) := by
  obtain ⟨hdrop, hscan⟩ := scanHex4_unitEscape h u
  exact .inr ⟨_, n, u, hdrop, hscan, hn⟩

theorem noLow_charText {ascii : Bool} {c : Nat} (hlow : ¬ (0xDC00 ≤ c ∧ c < 0xE000)) (u : PyStr) :
    NoLow (charText ascii c ++ u) := by
  unfold charText
  split
  · exact .inl rfl
  split
  · exact .inl rfl
  split
  · exact .inl rfl
  split
  · exact .inl rfl
  split
  · exact .inl rfl
  split
  · exact .inl rfl
  split
  · exact .inl rfl
  split
  · exact noLow_unit (by omega) (by omega) u
  split
  · rename_i h92 _ _ _ _ _ _ _
    refine .inl ?_
    show dropPrefix [92, 117] (c :: u) = none
    rw [dropPrefix, if_neg (Ne.symm h92)]
  split
  · exact noLow_unit (by omega) hlow u
  · rw [List.append_assoc]
    exact noLow_unit (by omega) (by omega) _

/-- A high surrogate stands alone. -/
theorem scanEscape_lone {hi : Nat} (h : 0xD800 ≤ hi ∧ hi < 0xDC00) {t : PyStr} (ht : NoLow t) :
    scanEscape ((unitEscape hi ++ t).drop 1) = some (hi, t) := by
  show scanEscape (117 :: (unitEscape hi ++ t).drop 2) = some (hi, t)
  rw [scanEscape, if_pos rfl, scanUnicode, (scanHex4_unitEscape (by omega) t).2]
  simp only [if_pos h]
  rcases ht with hdrop | ⟨t', lo, u, hdrop, hscan, hlo⟩
  · rw [hdrop]
  · rw [hdrop]
    simp only [hscan, if_neg hlo]

theorem charText_surrogate {c : Nat} (h : 0xD800 ≤ c ∧ c < 0xE000) :
    charText true c = unitEscape c := by
  unfold charText
  repeat rw [if_neg (by omega)]
  rw [if_neg (by simp; omega), if_pos (by omega)]

theorem charsText_cons (ascii : Bool) (c : Nat) (s t : PyStr) :
    charsText ascii (c :: s) ++ t = charText ascii c ++ (charsText ascii s ++ t) := by
  simp [charsText]

/-- One character of a literal that does not join with the next one. -/
theorem scanString_single {c : Nat} (hc : c < 0x110000) (fuel : Nat) {t : PyStr}
    (ht : 0xD800 ≤ c ∧ c < 0xDC00 → NoLow t) :
    scanString (fuel + 1) (charText true c ++ t) = (scanString fuel t).map fun p => (c :: p.1, p.2) := by
  by_cases hs : 0xD800 ≤ c ∧ c < 0xE000
  · rw [charText_surrogate hs]
    by_cases hhi : c < 0xDC00
    · exact scanString_escape rfl (scanEscape_lone ⟨hs.1, hhi⟩ (ht ⟨hs.1, hhi⟩))
    · exact scanString_escape rfl (scanEscape_unit (by omega) (by omega) t)
  · refine scanString_charText true ?_ fuel t
    simp only [isScalar, isSurrogate, Bool.and_eq_true, decide_eq_true_eq, Bool.not_eq_true',
      Bool.and_eq_false_iff, decide_eq_false_iff_not]
    omega

/-- **A literal of any string is read**, with its surrogates joined. -/
theorem scanString_joined {s : PyStr} (hs : IsText s) (rest : PyStr) : ∀ fuel, s.length < fuel →
    scanString fuel (charsText true s ++ 34 :: rest) = some (joinUnits s, rest) := by
  fun_induction joinUnits s with
  | case1 =>
    intro fuel hf
    obtain ⟨n, rfl⟩ : ∃ n, fuel = n + 1 := ⟨fuel - 1, by omega⟩
    rfl
  | case2 a =>
    intro fuel hf
    obtain ⟨n, rfl⟩ : ∃ n, fuel = n + 1 + 1 := ⟨fuel - 2, by simp at hf; omega⟩
    rw [charsText_cons, scanString_single (hs a List.mem_cons_self) _ fun _ => .inl rfl]
    rfl
  | case3 a b tail hpair ih =>
    intro fuel hf
    obtain ⟨n, rfl⟩ : ∃ n, fuel = n + 1 := ⟨fuel - 1, by omega⟩
    simp only [List.length_cons] at hf
    have htail := ih (fun c hc => hs c (by simp [hc])) n (by omega)
    rw [charsText_cons, charsText_cons, charText_surrogate (by omega), charText_surrogate (by omega)]
    refine (scanString_escape rfl (scanEscape_pair a b hpair.1 hpair.2 _)).trans ?_
    rw [htail]
    rfl
  | case4 a b tail hpair ih =>
    intro fuel hf
    obtain ⟨n, rfl⟩ : ∃ n, fuel = n + 1 := ⟨fuel - 1, by omega⟩
    simp only [List.length_cons] at hf
    have htail := ih (fun c hc => hs c (List.mem_cons_of_mem _ hc)) n (by simp; omega)
    rw [charsText_cons, scanString_single (hs a List.mem_cons_self), htail]
    · rfl
    · intro hhi
      rw [charsText_cons]
      exact noLow_charText (fun hlow => hpair ⟨hhi, hlow⟩) _

/-! ## Values -/

namespace Json

/-- Every string in the value, the keys included, consists of code points. -/
def isText (v : Json) : Bool := v.everyChar fun c => decide (c < 0x110000)

theorem isText_iff {s : PyStr} : (s.all fun c => decide (c < 0x110000)) = true ↔ IsText s := by
  simp [IsText]

mutual

/-- The value with the surrogates of its strings joined: what the decoder makes of its text. -/
def joined : Json → Json
  | .str s => .str (joinUnits s)
  | .arr xs => .arr (joinedItems xs)
  | .obj kvs => mkObj (joinedFields kvs)
  | .null => .null
  | .bool b => .bool b
  | .int z => .int z
  | .float x => .float x
termination_by structural v => v

def joinedItems : List Json → List Json
  | [] => []
  | x :: xs => joined x :: joinedItems xs
termination_by structural xs => xs

def joinedFields : List (PyStr × Json) → List (PyStr × Json)
  | [] => []
  | kv :: rest => joinedField kv :: joinedFields rest
termination_by structural kvs => kvs

def joinedField : PyStr × Json → PyStr × Json
  | (k, v) => (joinUnits k, joined v)
termination_by structural kv => kv

end

/-- Every value is read as its joined form; induction on the value. -/
theorem readsAs_joined (v : Json) : v.printable = true → v.isText = true →
    ReadsAs .default v v.joined := by
  induction v using Json.ind with
  | null => exact fun _ _ => readsBack blank_default .null .null rfl rfl
  | bool b => exact fun _ _ => readsBack blank_default (.bool b) (.bool b) rfl rfl
  | int z => exact fun hp _ => readsBack blank_default (.int z) (.int z) hp rfl
  | float x => exact fun _ _ => readsBack blank_default (.float x) (.float x) rfl rfl
  | str s =>
    intro _ ht rest fuel _ hf
    rw [text, strText] at hf ⊢
    simp only [List.length_cons, List.length_append, List.length_nil] at hf
    have htext : IsText s := isText_iff.1 ht
    have hlen := length_le_charsText true s
    obtain ⟨n, rfl⟩ : ∃ n, fuel = n + 1 := ⟨fuel - 1, by omega⟩
    have hcut : 34 :: (charsText true s ++ [34]) ++ rest = 34 :: (charsText true s ++ 34 :: rest) := by
      simp
    have hlen' : s.length < n := by
      simp only [Style.default] at hf
      omega
    rw [show Style.default.ascii = true from rfl, hcut, scanValue, if_pos rfl,
      scanString_joined htext rest n hlen']
    rfl
  | arr xs ih =>
    intro hp ht
    rw [printable, printableItems_iff] at hp
    rw [isText, everyChar, everyCharItems_iff] at ht
    refine readsAs_arr blank_default ?_
    induction xs with
    | nil => exact .nil
    | cons x xs ihxs =>
      obtain ⟨hx, hxs⟩ := List.forall_mem_cons.1 ih
      obtain ⟨hpx, hpxs⟩ := List.forall_mem_cons.1 hp
      obtain ⟨htx, htxs⟩ := List.forall_mem_cons.1 ht
      exact .cons (hx hpx htx) (ihxs hxs hpxs htxs)
  | obj kvs ih =>
    intro hp ht
    rw [printable, printableFields_iff] at hp
    rw [isText, everyChar, everyCharFields_iff] at ht
    refine readsAs_obj blank_default ?_
    induction kvs with
    | nil => exact .nil
    | cons kv kvs ihkvs =>
      obtain ⟨k, v⟩ := kv
      obtain ⟨hx, hxs⟩ := List.forall_mem_cons.1 ih
      obtain ⟨hpx, hpxs⟩ := List.forall_mem_cons.1 hp
      obtain ⟨htx, htxs⟩ := List.forall_mem_cons.1 ht
      refine .cons ⟨fun rest fuel hf => ?_, hx hpx htx.2⟩ (ihkvs hxs hpxs htxs)
      exact scanString_joined (isText_iff.1 htx.1) rest fuel hf

end Json

/-- **The text of any value is read**, with the surrogates of its strings joined. -/
theorem loads_joined {v : Json} (hp : v.printable = true) (ht : v.isText = true) :
    loads (v.text .default) = some v.joined := by
  obtain ⟨c, t, hct, hstart⟩ := text_head .default v
  simp only [startsValue, Bool.and_eq_true, Bool.not_eq_true'] at hstart
  have hscan := Json.readsAs_joined v hp ht [] (3 * (v.text .default).length + 3) numberEnd_nil
    (by omega)
  rw [List.append_nil] at hscan
  have hskip : skipWs (v.text .default) = v.text .default := by
    rw [hct, skipWs_cons hstart.1]
  rw [loads, hskip, hscan]
  rfl

end Py
