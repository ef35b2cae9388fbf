import Valops.Py.Surrogates
import Valops.Py.Lines

/-!
# Files of JSON lines

`json.dumps` with its defaults escapes everything beyond printable ASCII, so a text is one line for
`str.splitlines`, and a file of such lines is read back line by line. The decoder joins a high surrogate
with a low one that follows it: a value is read back as it was exactly when no string in it holds such a
pair (`unpaired`).

Main results: `splitlines_jsonLines` and `loads_default`.
-/

set_option autoImplicit false

namespace Py

/-! ## Strings without surrogate pairs -/

/-- A high surrogate, and a low one that follows it. -/
def Pair (a b : Nat) : Prop := (0xD800 ≤ a ∧ a < 0xDC00) ∧ (0xDC00 ≤ b ∧ b < 0xE000)

instance (a b : Nat) : Decidable (Pair a b) := inferInstanceAs (Decidable (_ ∧ _))

/-- No high surrogate stands directly before a low one. -/
def Unpaired (s : PyStr) : Prop := s.IsChain fun a b => ¬ Pair a b

instance (s : PyStr) : Decidable (Unpaired s) := inferInstanceAs (Decidable (s.IsChain _))

theorem joinUnits_length_le (s : PyStr) : (joinUnits s).length ≤ s.length := by
  fun_induction joinUnits s with
  | case1 => exact le_rfl
  | case2 a => exact le_rfl
  | case3 a b rest hpair ih =>
    simp only [List.length_cons]
    omega
  | case4 a b rest hpair ih =>
    simp only [List.length_cons] at ih ⊢
    omega

/-- **Which strings keep their length when they are joined**, and so stay as they are. -/
theorem joinUnits_eq_self_iff {s : PyStr} : joinUnits s = s ↔ Unpaired s := by
  fun_induction joinUnits s with
  | case1 => exact iff_of_true rfl .nil
  | case2 a => exact iff_of_true rfl (.singleton a)
  | case3 a b rest hpair ih =>
    refine iff_of_false (fun heq => ?_) fun h => ?_
    · have hlen := congrArg List.length heq
      have hle := joinUnits_length_le rest
      simp only [List.length_cons] at hlen
      omega
    · exact (List.isChain_cons_cons.1 h).1 hpair
  | case4 a b rest hpair ih =>
    rw [List.cons.injEq, ih]
    exact ⟨fun h => List.isChain_cons_cons.2 ⟨hpair, h.2⟩, fun h => ⟨rfl, (List.isChain_cons_cons.1 h).2⟩⟩

theorem unpaired_of_ascii {s : PyStr} (h : ∀ c ∈ s, c < 0xD800) : Unpaired s := by
  induction s with
  | nil => exact .nil
  | cons a s ih =>
    obtain ⟨ha, hs⟩ := List.forall_mem_cons.1 h
    cases s with
    | nil => exact .singleton a
    | cons b s => exact List.isChain_cons_cons.2 ⟨fun hp => absurd hp.1.1 (by omega), ih hs⟩

namespace Json

mutual

/-- No string in the value, the keys included, holds a surrogate pair. -/
def unpaired : Json → Bool
  | .str s => decide (Unpaired s)
  | .arr xs => unpairedItems xs
  | .obj kvs => unpairedFields kvs
  | .null => true
  | .bool _ => true
  | .int _ => true
  | .float _ => true
termination_by structural v => v

def unpairedItems : List Json → Bool
  | [] => true
  | x :: xs => unpaired x && unpairedItems xs
termination_by structural xs => xs

def unpairedFields : List (PyStr × Json) → Bool
  | [] => true
  | kv :: rest => unpairedField kv && unpairedFields rest
termination_by structural kvs => kvs

def unpairedField : PyStr × Json → Bool
  | (k, v) => decide (Unpaired k) && unpaired v
termination_by structural kv => kv

end

theorem unpairedItems_iff (xs : List Json) :
    unpairedItems xs = true ↔ ∀ x ∈ xs, unpaired x = true := by
  induction xs with
  | nil => simp [unpairedItems]
  | cons x xs ih => simp [unpairedItems, ih]

theorem unpairedFields_iff (kvs : Fields) :
    unpairedFields kvs = true ↔ ∀ kv ∈ kvs, Unpaired kv.1 ∧ unpaired kv.2 = true := by
  induction kvs with
  | nil => simp [unpairedFields]
  | cons kv rest ih =>
    obtain ⟨k, v⟩ := kv
    simp [unpairedFields, unpairedField, ih]

/-- A value without surrogate pairs is its own joined form; induction on the value. -/
theorem joined_of_unpaired {v : Json} (hwf : v.WF) (h : v.unpaired = true) : v.joined = v := by
  induction v using Json.ind with
  | null => rfl
  | bool b => rfl
  | int z => rfl
  | float x => rfl
  | str s =>
    rw [unpaired, decide_eq_true_eq] at h
    rw [joined, joinUnits_eq_self_iff.2 h]
  | arr xs ih =>
    rw [unpaired, unpairedItems_iff] at h
    rw [wf_arr_iff] at hwf
    have hitems : joinedItems xs = xs := by
      induction xs with
      | nil => rfl
      | cons x xs ihxs =>
        obtain ⟨hx, hxs⟩ := List.forall_mem_cons.1 ih
        obtain ⟨hpx, hpxs⟩ := List.forall_mem_cons.1 h
        obtain ⟨hwx, hwxs⟩ := List.forall_mem_cons.1 hwf
        rw [joinedItems, hx hwx hpx, ihxs hxs hwxs hpxs]
    rw [joined, hitems]
  | obj kvs ih =>
    rw [unpaired, unpairedFields_iff] at h
    obtain ⟨hsorted, hvalues⟩ := wf_obj_iff.1 hwf
    have hfields : joinedFields kvs = kvs := by
      clear hsorted hwf
      induction kvs with
      | nil => rfl
      | cons kv kvs ihkvs =>
        obtain ⟨k, v⟩ := kv
        obtain ⟨hx, hxs⟩ := List.forall_mem_cons.1 ih
        obtain ⟨hpx, hpxs⟩ := List.forall_mem_cons.1 h
        obtain ⟨hwx, hwxs⟩ := List.forall_mem_cons.1 hvalues
        rw [joinedFields, joinedField, joinUnits_eq_self_iff.2 hpx.1, hx hwx hpx.2, ihkvs hxs hpxs hwxs]
    rw [joined, hfields, mkObj, mkFields_sorted hsorted]

/-- **A value is read back**, if it can be written and holds no surrogate pair. -/
theorem loads_default {v : Json} (hwf : v.WF) (hp : v.printable = true) (ht : v.isText = true)
    (hu : v.unpaired = true) : loads (v.text .default) = some v := by
  rw [loads_joined hp ht, joined_of_unpaired hwf hu]

end Json

/-! ## Lines -/

/-- One value a line. -/
def jsonLines (vs : List Json) : PyStr := vs.flatMap fun v => v.text .default ++ [10]

theorem jsonLines_append (vs ws : List Json) : jsonLines (vs ++ ws) = jsonLines vs ++ jsonLines ws :=
  List.flatMap_append

theorem jsonLines_singleton (v : Json) : jsonLines [v] = v.text .default ++ [10] := by
  simp [jsonLines]

/-- The default text of a value is one line. -/
theorem text_default_line (v : Json) : ∀ c ∈ v.text .default, isLineBreak c = false := by
  have hlow : ∀ c ∈ v.text .default, 32 ≤ c := by
    refine text_of_literals (fun c h _ => h) (by decide) ?_ v
      (Json.everyChar_of_forall (fun _ => rfl) v)
    rintro s -
    refine List.forall_mem_cons.2 ⟨by decide, List.forall_mem_append.2 ⟨fun c hc => ?_, ?_⟩⟩
    · obtain ⟨d, _, hcd⟩ := List.mem_flatMap.1 hc
      rcases mem_charText hcd with ⟨h, _⟩ | ⟨rfl, h⟩
      · exact h
      · exact h
    · exact List.forall_mem_singleton.2 (by decide)
  intro c hc
  have hge := hlow c hc
  have hlt := text_default_ascii v c hc
  simp only [isLineBreak, List.contains_eq_mem, List.mem_cons, List.not_mem_nil, or_false,
    decide_eq_false_iff_not]
  omega

/-- **The lines of a file of JSON lines.** -/
theorem splitlines_jsonLines (vs : List Json) :
    splitlines (jsonLines vs) = vs.map fun v => v.text .default := by
  induction vs with
  | nil => rfl
  | cons v vs ih =>
    have hcut : jsonLines (v :: vs) = v.text .default ++ 10 :: jsonLines vs := by
      simp [jsonLines]
    rw [hcut, splitlines_line _ (text_default_line v) (by decide) (by decide), ih]
    rfl

end Py
