import Valops.Py.Json

/-!
# Comparison and sorting

`==`, `<`, `<=` and `in` on JSON values, and `sorted`. Booleans, integers and floats compare as numbers, exactly;
strings and lists compare lexicographically; any other `<` raises `TypeError`. `sorted` is stable
and, as the interpreter's is, built from `<` alone.
-/

set_option autoImplicit false

namespace Py

namespace Json

/-! ## Identity of values -/

mutual

/-- Whether two values are the same value (`1`, `1.0` and `True` are not). -/
def same : Json → Json → Bool
  | .null, w => match w with | .null => true | _ => false
  | .bool b, w => match w with | .bool c => b == c | _ => false
  | .int z, w => match w with | .int y => z == y | _ => false
  | .float x, w => match w with | .float y => decide (x = y) | _ => false
  | .str s, w => match w with | .str t => s == t | _ => false
  | .arr xs, w => match w with | .arr ys => sameItems xs ys | _ => false
  | .obj kvs, w => match w with | .obj kws => sameFields kvs kws | _ => false
termination_by structural v => v

def sameItems : List Json → List Json → Bool
  | [], ys => ys.isEmpty
  | x :: xs, ys => match ys with | y :: ys => same x y && sameItems xs ys | [] => false
termination_by structural xs => xs

def sameFields : List (PyStr × Json) → List (PyStr × Json) → Bool
  | [], kws => kws.isEmpty
  | kv :: kvs, kws =>
    match kws with | kw :: kws => sameField kv kw && sameFields kvs kws | [] => false
termination_by structural kvs => kvs

def sameField : PyStr × Json → PyStr × Json → Bool
  | (k, v), kw => k == kw.1 && same v kw.2
termination_by structural kv => kv

end

theorem same_iff (v : Json) : ∀ w, same v w = true ↔ v = w := by
  induction v using Json.ind with
  | null => intro w; cases w <;> simp [same]
  | bool b => intro w; cases w <;> simp [same]
  | int z => intro w; cases w <;> simp [same]
  | float x => intro w; cases w <;> simp [same]
  | str s => intro w; cases w <;> simp [same]
  | arr xs ih =>
    have items : ∀ ys, sameItems xs ys = true ↔ xs = ys := by
      induction xs with
      | nil => intro ys; cases ys <;> simp [sameItems]
      | cons x xs ihx =>
        obtain ⟨hx, hxs⟩ := List.forall_mem_cons.1 ih
        intro ys
        cases ys with
        | nil => simp [sameItems]
        | cons y ys => simp [sameItems, hx y, ihx hxs ys]
    intro w
    cases w <;> simp [same, items]
  | obj kvs ih =>
    have fields : ∀ kws, sameFields kvs kws = true ↔ kvs = kws := by
      induction kvs with
      | nil => intro kws; cases kws <;> simp [sameFields]
      | cons kv kvs ihk =>
        obtain ⟨hkv, hkvs⟩ := List.forall_mem_cons.1 ih
        intro kws
        cases kws with
        | nil => simp [sameFields]
        | cons kw kws =>
          obtain ⟨k, v⟩ := kv
          obtain ⟨k', v'⟩ := kw
          simp [sameFields, sameField, hkv v', ihk hkvs kws]
    intro w
    cases w <;> simp [same, fields]

instance : DecidableEq Json := fun v w => decidable_of_iff _ (same_iff v w)

/-! ## Python's comparisons -/

/-- A number, in units of the smallest positive float. -/
inductive Num where
  | nan
  | inf (neg : Bool)
  | fin (units : Int)
  deriving DecidableEq

/-- The number a value is, if it is one. -/
def num : Json → Option Num
  | .bool b => some (.fin ((if b then 1 else 0) * 2 ^ binary64.unit))
  | .int z => some (.fin (z * 2 ^ binary64.unit))
  | .float .nan => some .nan
  | .float (.num neg mag) =>
    if mag.val = binary64.top then some (.inf neg) else some (.fin (Double.signedUnits neg mag.val))
  | _ => none

/-- Equality of numbers; NaN equals nothing. -/
def Num.eq : Num → Num → Bool
  | .inf a, .inf b => a == b
  | .fin x, .fin y => x == y
  | _, _ => false

/-- Order of numbers. -/
def Num.lt : Num → Num → Bool
  | .fin x, .fin y => decide (x < y)
  | .inf a, .inf b => a && !b
  | .inf a, .fin _ => a
  | .fin _, .inf b => !b
  | _, _ => false

mutual

/-- `v == w`. -/
def pyEq : Json → Json → Bool
  | .null, w => match w with | .null => true | _ => false
  | .str s, w => w.eqStr s
  | .arr xs, w => match w with | .arr ys => eqItems xs ys | _ => false
  | .obj kvs, w => match w with | .obj kws => eqFields kvs kws | _ => false
  | .bool b, w => numEq (.bool b) w
  | .int z, w => numEq (.int z) w
  | .float x, w => numEq (.float x) w
termination_by structural v => v

def eqItems : List Json → List Json → Bool
  | [], ys => ys.isEmpty
  | x :: xs, ys => match ys with | y :: ys => pyEq x y && eqItems xs ys | [] => false
termination_by structural xs => xs

def eqFields : List (PyStr × Json) → List (PyStr × Json) → Bool
  | [], kws => kws.isEmpty
  | kv :: kvs, kws =>
    match kws with | kw :: kws => eqField kv kw && eqFields kvs kws | [] => false
termination_by structural kvs => kvs

def eqField : PyStr × Json → PyStr × Json → Bool
  | (k, v), kw => k == kw.1 && pyEq v kw.2
termination_by structural kv => kv

/-- Equality of two numbers. -/
def numEq (v w : Json) : Bool :=
  match v.num, w.num with
  | some a, some b => a.eq b
  | _, _ => false

end

mutual

/-- `v < w`; `none` is `TypeError`. -/
def pyLt : Json → Json → Option Bool
  | .str s, w => match w with | .str t => some (decide (s < t)) | _ => none
  | .arr xs, w => match w with | .arr ys => ltItems xs ys | _ => none
  | .bool b, w => numLt (.bool b) w
  | .int z, w => numLt (.int z) w
  | .float x, w => numLt (.float x) w
  | .null, _ => none
  | .obj _, _ => none
termination_by structural v => v

def ltItems : List Json → List Json → Option Bool
  | [], ys => some (!ys.isEmpty)
  | x :: xs, ys =>
    match ys with
    | y :: ys => if pyEq x y then ltItems xs ys else pyLt x y
    | [] => some false
termination_by structural xs => xs

/-- Order of two numbers. -/
def numLt (v w : Json) : Option Bool :=
  match v.num, w.num with
  | some a, some b => some (a.lt b)
  | _, _ => none

end

/-- `a <= b` on numbers. -/
def Num.le (a b : Num) : Bool := a.lt b || a.eq b

mutual

/-- `v <= w`; `none` is `TypeError`. -/
def pyLe : Json → Json → Option Bool
  | .str s, w => match w with | .str t => some (decide (s ≤ t)) | _ => none
  | .arr xs, w => match w with | .arr ys => leItems xs ys | _ => none
  | .bool b, w => numLe (.bool b) w
  | .int z, w => numLe (.int z) w
  | .float x, w => numLe (.float x) w
  | .null, _ => none
  | .obj _, _ => none
termination_by structural v => v

def leItems : List Json → List Json → Option Bool
  | [], _ => some true
  | x :: xs, ys =>
    match ys with
    | y :: ys => if pyEq x y then leItems xs ys else pyLe x y
    | [] => some false
termination_by structural xs => xs

def numLe (v w : Json) : Option Bool :=
  match v.num, w.num with
  | some a, some b => some (a.le b)
  | _, _ => none

end

/-- `v in w`: a part of a string, an item of a list or a key; `none` is `TypeError`. -/
def pyIn (v w : Json) : Option Bool :=
  match w with
  | .str t => match v with | .str s => some (decide (s <:+: t)) | _ => none
  | .arr ys => some (ys.any fun y => v.pyEq y)
  -- every key is a string, and a list or a dict cannot be looked up
  | .obj kvs => if v.hashable then some (kvs.any fun kv => v.eqStr kv.1) else none
  | _ => none

@[simp] theorem pyLt_int (a b : Int) : pyLt (.int a) (.int b) = some (decide (a < b)) := by
  have h : (a * 2 ^ binary64.unit < b * 2 ^ binary64.unit) ↔ a < b :=
    Int.mul_lt_mul_right (by positivity)
  simp only [pyLt, numLt, num, Num.lt, h]

/-! ### What equals a string, and what equals nothing -/

/-- Only a string equals a string. -/
theorem pyEq_str_iff {v : Json} {s : PyStr} : v.pyEq (.str s) = true ↔ v = .str s := by
  have hnum (w : Json) : w.numEq (.str s) = false := by
    unfold Json.numEq
    cases w.num <;> rfl
  cases v with
  | str t =>
    rw [pyEq, eqStr_iff]
    exact eq_comm
  | bool b =>
    rw [pyEq, hnum]
    exact ⟨nofun, nofun⟩
  | int z =>
    rw [pyEq, hnum]
    exact ⟨nofun, nofun⟩
  | float x =>
    rw [pyEq, hnum]
    exact ⟨nofun, nofun⟩
  | null => exact ⟨nofun, nofun⟩
  | arr xs => exact ⟨nofun, nofun⟩
  | obj kvs => exact ⟨nofun, nofun⟩

/-- Only `None` equals `None`. -/
theorem pyEq_null {v : Json} : v.pyEq .null = true ↔ v = .null := by
  have hnum (w : Json) : w.numEq .null = false := by
    unfold Json.numEq
    cases w.num <;> rfl
  cases v with
  | null => exact iff_of_true rfl rfl
  | str t => exact ⟨nofun, nofun⟩
  | bool b =>
    rw [pyEq, hnum]
    exact ⟨nofun, nofun⟩
  | int z =>
    rw [pyEq, hnum]
    exact ⟨nofun, nofun⟩
  | float x =>
    rw [pyEq, hnum]
    exact ⟨nofun, nofun⟩
  | arr xs => exact ⟨nofun, nofun⟩
  | obj kvs => exact ⟨nofun, nofun⟩

theorem null_pyEq {v : Json} : Json.null.pyEq v = true ↔ v = .null := by
  cases v with
  | null => exact iff_of_true rfl rfl
  | str t => exact ⟨nofun, nofun⟩
  | bool b => exact ⟨nofun, nofun⟩
  | int z => exact ⟨nofun, nofun⟩
  | float x => exact ⟨nofun, nofun⟩
  | arr xs => exact ⟨nofun, nofun⟩
  | obj kvs => exact ⟨nofun, nofun⟩

end Json

/-! ## Sorting -/

section Sorted

variable {α : Type} (lt : α → α → Option Bool)

/-- Insert behind everything that is not greater. -/
def insertSorted (x : α) : List α → Option (List α)
  | [] => some [x]
  | y :: ys =>
    match lt x y with
    | none => none
    | some true => some (x :: y :: ys)
    | some false => (insertSorted x ys).map (y :: ·)

/-- Insert one after the other. -/
def sortedFrom : List α → List α → Option (List α)
  | acc, [] => some acc
  | acc, x :: xs => (insertSorted lt x acc).bind fun acc => sortedFrom acc xs

/-- `sorted(xs, key=...)`, with `lt` the comparison of the keys; `none` is `TypeError`. -/
def sorted (xs : List α) : Option (List α) := sortedFrom lt [] xs

variable {lt}

theorem insertSorted_perm {x : α} : ∀ {ys zs : List α}, insertSorted lt x ys = some zs →
    zs.Perm (x :: ys)
  | [], zs, h => by
    cases h
    exact .refl _
  | y :: ys, zs, h => by
    rw [insertSorted] at h
    split at h
    · cases h
    · cases h
      exact .refl _
    · obtain ⟨ws, hws, rfl⟩ := Option.map_eq_some_iff.1 h
      exact ((insertSorted_perm hws).cons y).trans (.swap x y ys)

theorem sortedFrom_perm : ∀ {xs acc zs : List α}, sortedFrom lt acc xs = some zs →
    zs.Perm (xs ++ acc)
  | [], acc, zs, h => by
    cases h
    exact .refl _
  | x :: xs, acc, zs, h => by
    obtain ⟨ws, hws, hzs⟩ := Option.bind_eq_some_iff.1 h
    have h1 := sortedFrom_perm hzs
    have h2 : (xs ++ ws).Perm (xs ++ x :: acc) := (insertSorted_perm hws).append_left xs
    exact (h1.trans h2).trans List.perm_middle

/-- **Sorting rearranges.** -/
theorem sorted_perm {xs zs : List α} (h : sorted lt xs = some zs) : zs.Perm xs := by
  have hp := sortedFrom_perm h
  rwa [List.append_nil] at hp

theorem insertSorted_isSome {x : α} : ∀ {ys : List α}, (∀ y ∈ ys, (lt x y).isSome = true) →
    (insertSorted lt x ys).isSome = true
  | [], _ => rfl
  | y :: ys, h => by
    obtain ⟨hy, hys⟩ := List.forall_mem_cons.1 h
    rw [insertSorted]
    split
    · rename_i hn
      rw [hn] at hy
      cases hy
    · rfl
    · rw [Option.isSome_map]
      exact insertSorted_isSome hys

theorem sortedFrom_isSome : ∀ {xs acc : List α},
    (∀ x ∈ xs ++ acc, ∀ y ∈ xs ++ acc, (lt x y).isSome = true) →
    (sortedFrom lt acc xs).isSome = true
  | [], _, _ => rfl
  | x :: xs, acc, h => by
    have hx : ∀ y ∈ acc, (lt x y).isSome = true := fun y hy =>
      h x (List.mem_append_left _ List.mem_cons_self) y (List.mem_append_right _ hy)
    obtain ⟨ws, hws⟩ := Option.isSome_iff_exists.1 (insertSorted_isSome hx)
    rw [sortedFrom, hws, Option.bind_some]
    apply sortedFrom_isSome
    have hmem : ∀ y ∈ xs ++ ws, y ∈ x :: xs ++ acc := by
      intro y hy
      rcases List.mem_append.1 hy with hy | hy
      · exact List.mem_append_left _ (List.mem_cons_of_mem _ hy)
      · rcases List.mem_cons.1 ((insertSorted_perm hws).mem_iff.1 hy) with rfl | hy
        · exact List.mem_append_left _ List.mem_cons_self
        · exact List.mem_append_right _ hy
    exact fun y hy z hz => h y (hmem y hy) z (hmem z hz)

end Sorted

/-- Sorting succeeds when all the keys can be compared. -/
theorem sorted_isSome {α : Type} (lt : α → α → Option Bool) {xs : List α}
    (h : ∀ x ∈ xs, ∀ y ∈ xs, (lt x y).isSome = true) : (sorted lt xs).isSome = true := by
  apply sortedFrom_isSome
  rwa [List.append_nil]

end Py
