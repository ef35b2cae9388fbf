import Valops.Py.RoundTrip

/-!
# The canonical form of a value

`canonical` and `sha256_obj` on values whose objects hold their keys in any order, as a program builds
them; `sort_keys=True` puts every object's keys in order. A value that was read back holds them in order.

Main result: `canonical_faithful`, for values whose integers the interpreter prints.
-/

set_option autoImplicit false

namespace Valops.Common

open Py

/-! ## The order of keys -/

mutual

/-- The value with the keys of every object in order. -/
def sortKeys : Json → Json
  | .null => .null
  | .bool b => .bool b
  | .int z => .int z
  | .float x => .float x
  | .str s => .str s
  | .arr xs => .arr (sortItems xs)
  | .obj kvs => Json.mkObj (sortFields kvs)
termination_by structural v => v

def sortItems : List Json → List Json
  | [] => []
  | x :: xs => sortKeys x :: sortItems xs
termination_by structural xs => xs

def sortFields : List (PyStr × Json) → List (PyStr × Json)
  | [] => []
  | kv :: rest => sortField kv :: sortFields rest
termination_by structural kvs => kvs

def sortField : PyStr × Json → PyStr × Json
  | (k, v) => (k, sortKeys v)
termination_by structural kv => kv

end

mutual

/-- The keys of every object are distinct, as in a `dict`. -/
def distinctKeys : Json → Bool
  | .arr xs => distinctItems xs
  | .obj kvs => decide (kvs.map Prod.fst).Nodup && distinctFields kvs
  | .null => true
  | .bool _ => true
  | .int _ => true
  | .float _ => true
  | .str _ => true
termination_by structural v => v

def distinctItems : List Json → Bool
  | [] => true
  | x :: xs => distinctKeys x && distinctItems xs
termination_by structural xs => xs

def distinctFields : List (PyStr × Json) → Bool
  | [] => true
  | kv :: rest => distinctField kv && distinctFields rest
termination_by structural kvs => kvs

def distinctField : PyStr × Json → Bool
  | (_, v) => distinctKeys v
termination_by structural kv => kv

end

mutual

/-- The second value is the first one with the keys of its objects in another order. -/
inductive Reordered : Json → Json → Prop
  | same (v : Json) : Reordered v v
  | arr {xs ys : List Json} (h : ReorderedItems xs ys) : Reordered (.arr xs) (.arr ys)
  | obj {kvs kxs kys : Fields} (h : ReorderedFields kvs kxs) (hp : kxs.Perm kys) :
      Reordered (.obj kvs) (.obj kys)

inductive ReorderedItems : List Json → List Json → Prop
  | nil : ReorderedItems [] []
  | cons {x y : Json} {xs ys : List Json} (h : Reordered x y) (hs : ReorderedItems xs ys) :
      ReorderedItems (x :: xs) (y :: ys)

inductive ReorderedFields : Fields → Fields → Prop
  | nil : ReorderedFields [] []
  | cons {k : PyStr} {v w : Json} {kvs kws : Fields} (h : Reordered v w) (hs : ReorderedFields kvs kws) :
      ReorderedFields ((k, v) :: kvs) ((k, w) :: kws)

end

/-- The two values are one value up to the order of keys. -/
def SameValue (v w : Json) : Prop := ∃ u, Reordered v u ∧ Reordered w u

/-! ## The canonical form -/

/-- `canonical`. -/
def canonical (obj : Json) : Option Bytes := Py.canonical (sortKeys obj)

/-- `sha256_obj`; `sha256_hex` is a parameter. -/
def sha256_obj (sha256_hex : Bytes → PyStr) (obj : Json) : Option PyStr := (canonical obj).map sha256_hex

/-- What the canonical form of a value is good for. -/
structure Faithful (v : Json) (b : Bytes) : Prop where
  one_line : (10 : UInt8) ∉ b
  parsed : ∃ u, loadsBytes b = some u ∧ Reordered v u ∧ canonical u = some b
  /-- As a line of a file it is read back with the same hash. -/
  reread : ∃ u, loadsBytes (b ++ [10]) = some u ∧ Reordered v u ∧
    ∀ sha256_hex, sha256_obj sha256_hex u = sha256_obj sha256_hex v
  injective : ∀ w, distinctKeys w = true → canonical w = some b → SameValue v w

section Sorting

variable {v w : Json} {b : Bytes} {kvs kws : Fields} {xs : List Json}

theorem mem_sortItems {y : Json} : y ∈ sortItems xs ↔ ∃ x ∈ xs, sortKeys x = y := by
  induction xs with
  | nil => simp [sortItems]
  | cons x xs ih => simp [sortItems, ih, eq_comm]

theorem mem_sortFields {kw : PyStr × Json} :
    kw ∈ sortFields kvs ↔ ∃ kv ∈ kvs, (kv.1, sortKeys kv.2) = kw := by
  induction kvs with
  | nil => simp [sortFields]
  | cons kv rest ih =>
    obtain ⟨k, v⟩ := kv
    simp [sortFields, sortField, ih, eq_comm]

theorem keys_sortFields (kvs : Fields) : (sortFields kvs).map Prod.fst = kvs.map Prod.fst := by
  induction kvs with
  | nil => rfl
  | cons kv rest ih =>
    obtain ⟨k, v⟩ := kv
    rw [sortFields, List.map_cons, List.map_cons, ih, sortField]

theorem distinctItems_iff : distinctItems xs = true ↔ ∀ x ∈ xs, distinctKeys x = true := by
  induction xs with
  | nil => simp [distinctItems]
  | cons x xs ih => simp [distinctItems, ih]

theorem distinctFields_iff : distinctFields kvs = true ↔ ∀ kv ∈ kvs, distinctKeys kv.2 = true := by
  induction kvs with
  | nil => simp [distinctFields]
  | cons kv rest ih =>
    obtain ⟨k, v⟩ := kv
    simp [distinctFields, distinctField, ih]

theorem sortKeys_wf (v : Json) : (sortKeys v).WF := by
  induction v using Json.ind with
  | null => exact .null
  | bool b => exact .bool b
  | int z => exact .int z
  | float x => exact .float x
  | str s => exact .str s
  | arr xs ih =>
    rw [sortKeys]
    refine .arr fun y hy => ?_
    obtain ⟨x, hx, rfl⟩ := mem_sortItems.1 hy
    exact ih x hx
  | obj kvs ih =>
    rw [sortKeys]
    refine Json.wf_mkObj fun kw hkw => ?_
    obtain ⟨kv, hkv, rfl⟩ := mem_sortFields.1 hkw
    exact ih kv hkv

/-- A value that holds its keys in order is left as it is. -/
theorem sortKeys_of_wf (h : v.WF) : sortKeys v = v := by
  induction v using Json.ind with
  | null => rfl
  | bool b => rfl
  | int z => rfl
  | float x => rfl
  | str s => rfl
  | arr xs ih =>
    have hitems : ∀ ys : List Json, (∀ y ∈ ys, sortKeys y = y) → sortItems ys = ys := by
      intro ys hys
      induction ys with
      | nil => rfl
      | cons y ys ihy =>
        obtain ⟨hy, hrest⟩ := List.forall_mem_cons.1 hys
        rw [sortItems, hy, ihy hrest]
    rw [sortKeys, hitems xs fun x hx => ih x hx (Json.wf_arr_iff.1 h x hx)]
  | obj kvs ih =>
    obtain ⟨hsorted, hvalues⟩ := Json.wf_obj_iff.1 h
    have hfields : ∀ kws : Fields, (∀ kw ∈ kws, sortKeys kw.2 = kw.2) → sortFields kws = kws := by
      intro kws hkws
      induction kws with
      | nil => rfl
      | cons kw rest ihk =>
        obtain ⟨k, w⟩ := kw
        obtain ⟨hw, hrest⟩ := List.forall_mem_cons.1 hkws
        rw [sortFields, sortField, hw, ihk hrest]
    rw [sortKeys, hfields kvs fun kv hkv => ih kv hkv (hvalues kv hkv), Json.mkObj, Json.mkFields_sorted hsorted]

theorem canonical_of_wf (h : v.WF) : canonical v = Py.canonical v := by
  rw [canonical, sortKeys_of_wf h]

theorem scalar_sortKeys (h : v.scalar = true) : (sortKeys v).scalar = true := by
  induction v using Json.ind with
  | null => rfl
  | bool b => rfl
  | int z => rfl
  | float x => rfl
  | str s => exact h
  | arr xs ih =>
    rw [Json.scalar, Json.scalarItems_iff] at h
    rw [sortKeys, Json.scalar, Json.scalarItems_iff]
    intro y hy
    obtain ⟨x, hx, rfl⟩ := mem_sortItems.1 hy
    exact ih x hx (h x hx)
  | obj kvs ih =>
    rw [Json.scalar, Json.scalarFields_iff] at h
    rw [sortKeys, Json.mkObj, Json.scalar, Json.scalarFields_iff]
    intro kw hkw
    obtain ⟨kv, hkv, rfl⟩ := mem_sortFields.1 (Json.mem_mkFields hkw)
    exact ⟨(h kv hkv).1, ih kv hkv (h kv hkv).2⟩

theorem printable_sortKeys (h : v.printable = true) : (sortKeys v).printable = true := by
  induction v using Json.ind with
  | null => rfl
  | bool b => rfl
  | int z => exact h
  | float x => rfl
  | str s => rfl
  | arr xs ih =>
    rw [Json.printable, Json.printableItems_iff] at h
    rw [sortKeys, Json.printable, Json.printableItems_iff]
    intro y hy
    obtain ⟨x, hx, rfl⟩ := mem_sortItems.1 hy
    exact ih x hx (h x hx)
  | obj kvs ih =>
    rw [Json.printable, Json.printableFields_iff] at h
    rw [sortKeys, Json.mkObj, Json.printable, Json.printableFields_iff]
    intro kw hkw
    obtain ⟨kv, hkv, rfl⟩ := mem_sortFields.1 (Json.mem_mkFields hkw)
    exact ih kv hkv (h kv hkv)

/-- A new key is put in its place, and nothing else changes. -/
theorem insertField_perm {k : PyStr} (h : k ∉ kvs.map Prod.fst) :
    (Json.insertField k v kvs).Perm ((k, v) :: kvs) := by
  induction kvs with
  | nil => exact .refl _
  | cons kv rest ih =>
    obtain ⟨k', v'⟩ := kv
    rw [List.map_cons, List.mem_cons, not_or] at h
    unfold Json.insertField
    split
    · rename_i heq
      exact absurd heq h.1
    split
    · exact .refl _
    · exact ((ih h.2).cons _).trans (.swap _ _ _)

/-- Distinct keys are only put in order. -/
theorem mkFields_perm (h : (kvs.map Prod.fst).Nodup) : (Json.mkFields kvs).Perm kvs := by
  have hfold : ∀ (kvs acc : Fields), ((acc ++ kvs).map Prod.fst).Nodup →
      (kvs.foldl (fun acc kv => Json.insertField kv.1 kv.2 acc) acc).Perm (acc ++ kvs) := by
    intro kvs
    induction kvs with
    | nil =>
      intro acc _
      rw [List.append_nil]
      exact .refl _
    | cons kv rest ih =>
      obtain ⟨k, v⟩ := kv
      intro acc hacc
      have hmoved : (acc ++ (k, v) :: rest).Perm ((k, v) :: acc ++ rest) := List.perm_middle
      have hnodup := (hmoved.map Prod.fst).nodup_iff.1 hacc
      rw [List.cons_append, List.map_cons, List.nodup_cons, List.map_append, List.mem_append, not_or] at hnodup
      have hins := insertField_perm (v := v) hnodup.1.1
      have hacc' : ((Json.insertField k v acc ++ rest).map Prod.fst).Nodup :=
        (((hins.append_right rest).trans hmoved.symm).map Prod.fst).nodup_iff.2 hacc
      exact ((ih _ hacc').trans (hins.append_right rest)).trans hmoved.symm
  exact hfold kvs [] h

/-- **The sorted value is the value, up to the order of keys.** -/
theorem reordered_sortKeys (h : distinctKeys v = true) : Reordered v (sortKeys v) := by
  induction v using Json.ind with
  | null => exact .same _
  | bool b => exact .same _
  | int z => exact .same _
  | float x => exact .same _
  | str s => exact .same _
  | arr xs ih =>
    rw [distinctKeys, distinctItems_iff] at h
    have hitems : ∀ ys : List Json, (∀ y ∈ ys, Reordered y (sortKeys y)) → ReorderedItems ys (sortItems ys) := by
      intro ys hys
      induction ys with
      | nil => exact .nil
      | cons y ys ihy =>
        obtain ⟨hy, hrest⟩ := List.forall_mem_cons.1 hys
        exact .cons hy (ihy hrest)
    exact .arr (hitems xs fun x hx => ih x hx (h x hx))
  | obj kvs ih =>
    rw [distinctKeys, Bool.and_eq_true, decide_eq_true_eq, distinctFields_iff] at h
    have hfields : ∀ kws : Fields, (∀ kw ∈ kws, Reordered kw.2 (sortKeys kw.2)) →
        ReorderedFields kws (sortFields kws) := by
      intro kws hkws
      induction kws with
      | nil => exact .nil
      | cons kw rest ihk =>
        obtain ⟨k, w⟩ := kw
        obtain ⟨hw, hrest⟩ := List.forall_mem_cons.1 hkws
        exact .cons hw (ihk hrest)
    refine .obj (hfields kvs fun kv hkv => ih kv hkv (h.2 kv hkv)) (mkFields_perm ?_).symm
    rw [keys_sortFields]
    exact h.1

/-! ## The round trip -/

/-- **Canonical forms**: one line, parsed back, stable and injective, for every value whose integers are
short enough to print. -/
theorem canonical_faithful (hkeys : distinctKeys v = true) (htext : v.scalar = true)
    (hdigits : v.printable = true) : ∃ b, canonical v = some b ∧ Faithful v b := by
  obtain ⟨b, hb⟩ := Option.isSome_iff_exists.1
    (canonical_isSome (printable_sortKeys hdigits) (scalar_sortKeys htext))
  have hwf := sortKeys_wf v
  have hsame := reordered_sortKeys hkeys
  have hagain : canonical (sortKeys v) = some b := by rw [canonical_of_wf hwf, hb]
  have hparsed := loadsBytes_canonical hwf hb (Or.inl rfl)
  rw [List.append_nil] at hparsed
  refine ⟨b, hb, newline_not_mem_canonical hb, ⟨_, hparsed, hsame, hagain⟩,
    ⟨_, loadsBytes_canonical hwf hb (Or.inr rfl), hsame, fun sha256_hex => ?_⟩, fun w hw hwb => ?_⟩
  · rw [sha256_obj, sha256_obj, hagain, canonical, hb]
  · have heq : sortKeys v = sortKeys w := canonical_injective hwf (sortKeys_wf w) hb hwb
    exact ⟨_, hsame, heq ▸ reordered_sortKeys hw⟩

/-- A value with its keys out of order. -/
def unsortedValue : Json := .obj [(py "b", .arr [.int 1, .null]), (py "a", .float .zero)]

theorem canonical_faithful_sample : ∃ b, canonical unsortedValue = some b ∧ Faithful unsortedValue b :=
  canonical_faithful (by decide) (by decide) (by decide +kernel)

/-- A number has enough digits. -/
theorem lt_pow_natTextLoop : ∀ {fuel n : Nat}, n < fuel → n < 10 ^ (natTextLoop fuel n).length
  | 0, _, h => absurd h (Nat.not_lt_zero _)
  | fuel + 1, n, h => by
    rw [natTextLoop]
    split
    · rename_i hn
      exact hn
    · have ih : n / 10 < 10 ^ (natTextLoop fuel (n / 10)).length := lt_pow_natTextLoop (by omega)
      rw [List.length_append, List.length_singleton, Nat.pow_succ]
      omega

theorem lt_of_printable_pow {n : Nat} (h : (Json.int (10 ^ n : Nat)).printable = true) :
    n < maxIntDigits := by
  rw [Json.printable, decide_eq_true_eq, Int.natAbs_natCast] at h
  have hmany : 10 ^ n < 10 ^ (natText (10 ^ n)).length := lt_pow_natTextLoop (Nat.lt_succ_self _)
  exact lt_of_lt_of_le ((Nat.pow_lt_pow_iff_right (by decide)).1 hmany) h

/-- **The interpreter prints no integer of more than 4300 digits**: `canonical` raises. -/
theorem long_integer_not_canonical : ∃ v, distinctKeys v = true ∧ v.scalar = true ∧
    ¬ ∃ b, canonical v = some b ∧ Faithful v b := by
  refine ⟨.int (10 ^ maxIntDigits : Nat), rfl, rfl, fun ⟨b, hb, _⟩ => ?_⟩
  exact absurd (lt_of_printable_pow (scalar_of_canonical hb).1) (lt_irrefl _)

end Sorting

end Valops.Common
