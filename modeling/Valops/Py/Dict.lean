import Mathlib.Data.List.Basic

/-!
# Dictionaries

A `dict` as the list of its items in insertion order. `d[k] = v` keeps the place, and the key, of
an entry that is there. Keys are compared with the `==` of their type, which for the keys of a
JSON-valued dict is Python's and not Lean's equality.

Main results: `get?_set_self`, `get?_set_of_ne`, `get?_erase_of_ne` and `get?_of_mem` for lawful
keys.
-/

set_option autoImplicit false

namespace Py

/-- A `dict`. -/
abbrev Dict (κ α : Type) := List (κ × α)

namespace Dict

variable {κ α : Type} [BEq κ]

/-- `d.get(k)`. -/
def get? : Dict κ α → κ → Option α
  | [], _ => none
  | (k', v) :: rest, k => if k' == k then some v else get? rest k

/-- `d[k] = v`. -/
def set : Dict κ α → κ → α → Dict κ α
  | [], k, v => [(k, v)]
  | (k', v') :: rest, k, v => if k' == k then (k', v) :: rest else (k', v') :: set rest k v

/-- `del d[k]`. -/
def erase : Dict κ α → κ → Dict κ α
  | [], _ => []
  | (k', v') :: rest, k => if k' == k then rest else (k', v') :: erase rest k

section Lawful

variable [LawfulBEq κ] {k k' : κ} {v : α}

@[simp] theorem get?_set_self (d : Dict κ α) : (d.set k v).get? k = some v := by
  induction d with
  | nil => simp [set, get?]
  | cons e rest ih =>
    unfold set
    split
    · rename_i he
      simp [get?, he]
    · rename_i he
      simp [get?, he, ih]

theorem get?_set_of_ne (d : Dict κ α) (h : k' ≠ k) : (d.set k v).get? k' = d.get? k' := by
  induction d with
  | nil => simp [set, get?, Ne.symm h]
  | cons e rest ih =>
    unfold set
    split
    · rename_i he
      have hk : e.1 = k := by simpa using he
      simp [get?, hk, Ne.symm h]
    · simp [get?, ih]

theorem get?_erase_of_ne (d : Dict κ α) (h : k' ≠ k) : (d.erase k).get? k' = d.get? k' := by
  induction d with
  | nil => rfl
  | cons e rest ih =>
    unfold erase
    split
    · rename_i he
      have hk : e.1 = k := by simpa using he
      simp [get?, hk, Ne.symm h]
    · simp [get?, ih]

/-- Deleting what was just added to a dict without it leaves the dict. -/
theorem erase_set_of_get?_none (d : Dict κ α) (h : d.get? k = none) : (d.set k v).erase k = d := by
  induction d with
  | nil => simp [set, erase]
  | cons e rest ih =>
    unfold get? at h
    split at h
    · cases h
    · rename_i he
      simp [set, erase, he, ih h]

theorem set_set (d : Dict κ α) (w : α) : (d.set k v).set k w = d.set k w := by
  induction d with
  | nil => simp [set]
  | cons e rest ih =>
    by_cases he : (e.1 == k) = true
    · simp [set, he]
    · simp [set, he, ih]

/-- The keys of a dict after an assignment. -/
theorem keys_set (d : Dict κ α) : (d.set k v).map Prod.fst =
    if k ∈ d.map Prod.fst then d.map Prod.fst else d.map Prod.fst ++ [k] := by
  induction d with
  | nil => simp [set]
  | cons e rest ih =>
    unfold set
    split
    · rename_i he
      have hk : e.1 = k := by simpa using he
      simp [hk]
    · rename_i he
      have hk : ¬ k = e.1 := fun h => he (by simp [h])
      rw [List.map_cons, ih]
      by_cases hmem : k ∈ rest.map Prod.fst
      · simp [hmem]
      · simp [hmem, hk]

theorem nodup_keys_set {d : Dict κ α} (h : (d.map Prod.fst).Nodup) :
    ((d.set k v).map Prod.fst).Nodup := by
  rw [keys_set]
  split
  · exact h
  · rename_i hk
    refine List.nodup_append.2 ⟨h, by simp, fun a ha b hb hab => ?_⟩
    exact hk (List.mem_singleton.1 hb ▸ hab ▸ ha)

theorem get?_of_mem {d : Dict κ α} (hd : (d.map Prod.fst).Nodup) (h : (k, v) ∈ d) :
    d.get? k = some v := by
  induction d with
  | nil => cases h
  | cons e rest ih =>
    rw [List.map_cons, List.nodup_cons] at hd
    unfold get?
    rcases List.mem_cons.1 h with rfl | h
    · simp
    · have hne : (e.1 == k) = false := by
        rw [beq_eq_false_iff_ne]
        rintro rfl
        exact hd.1 (List.mem_map.2 ⟨_, h, rfl⟩)
      rw [hne]
      exact ih hd.2 h

/-- The keys. -/
theorem get?_isSome_iff {d : Dict κ α} : (d.get? k).isSome = true ↔ k ∈ d.map Prod.fst := by
  induction d with
  | nil => simp [get?]
  | cons e rest ih =>
    by_cases he : e.1 = k
    · simp [get?, he]
    · simp [get?, he, ih, Ne.symm he]

theorem mem_of_get? {d : Dict κ α} (h : d.get? k = some v) : (k, v) ∈ d := by
  induction d with
  | nil => cases h
  | cons e rest ih =>
    unfold get? at h
    split at h
    · rename_i he
      cases h
      have hk : e.1 = k := by simpa using he
      subst hk
      exact List.mem_cons_self
    · exact List.mem_cons_of_mem _ (ih h)

end Lawful

end Dict

end Py
