import Valops.Py.Double

/-!
# JSON values

The values `json.loads` produces. An object is a Python `dict`; equality of dicts does not see the
order of the keys, so an object is kept with its keys strictly increasing and has one
representation. `Json.WF` says that every object in a value is kept that way. `Json.mkObj` builds
an object from fields in any order, later ones overriding earlier ones, as a dict display or the
parser does.
-/

set_option autoImplicit false

namespace Py

/-- A JSON value as Python holds it. -/
inductive Json where
  | null
  | bool (b : Bool)
  | int (z : Int)
  | float (x : Double)
  | str (s : PyStr)
  | arr (xs : List Json)
  | obj (kvs : List (PyStr × Json))

/-- The fields of an object. -/
abbrev Fields := List (PyStr × Json)

namespace Json

/-- Structural induction, with the hypotheses for arrays and objects stated over members. -/
theorem ind {P : Json → Prop} (null : P .null) (bool : ∀ b, P (.bool b)) (int : ∀ z, P (.int z))
    (float : ∀ x, P (.float x)) (str : ∀ s, P (.str s))
    (arr : ∀ xs, (∀ x ∈ xs, P x) → P (.arr xs))
    (obj : ∀ kvs, (∀ kv ∈ kvs, P kv.2) → P (.obj kvs)) (v : Json) : P v :=
  @Json.rec P (fun xs => ∀ x ∈ xs, P x) (fun kvs => ∀ kv ∈ kvs, P kv.2) (fun kv => P kv.2)
    null bool int float str arr obj
    (fun _ h => absurd h List.not_mem_nil)
    (fun _ _ hx hxs => List.forall_mem_cons.2 ⟨hx, hxs⟩)
    (fun _ h => absurd h List.not_mem_nil)
    (fun _ _ hkv hkvs => List.forall_mem_cons.2 ⟨hkv, hkvs⟩)
    (fun _ _ hv => hv) v

/-! ## Objects -/

/-- `d.get(k)` on the fields of an object. -/
def lookup (k : PyStr) : Fields → Option Json
  | [] => none
  | (k', v) :: rest => if k = k' then some v else lookup k rest

/-- `d[k] = v`. -/
def insertField (k : PyStr) (v : Json) : Fields → Fields
  | [] => [(k, v)]
  | (k', v') :: rest =>
    if k = k' then (k, v) :: rest
    else if k < k' then (k, v) :: (k', v') :: rest
    else (k', v') :: insertField k v rest

/-- The object with these fields; a repeated key keeps its last value. -/
def mkFields (kvs : Fields) : Fields := kvs.foldl (fun acc kv => insertField kv.1 kv.2 acc) []

/-- A dict display. -/
def mkObj (kvs : Fields) : Json := .obj (mkFields kvs)

/-- Keys strictly increasing. -/
def SortedKeys (kvs : Fields) : Prop := (kvs.map Prod.fst).Pairwise (· < ·)

instance (kvs : Fields) : Decidable (SortedKeys kvs) :=
  inferInstanceAs (Decidable (List.Pairwise _ _))

/-- Every object in the value has its keys in strictly increasing order. -/
inductive WF : Json → Prop
  | null : WF .null
  | bool (b : Bool) : WF (.bool b)
  | int (z : Int) : WF (.int z)
  | float (x : Double) : WF (.float x)
  | str (s : PyStr) : WF (.str s)
  | arr {xs : List Json} : (∀ x ∈ xs, WF x) → WF (.arr xs)
  | obj {kvs : Fields} : SortedKeys kvs → (∀ kv ∈ kvs, WF kv.2) → WF (.obj kvs)

attribute [simp] WF.null WF.bool WF.int WF.float WF.str

theorem wf_arr_iff {xs : List Json} : WF (.arr xs) ↔ ∀ x ∈ xs, WF x :=
  ⟨fun h => by cases h; assumption, .arr⟩

theorem wf_obj_iff {kvs : Fields} : WF (.obj kvs) ↔ SortedKeys kvs ∧ ∀ kv ∈ kvs, WF kv.2 :=
  ⟨fun h => by cases h; constructor <;> assumption, fun h => .obj h.1 h.2⟩

theorem lookup_mem {k : PyStr} {v : Json} : ∀ {kvs : Fields}, lookup k kvs = some v → (k, v) ∈ kvs
  | [], h => by simp [lookup] at h
  | (k', v') :: rest, h => by
    unfold lookup at h
    split at h
    · rename_i hk
      cases h
      simp [hk]
    · exact List.mem_cons_of_mem _ (lookup_mem h)

theorem wf_lookup {k : PyStr} {v : Json} {kvs : Fields} (h : WF (.obj kvs))
    (hl : lookup k kvs = some v) : WF v :=
  (wf_obj_iff.1 h).2 _ (lookup_mem hl)

theorem mem_insertField {k : PyStr} {v : Json} {kv : PyStr × Json} :
    ∀ {kvs : Fields}, kv ∈ insertField k v kvs → kv = (k, v) ∨ kv ∈ kvs
  | [], h => by simpa [insertField] using h
  | (k', v') :: rest, h => by
    unfold insertField at h
    split at h
    · rcases List.mem_cons.1 h with rfl | h
      · exact .inl rfl
      · exact .inr (List.mem_cons_of_mem _ h)
    split at h
    · exact List.mem_cons.1 h
    · rcases List.mem_cons.1 h with rfl | h
      · exact .inr List.mem_cons_self
      · rcases mem_insertField h with h | h
        · exact .inl h
        · exact .inr (List.mem_cons_of_mem _ h)

theorem sortedKeys_cons {k : PyStr} {v : Json} {rest : Fields} :
    SortedKeys ((k, v) :: rest) ↔ (∀ kv ∈ rest, k < kv.1) ∧ SortedKeys rest := by
  simp only [SortedKeys, List.map_cons, List.pairwise_cons, List.mem_map, forall_exists_index,
    and_imp, forall_apply_eq_imp_iff₂]

theorem sortedKeys_insertField {k : PyStr} {v : Json} :
    ∀ {kvs : Fields}, SortedKeys kvs → SortedKeys (insertField k v kvs)
  | [], _ => by simp [insertField, SortedKeys]
  | (k', v') :: rest, h => by
    obtain ⟨hlt, hrest⟩ := sortedKeys_cons.1 h
    unfold insertField
    split
    · rename_i hk
      subst hk
      exact sortedKeys_cons.2 ⟨hlt, hrest⟩
    split
    · rename_i hk
      refine sortedKeys_cons.2 ⟨?_, h⟩
      intro kv hkv
      rcases List.mem_cons.1 hkv with rfl | hkv
      · exact hk
      · exact lt_trans hk (hlt kv hkv)
    · rename_i hne hge
      refine sortedKeys_cons.2 ⟨?_, sortedKeys_insertField hrest⟩
      intro kv hkv
      rcases mem_insertField hkv with rfl | hkv
      · exact lt_of_le_of_ne (not_lt.1 hge) (Ne.symm hne)
      · exact hlt kv hkv

theorem foldl_insertField_wf (kvs : Fields) : ∀ acc : Fields, WF (.obj acc) →
    (∀ kv ∈ kvs, WF kv.2) →
    WF (.obj (kvs.foldl (fun acc kv => insertField kv.1 kv.2 acc) acc)) := by
  induction kvs with
  | nil => exact fun acc h _ => h
  | cons kv rest ih =>
    intro acc hacc hkvs
    refine ih _ ?_ fun x hx => hkvs x (List.mem_cons_of_mem _ hx)
    obtain ⟨hs, hv⟩ := wf_obj_iff.1 hacc
    refine .obj (sortedKeys_insertField hs) ?_
    intro x hx
    rcases mem_insertField hx with rfl | hx
    · exact hkvs kv List.mem_cons_self
    · exact hv x hx

/-- A dict display of well-formed values is well-formed. -/
theorem wf_mkObj {kvs : Fields} (h : ∀ kv ∈ kvs, WF kv.2) : WF (mkObj kvs) :=
  foldl_insertField_wf kvs [] (.obj List.Pairwise.nil fun _ hx => absurd hx List.not_mem_nil) h

theorem insertField_append {k : PyStr} {v : Json} :
    ∀ {kvs : Fields}, (∀ kv ∈ kvs, kv.1 < k) → insertField k v kvs = kvs ++ [(k, v)]
  | [], _ => rfl
  | (k', v') :: rest, h => by
    have hlt : k' < k := h (k', v') List.mem_cons_self
    unfold insertField
    rw [if_neg (ne_of_gt hlt), if_neg (not_lt.2 hlt.le),
      insertField_append fun kv hkv => h kv (List.mem_cons_of_mem _ hkv)]
    rfl

theorem foldl_insertField_sorted (kvs : Fields) : ∀ acc : Fields, SortedKeys (acc ++ kvs) →
    kvs.foldl (fun acc kv => insertField kv.1 kv.2 acc) acc = acc ++ kvs := by
  induction kvs with
  | nil => intro acc _; simp
  | cons kv rest ih =>
    intro acc h
    have hlt : ∀ x ∈ acc, x.1 < kv.1 := by
      intro x hx
      simp only [SortedKeys, List.map_append, List.pairwise_append] at h
      exact h.2.2 _ (List.mem_map_of_mem hx) _ (by simp)
    rw [List.foldl_cons, insertField_append hlt, ih]
    · simp
    · simpa using h

theorem lookup_insertField_self (k : PyStr) (v : Json) (kvs : Fields) :
    lookup k (insertField k v kvs) = some v := by
  induction kvs with
  | nil => simp [insertField, lookup]
  | cons kv rest ih =>
    obtain ⟨k', v'⟩ := kv
    unfold insertField
    split
    · simp [lookup]
    · rename_i hne
      split
      · simp [lookup]
      · rw [lookup, if_neg hne, ih]

theorem lookup_insertField_of_ne {k k' : PyStr} (h : k ≠ k') (v : Json) (kvs : Fields) :
    lookup k (insertField k' v kvs) = lookup k kvs := by
  induction kvs with
  | nil => simp [insertField, lookup, h]
  | cons kv rest ih =>
    obtain ⟨k'', v''⟩ := kv
    unfold insertField
    split
    · rename_i heq
      subst heq
      rw [lookup, lookup, if_neg h, if_neg h]
    · split
      · rw [lookup, if_neg h]
      · rw [lookup, lookup, ih]

/-- A field that no later one has the key of keeps its value. -/
theorem lookup_mkFields {k : PyStr} {v : Json} {front back : Fields}
    (h : ∀ kv ∈ back, kv.1 ≠ k) : lookup k (mkFields (front ++ (k, v) :: back)) = some v := by
  have hback : ∀ (back acc : Fields), (∀ kv ∈ back, kv.1 ≠ k) →
      lookup k (back.foldl (fun acc kv => insertField kv.1 kv.2 acc) acc) = lookup k acc := by
    intro back
    induction back with
    | nil => exact fun _ _ => rfl
    | cons kv back ih =>
      intro acc h
      rw [List.foldl_cons, ih _ fun kv hkv => h kv (List.mem_cons_of_mem _ hkv)]
      exact lookup_insertField_of_ne (h kv List.mem_cons_self).symm _ _
  rw [mkFields, List.foldl_append, List.foldl_cons, hback _ _ h, lookup_insertField_self]

/-- A dict display has no other fields. -/
theorem mem_mkFields {kvs : Fields} {kv : PyStr × Json} (h : kv ∈ mkFields kvs) : kv ∈ kvs := by
  have hfold : ∀ (kvs acc : Fields), kv ∈ kvs.foldl (fun acc kv => insertField kv.1 kv.2 acc) acc →
      kv ∈ acc ∨ kv ∈ kvs := by
    intro kvs
    induction kvs with
    | nil => exact fun acc h => .inl h
    | cons x kvs ih =>
      intro acc h
      rcases ih _ h with h | h
      · rcases mem_insertField h with rfl | h
        · exact .inr List.mem_cons_self
        · exact .inl h
      · exact .inr (List.mem_cons_of_mem _ h)
  exact (hfold kvs [] h).resolve_left List.not_mem_nil

/-- Fields already in order are kept as they are. -/
theorem mkFields_sorted {kvs : Fields} (h : SortedKeys kvs) : mkFields kvs = kvs :=
  foldl_insertField_sorted kvs [] h

/-! ## Python's view of a value -/

/-- `bool(v)`. -/
def truthy : Json → Bool
  | .null => false
  | .bool b => b
  | .int z => decide (z ≠ 0)
  | .float x => !(x.eqInt 0)
  | .str s => !s.isEmpty
  | .arr xs => !xs.isEmpty
  | .obj kvs => !kvs.isEmpty

/-- `v == n` for an integer `n`; `True` is one and `False` is zero. -/
def eqInt : Json → Int → Bool
  | .bool b, n => decide ((if b then 1 else 0) = n)
  | .int z, n => decide (z = n)
  | .float x, n => x.eqInt n
  | _, _ => false

/-- `v == s` for a string `s`. -/
def eqStr : Json → PyStr → Bool
  | .str t, s => decide (t = s)
  | _, _ => false

/-- Values that may be dict keys or set members. -/
def hashable : Json → Bool
  | .arr _ => false
  | .obj _ => false
  | _ => true

/-- A non-empty string that is not blank: `isinstance(v, str) and bool(v.strip())`. -/
def nonempty : Json → Bool
  | .str s => !s.isBlank
  | _ => false

theorem eqStr_iff {v : Json} {s : PyStr} : v.eqStr s = true ↔ v = .str s := by
  cases v <;> simp [eqStr]

/-- A value equals at most one integer. -/
theorem eqInt_inj {v : Json} {m n : Int} (hm : v.eqInt m = true) (hn : v.eqInt n = true) : m = n := by
  cases v with
  | bool b => exact (of_decide_eq_true hm).symm.trans (of_decide_eq_true hn)
  | int z => exact (of_decide_eq_true hm).symm.trans (of_decide_eq_true hn)
  | float x =>
    cases x with
    | nan => cases hm
    | num neg mag =>
      have hm' := of_decide_eq_true (Bool.and_eq_true_iff.1 hm).2
      have hn' := of_decide_eq_true (Bool.and_eq_true_iff.1 hn).2
      exact mul_right_cancel₀ (pow_ne_zero _ two_ne_zero) (hm'.symm.trans hn')
  | _ => cases hm

theorem nonempty_iff {v : Json} : v.nonempty = true ↔ ∃ s : PyStr, v = .str s ∧ s.isBlank = false := by
  cases v <;> simp [nonempty]

end Json

end Py
