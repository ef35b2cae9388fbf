import Valops.Bundle.Params

/-!
# Parameters and their bounds

The checker walks the bounds, the reader walks the value with the overrides of a configuration. So a
register that passes need not have what is read, and where bounds are stated key by key the overrides
are not walked at all.

Main result: `params_in_bounds`, for which registers everything that is read is a number in its bounds.
Control: `override_out_of_bounds`.
-/

set_option autoImplicit false

namespace Valops.Register

open Py

/-! ## What a register promises -/

/-- The row of a parameter. -/
def rowOf (register : Json) (pid : PyStr) : Option Json :=
  match register with
  | .obj kvs =>
    match Json.lookup (py "parameters") kvs with
    | some (.obj rows) => Json.lookup pid rows
    | _ => none
  | _ => none

/-- The bounds of a parameter, if it has any. -/
def boundsOf (register : Json) (pid : PyStr) : Option Json :=
  match rowOf register pid with
  | some (.obj row) => (Json.lookup (py "bounds") row).filter fun b => decide (b ≠ .null)
  | _ => none

/-- The bounds that are stated for a place: the first mapping with `min`, `max` or `eq` on the way to
it. -/
def boundsAt : Json → List PyStr → Option Fields
  | .obj bounds, path =>
    if isLeaf bounds then some bounds
    else
      match path with
      | [] => none
      | k :: rest => (Json.lookup k bounds).bind fun b => boundsAt b rest
  | _, _ => none
termination_by _ path => path

/-- `a ≤ b` as numbers. -/
def Le (a b : Json) : Prop := ∃ m n, a.num = some m ∧ b.num = some n ∧ (m.lt n || m.eq n) = true

/-- A value lies within stated bounds. -/
structure Within (bounds : Fields) (v : Json) : Prop where
  min : ∀ b, Json.lookup (py "min") bounds = some b → Le b v
  max : ∀ b, Json.lookup (py "max") bounds = some b → Le v b
  eq : ∀ b, Json.lookup (py "eq") bounds = some b → v.pyEq b = true

/-- A number within the bounds that are stated for a place. -/
def NumberWithin (bounds : Json) (path : List PyStr) (v : Json) : Prop :=
  isNumeric v = true ∧ ∀ leaf, boundsAt bounds path = some leaf → Within leaf v

/-- What is read at a place of the generated thresholds is a number within the bounds that are stated
for it. -/
def InBounds (generated bounds : Json) (p : Place) (configuration : Option PyStr) : Prop :=
  ∃ thresholds v, index generated "parameters" = .ok thresholds ∧
    p.read thresholds configuration = .ok v ∧ NumberWithin bounds p.path v

/-! ## When it keeps the promise -/

/-- Neither the value nor a bound it is compared with is NaN. -/
def Ordered (bounds : Fields) (v : Json) : Prop :=
  ∀ b, Json.lookup (py "min") bounds = some b ∨ Json.lookup (py "max") bounds = some b →
    v.num ≠ some .nan ∧ b.num ≠ some .nan

/-- Whether `min`, `max` or `eq` are stated for the parameter as a whole, so that the checker walks
everything in its value, overrides included. -/
def wholly (bounds : Json) : Bool :=
  match bounds with
  | .obj kvs => isLeaf kvs
  | _ => false

/-- A number that can be compared with the bounds that are stated for a place. -/
def NumberOrdered (bounds : Json) (path : List PyStr) (v : Json) : Prop :=
  isNumeric v = true ∧ ∀ leaf, boundsAt bounds path = some leaf → Ordered leaf v

/-- The overrides below `by_configuration` are mappings, and where they have the key that is read, what
is read under it is good. -/
def Overrides (good : Json → Prop) (by_configuration : Json) (key : PyStr) (rest : List PyStr) : Prop :=
  match orEmpty by_configuration with
  | .obj kvs => ∀ name o, name ≠ [] → Json.lookup name kvs = some o →
      ∃ overrides, o = .obj overrides ∧ ∀ w, Json.lookup key overrides = some w →
        ∃ v, rest.foldlM subscript w = .ok v ∧ good v
  | .arr xs => ∀ name, name ≠ [] → .str name ∉ xs
  | _ => False

/-- The overrides of a value, if it is a mapping and a key is read. -/
def Overridden (good : Json → Prop) (value : Json) (path : List PyStr) : Prop :=
  ∀ kvs key rest, value = .obj kvs → path = key :: rest →
    Overrides good ((Json.lookup (py "by_configuration") kvs).getD .null) key rest

/-- The row of a parameter has what is read at a place: it is bundled, its value has a number there,
and so have its overrides, within the bounds where the checker does not look. -/
structure Provides (row bounds : Json) (path : List PyStr) : Prop where
  bundled : ∀ v, get row "not_bundled" = .ok v → v.truthy = false
  number : ∀ value, get row "value" = .ok value →
    ∃ v, path.foldlM subscript value = .ok v ∧ NumberOrdered bounds path v
  overrides : ∀ value, get row "value" = .ok value →
    Overridden (if wholly bounds then NumberOrdered bounds path else NumberWithin bounds path)
      value path

/-! ## The checker -/

section Checker

variable {bounds leaf : Fields} {b v x : Json} {path : PyStr} {ks : List PyStr}

theorem refusal_bind_eq_ok {α β : Type} {x : Except Refusal α} {f : α → Except Refusal β} {c : β} :
    (x >>= f) = .ok c ↔ ∃ a, x = .ok a ∧ f a = .ok c := by
  cases x with
  | error e => simp [bind, Except.bind]
  | ok a => simp [bind, Except.bind]

theorem raising_eq_ok {α : Type} {x : Except Exc α} {a : α} : raising x = .ok a ↔ x = .ok a := by
  cases x with
  | ok c => simp [raising]
  | error e => simp [raising]

theorem refuseIf_eq_ok {c : Bool} {text : Msg} {u : Unit} :
    refuseIf c text = .ok u ↔ c = false := by
  cases c <;> simp [refuseIf]

theorem checkBound_eq_ok {k : String} {violates : Json → Option Bool} {text : Json → Msg} {u : Unit} :
    checkBound bounds k violates text = .ok u ↔
      ∀ b, Json.lookup (py k) bounds = some b → violates b = some false := by
  rw [checkBound]
  cases Json.lookup (py k) bounds with
  | none => simp
  | some b => simp [refusal_bind_eq_ok, raising_eq_ok, refuseIf_eq_ok]

/-- What a checked value has passed. -/
structure Checked (bounds : Fields) (v : Json) : Prop where
  numeric : isNumeric v = true
  min : ∀ b, Json.lookup (py "min") bounds = some b → v.pyLt b = some false
  max : ∀ b, Json.lookup (py "max") bounds = some b → b.pyLt v = some false
  eq : ∀ b, Json.lookup (py "eq") bounds = some b → v.pyEq b = true

theorem checkAgainst_eq_ok {u : Unit} :
    checkAgainst path bounds v = .ok u ↔ Checked bounds v := by
  unfold checkAgainst
  simp only [refusal_bind_eq_ok, refuseIf_eq_ok, checkBound_eq_ok, exists_const]
  constructor
  · rintro ⟨hnum, hmin, hmax, heq⟩
    exact ⟨by simpa using hnum, hmin, hmax, fun b hb => by simpa using heq b hb⟩
  · rintro ⟨hnum, hmin, hmax, heq⟩
    exact ⟨by simpa using hnum, hmin, hmax, fun b hb => by simpa using heq b hb⟩

theorem subscript_eq_ok {k : PyStr} {w : Json} :
    subscript v k = .ok w ↔ ∃ kvs, v = .obj kvs ∧ Json.lookup k kvs = some w := by
  cases v with
  | obj kvs => simp [subscript]
  | _ => simp [subscript]

theorem foldlM_subscript_cons {k : PyStr} {w : Json} :
    (k :: ks).foldlM subscript v = .ok w ↔
      ∃ kvs u, v = .obj kvs ∧ Json.lookup k kvs = some u ∧ ks.foldlM subscript u = .ok w := by
  rw [List.foldlM_cons, bind_eq_ok]
  constructor
  · rintro ⟨u, hu, hw⟩
    obtain ⟨kvs, rfl, hlookup⟩ := subscript_eq_ok.1 hu
    exact ⟨kvs, u, rfl, hlookup, hw⟩
  · rintro ⟨kvs, u, rfl, hu, hw⟩
    exact ⟨u, subscript_eq_ok.2 ⟨kvs, rfl, hu⟩, hw⟩

theorem checkLeafFields_mem {kvs : Fields} {k : PyStr} (h : checkLeafFields path bounds kvs = .ok ())
    (hmem : (k, v) ∈ kvs) : checkLeaf path bounds v = .ok () := by
  induction kvs with
  | nil => exact absurd hmem List.not_mem_nil
  | cons kv kvs ih =>
    obtain ⟨_, hkv, hkvs⟩ := refusal_bind_eq_ok.1 h
    rcases List.mem_cons.1 hmem with rfl | hmem
    · exact hkv
    · exact ih hkvs hmem

/-- Where bounds are stated for a whole value, everything in it that is no mapping has been checked. -/
theorem checkLeaf_follow (h : checkLeaf path bounds v = .ok ())
    (hx : ks.foldlM subscript v = .ok x) (hobj : ∀ kvs, x ≠ .obj kvs) : Checked bounds x := by
  induction ks generalizing v with
  | nil =>
    cases pure_eq_ok.1 hx
    have hcheck : checkAgainst path bounds x = .ok () := by
      cases x with
      | obj kvs => exact absurd rfl (hobj kvs)
      | _ => exact h
    exact checkAgainst_eq_ok.1 hcheck
  | cons k ks ih =>
    obtain ⟨kvs, u, rfl, hu, hx⟩ := foldlM_subscript_cons.1 hx
    exact ih (checkLeafFields_mem h (Json.lookup_mem hu)) hx

theorem checkKeys_mem {kbs kvs : Fields} {k : PyStr} (h : checkKeys kbs kvs path = .ok ())
    (hmem : (k, b) ∈ kbs) :
    ∃ v, Json.lookup k kvs = some v ∧ check_bounds b v (path ++ py "." ++ k) = .ok () := by
  induction kbs with
  | nil => exact absurd hmem List.not_mem_nil
  | cons kb kbs ih =>
    rw [checkKeys] at h
    obtain ⟨_, hkb, hkbs⟩ := refusal_bind_eq_ok.1 h
    rcases List.mem_cons.1 hmem with rfl | hmem
    · cases hv : Json.lookup k kvs with
      | none =>
        rw [checkKey, hv] at hkb
        cases hkb
      | some v =>
        rw [checkKey, hv] at hkb
        exact ⟨v, rfl, hkb⟩
    · exact ih hkbs hmem

theorem check_bounds_leaf (hl : isLeaf bounds = true)
    (h : check_bounds (.obj bounds) v path = .ok ()) : checkLeaf path bounds v = .ok () := by
  cases v with
  | _ => simpa only [check_bounds, hl, if_true] using h

/-- A value that passes has been checked wherever bounds are stated for it. -/
theorem check_bounds_follow (h : check_bounds b v path = .ok ()) (hleaf : boundsAt b ks = some leaf)
    (hx : ks.foldlM subscript v = .ok x) (hobj : ∀ kvs, x ≠ .obj kvs) : Checked leaf x := by
  induction ks generalizing b v path with
  | nil =>
    cases b with
    | obj bounds =>
      rw [boundsAt] at hleaf
      split at hleaf
      · rename_i hl
        cases hleaf
        exact checkLeaf_follow (check_bounds_leaf hl h) hx hobj
      · cases hleaf
    | _ => simp [boundsAt] at hleaf
  | cons k ks ih =>
    cases b with
    | obj bounds =>
      rw [boundsAt] at hleaf
      split at hleaf
      · rename_i hl
        cases hleaf
        exact checkLeaf_follow (check_bounds_leaf hl h) hx hobj
      · rename_i hl
        obtain ⟨kvs, u, rfl, hu, hx⟩ := foldlM_subscript_cons.1 hx
        obtain ⟨b', hb', hleaf⟩ := Option.bind_eq_some_iff.1 hleaf
        rw [check_bounds, if_neg hl] at h
        obtain ⟨u', hu', hcheck⟩ := checkKeys_mem h (Json.lookup_mem hb')
        cases hu.symm.trans hu'
        exact ih hcheck hleaf hx
    | _ => simp [boundsAt] at hleaf

theorem num_of_isNumeric (h : isNumeric v = true) : ∃ n, v.num = some n := by
  cases v with
  | int z => exact ⟨_, rfl⟩
  | float d =>
    cases d with
    | nan => exact ⟨_, rfl⟩
    | num neg mag =>
      rw [Json.num]
      split
      · exact ⟨_, rfl⟩
      · exact ⟨_, rfl⟩
  | _ => cases h

theorem obj_of_isNumeric (h : isNumeric v = true) (kvs : Fields) : v ≠ .obj kvs := by
  rintro rfl
  cases h

theorem pyLt_numeric (h : isNumeric v = true) : v.pyLt b = Json.numLt v b := by
  cases v with
  | int z => rw [Json.pyLt]
  | float d => rw [Json.pyLt]
  | _ => cases h

/-- What is compared with a number is one. -/
theorem numLt_of_pyLt {r : Bool} (h : isNumeric v = true) (hlt : b.pyLt v = some r) :
    Json.numLt b v = some r := by
  cases b with
  | int z => rwa [Json.pyLt] at hlt
  | bool z => rwa [Json.pyLt] at hlt
  | float d => rwa [Json.pyLt] at hlt
  | null => simp [Json.pyLt] at hlt
  | obj kvs => simp [Json.pyLt] at hlt
  | str s =>
    cases v with
    | str t => cases h
    | _ => simp [Json.pyLt] at hlt
  | arr xs =>
    cases v with
    | arr ys => cases h
    | _ => simp [Json.pyLt] at hlt

theorem num_le {m n : Json.Num} (h : m.lt n = false) (hm : m ≠ .nan) (hn : n ≠ .nan) :
    (n.lt m || n.eq m) = true := by
  cases m with
  | nan => exact absurd rfl hm
  | inf a =>
    cases n with
    | nan => exact absurd rfl hn
    | inf c => revert h; cases a <;> cases c <;> decide
    | fin y => revert h; cases a <;> simp [Json.Num.lt, Json.Num.eq]
  | fin x =>
    cases n with
    | nan => exact absurd rfl hn
    | inf c => revert h; cases c <;> simp [Json.Num.lt, Json.Num.eq]
    | fin y =>
      simp only [Json.Num.lt, Json.Num.eq, decide_eq_false_iff_not, Bool.or_eq_true,
        decide_eq_true_eq, beq_iff_eq] at h ⊢
      omega

theorem num_ne_nan {m n : Json.Num} (h : (m.lt n || m.eq n) = true) : m ≠ .nan ∧ n ≠ .nan := by
  constructor
  · rintro rfl
    cases n <;> simp [Json.Num.lt, Json.Num.eq] at h
  · rintro rfl
    cases m <;> simp [Json.Num.lt, Json.Num.eq] at h

theorem le_of_numLt {a : Json} (h : Json.numLt a b = some false) (ha : a.num ≠ some .nan)
    (hb : b.num ≠ some .nan) : Le b a := by
  rw [Json.numLt] at h
  split at h
  · rename_i m n hm hn
    refine ⟨n, m, hn, hm, num_le (Option.some.inj h) ?_ ?_⟩
    · rintro rfl
      exact ha hm
    · rintro rfl
      exact hb hn
  · cases h

theorem ordered_of_le {a : Json} (h : Le a b) : a.num ≠ some .nan ∧ b.num ≠ some .nan := by
  obtain ⟨m, n, hm, hn, hle⟩ := h
  obtain ⟨hm', hn'⟩ := num_ne_nan hle
  constructor
  · rw [hm]
    exact fun e => hm' (Option.some.inj e)
  · rw [hn]
    exact fun e => hn' (Option.some.inj e)

/-- What lies within bounds is compared with numbers. -/
theorem Within.ordered (h : Within leaf x) : Ordered leaf x := by
  rintro b (hb | hb)
  · exact (ordered_of_le (h.min b hb)).symm
  · exact ordered_of_le (h.max b hb)

/-- A checked value lies within the bounds unless a NaN is involved. -/
theorem Checked.within (h : Checked leaf x) (hord : Ordered leaf x) : Within leaf x := by
  refine ⟨fun b hb => ?_, fun b hb => ?_, h.eq⟩
  · obtain ⟨hx, hbn⟩ := hord b (.inl hb)
    have hlt := h.min b hb
    rw [pyLt_numeric h.numeric] at hlt
    exact le_of_numLt hlt hx hbn
  · obtain ⟨hx, hbn⟩ := hord b (.inr hb)
    exact le_of_numLt (numLt_of_pyLt h.numeric (h.max b hb)) hbn hx

end Checker

/-! ## The reader -/

section Reader

variable {register thresholds row bounds value x : Json} {rows out kvs overrides : Fields}
  {pid key name : PyStr} {path rest : List PyStr} {configuration : Option PyStr}

theorem lookup_merge {v w : Fields} (k : PyStr) :
    Json.lookup k (merge v w) = (Json.lookup k w).or (Json.lookup k v) := by
  induction w with
  | nil => rfl
  | cons kv w ih =>
    obtain ⟨k', u⟩ := kv
    rw [merge, List.foldr_cons, Json.lookup]
    by_cases hk : k = k'
    · subst hk
      rw [if_pos rfl, Json.lookup_insertField_self]
      rfl
    · rw [if_neg hk, Json.lookup_insertField_of_ne hk]
      exact ih

/-- A place is read by following its keys through the value with the overrides. -/
theorem Place.read_eq (p : Place) : p.read thresholds configuration =
    (subscript thresholds p.pid >>= fun v => overridden v configuration >>= fun v =>
      p.path.foldlM subscript v) := by
  unfold Place.read
  cases p.path with
  | nil =>
    unfold param
    cases subscript thresholds p.pid with
    | error e => rfl
    | ok v => rfl
  | cons k ks =>
    simp only [param, bind_assoc, List.foldlM_cons]

/-- What a row that passes contributes. -/
theorem readRow_eq_ok {o : Option Json} (h : readRow pid row = .ok o) :
    ∃ value not_bundled bounds, get row "value" = .ok value ∧
      get row "not_bundled" = .ok not_bundled ∧ get row "bounds" = .ok bounds ∧
      check_bounds bounds value pid = .ok () ∧
      o = if not_bundled.truthy then none else some value := by
  obtain ⟨value, hvalue, h⟩ := refusal_bind_eq_ok.1 h
  obtain ⟨not_bundled, hnot, h⟩ := refusal_bind_eq_ok.1 h
  obtain ⟨_, _, h⟩ := refusal_bind_eq_ok.1 h
  obtain ⟨bounds, hbounds, h⟩ := refusal_bind_eq_ok.1 h
  obtain ⟨_, hcheck, h⟩ := refusal_bind_eq_ok.1 h
  cases h
  exact ⟨value, not_bundled, bounds, raising_eq_ok.1 hvalue, raising_eq_ok.1 hnot,
    raising_eq_ok.1 hbounds, hcheck, rfl⟩

/-- The thresholds hold what the rows contribute. -/
theorem readRows_lookup (h : readRows rows = .ok out) (hsorted : Json.SortedKeys rows) :
    (∀ k, Json.lookup k rows = none → Json.lookup k out = none) ∧
    ∀ k row, Json.lookup k rows = some row → ∃ o, readRow k row = .ok o ∧ Json.lookup k out = o := by
  induction rows generalizing out with
  | nil =>
    cases h
    exact ⟨fun _ _ => rfl, fun _ _ hrow => by cases hrow⟩
  | cons kv rest ih =>
    obtain ⟨pid, row⟩ := kv
    obtain ⟨o, ho, h⟩ := refusal_bind_eq_ok.1 h
    obtain ⟨out', hout', h⟩ := refusal_bind_eq_ok.1 h
    obtain ⟨hhead, htail⟩ := List.pairwise_cons.1 hsorted
    obtain ⟨ihnone, ihsome⟩ := ih hout' htail
    -- the keys are distinct, so no later row is for the same parameter
    have hfresh : Json.lookup pid rest = none := by
      cases hl : Json.lookup pid rest with
      | none => rfl
      | some v =>
        have hlt := hhead pid (List.mem_map_of_mem (Json.lookup_mem hl))
        exact absurd hlt (lt_irrefl pid)
    have hvalue : addRow pid o out' = out := Except.ok.inj h
    have hout : ∀ k, Json.lookup k out = if k = pid then o else Json.lookup k out' := by
      intro k
      rw [← hvalue]
      cases o with
      | none =>
        by_cases hk : k = pid
        · rw [if_pos hk, hk]
          exact ihnone pid hfresh
        · rw [if_neg hk]
          rfl
      | some v => rw [addRow, Json.lookup]
    constructor
    · intro k hk
      rw [Json.lookup] at hk
      split at hk
      · cases hk
      · rename_i hne
        rw [hout, if_neg hne]
        exact ihnone k hk
    · intro k row' hk
      rw [Json.lookup] at hk
      split at hk
      · rename_i heq
        cases hk
        rw [hout, if_pos heq, heq]
        exact ⟨o, ho, rfl⟩
      · rename_i hne
        rw [hout, if_neg hne]
        exact ihsome k row' hk

/-- What is read of a register that was accepted: the value of a row that is bundled and was
checked. -/
theorem accepted_row (hwf : register.WF) (h : generate_thresholds register = .ok thresholds)
    (hb : boundsOf register pid = some bounds) :
    ∃ row value not_bundled out, rowOf register pid = some row ∧ get row "value" = .ok value ∧
      get row "not_bundled" = .ok not_bundled ∧ check_bounds bounds value pid = .ok () ∧
      index thresholds "parameters" = .ok (.obj out) ∧
      Json.lookup pid out = if not_bundled.truthy then none else some value := by
  obtain ⟨params, hparams, h⟩ := refusal_bind_eq_ok.1 h
  have hparams := raising_eq_ok.1 hparams
  cases register with
  | obj kvs =>
    have hlookup : (Json.lookup (py "parameters") kvs).getD .null = params := Except.ok.inj hparams
    rw [boundsOf] at hb
    split at hb
    · rename_i row hrow
      obtain ⟨hbounds, hnull⟩ := Option.filter_eq_some_iff.1 hb
      have hrowof := hrow
      rw [rowOf] at hrow
      split at hrow
      · rename_i rows hrows
        rw [hrows, Option.getD_some] at hlookup
        subst hlookup
        have hrowswf := Json.wf_lookup hwf hrows
        have hne : orEmpty (.obj rows) = .obj rows := by
          cases rows with
          | nil => cases hrow
          | cons kv rows => rfl
        rw [hne] at h
        obtain ⟨_, _, h⟩ := refusal_bind_eq_ok.1 h
        obtain ⟨out, hout, h⟩ := refusal_bind_eq_ok.1 h
        obtain ⟨_, _, h⟩ := refusal_bind_eq_ok.1 h
        obtain ⟨version, _, h⟩ := refusal_bind_eq_ok.1 h
        cases h
        obtain ⟨o, ho, hl⟩ := (readRows_lookup hout (Json.wf_obj_iff.1 hrowswf).1).2 pid _ hrow
        obtain ⟨value, not_bundled, bounds', hvalue, hnot, hbounds', hcheck, rfl⟩ := readRow_eq_ok ho
        have hsame : bounds' = bounds := by
          have hget : (Json.lookup (py "bounds") row).getD .null = bounds' := Except.ok.inj hbounds'
          rw [hbounds] at hget
          exact hget.symm
        subst hsame
        exact ⟨.obj row, value, not_bundled, out, hrowof, hvalue, hnot, hcheck, rfl, hl⟩
      · cases hrow
    · cases hb
  | _ => cases hparams

theorem orEmpty_eq_obj {v : Json} (h : orEmpty v = .obj kvs) (hl : Json.lookup key kvs = some x) :
    v = .obj kvs := by
  rw [orEmpty] at h
  split at h
  · exact h
  · cases h
    cases hl

theorem Overrides.imp {good good' : Json → Prop} {by_configuration : Json}
    (h : Overrides good by_configuration key rest)
    (himp : ∀ cs name fs w v, by_configuration = .obj cs → Json.lookup name cs = some (.obj fs) →
      Json.lookup key fs = some w → rest.foldlM subscript w = .ok v → good v → good' v) :
    Overrides good' by_configuration key rest := by
  rw [Overrides] at h ⊢
  split at h
  · rename_i cs hcs
    intro name o hname ho
    obtain ⟨fs, rfl, hfs⟩ := h name o hname ho
    refine ⟨fs, rfl, fun w hw => ?_⟩
    obtain ⟨v, hv, hgood⟩ := hfs w hw
    exact ⟨v, hv, himp cs name fs w v (orEmpty_eq_obj hcs ho) ho hw hv hgood⟩
  · exact h
  · exact h

/-- Following a key through a value with overrides. -/
theorem foldlM_merge : (key :: rest).foldlM subscript (.obj (merge kvs overrides)) =
    match Json.lookup key overrides with
    | some w => rest.foldlM subscript w
    | none => (key :: rest).foldlM subscript (.obj kvs) := by
  rw [List.foldlM_cons, List.foldlM_cons, subscript, subscript, lookup_merge]
  cases Json.lookup key overrides with
  | none => rfl
  | some w => rfl

/-- **What is read for every configuration**: the value and each of its overrides provide it. -/
theorem read_configurations {good : Json → Prop} (hgood : ∀ v, good v → isNumeric v = true) :
    (∀ configuration, ∃ v, (overridden value configuration >>= fun v => path.foldlM subscript v) =
      .ok v ∧ good v) ↔
    (∃ v, path.foldlM subscript value = .ok v ∧ good v) ∧ Overridden good value path := by
  constructor
  · intro h
    have hbase : ∃ v, path.foldlM subscript value = .ok v ∧ good v := by
      obtain ⟨v, hv, hg⟩ := h none
      refine ⟨v, ?_, hg⟩
      cases value with
      | _ => exact hv
    refine ⟨hbase, ?_⟩
    rintro kvs key rest rfl rfl
    -- a configuration that is found must lead to a mapping
    have hfound : ∀ name, name ≠ [] →
        contains (orEmpty ((Json.lookup (py "by_configuration") kvs).getD .null)) name = .ok true →
        ∃ fs, subscript ((Json.lookup (py "by_configuration") kvs).getD .null) name = .ok (.obj fs) ∧
          ∃ v, (key :: rest).foldlM subscript (.obj (merge kvs fs)) = .ok v ∧ good v := by
      intro name hname hin
      obtain ⟨v, hv, hg⟩ := h (some name)
      obtain ⟨u, hu, hv⟩ := bind_eq_ok.1 hv
      simp only [overridden, if_neg hname, hin, ok_bind, if_true] at hu
      obtain ⟨o, ho, hu⟩ := bind_eq_ok.1 hu
      cases o with
      | obj fs =>
        cases hu
        exact ⟨fs, ho, v, hv, hg⟩
      | _ => cases hu
    have hask : ∀ name, name ≠ [] → ∃ r,
        contains (orEmpty ((Json.lookup (py "by_configuration") kvs).getD .null)) name = .ok r := by
      intro name hname
      obtain ⟨v, hv, _⟩ := h (some name)
      obtain ⟨u, hu, _⟩ := bind_eq_ok.1 hv
      simp only [overridden, if_neg hname] at hu
      obtain ⟨r, hr, _⟩ := bind_eq_ok.1 hu
      exact ⟨r, hr⟩
    generalize (Json.lookup (py "by_configuration") kvs).getD .null = by_configuration at hfound hask ⊢
    rw [Overrides]
    split
    · rename_i cs hcs
      intro name o hname ho
      obtain ⟨fs, hfs, v, hv, hg⟩ := hfound name hname (by rw [hcs, contains, ho]; rfl)
      rw [orEmpty_eq_obj hcs ho, subscript, ho] at hfs
      cases hfs
      refine ⟨fs, rfl, fun w hw => ?_⟩
      rw [foldlM_merge, hw] at hv
      exact ⟨v, hv, hg⟩
    · rename_i xs hxs
      intro name hname hmem
      obtain ⟨fs, hfs, _⟩ := hfound name hname (by
        rw [hxs, contains, List.any_eq_true.2 ⟨_, hmem, Json.eqStr_iff.2 rfl⟩])
      have harr : by_configuration = .arr xs := by
        rw [orEmpty] at hxs
        split at hxs
        · exact hxs
        · cases hxs
      rw [harr] at hfs
      cases hfs
    · rename_i hobj harr
      have hother := hask (py "a") (by decide)
      obtain ⟨r, hr⟩ := hother
      cases hby : orEmpty by_configuration with
      | obj cs => exact hobj cs hby
      | arr xs => exact harr xs hby
      | str s =>
        have hstr : by_configuration = .str s ∧ s ≠ [] := by
          rw [orEmpty] at hby
          split at hby
          · rename_i ht
            rw [hby] at ht
            exact ⟨hby, by rintro rfl; cases ht⟩
          · cases hby
        obtain ⟨rfl, hs⟩ := hstr
        obtain ⟨c, t, rfl⟩ := List.exists_cons_of_ne_nil hs
        -- every character of a text is found in it
        have hsub : [c] <:+: c :: t := ⟨[], t, rfl⟩
        obtain ⟨fs, hfs, _⟩ := hfound [c] (List.cons_ne_nil _ _) (by
          rw [hby, contains, decide_eq_true hsub])
        cases hfs
      | _ =>
        rw [hby] at hr
        cases hr
  · rintro ⟨⟨v, hv, hg⟩, hover⟩ configuration
    cases value with
    | obj kvs =>
      cases path with
      | nil =>
        cases pure_eq_ok.1 hv
        cases hgood _ hg
      | cons key rest =>
        have hover := hover kvs key rest rfl rfl
        cases configuration with
        | none => exact ⟨v, hv, hg⟩
        | some name =>
          by_cases hname : name = []
          · refine ⟨v, ?_, hg⟩
            simp only [overridden, if_pos hname]
            exact hv
          simp only [overridden, if_neg hname]
          generalize (Json.lookup (py "by_configuration") kvs).getD .null = by_configuration
            at hover ⊢
          rw [Overrides] at hover
          split at hover
          · rename_i cs hcs
            rw [hcs, contains, ok_bind]
            cases ho : Json.lookup name cs with
            | none => exact ⟨v, hv, hg⟩
            | some o =>
              obtain ⟨fs, rfl, hfs⟩ := hover name o hname ho
              rw [orEmpty_eq_obj hcs ho, subscript, ho]
              cases hw : Json.lookup key fs with
              | none =>
                refine ⟨v, ?_, hg⟩
                show (key :: rest).foldlM subscript (.obj (merge kvs fs)) = _
                rw [foldlM_merge, hw]
                exact hv
              | some w =>
                obtain ⟨u, hu, hgu⟩ := hfs w hw
                refine ⟨u, ?_, hgu⟩
                show (key :: rest).foldlM subscript (.obj (merge kvs fs)) = _
                rw [foldlM_merge, hw]
                exact hu
          · rename_i xs hxs
            have hnone : (xs.any fun x => x.eqStr name) = false := by
              refine List.any_eq_false.2 fun x hx => ?_
              rw [Json.eqStr_iff]
              rintro rfl
              exact hover name hname hx
            rw [hxs, contains, hnone]
            exact ⟨v, hv, hg⟩
          · cases hover
    | _ => exact ⟨v, hv, hg⟩

theorem wholly_boundsAt (h : wholly bounds = true) : ∃ leaf, ∀ ks, boundsAt bounds ks = some leaf := by
  cases bounds with
  | obj kvs =>
    refine ⟨kvs, fun ks => ?_⟩
    have hl : isLeaf kvs = true := h
    cases ks with
    | nil => rw [boundsAt, if_pos hl]
    | cons k ks => rw [boundsAt, if_pos hl]
  | _ => cases h

/-- What lies within bounds can be compared with them. -/
theorem NumberWithin.ordered (h : NumberWithin bounds path x) : NumberOrdered bounds path x :=
  ⟨h.1, fun leaf hleaf => (h.2 leaf hleaf).ordered⟩

/-- A value that was checked and can be compared lies within the bounds. -/
theorem NumberOrdered.within (h : NumberOrdered bounds path x)
    (hcheck : check_bounds bounds value pid = .ok ()) (hx : path.foldlM subscript value = .ok x) :
    NumberWithin bounds path x := by
  refine ⟨h.1, fun leaf hleaf => ?_⟩
  exact (check_bounds_follow hcheck hleaf hx (obj_of_isNumeric h.1)).within (h.2 leaf hleaf)

/-- An override is checked too where bounds are stated for the whole parameter. -/
theorem overridden_within (hcheck : check_bounds bounds value pid = .ok ()) :
    Overridden (NumberWithin bounds path) value path ↔
      Overridden (if wholly bounds then NumberOrdered bounds path else NumberWithin bounds path)
        value path := by
  cases hw : wholly bounds with
  | false => rfl
  | true =>
    obtain ⟨leaf, hleaf⟩ := wholly_boundsAt hw
    constructor
    · intro h kvs key rest hvalue hpath
      exact (h kvs key rest hvalue hpath).imp fun _ _ _ _ _ _ _ _ _ hv => hv.ordered
    · intro h kvs key rest hvalue hpath
      refine (h kvs key rest hvalue hpath).imp fun cs name fs w v hby hname hkey hv hord => ?_
      refine ⟨hord.1, fun leaf' hleaf' => ?_⟩
      cases (hleaf path).symm.trans hleaf'
      -- the override lies on a path through the value
      have hfollow : (py "by_configuration" :: name :: key :: rest).foldlM subscript value = .ok v := by
        have hlookup : Json.lookup (py "by_configuration") kvs = some (.obj cs) := by
          cases hl : Json.lookup (py "by_configuration") kvs with
          | none =>
            rw [hl] at hby
            cases hby
          | some u =>
            rw [hl] at hby
            exact congrArg some hby
        refine foldlM_subscript_cons.2 ⟨kvs, _, hvalue, hlookup, ?_⟩
        refine foldlM_subscript_cons.2 ⟨cs, _, rfl, hname, ?_⟩
        exact foldlM_subscript_cons.2 ⟨fs, _, rfl, hkey, hv⟩
      have hchecked := check_bounds_follow hcheck (hleaf _) hfollow (obj_of_isNumeric hord.1)
      exact hchecked.within (hord.2 leaf hleaf')

/-- Where a place is in bounds: its row provides what is read there. -/
theorem place_in_bounds {generated : Json} {p : Place} (hwf : register.WF)
    (h : generate_thresholds register = .ok generated) (hb : boundsOf register p.pid = some bounds) :
    (∀ configuration, InBounds generated bounds p configuration) ↔
      ∀ row, rowOf register p.pid = some row → Provides row bounds p.path := by
  obtain ⟨row, value, not_bundled, out, hrow, hvalue, hnot, hcheck, hindex, hout⟩ :=
    accepted_row hwf h hb
  have hread : ∀ configuration, InBounds generated bounds p configuration ↔
      not_bundled.truthy = false ∧
      ∃ v, (overridden value configuration >>= fun v => p.path.foldlM subscript v) = .ok v ∧
        NumberWithin bounds p.path v := by
    intro configuration
    constructor
    · rintro ⟨thresholds, v, hthresholds, hv, hgood⟩
      cases hindex.symm.trans hthresholds
      rw [Place.read_eq, subscript, hout] at hv
      cases hb : not_bundled.truthy with
      | true =>
        rw [hb] at hv
        cases hv
      | false =>
        rw [hb] at hv
        exact ⟨rfl, v, hv, hgood⟩
    · rintro ⟨hbundled, v, hv, hgood⟩
      refine ⟨.obj out, v, hindex, ?_, hgood⟩
      rw [Place.read_eq, subscript, hout, hbundled]
      exact hv
  have hconf : (∀ configuration, ∃ v, (overridden value configuration >>= fun v =>
      p.path.foldlM subscript v) = .ok v ∧ NumberWithin bounds p.path v) ↔
      (∃ v, p.path.foldlM subscript value = .ok v ∧ NumberWithin bounds p.path v) ∧
        Overridden (NumberWithin bounds p.path) value p.path :=
    read_configurations fun v hv => hv.1
  constructor
  · intro hall row' hrow'
    cases hrow.symm.trans hrow'
    have hbundled := ((hread none).1 (hall none)).1
    obtain ⟨⟨v, hv, hgood⟩, hover⟩ := hconf.1 fun configuration =>
      ((hread configuration).1 (hall configuration)).2
    refine ⟨fun u hu => ?_, fun u hu => ?_, fun u hu => ?_⟩
    · cases hnot.symm.trans hu
      exact hbundled
    · cases hvalue.symm.trans hu
      exact ⟨v, hv, hgood.ordered⟩
    · cases hvalue.symm.trans hu
      exact (overridden_within hcheck).1 hover
  · intro hall configuration
    have hrowok := hall row hrow
    obtain ⟨v, hv, hgood⟩ := hrowok.number value hvalue
    have hbase : ∃ v, p.path.foldlM subscript value = .ok v ∧ NumberWithin bounds p.path v :=
      ⟨v, hv, hgood.within hcheck hv⟩
    have hover := (overridden_within hcheck).2 (hrowok.overrides value hvalue)
    exact (hread configuration).2 ⟨hrowok.bundled not_bundled hnot, hconf.2 ⟨hbase, hover⟩ configuration⟩

/-- **When no parameter is out of bounds**: everything the program reads of an accepted register is a
number within its bounds, for every configuration, exactly when the rows provide it. -/
theorem params_in_bounds {generated : Json} (hwf : register.WF)
    (h : generate_thresholds register = .ok generated) (refs : List (PyStr × Option PyStr)) :
    (∀ p ∈ places refs, ∀ bounds, boundsOf register p.pid = some bounds →
      ∀ configuration, InBounds generated bounds p configuration) ↔
    ∀ p ∈ places refs, ∀ bounds, boundsOf register p.pid = some bounds →
      ∀ row, rowOf register p.pid = some row → Provides row bounds p.path := by
  constructor
  · intro hall p hp bounds hb
    exact (place_in_bounds hwf h hb).1 (hall p hp bounds hb)
  · intro hall p hp bounds hb
    exact (place_in_bounds hwf h hb).2 (hall p hp bounds hb)

end Reader

/-! ## An override that is not checked -/

/-- A row. -/
def sampleRow (value bounds : Json) : Json := .obj [(py "bounds", bounds), (py "value", value)]

/-- A lower bound. -/
def atLeast (n : Int) : Json := .obj [(py "min", .int n)]

/-- Values for each role. -/
def perRole (n : Int) : Json :=
  .obj [(py "change_planner", .int n), (py "diagnostician", .int n), (py "proposal_judge", .int n),
    (py "reporter", .int n)]

/-- The session limits, with the overrides of a configuration. -/
def sampleLimits (overrides : Fields) : Json :=
  .obj (overrides ++ [(py "input_tokens", perRole 1000), (py "output_tokens", perRole 1000)])

/-- The rows of a register with these session limits. -/
def sampleRows (limits : Json) (i : Nat) : Json :=
  if i = 3 then sampleRow (.obj [(py "samples", .int 2), (py "threshold", .int 100)])
    (.obj [(py "samples", atLeast 1), (py "threshold", atLeast 1)])
  else if i = 5 ∨ i = 6 then sampleRow (perRole 10) (atLeast 1)
  else if i = 14 then sampleRow (.obj [(py "concurrency", .int 1), (py "rate_per_min", .int 6)])
    (.obj [(py "concurrency", .obj [(py "eq", .int 1)]), (py "rate_per_min", atLeast 1)])
  else if i = 17 then sampleRow (.obj [(py "deadline_min", .int 30), (py "window", .int 5)])
    (.obj [(py "deadline_min", atLeast 1), (py "window", atLeast 3)])
  else if i = 19 then sampleRow (.int 60) (atLeast 2)
  else if i = 26 then sampleRow (.obj [(py "rpo_min", .int 15)]) (.obj [(py "rpo_min", atLeast 1)])
  else if i = 30 then sampleRow limits
    (.obj [(py "input_tokens", atLeast 1), (py "output_tokens", atLeast 1)])
  else sampleRow (.int 15) (atLeast 1)

/-- A register with these session limits. -/
def sampleRegister (limits : Json) : Json :=
  .obj [(py "parameters",
    .obj ((parameterIds.zip (List.range' 1 31)).map fun p => (p.1, sampleRows limits p.2)))]

/-- The thresholds of an accepted register. -/
def generatedOf (register : Json) : Json :=
  match generate_thresholds register with
  | .ok v => v
  | .error _ => .null

/-- Whether a register is accepted. -/
def accepted (register : Json) : Bool :=
  match generate_thresholds register with
  | .ok _ => true
  | .error _ => false

theorem accepted_iff {register : Json} :
    accepted register = true ↔ generate_thresholds register = .ok (generatedOf register) := by
  unfold accepted generatedOf
  cases generate_thresholds register with
  | ok v => simp
  | error e => simp

/-- One configuration gets no input tokens for one role, and none are stated for the others. -/
def zeroOverride : Fields :=
  [(py "by_configuration", .obj [(py "other", .obj [(py "input_tokens",
    .obj [(py "diagnostician", .int 0)])])])]

theorem sampleRow_wf {v b : Json} (hv : v.WF) (hb : b.WF) : (sampleRow v b).WF := by
  have hsorted : Json.SortedKeys [(py "bounds", b), (py "value", v)] := by
    simp [Json.SortedKeys]
    decide
  refine Json.wf_obj_iff.2 ⟨hsorted, fun kv hkv => ?_⟩
  simp only [List.mem_cons, List.not_mem_nil, or_false] at hkv
  rcases hkv with rfl | rfl
  · exact hb
  · exact hv

theorem atLeast_wf (n : Int) : (atLeast n).WF := by
  simp [atLeast, Json.wf_obj_iff, Json.SortedKeys]

theorem pair_wf {k l : PyStr} {v w : Json} (hkl : k < l) (hv : v.WF) (hw : w.WF) :
    (Json.obj [(k, v), (l, w)]).WF := by
  simp [Json.wf_obj_iff, Json.SortedKeys, hkl, hv, hw]

theorem perRole_wf (n : Int) : (perRole n).WF := by
  simp [perRole, Json.wf_obj_iff, Json.SortedKeys]
  decide

/-- The register is one that a dict can be. -/
theorem sampleRegister_wf {limits : Json} (h : limits.WF) : (sampleRegister limits).WF := by
  have hrow : ∀ i, (sampleRows limits i).WF := by
    intro i
    have hone := atLeast_wf 1
    unfold sampleRows
    split
    · exact sampleRow_wf (pair_wf (by decide) (.int 2) (.int 100)) (pair_wf (by decide) hone hone)
    split
    · exact sampleRow_wf (perRole_wf 10) hone
    split
    · refine sampleRow_wf (pair_wf (by decide) (.int 1) (.int 6)) (pair_wf (by decide) ?_ hone)
      simp [Json.wf_obj_iff, Json.SortedKeys]
    split
    · exact sampleRow_wf (pair_wf (by decide) (.int 30) (.int 5))
        (pair_wf (by decide) hone (atLeast_wf 3))
    split
    · exact sampleRow_wf (.int 60) (atLeast_wf 2)
    split
    · refine sampleRow_wf ?_ ?_
      · simp [Json.wf_obj_iff, Json.SortedKeys]
      · simp [Json.wf_obj_iff, Json.SortedKeys, hone]
    split
    · exact sampleRow_wf h (pair_wf (by decide) hone hone)
    · exact sampleRow_wf (.int 15) hone
  have hkeys : ((parameterIds.zip (List.range' 1 31)).map Prod.fst).Pairwise (· < ·) := by
    decide +kernel
  rw [sampleRegister, Json.wf_obj_iff]
  refine ⟨List.pairwise_singleton _ _, List.forall_mem_singleton.2 ?_⟩
  refine Json.wf_obj_iff.2 ⟨?_, fun kv hkv => ?_⟩
  · rw [Json.SortedKeys, List.map_map]
    exact hkeys
  · obtain ⟨p, _, rfl⟩ := List.mem_map.1 hkv
    exact hrow p.2

theorem sampleLimits_wf : (sampleLimits []).WF :=
  pair_wf (by decide) (perRole_wf 1000) (perRole_wf 1000)

theorem zeroLimits_wf : (sampleLimits zeroOverride).WF := by
  have hroles := perRole_wf 1000
  simp only [sampleLimits, zeroOverride, List.cons_append, List.nil_append, Json.wf_obj_iff,
    Json.SortedKeys, List.forall_mem_cons, hroles]
  simp
  decide

theorem sampleRegister_accepted : accepted (sampleRegister (sampleLimits [])) = true := by
  decide +kernel

/-- A register without overrides. -/
theorem params_in_bounds_sample :
    (∀ p ∈ places [], ∀ bounds, boundsOf (sampleRegister (sampleLimits [])) p.pid = some bounds →
      ∀ configuration,
        InBounds (generatedOf (sampleRegister (sampleLimits []))) bounds p configuration) ↔
    ∀ p ∈ places [], ∀ bounds, boundsOf (sampleRegister (sampleLimits [])) p.pid = some bounds →
      ∀ row, rowOf (sampleRegister (sampleLimits [])) p.pid = some row → Provides row bounds p.path :=
  params_in_bounds (sampleRegister_wf sampleLimits_wf) (accepted_iff.1 sampleRegister_accepted) []

/-- **An accepted override is out of bounds**: the diagnostician gets no input tokens where at least
one is required, and for the other roles there is nothing to read. -/
theorem override_out_of_bounds :
    (sampleRegister (sampleLimits zeroOverride)).WF ∧
    accepted (sampleRegister (sampleLimits zeroOverride)) = true ∧
    (index (generatedOf (sampleRegister (sampleLimits zeroOverride))) "parameters" >>= fun v =>
      (Place.mk (py "P-30") [py "input_tokens", py "diagnostician"]).read v (some (py "other"))) =
        .ok (.int 0) ∧
    (index (generatedOf (sampleRegister (sampleLimits zeroOverride))) "parameters" >>= fun v =>
      (Place.mk (py "P-30") [py "input_tokens", py "reporter"]).read v (some (py "other"))) =
        .error (.other .keyError) ∧
    ¬ ∀ p ∈ places [], ∀ bounds,
      boundsOf (sampleRegister (sampleLimits zeroOverride)) p.pid = some bounds → ∀ configuration,
        InBounds (generatedOf (sampleRegister (sampleLimits zeroOverride))) bounds p configuration := by
  refine ⟨sampleRegister_wf zeroLimits_wf, by decide +kernel, by decide +kernel, by decide +kernel,
    fun hall => ?_⟩
  have hplace : (⟨py "P-30", [py "input_tokens", py "reporter"]⟩ : Place) ∈ places [] := by
    simp [places, Role.all, Role.text]
  have hbounds : boundsOf (sampleRegister (sampleLimits zeroOverride)) (py "P-30") =
      some (.obj [(py "input_tokens", atLeast 1), (py "output_tokens", atLeast 1)]) := by
    decide +kernel
  obtain ⟨thresholds, v, hthresholds, hv, -⟩ := hall _ hplace _ hbounds (some (py "other"))
  have hread : (index (generatedOf (sampleRegister (sampleLimits zeroOverride))) "parameters" >>=
      fun v => (Place.mk (py "P-30") [py "input_tokens", py "reporter"]).read v
        (some (py "other"))) = .error (.other .keyError) := by
    decide +kernel
  rw [hthresholds, ok_bind, hv] at hread
  cases hread

end Valops.Register
