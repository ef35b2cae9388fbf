import Valops.Common.Tools

/-!
# Verifier rules

The predicates of verifier rules: comparisons of a field of the sample with a value, composed with
`all_of` and `any_of`. A predicate is the mapping read from the bundle, `validate_pred` checks its
shape and `evaluate` reads it. Values may refer to the parameter register; the function that looks
them up is a parameter here and may raise.

A missing field makes a comparison false before its value is looked up. So an accepted predicate is
false on the empty sample, and what holds on a part of a sample holds on the whole of it unless a
look-up raises (`absence_never_confirms`).
-/

set_option autoImplicit false

namespace Valops.Rules

open Py

/-! ## Comparisons -/

/-- `OPS`. -/
inductive Op where
  | lt | le | gt | ge | eq | ne | mem
  deriving DecidableEq, Repr

namespace Op

def text : Op → PyStr
  | lt => py "lt"
  | le => py "le"
  | gt => py "gt"
  | ge => py "ge"
  | eq => py "eq"
  | ne => py "ne"
  | mem => py "in"

def all : List Op := [lt, le, gt, ge, eq, ne, mem]

def ofJson : Json → Option Op := named all text

/-- `OPS[op](a, b)`; `none` is `TypeError`. -/
def apply : Op → Json → Json → Option Bool
  | lt, a, b => a.pyLt b
  | le, a, b => a.pyLe b
  | gt, a, b => b.pyLt a
  | ge, a, b => b.pyLe a
  | eq, a, b => some (a.pyEq b)
  | ne, a, b => some (!a.pyEq b)
  | mem, a, b => a.pyIn b

end Op

/-! ## Checking a predicate -/

/-- What `_validate_pred` raises: a `RuleError` with its text, or what an unhashable `op` raises. -/
inductive Refusal where
  | rule (text : Msg)
  | exc (e : Exc)
  deriving DecidableEq

/-- `if c: raise RuleError(f"{place}: {text}")`. -/
def refuseIf (c : Bool) (place : PyStr) (text : Msg) : Except Refusal Unit :=
  if c then .error (.rule (.text place :: .text (py ": ") :: text)) else .ok ()

/-- `set(p) == keys`. -/
def hasKeys (p : Fields) (keys : List PyStr) : Bool :=
  (p.all fun kv => decide (kv.1 ∈ keys)) && keys.all fun k => (Json.lookup k p).isSome

theorem sizeOf_lookup {k : PyStr} {v : Json} : ∀ {kvs : Fields}, Json.lookup k kvs = some v →
    sizeOf v < sizeOf kvs
  | [], h => by cases h
  | (k', v') :: rest, h => by
    rw [Json.lookup] at h
    split at h
    · cases h
      simp only [List.cons.sizeOf_spec, Prod.mk.sizeOf_spec]
      omega
    · have := sizeOf_lookup h
      simp only [List.cons.sizeOf_spec, Prod.mk.sizeOf_spec]
      omega

/-- The connective of a predicate: `all_of` wins where both keys are there. -/
def connective (p : Fields) : Option PyStr :=
  if (Json.lookup (py "all_of") p).isSome then some (py "all_of")
  else if (Json.lookup (py "any_of") p).isSome then some (py "any_of")
  else none

/-- `hash(v)`. -/
def hashable (v : Json) : Except Refusal Unit :=
  if v.hashable then .ok () else .error (.exc (.other .typeError))

/-- The checks of a comparison. -/
def validateLeaf (p : Fields) (place : PyStr) : Except Refusal Unit := do
  refuseIf (!hasKeys p [py "field", py "op", py "value"]) place
    (msg "leaf needs exactly field/op/value")
  let op := (Json.lookup (py "op") p).getD .null
  hashable op
  refuseIf (Op.ofJson op).isNone place [.text (py "unknown op "), .str op]
  let field := (Json.lookup (py "field") p).getD .null
  match field with
  | .str path => refuseIf (!path.contains 46) place (msg "field must be <command_id>.<path>")
  | _ => refuseIf true place (msg "field must be <command_id>.<path>")

mutual

/-- `_validate_pred`. -/
def validate_pred : Json → PyStr → Except Refusal Unit
  | .obj p, place => do
    refuseIf p.isEmpty place (msg "predicate must be a mapping")
    match connective p with
    | some key =>
      match _h : Json.lookup key p with
      | some (.arr subs) => do
        refuseIf (!hasKeys p [key] || subs.isEmpty) place
          [.text key, .text (py " must be a non-empty list and alone")]
        validateSubs subs (place ++ py "." ++ key) 0
      | _ => refuseIf true place [.text key, .text (py " must be a non-empty list and alone")]
    | none => validateLeaf p place
  | _, place => refuseIf true place (msg "predicate must be a mapping")
termination_by p => sizeOf p
decreasing_by
  have := sizeOf_lookup _h
  simp only [Json.obj.sizeOf_spec, Json.arr.sizeOf_spec] at *
  omega

/-- The loop over the parts of a connective. -/
def validateSubs : List Json → PyStr → Nat → Except Refusal Unit
  | [], _, _ => .ok ()
  | sub :: subs, place, i => do
    validate_pred sub (place ++ py "[" ++ natText i ++ py "]")
    validateSubs subs place (i + 1)
termination_by subs => sizeOf subs

end

/-! ## Evaluating a predicate -/

section Evaluate

variable (param : Json → Json → Except Exc Json) (sample : Fields)

/-- `resolve`. -/
def resolve (value : Json) : Except Exc Json :=
  match value with
  | .obj kvs =>
    match Json.lookup (py "param") kvs with
    | some pid => param pid ((Json.lookup (py "key") kvs).getD .null)
    | none => .ok value
  | _ => .ok value

/-- One step of `_get` into a value. -/
def step (cur : Json) (part : PyStr) : Option Json :=
  match cur with
  | .obj kvs => Json.lookup part kvs
  | _ => none

/-- `_get`; `none` is `KeyError`. -/
def fieldOf (path : PyStr) : Option Json := (path.splitOn 46).foldlM step (.obj sample)

/-- `except TypeError: return False`. -/
def typeErrorFalse (x : Except Exc Bool) : Except Exc Bool :=
  if x = .error (.other .typeError) then .ok false else x

/-- `bool(OPS[pred["op"]](actual, resolve(pred["value"], param)))`. -/
def compare (pred : Fields) (actual : Json) : Except Exc Bool := do
  let op ← index (.obj pred) "op"
  hashed op
  let op ← orRaise (Op.ofJson op) (.other .keyError)
  let value ← index (.obj pred) "value"
  let value ← resolve param value
  orRaise (op.apply actual value) (.other .typeError)

/-- `evaluate` of a comparison. -/
def evaluateLeaf (pred : Fields) : Except Exc Bool :=
  match Json.lookup (py "field") pred with
  -- this `KeyError` is caught with the one of a missing field
  | none => .ok false
  | some (.str path) =>
    match fieldOf sample path with
    | none => .ok false
    | some actual => typeErrorFalse (compare param pred actual)
  -- anything else has no `split`
  | some _ => .error (.other .attributeError)

/-- Going over `v` where it is no list: the characters of a string and the keys of a dict are no
predicates, and nothing else is iterable. -/
def overOther (v : Json) (empty : Bool) : Except Exc Bool :=
  match v with
  | .str [] => .ok empty
  | .obj [] => .ok empty
  | _ => .error (.other .typeError)

mutual

/-- `evaluate`. -/
def evaluate : Json → Except Exc Bool
  | .obj pred =>
    match _h : Json.lookup (py "all_of") pred with
    | some (.arr subs) => evaluateAll subs
    | some v => overOther v true
    | none =>
      match _h : Json.lookup (py "any_of") pred with
      | some (.arr subs) => evaluateAny subs
      | some v => overOther v false
      | none => evaluateLeaf param sample pred
  | _ => .error (.other .typeError)
termination_by p => sizeOf p
decreasing_by
  all_goals
    have := sizeOf_lookup ‹Json.lookup _ pred = some (.arr subs)›
    simp only [Json.obj.sizeOf_spec, Json.arr.sizeOf_spec] at *
    omega

/-- `all(evaluate(p, sample, param) for p in subs)`. -/
def evaluateAll : List Json → Except Exc Bool
  | [] => .ok true
  | p :: subs => do if ← evaluate p then evaluateAll subs else pure false
termination_by subs => sizeOf subs

/-- `any(evaluate(p, sample, param) for p in subs)`. -/
def evaluateAny : List Json → Except Exc Bool
  | [] => .ok false
  | p :: subs => do if ← evaluate p then pure true else evaluateAny subs
termination_by subs => sizeOf subs

end

end Evaluate

/-! ## The parameter register -/

/-- The place of an index in a sequence. -/
def position? (n : Nat) (i : Int) : Option Nat :=
  if 0 ≤ i then (if i < n then some i.toNat else none)
  else if 0 ≤ i + n then some (i + n).toNat else none

/-- `v[i]` of a sequence. -/
def itemAt (n : Nat) (get : Nat → Option Json) (k : Json) : Except Exc Json :=
  match k with
  | .int i => orRaise ((position? n i).bind get) (.other .indexError)
  | .bool b => orRaise ((position? n (if b then 1 else 0)).bind get) (.other .indexError)
  | _ => .error (.other .typeError)

/-- `v[k]`. -/
def item (v k : Json) : Except Exc Json :=
  match v with
  | .obj kvs => do
    hashed k
    match k with
    | .str s => orRaise (Json.lookup s kvs) (.other .keyError)
    | _ => throw (.other .keyError)
  | .arr xs => itemAt xs.length (fun i => xs[i]?) k
  | .str s => itemAt s.length (fun i => s[i]?.map fun c => .str [c]) k
  | _ => .error (.other .typeError)

/-- The parameter function of the verifier: `bundle.param(pid, key)`. -/
def bundleParam (thresholds pid key : Json) : Except Exc Json := do
  let v ← item thresholds pid
  if key = .null then pure v else item v key

/-! ## What an accepted predicate is -/

/-- Accepted predicates: a comparison with a known operator, or a connective over at least one
accepted part. -/
inductive Accepted : Json → Prop
  | leaf {p : Fields} {path : PyStr} {op : Op} {value : Json} (hleaf : connective p = none)
      (hfield : Json.lookup (py "field") p = some (.str path))
      (hop : Json.lookup (py "op") p = some (.str op.text))
      (hvalue : Json.lookup (py "value") p = some value) : Accepted (.obj p)
  | node {p : Fields} {key : PyStr} {subs : List Json} (hkey : connective p = some key)
      (hsubs : Json.lookup key p = some (.arr subs)) (hne : subs ≠ [])
      (hall : ∀ sub ∈ subs, Accepted sub) : Accepted (.obj p)

section Accepted

theorem refuseIf_eq_ok {c : Bool} {place : PyStr} {text : Msg} {u : Unit} :
    refuseIf c place text = .ok u ↔ c = false := by
  cases c <;> simp [refuseIf]

theorem then_eq_ok {x : Except Refusal Unit} {f : Unit → Except Refusal Unit} :
    (x >>= f) = .ok () ↔ x = .ok () ∧ f () = .ok () := by
  cases x <;> simp [bind, Except.bind]

theorem lookup_of_hasKeys {p : Fields} {keys : List PyStr} {k : PyStr} (h : hasKeys p keys = true)
    (hk : k ∈ keys) : ∃ v, Json.lookup k p = some v :=
  Option.isSome_iff_exists.1 (List.all_eq_true.1 (Bool.and_eq_true_iff.1 h).2 k hk)

theorem Op.ofJson_eq_some {v : Json} {op : Op} : Op.ofJson v = some op ↔ v = .str op.text := by
  constructor
  · exact named_eq_some
  · rintro rfl
    cases op <;> decide

theorem accepted_of_leaf {p : Fields} {place : PyStr} (hleaf : connective p = none)
    (h : validateLeaf p place = .ok ()) : Accepted (.obj p) := by
  obtain ⟨hkeys, h⟩ := then_eq_ok.1 h
  rw [refuseIf_eq_ok, Bool.not_eq_false'] at hkeys
  obtain ⟨field, hfield⟩ := lookup_of_hasKeys hkeys (k := py "field") (by decide)
  obtain ⟨op, hop⟩ := lookup_of_hasKeys hkeys (k := py "op") (by decide)
  obtain ⟨value, hvalue⟩ := lookup_of_hasKeys hkeys (k := py "value") (by decide)
  rw [hop, hfield, Option.getD_some, Option.getD_some] at h
  obtain ⟨-, h⟩ := then_eq_ok.1 h
  obtain ⟨hknown, h⟩ := then_eq_ok.1 h
  obtain ⟨o, ho⟩ : ∃ o, Op.ofJson op = some o := by
    rw [refuseIf_eq_ok, Option.isNone_eq_false_iff] at hknown
    exact Option.isSome_iff_exists.1 hknown
  cases Op.ofJson_eq_some.1 ho
  cases field with
  | str path => exact .leaf hleaf hfield hop hvalue
  | _ => exact absurd (refuseIf_eq_ok.1 (then_eq_ok.1 h).2) (by decide)

mutual

/-- **What `_validate_pred` accepts.** -/
theorem accepted_of_validate : ∀ (p : Json) {place : PyStr}, validate_pred p place = .ok () →
    Accepted p
  | .obj p, place, h => by
    rw [validate_pred] at h
    obtain ⟨-, h⟩ := then_eq_ok.1 h
    cases hkey : connective p with
    | none =>
      rw [hkey] at h
      exact accepted_of_leaf hkey h
    | some key =>
      rw [hkey] at h
      dsimp only at h
      split at h
      · rename_i subs hsubs
        obtain ⟨hshape, h⟩ := then_eq_ok.1 h
        obtain ⟨-, hne⟩ := Bool.or_eq_false_iff.1 (refuseIf_eq_ok.1 hshape)
        refine .node hkey hsubs ?_ (accepted_of_subs subs h)
        rintro rfl
        cases hne
      · exact absurd (refuseIf_eq_ok.1 h) (by decide)
  | .null, _, h | .bool _, _, h | .int _, _, h | .float _, _, h | .str _, _, h | .arr _, _, h => by
    rw [validate_pred] at h
    · exact absurd (refuseIf_eq_ok.1 h) (by decide)
    · rintro _ ⟨⟩
termination_by p => sizeOf p
decreasing_by
  have := sizeOf_lookup ‹Json.lookup _ p = some (.arr _)›
  simp only [Json.obj.sizeOf_spec, Json.arr.sizeOf_spec] at *
  omega

theorem accepted_of_subs : ∀ (subs : List Json) {place : PyStr} {i : Nat},
    validateSubs subs place i = .ok () → ∀ sub ∈ subs, Accepted sub
  | [], _, _, _, sub, hsub => absurd hsub List.not_mem_nil
  | p :: subs, place, i, h, sub, hsub => by
    rw [validateSubs] at h
    obtain ⟨hp, hrest⟩ := then_eq_ok.1 h
    rcases List.mem_cons.1 hsub with hsub | hsub
    · rw [hsub]
      exact accepted_of_validate p hp
    · exact accepted_of_subs subs hrest sub hsub
termination_by subs => sizeOf subs

end

end Accepted

/-! ## Evaluating an accepted predicate -/

section Evaluation

variable {param : Json → Json → Except Exc Json} {sample : Fields}

theorem evaluate_leaf {p : Fields} (h : connective p = none) :
    evaluate param sample (.obj p) = evaluateLeaf param sample p := by
  unfold connective at h
  split at h
  · cases h
  split at h
  · cases h
  rename_i hall hany
  rw [Option.not_isSome_iff_eq_none] at hall hany
  rw [evaluate]
  split
  · rename_i hl
    cases hall.symm.trans hl
  · rename_i hl
    cases hall.symm.trans hl
  split
  · rename_i hl
    cases hany.symm.trans hl
  · rename_i hl
    cases hany.symm.trans hl
  · rfl

/-- A connective is `all` or `any` of its parts, by its key. -/
theorem evaluate_connective {p : Fields} {key : PyStr} {subs : List Json}
    (hkey : connective p = some key) (hsubs : Json.lookup key p = some (.arr subs)) :
    (key = py "all_of" ∧ ∀ sample, evaluate param sample (.obj p) = evaluateAll param sample subs) ∨
      (key = py "any_of" ∧
        ∀ sample, evaluate param sample (.obj p) = evaluateAny param sample subs) := by
  unfold connective at hkey
  split at hkey
  · cases hkey
    refine .inl ⟨rfl, fun sample => ?_⟩
    rw [evaluate]
    split
    · rename_i hl
      cases hsubs.symm.trans hl
      rfl
    · rename_i hno hl
      cases hsubs.symm.trans hl
      exact absurd rfl (hno subs)
    · rename_i hl
      cases hsubs.symm.trans hl
  split at hkey
  · rename_i hall hany
    cases hkey
    rw [Option.not_isSome_iff_eq_none] at hall
    refine .inr ⟨rfl, fun sample => ?_⟩
    rw [evaluate]
    split
    · rename_i hl
      cases hall.symm.trans hl
    · rename_i hl
      cases hall.symm.trans hl
    split
    · rename_i hl
      cases hsubs.symm.trans hl
      rfl
    · rename_i hno hl
      cases hsubs.symm.trans hl
      exact absurd rfl (hno subs)
    · rename_i hl
      cases hsubs.symm.trans hl
  · cases hkey

theorem evaluate_node {p : Fields} {key : PyStr} {subs : List Json} (hkey : connective p = some key)
    (hsubs : Json.lookup key p = some (.arr subs)) :
    (∀ sample, evaluate param sample (.obj p) = evaluateAll param sample subs) ∨
      ∀ sample, evaluate param sample (.obj p) = evaluateAny param sample subs :=
  (evaluate_connective hkey hsubs).imp And.right And.right

/-- The evaluation of an accepted comparison whose field is there. -/
theorem compare_of_accepted {p : Fields} {op : Op} {value : Json} (actual : Json)
    (hop : Json.lookup (py "op") p = some (.str op.text))
    (hvalue : Json.lookup (py "value") p = some value) :
    compare param p actual = resolve param value >>= fun v =>
      orRaise (op.apply actual v) (.other .typeError) := by
  have hop' : index (.obj p) "op" = .ok (.str op.text) := orRaise_eq_ok.2 hop
  have hvalue' : index (.obj p) "value" = .ok value := orRaise_eq_ok.2 hvalue
  have hknown : Op.ofJson (.str op.text) = some op := Op.ofJson_eq_some.2 rfl
  rw [compare, hop', ok_bind, hvalue', hknown]
  rfl

/-! ### Missing fields -/

/-- The part of a sample from some commands. -/
def restrict (keep : PyStr → Bool) (sample : Fields) : Fields := sample.filter fun kv => keep kv.1

theorem lookup_restrict {keep : PyStr → Bool} {k : PyStr} {v : Json} :
    ∀ {sample : Fields}, Json.lookup k (restrict keep sample) = some v → Json.lookup k sample = some v
  | [], h => h
  | (k', v') :: rest, h => by
    unfold restrict at h
    rw [List.filter_cons] at h
    unfold Json.lookup
    split at h
    · rw [Json.lookup] at h
      split
      · rename_i hk
        rwa [if_pos hk] at h
      · rename_i hk
        rw [if_neg hk] at h
        exact lookup_restrict h
    · rename_i hkeep
      split
      · rename_i hk
        subst hk
        obtain ⟨-, hk⟩ := List.mem_filter.1 (Json.lookup_mem h)
        exact absurd hk hkeep
      · exact lookup_restrict h

theorem splitOn_ne_nil (path : PyStr) : ∃ cid rest, path.splitOn 46 = cid :: rest :=
  List.exists_cons_of_ne_nil (List.splitOn_ne_nil 46 path)

/-- A field of a part of the sample is a field of the sample. -/
theorem fieldOf_restrict {keep : PyStr → Bool} {path : PyStr} {actual : Json}
    (h : fieldOf (restrict keep sample) path = some actual) : fieldOf sample path = some actual := by
  unfold fieldOf at *
  obtain ⟨cid, rest, hpath⟩ := splitOn_ne_nil path
  rw [hpath, List.foldlM_cons] at h
  obtain ⟨v, hv, hrest⟩ := Option.bind_eq_some_iff.1 h
  rw [hpath, List.foldlM_cons]
  exact Option.bind_eq_some_iff.2 ⟨v, lookup_restrict hv, hrest⟩

/-- The empty sample has no field. -/
theorem fieldOf_nil (path : PyStr) : fieldOf [] path = none := by
  unfold fieldOf
  obtain ⟨cid, rest, hpath⟩ := splitOn_ne_nil path
  rw [hpath]
  rfl

/-! ### Look-ups that raise -/

/-- The parameter function raises this; a `TypeError` is caught. -/
def LookUpRaises (param : Json → Json → Except Exc Json) (e : Exc) : Prop :=
  e ≠ .other .typeError ∧ ∃ pid key, param pid key = .error e

theorem error_of_typeErrorFalse {x : Except Exc Bool} {e : Exc} (h : typeErrorFalse x = .error e) :
    x = .error e ∧ e ≠ .other .typeError := by
  unfold typeErrorFalse at h
  split at h
  · cases h
  · rename_i hx
    exact ⟨h, fun he => hx (he ▸ h)⟩

theorem error_of_resolve {value : Json} {e : Exc} (h : resolve param value = .error e) :
    ∃ pid key, param pid key = .error e := by
  unfold resolve at h
  split at h
  · split at h
    · exact ⟨_, _, h⟩
    · cases h
  · cases h

theorem error_of_all {subs : List Json} {e : Exc}
    (ih : ∀ sub ∈ subs, ∀ e, evaluate param sample sub = .error e → LookUpRaises param e)
    (h : evaluateAll param sample subs = .error e) : LookUpRaises param e := by
  induction subs with
  | nil =>
    rw [evaluateAll] at h
    cases h
  | cons p subs hrest =>
    obtain ⟨hp, hsubs⟩ := List.forall_mem_cons.1 ih
    rw [evaluateAll] at h
    cases hx : evaluate param sample p with
    | error e' =>
      rw [hx] at h
      cases h
      exact hp e hx
    | ok b =>
      rw [hx] at h
      cases b with
      | true => exact hrest hsubs h
      | false => cases h

theorem error_of_any {subs : List Json} {e : Exc}
    (ih : ∀ sub ∈ subs, ∀ e, evaluate param sample sub = .error e → LookUpRaises param e)
    (h : evaluateAny param sample subs = .error e) : LookUpRaises param e := by
  induction subs with
  | nil =>
    rw [evaluateAny] at h
    cases h
  | cons p subs hrest =>
    obtain ⟨hp, hsubs⟩ := List.forall_mem_cons.1 ih
    rw [evaluateAny] at h
    cases hx : evaluate param sample p with
    | error e' =>
      rw [hx] at h
      cases h
      exact hp e hx
    | ok b =>
      rw [hx] at h
      cases b with
      | true => cases h
      | false => exact hrest hsubs h

/-- **An accepted predicate raises only what a look-up raises.** -/
theorem lookUpRaises_of_error {p : Json} (hp : Accepted p) : ∀ {e : Exc},
    evaluate param sample p = .error e → LookUpRaises param e := by
  induction hp with
  | leaf hleaf hfield hop hvalue =>
    intro e h
    rw [evaluate_leaf hleaf, evaluateLeaf, hfield] at h
    dsimp only at h
    split at h
    · cases h
    obtain ⟨h, hne⟩ := error_of_typeErrorFalse h
    rw [compare_of_accepted _ hop hvalue] at h
    cases hv : resolve param _ with
    | error e' =>
      rw [hv] at h
      cases h
      exact ⟨hne, error_of_resolve hv⟩
    | ok v =>
      rw [hv, ok_bind] at h
      unfold orRaise at h
      split at h
      · cases h
      · cases h
        exact absurd rfl hne
  | node hkey hsubs hne hall ih =>
    intro e h
    have hnode := @evaluate_node param _ _ _ hkey hsubs
    rcases hnode with hnode | hnode
    · rw [hnode] at h
      exact error_of_all (fun sub hsub e => ih sub hsub) h
    · rw [hnode] at h
      exact error_of_any (fun sub hsub e => ih sub hsub) h

/-! ### Monotonicity -/

/-- True, or a look-up raises. -/
def HoldsOrRaises (param : Json → Json → Except Exc Json) (x : Except Exc Bool) : Prop :=
  x = .ok true ∨ ∃ e, LookUpRaises param e ∧ x = .error e

variable {keep : PyStr → Bool}

/-- The conjunction stops at the first part that is false or raises. -/
theorem all_mono {subs : List Json}
    (ih : ∀ sub ∈ subs, evaluate param (restrict keep sample) sub = .ok true →
      HoldsOrRaises param (evaluate param sample sub))
    (h : evaluateAll param (restrict keep sample) subs = .ok true) :
    HoldsOrRaises param (evaluateAll param sample subs) := by
  induction subs with
  | nil =>
    rw [evaluateAll]
    exact .inl rfl
  | cons p subs hrest =>
    obtain ⟨hp, hsubs⟩ := List.forall_mem_cons.1 ih
    rw [evaluateAll] at h
    obtain ⟨b, hb, h⟩ := bind_eq_ok.1 h
    cases b with
    | false => cases h
    | true =>
      rw [evaluateAll]
      rcases hp hb with hwhole | ⟨e, he, hwhole⟩
      · rw [hwhole]
        exact hrest hsubs h
      · rw [hwhole]
        exact .inr ⟨e, he, rfl⟩

/-- The disjunction stops at the first part that is true or raises, which on the whole sample may be
an earlier one. -/
theorem any_mono {subs : List Json}
    (ih : ∀ sub ∈ subs, evaluate param (restrict keep sample) sub = .ok true →
      HoldsOrRaises param (evaluate param sample sub))
    (herr : ∀ sub ∈ subs, ∀ e, evaluate param sample sub = .error e → LookUpRaises param e)
    (h : evaluateAny param (restrict keep sample) subs = .ok true) :
    HoldsOrRaises param (evaluateAny param sample subs) := by
  induction subs with
  | nil =>
    rw [evaluateAny] at h
    cases h
  | cons p subs hrest =>
    obtain ⟨hp, hsubs⟩ := List.forall_mem_cons.1 ih
    obtain ⟨hpe, hsubse⟩ := List.forall_mem_cons.1 herr
    rw [evaluateAny] at h
    obtain ⟨b, hb, h⟩ := bind_eq_ok.1 h
    rw [evaluateAny]
    cases hwhole : evaluate param sample p with
    | error e => exact .inr ⟨e, hpe e hwhole, rfl⟩
    | ok whole =>
      cases whole with
      | true => exact .inl rfl
      | false =>
        cases b with
        | false => exact hrest hsubs hsubse h
        -- true on the part of the sample, so it is not false on the whole
        | true =>
          rcases hp hb with hp | ⟨e, -, hp⟩
          · cases hwhole.symm.trans hp
          · cases hwhole.symm.trans hp

/-- **What holds on a part of the sample holds on the whole**, unless a look-up raises there. -/
theorem holdsOrRaises_of_restrict {p : Json} (hp : Accepted p)
    (h : evaluate param (restrict keep sample) p = .ok true) :
    HoldsOrRaises param (evaluate param sample p) := by
  induction hp with
  | leaf hleaf hfield hop hvalue =>
    rw [evaluate_leaf hleaf, evaluateLeaf, hfield] at *
    dsimp only at *
    cases hpart : fieldOf (restrict keep sample) _ with
    | none =>
      rw [hpart] at h
      cases h
    | some actual =>
      rw [hpart] at h
      rw [fieldOf_restrict hpart]
      exact .inl h
  | node hkey hsubs hne hall ih =>
    have herr : ∀ sub ∈ _, ∀ e, evaluate param sample sub = .error e → LookUpRaises param e :=
      fun sub hsub e => lookUpRaises_of_error (hall sub hsub)
    have hnode := @evaluate_node param _ _ _ hkey hsubs
    rcases hnode with hnode | hnode
    · rw [hnode] at *
      exact all_mono ih h
    · rw [hnode] at *
      exact any_mono ih herr h

/-- **Nothing holds on the empty sample**: a connective has at least one part. -/
theorem evaluate_empty {p : Json} (hp : Accepted p) : evaluate param [] p = .ok false := by
  induction hp with
  | leaf hleaf hfield hop hvalue =>
    rw [evaluate_leaf hleaf, evaluateLeaf, hfield]
    dsimp only
    rw [fieldOf_nil]
  | @node p key subs hkey hsubs hne hall ih =>
    have hnode := @evaluate_node param _ _ _ hkey hsubs
    rcases hnode with hnode | hnode
    · obtain ⟨sub, rest, rfl⟩ := List.exists_cons_of_ne_nil hne
      rw [hnode, evaluateAll, ih sub List.mem_cons_self]
      rfl
    · rw [hnode]
      clear hnode hsubs hall hne
      induction subs with
      | nil => rw [evaluateAny]
      | cons sub rest hrest =>
        rw [evaluateAny, ih sub List.mem_cons_self]
        exact hrest fun sub hsub => ih sub (List.mem_cons_of_mem _ hsub)

end Evaluation

/-- **Absence of data never confirms recovery.** -/
theorem absence_never_confirms (p : Json) (place : PyStr) (h : validate_pred p place = .ok ())
    (param : Json → Json → Except Exc Json) :
    (∀ (sample : Fields) (keep : PyStr → Bool),
      evaluate param (restrict keep sample) p = .ok true →
        evaluate param sample p = .ok true ∨
          ∃ e, e ≠ .other .typeError ∧ (∃ pid key, param pid key = .error e) ∧
            evaluate param sample p = .error e) ∧
      evaluate param [] p = .ok false := by
  have hp := accepted_of_validate p h
  refine ⟨fun sample keep hpart => ?_, evaluate_empty hp⟩
  rcases holdsOrRaises_of_restrict hp hpart with hwhole | ⟨e, ⟨hne, hraise⟩, hwhole⟩
  · exact .inl hwhole
  · exact .inr ⟨e, hne, hraise, hwhole⟩

/-- Two accepted comparisons, the first with a parameter. -/
def eitherField : Json :=
  .obj [(py "any_of", .arr
    [.obj [(py "field", .str (py "health.slots_behind")), (py "op", .str (py "lt")),
      (py "value", .obj [(py "param", .str (py "P-99"))])],
    .obj [(py "field", .str (py "service.active")), (py "op", .str (py "eq")),
      (py "value", .bool true)]])]

/-- What two commands returned. -/
def bothCommands : Fields :=
  [(py "health", .obj [(py "slots_behind", .int 3)]), (py "service", .obj [(py "active", .bool true)])]

/-- The first comparison is not read where its field is missing, and raises where it is there. -/
theorem parameter_missing :
    ¬ ∀ (p : Json) (place : PyStr), validate_pred p place = .ok () →
      ∀ (param : Json → Json → Except Exc Json),
        (∀ (sample : Fields) (keep : PyStr → Bool),
          evaluate param (restrict keep sample) p = .ok true → evaluate param sample p = .ok true) ∧
        evaluate param [] p = .ok false := by
  intro h
  have hwhole := (h eitherField (py "r1") (by decide +kernel) (bundleParam (.obj []))).1 bothCommands
    (fun cid => cid == py "service") (by decide +kernel)
  revert hwhole
  decide +kernel

/-- A comparison that holds on a part of a sample and on the whole of it. -/
theorem absence_never_confirms_at :
    evaluate (bundleParam (.obj [(py "P-99", .int 5)])) bothCommands eitherField = .ok true ∧
      evaluate (bundleParam (.obj [(py "P-99", .int 5)])) [] eitherField = .ok false := by
  have h := absence_never_confirms eitherField (py "r1") (by decide +kernel)
    (bundleParam (.obj [(py "P-99", .int 5)]))
  refine ⟨?_, h.2⟩
  rcases h.1 bothCommands (fun cid => cid == py "service") (by decide +kernel) with hwhole |
    ⟨e, -, -, hraise⟩
  · exact hwhole
  · revert hraise
    have : evaluate (bundleParam (.obj [(py "P-99", .int 5)])) bothCommands eitherField = .ok true := by
      decide +kernel
    rw [this]
    exact fun hraise => nomatch hraise

end Valops.Rules
