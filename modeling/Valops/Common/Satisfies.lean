import Valops.Common.Schema
import Valops.Py.Dumps
import Valops.Py.Regex

/-!
# What a schema means

A schema's meaning is stated without the validator: which values satisfy it, given a reading of the
three things it takes from elsewhere, which values are equal, what `$` matches, and when a number
keeps a bound. JSON Schema and the validator read the same schema in two ways: Python takes `True` for
1, its `$` also matches before a newline at the end, and NaN is below no bound.

Main results: `validate_iff` (the validator decides Python's reading) and `right_iff`, when that is the
reading of JSON Schema.
-/

set_option autoImplicit false

namespace Valops

open Py

/-! ## Schemas with their regular expressions -/

/-- A pattern: its text, and the regular expression it is, given what `$` matches. -/
structure RePattern where
  source : PyStr
  regex : (List Nat → List Nat → Bool) → Regex Nat

/-- Whether a search finds the pattern. -/
def RePattern.found (p : RePattern) (dollar : List Nat → List Nat → Bool) (s : PyStr) : Bool :=
  ((p.regex dollar).search s).isSome

/-- `$` in Python: the end, or before a newline at the end. -/
def pyDollar (_ after : List Nat) : Bool := decide (after = [] ∨ after = [10])

/-- `$` in JSON Schema: the end. -/
def endDollar (_ after : List Nat) : Bool := after.isEmpty

/-- The pattern as the validator searches for it. -/
def RePattern.python (p : RePattern) : Pattern := ⟨p.source, p.found pyDollar⟩

/-- A schema whose patterns are regular expressions; the pattern among the checks is not used. -/
inductive PatternSchema where
  | node (checks : Checks) (pattern : Option RePattern) (items : Option PatternSchema)
    (properties : List (PyStr × PatternSchema))

namespace PatternSchema

/-- Induction over a schema. -/
theorem ind {P : PatternSchema → Prop}
    (node : ∀ c pattern items props, (∀ s, items = some s → P s) → (∀ p ∈ props, P p.2) →
      P (.node c pattern items props)) (s : PatternSchema) : P s :=
  @PatternSchema.rec P (fun o => ∀ s, o = some s → P s) (fun ps => ∀ p ∈ ps, P p.2) (fun p => P p.2)
    (fun c pattern items props hitems hprops => node c pattern items props hitems hprops)
    (fun _ h => nomatch h)
    (fun _ hs _ heq => Option.some.inj heq ▸ hs)
    (fun _ h => absurd h List.not_mem_nil)
    (fun _ _ hp hps => List.forall_mem_cons.2 ⟨hp, hps⟩)
    (fun _ _ hs => hs) s

mutual

/-- The schema that the validator is given. -/
def schema : PatternSchema → Schema
  | .node c pattern items props =>
    .node { c with pattern := pattern.map RePattern.python } (schemaItems items) (schemaProps props)
termination_by structural s => s

def schemaItems : Option PatternSchema → Option Schema
  | none => none
  | some s => some s.schema
termination_by structural s => s

def schemaProps : List (PyStr × PatternSchema) → List (PyStr × Schema)
  | [] => []
  | p :: ps => schemaProp p :: schemaProps ps
termination_by structural ps => ps

def schemaProp : PyStr × PatternSchema → PyStr × Schema
  | (k, s) => (k, s.schema)
termination_by structural p => p

end

theorem schemaProps_eq (ps : List (PyStr × PatternSchema)) :
    schemaProps ps = ps.map fun p => (p.1, p.2.schema) := by
  induction ps with
  | nil => rfl
  | cons p ps ih =>
    obtain ⟨k, s⟩ := p
    rw [schemaProps, schemaProp, ih]
    rfl

end PatternSchema

/-! ## Readings -/

/-- What a schema takes from elsewhere. -/
structure Reading where
  equal : Json → Json → Bool
  dollar : List Nat → List Nat → Bool
  atLeast : Json → Json → Bool

mutual

/-- Equality of JSON values: numbers by their value, and no number equals a boolean. -/
def jsonEq : Json → Json → Bool
  | .null, w => match w with | .null => true | _ => false
  | .bool b, w => match w with | .bool c => b == c | _ => false
  | .str s, w => w.eqStr s
  | .arr xs, w => match w with | .arr ys => jsonEqItems xs ys | _ => false
  | .obj kvs, w => match w with | .obj kws => jsonEqFields kvs kws | _ => false
  | .int z, w => Ty.number.matches w && Json.numEq (.int z) w
  | .float x, w => Ty.number.matches w && Json.numEq (.float x) w
termination_by structural v => v

def jsonEqItems : List Json → List Json → Bool
  | [], ys => ys.isEmpty
  | x :: xs, ys => match ys with | y :: ys => jsonEq x y && jsonEqItems xs ys | [] => false
termination_by structural xs => xs

def jsonEqFields : List (PyStr × Json) → List (PyStr × Json) → Bool
  | [], kws => kws.isEmpty
  | kv :: kvs, kws =>
    match kws with | kw :: kws => jsonEqField kv kw && jsonEqFields kvs kws | [] => false
termination_by structural kvs => kvs

def jsonEqField : PyStr × Json → PyStr × Json → Bool
  | (k, v), kw => k == kw.1 && jsonEq v kw.2
termination_by structural kv => kv

end

namespace Reading

/-- As the validator reads a schema. -/
def python : Reading := ⟨Json.pyEq, pyDollar, fun v k => !(v.pyLt k).getD false⟩

/-- As JSON Schema is meant, booleans being no numbers. -/
def json : Reading := ⟨jsonEq, endDollar, fun v k => (k.pyLe v).getD false⟩

end Reading

/-- A value meets the checks of a node, its items and properties aside. -/
structure Meets (ρ : Reading) (c : Checks) (pattern : Option RePattern) (props : List PyStr)
    (v : Json) : Prop where
  type : c.types = [] ∨ ∃ ty ∈ c.types, ty.matches v = true
  const : ∀ k, c.const = some k → ρ.equal v k = true
  enum : ∀ ks, c.enum = some ks → ∃ k ∈ ks, ρ.equal v k = true
  minLength : ∀ s, v = .str s → c.minLength ≤ s.length
  maxLength : ∀ s n, v = .str s → c.maxLength = some n → s.length ≤ n
  pattern : ∀ s p, v = .str s → pattern = some p → p.found ρ.dollar s = true
  blank : ∀ s, v = .str s → 0 < c.minLength → s.isBlank = false
  minimum : ∀ k, Ty.number.matches v = true → c.minimum = some k → ρ.atLeast v k = true
  maximum : ∀ k, Ty.number.matches v = true → c.maximum = some k → ρ.atLeast k v = true
  minItems : ∀ xs, v = .arr xs → c.minItems ≤ xs.length
  maxItems : ∀ xs n, v = .arr xs → c.maxItems = some n → xs.length ≤ n
  required : ∀ kvs, v = .obj kvs → ∀ k ∈ c.required, (Json.lookup k kvs).isSome = true
  additional : ∀ kvs, v = .obj kvs → c.additionalProperties = false → ∀ kv ∈ kvs, kv.1 ∈ props

/-- A value satisfies a schema. -/
inductive Satisfies (ρ : Reading) : PatternSchema → Json → Prop
  | node {c : Checks} {pattern : Option RePattern} {items : Option PatternSchema}
      {props : List (PyStr × PatternSchema)} {v : Json} :
      Meets ρ c pattern (props.map Prod.fst) v →
      (∀ s xs, items = some s → v = .arr xs → ∀ x ∈ xs, Satisfies ρ s x) →
      (∀ p ∈ props, ∀ kvs x, v = .obj kvs → Json.lookup p.1 kvs = some x → Satisfies ρ p.2 x) →
      Satisfies ρ (.node c pattern items props) v

/-- At one node, the two readings of the schema agree about a value. -/
structure Alike (ρ σ : Reading) (c : Checks) (pattern : Option RePattern) (v : Json) : Prop where
  const : ∀ k, c.const = some k → (ρ.equal v k = true ↔ σ.equal v k = true)
  enum : ∀ ks, c.enum = some ks →
    ((∃ k ∈ ks, ρ.equal v k = true) ↔ ∃ k ∈ ks, σ.equal v k = true)
  pattern : ∀ s p, v = .str s → pattern = some p →
    (p.found ρ.dollar s = true ↔ p.found σ.dollar s = true)
  minimum : ∀ k, Ty.number.matches v = true → c.minimum = some k →
    (ρ.atLeast v k = true ↔ σ.atLeast v k = true)
  maximum : ∀ k, Ty.number.matches v = true → c.maximum = some k →
    (ρ.atLeast k v = true ↔ σ.atLeast k v = true)

/-- The two readings agree about a value and about every part of it that the schema reaches. -/
inductive Agree (ρ σ : Reading) : PatternSchema → Json → Prop
  | node {c : Checks} {pattern : Option RePattern} {items : Option PatternSchema}
      {props : List (PyStr × PatternSchema)} {v : Json} :
      Alike ρ σ c pattern v →
      (∀ s xs, items = some s → v = .arr xs → ∀ x ∈ xs, Agree ρ σ s x) →
      (∀ p ∈ props, ∀ kvs x, v = .obj kvs → Json.lookup p.1 kvs = some x → Agree ρ σ p.2 x) →
      Agree ρ σ (.node c pattern items props) v

section Readings

variable {ρ σ : Reading} {c : Checks} {pattern : Option RePattern} {items : Option PatternSchema}
  {props : List (PyStr × PatternSchema)} {keys : List PyStr} {s : PatternSchema} {v : Json}

theorem Meets.of_alike (h : Meets ρ c pattern keys v) (ha : Alike ρ σ c pattern v) :
    Meets σ c pattern keys v where
  type := h.type
  const k hk := (ha.const k hk).1 (h.const k hk)
  enum ks hks := (ha.enum ks hks).1 (h.enum ks hks)
  minLength := h.minLength
  maxLength := h.maxLength
  pattern s p hs hp := (ha.pattern s p hs hp).1 (h.pattern s p hs hp)
  blank := h.blank
  minimum k hv hk := (ha.minimum k hv hk).1 (h.minimum k hv hk)
  maximum k hv hk := (ha.maximum k hv hk).1 (h.maximum k hv hk)
  minItems := h.minItems
  maxItems := h.maxItems
  required := h.required
  additional := h.additional

theorem Meets.alike (h : Meets ρ c pattern keys v) (h' : Meets σ c pattern keys v) :
    Alike ρ σ c pattern v where
  const k hk := iff_of_true (h.const k hk) (h'.const k hk)
  enum ks hks := iff_of_true (h.enum ks hks) (h'.enum ks hks)
  pattern s p hs hp := iff_of_true (h.pattern s p hs hp) (h'.pattern s p hs hp)
  minimum k hv hk := iff_of_true (h.minimum k hv hk) (h'.minimum k hv hk)
  maximum k hv hk := iff_of_true (h.maximum k hv hk) (h'.maximum k hv hk)

theorem Alike.symm (h : Alike ρ σ c pattern v) : Alike σ ρ c pattern v where
  const k hk := (h.const k hk).symm
  enum ks hks := (h.enum ks hks).symm
  pattern s p hs hp := (h.pattern s p hs hp).symm
  minimum k hv hk := (h.minimum k hv hk).symm
  maximum k hv hk := (h.maximum k hv hk).symm

theorem Agree.symm (h : Agree ρ σ s v) : Agree σ ρ s v := by
  induction h with
  | node ha _ _ ihitems ihprops =>
    exact .node ha.symm ihitems ihprops

/-- Where two readings agree, what satisfies the one satisfies the other. -/
theorem Satisfies.of_agree (ha : Agree ρ σ s v) (h : Satisfies ρ s v) : Satisfies σ s v := by
  induction ha with
  | node ha _ _ ihitems ihprops =>
    cases h with
    | node hm hitems hprops =>
      refine .node (hm.of_alike ha) ?_ ?_
      · intro s xs hs hv x hx
        exact ihitems s xs hs hv x hx (hitems s xs hs hv x hx)
      · intro p hp kvs x hv hx
        exact ihprops p hp kvs x hv hx (hprops p hp kvs x hv hx)

/-- What satisfies both is read alike. -/
theorem Satisfies.agree (h : Satisfies ρ s v) (h' : Satisfies σ s v) : Agree ρ σ s v := by
  induction h with
  | node hm _ _ ihitems ihprops =>
    cases h' with
    | node hm' hitems' hprops' =>
      refine .node (hm.alike hm') ?_ ?_
      · intro s xs hs hv x hx
        exact ihitems s xs hs hv x hx (hitems' s xs hs hv x hx)
      · intro p hp kvs x hv hx
        exact ihprops p hp kvs x hv hx (hprops' p hp kvs x hv hx)

/-- **When two readings come to the same result**: they agree everywhere, or neither is satisfied. -/
theorem satisfies_iff_iff : (Satisfies ρ s v ↔ Satisfies σ s v) ↔
    Agree ρ σ s v ∨ ¬ Satisfies ρ s v ∧ ¬ Satisfies σ s v := by
  constructor
  · intro h
    by_cases hρ : Satisfies ρ s v
    · exact .inl (hρ.agree (h.1 hρ))
    · exact .inr ⟨hρ, fun hσ => hρ (h.2 hσ)⟩
  · rintro (ha | ⟨hρ, hσ⟩)
    · exact ⟨Satisfies.of_agree ha, Satisfies.of_agree ha.symm⟩
    · exact iff_of_false hρ hσ

end Readings

/-! ## What the validator decides -/

section Checks

variable {c : Checks} {v : Json} {path : PyStr} {keys : List PyStr}

theorem typeProblem_eq_none :
    c.typeProblem v path = none ↔ c.types = [] ∨ ∃ ty ∈ c.types, ty.matches v = true := by
  rw [Checks.typeProblem, problem_eq_none, Bool.and_eq_false_iff, Bool.not_eq_false',
    Bool.not_eq_false', List.isEmpty_iff, List.any_eq_true]

theorem valueProblem_eq_none : c.valueProblem v path = none ↔
    (∀ k, c.const = some k → v.pyEq k = true) ∧
    ∀ ks, c.enum = some ks → ∃ k ∈ ks, v.pyEq k = true := by
  simp only [Checks.valueProblem, orElse_none, Option.bind_eq_none_iff, problem_eq_none,
    Bool.not_eq_false', List.any_eq_true]

theorem stringProblem_eq_none : c.stringProblem v path = none ↔ ∀ s, v = .str s →
    c.minLength ≤ s.length ∧ (∀ n, c.maxLength = some n → s.length ≤ n) ∧
    (∀ p, c.pattern = some p → p.search s = true) ∧ (0 < c.minLength → s.isBlank = false) := by
  unfold Checks.stringProblem
  cases v with
  | str s =>
    simp only [orElse_none, Option.bind_eq_none_iff, problem_eq_none, decide_eq_false_iff_not, not_lt,
      Bool.not_eq_false', Bool.and_eq_false_iff, Json.str.injEq, forall_eq']
    refine and_congr_right fun _ => and_congr_right fun _ => and_congr_right fun _ => ?_
    constructor
    · rintro (h | h) hpos
      · exact h
      · exact absurd hpos (not_lt.2 h)
    · intro h
      by_cases hpos : 0 < c.minLength
      · exact .inl (h hpos)
      · exact .inr (not_lt.1 hpos)
  | null => simp
  | bool b => simp
  | int z => simp
  | float x => simp
  | arr xs => simp
  | obj kvs => simp

theorem numberProblem_eq_none : c.numberProblem v path = none ↔ (Ty.number.matches v = true →
    (∀ k, c.minimum = some k → (v.pyLt k).getD false = false) ∧
    ∀ k, c.maximum = some k → (k.pyLt v).getD false = false) := by
  unfold Checks.numberProblem
  split
  · rename_i h
    simp only [orElse_none, Option.bind_eq_none_iff, problem_eq_none, h, true_implies]
  · rename_i h
    exact iff_of_true rfl fun hv => absurd hv h

theorem lengthProblem_eq_none : c.lengthProblem v path = none ↔ ∀ xs, v = .arr xs →
    c.minItems ≤ xs.length ∧ ∀ n, c.maxItems = some n → xs.length ≤ n := by
  unfold Checks.lengthProblem
  cases v with
  | arr xs =>
    simp only [orElse_none, Option.bind_eq_none_iff, problem_eq_none, decide_eq_false_iff_not, not_lt,
      Json.arr.injEq, forall_eq']
  | null => simp
  | bool b => simp
  | int z => simp
  | float x => simp
  | str s => simp
  | obj kvs => simp

theorem keysProblem_eq_none : c.keysProblem keys v path = none ↔ ∀ kvs, v = .obj kvs →
    (∀ k ∈ c.required, (Json.lookup k kvs).isSome = true) ∧
    (c.additionalProperties = false → ∀ kv ∈ kvs, kv.1 ∈ keys) := by
  unfold Checks.keysProblem
  cases v with
  | obj kvs =>
    have hextra : ((!c.additionalProperties &&
        !((kvs.map Prod.fst).filter fun k => !decide (k ∈ keys)).isEmpty) = false) ↔
        (c.additionalProperties = false → ∀ kv ∈ kvs, kv.1 ∈ keys) := by
      cases c.additionalProperties with
      | true => simp
      | false => simp [List.filter_eq_nil_iff]
    have hmissing : ∀ k, (Json.lookup k kvs).isNone = false ↔ (Json.lookup k kvs).isSome = true := by
      intro k
      cases Json.lookup k kvs <;> simp
    simp only [orElse_none, List.findSome?_eq_none_iff, problem_eq_none, hextra, hmissing,
      Json.obj.injEq, forall_eq']
  | null => simp
  | bool b => simp
  | int z => simp
  | float x => simp
  | str s => simp
  | arr xs => simp

end Checks

section Validate

variable {c : Checks} {pattern : Option RePattern} {items : Option PatternSchema}
  {props : List (PyStr × PatternSchema)} {keys : List PyStr} {v : Json} {path : PyStr}

/-- The checks of a node, as they are passed to the validator. -/
def withPattern (c : Checks) (pattern : Option RePattern) : Checks :=
  { c with pattern := pattern.map RePattern.python }

/-- A node's own checks find nothing iff the value meets them as Python reads them. -/
theorem meets_python_iff : Meets .python c pattern keys v ↔
    (withPattern c pattern).typeProblem v path = none ∧
    (withPattern c pattern).valueProblem v path = none ∧
    (withPattern c pattern).stringProblem v path = none ∧
    (withPattern c pattern).numberProblem v path = none ∧
    (withPattern c pattern).lengthProblem v path = none ∧
    (withPattern c pattern).keysProblem keys v path = none := by
  rw [typeProblem_eq_none, valueProblem_eq_none, stringProblem_eq_none, numberProblem_eq_none,
    lengthProblem_eq_none, keysProblem_eq_none]
  have hbound : ∀ b : Bool, (!b) = true ↔ b = false := fun b => by cases b <;> simp
  constructor
  · intro h
    refine ⟨h.type, ⟨h.const, h.enum⟩, fun s hs => ?_, fun hv => ?_, fun xs hxs => ?_, fun kvs hkvs => ?_⟩
    · refine ⟨h.minLength s hs, fun n hn => h.maxLength s n hs hn, fun p hp => ?_, h.blank s hs⟩
      obtain ⟨q, hq, rfl⟩ := Option.map_eq_some_iff.1 hp
      exact h.pattern s q hs hq
    · exact ⟨fun k hk => (hbound _).1 (h.minimum k hv hk), fun k hk => (hbound _).1 (h.maximum k hv hk)⟩
    · exact ⟨h.minItems xs hxs, fun n hn => h.maxItems xs n hxs hn⟩
    · exact ⟨h.required kvs hkvs, h.additional kvs hkvs⟩
  · rintro ⟨htype, ⟨hconst, henum⟩, hstring, hnumber, hlength, hkeys⟩
    exact
      { type := htype
        const := hconst
        enum := henum
        minLength := fun s hs => (hstring s hs).1
        maxLength := fun s n hs hn => (hstring s hs).2.1 n hn
        pattern := fun s p hs hp =>
          (hstring s hs).2.2.1 p.python (Option.map_eq_some_iff.2 ⟨p, hp, rfl⟩)
        blank := fun s hs => (hstring s hs).2.2.2
        minimum := fun k hv hk => (hbound _).2 ((hnumber hv).1 k hk)
        maximum := fun k hv hk => (hbound _).2 ((hnumber hv).2 k hk)
        minItems := fun xs hxs => (hlength xs hxs).1
        maxItems := fun xs n hxs hn => (hlength xs hxs).2 n hn
        required := fun kvs hkvs => (hkeys kvs hkvs).1
        additional := fun kvs hkvs => (hkeys kvs hkvs).2 }

theorem eachItem_eq_none {f : Json → PyStr → Option Msg} {Q : Json → Prop}
    (h : ∀ x p, f x p = none ↔ Q x) {xs : List Json} : ∀ {i : Nat},
      eachItem f path i xs = none ↔ ∀ x ∈ xs, Q x := by
  induction xs with
  | nil => exact fun {_} => iff_of_true rfl fun _ hx => absurd hx List.not_mem_nil
  | cons x xs ih =>
    intro i
    rw [eachItem, orElse_none, h, ih, List.forall_mem_cons]

theorem validateProps_eq_none {ps : List (PyStr × Schema)} :
    validateProps ps v path = none ↔ ∀ p ∈ ps, validateProp p v path = none := by
  induction ps with
  | nil => exact iff_of_true (by rw [validateProps]) fun _ hp => absurd hp List.not_mem_nil
  | cons p ps ih => rw [validateProps, orElse_none, ih, List.forall_mem_cons]

/-- **What the validator decides**: whether the value satisfies the schema as Python reads it.
Induction on the schema. -/
theorem validate_iff (s : PatternSchema) : ∀ (v : Json) (path : PyStr),
    validate s.schema v path = none ↔ Satisfies .python s v := by
  induction s using PatternSchema.ind with
  | node c pattern items props hitems hprops =>
    intro v path
    have hkeys : (PatternSchema.schemaProps props).map Prod.fst = props.map Prod.fst := by
      rw [PatternSchema.schemaProps_eq, List.map_map]
      rfl
    have hmeets := @meets_python_iff c pattern (props.map Prod.fst) v path
    have hlist : validateItems (PatternSchema.schemaItems items) v path = none ↔
        ∀ s xs, items = some s → v = .arr xs → ∀ x ∈ xs, Satisfies .python s x := by
      cases items with
      | none => exact iff_of_true (by rw [PatternSchema.schemaItems, validateItems]; simp) (by simp)
      | some s =>
        cases v with
        | arr xs =>
          rw [PatternSchema.schemaItems, validateItems, eachItem_eq_none (hitems s rfl)]
          constructor
          · rintro h s' xs' hs hxs
            cases hs
            cases hxs
            exact h
          · intro h
            exact h s xs rfl rfl
        | null => exact iff_of_true rfl (by simp)
        | bool b => exact iff_of_true rfl (by simp)
        | int z => exact iff_of_true rfl (by simp)
        | float x => exact iff_of_true rfl (by simp)
        | str t => exact iff_of_true rfl (by simp)
        | obj kvs => exact iff_of_true rfl (by simp)
    have hfields : validateProps (PatternSchema.schemaProps props) v path = none ↔
        ∀ p ∈ props, ∀ kvs x, v = .obj kvs → Json.lookup p.1 kvs = some x →
          Satisfies .python p.2 x := by
      rw [validateProps_eq_none, PatternSchema.schemaProps_eq, List.forall_mem_map]
      refine forall₂_congr fun p hp => ?_
      cases v with
      | obj kvs =>
        rw [validateProp]
        cases hx : Json.lookup p.1 kvs with
        | none =>
          refine iff_of_true rfl fun kvs' x hkvs hx' => ?_
          cases hkvs
          rw [hx] at hx'
          cases hx'
        | some x =>
          rw [hprops p hp]
          constructor
          · intro h kvs' x' hkvs hx'
            cases hkvs
            rw [hx] at hx'
            cases hx'
            exact h
          · intro h
            exact h kvs x rfl hx
      | null => exact iff_of_true rfl (by simp)
      | bool b => exact iff_of_true rfl (by simp)
      | int z => exact iff_of_true rfl (by simp)
      | float x => exact iff_of_true rfl (by simp)
      | str t => exact iff_of_true rfl (by simp)
      | arr xs => exact iff_of_true rfl (by simp)
    rw [PatternSchema.schema, validate]
    simp only [orElse_none, hlist, hfields, hkeys]
    constructor
    · rintro ⟨h1, h2, h3, h4, h5, h6, h7, h8⟩
      exact .node (hmeets.2 ⟨h1, h2, h3, h4, h5, h7⟩) h6 h8
    · intro h
      cases h with
      | node hm h6 h8 =>
        obtain ⟨h1, h2, h3, h4, h5, h7⟩ := hmeets.1 hm
        exact ⟨h1, h2, h3, h4, h5, h6, h7, h8⟩

end Validate

/-! ## What it raises -/

/-- Whether the piece of a message can be formatted: an integer of more than 4300 digits cannot. -/
def Part.printable : Part → Bool
  | .str v => v.printable
  | .repr v => v.printable
  | .text _ => true
  | .code _ => true

/-- What leaves `validate`: `SchemaError` with its message, or what formatting the message raises. -/
inductive Raised where
  | schemaError (m : Msg)
  | valueError

/-- `validate(value, schema)`. -/
def validateCall (s : Schema) (v : Json) : Except Raised Unit :=
  match validate s v (py "$") with
  | none => .ok ()
  | some m => .error (if m.all Part.printable then .schemaError m else .valueError)

/-- A schema of the subset: its bounds are numbers, and no integer in it has more than 4300 digits. -/
inductive Supported : PatternSchema → Prop
  | node {c : Checks} {pattern : Option RePattern} {items : Option PatternSchema}
      {props : List (PyStr × PatternSchema)} :
      (∀ k, c.const = some k → k.printable = true) →
      (∀ ks, c.enum = some ks → ∀ k ∈ ks, k.printable = true) →
      (∀ k, c.minimum = some k ∨ c.maximum = some k → Ty.number.matches k = true ∧ k.printable = true) →
      Json.printable (.int c.minItems) = true →
      (∀ n, c.maxItems = some n → Json.printable (.int n) = true) →
      (∀ s, items = some s → Supported s) → (∀ p ∈ props, Supported p.2) →
      Supported (.node c pattern items props)

/-- `validate` returns normally iff the value satisfies the schema, and raises `SchemaError` and nothing
else where it does not. -/
def Right (s : PatternSchema) (v : Json) : Prop :=
  (validateCall s.schema v = .ok () ↔ Satisfies .json s v) ∧
    (¬ Satisfies .json s v → ∃ m, validateCall s.schema v = .error (.schemaError m))

section Raises

variable {c : Checks} {pattern : Option RePattern} {s : PatternSchema} {v : Json} {path : PyStr}
  {keys : List PyStr} {m : Msg}

theorem orElse_some {a b : Option Msg} (h : (a <|> b) = some m) : a = some m ∨ b = some m := by
  cases a with
  | none => exact .inr h
  | some x => exact .inl h

theorem problem_printable {bad : Bool} {text : Msg} (h : problem bad path text = some m)
    (ht : text.all Part.printable = true) : m.all Part.printable = true := by
  unfold problem at h
  split at h
  · cases h
    exact ht
  · cases h

/-- The texts of a node's own checks can be formatted. -/
theorem own_printable (hconst : ∀ k, c.const = some k → k.printable = true)
    (henum : ∀ ks, c.enum = some ks → ∀ k ∈ ks, k.printable = true)
    (hbounds : ∀ k, c.minimum = some k ∨ c.maximum = some k → k.printable = true)
    (hmin : Json.printable (.int c.minItems) = true)
    (hmax : ∀ n, c.maxItems = some n → Json.printable (.int n) = true)
    (h : c.typeProblem v path = some m ∨ c.valueProblem v path = some m ∨
      c.stringProblem v path = some m ∨ c.numberProblem v path = some m ∨
      c.lengthProblem v path = some m ∨ c.keysProblem keys v path = some m) :
    m.all Part.printable = true := by
  rcases h with h | h | h | h | h | h
  · refine problem_printable h ?_
    simp [Part.printable]
  · rcases orElse_some h with h | h
    · obtain ⟨k, hk, h⟩ := Option.bind_eq_some_iff.1 h
      refine problem_printable h ?_
      simp [Part.printable, hconst k hk]
    · obtain ⟨ks, hks, h⟩ := Option.bind_eq_some_iff.1 h
      refine problem_printable h ?_
      have hall : Json.printable (.arr ks) = true := by
        rw [Json.printable, Json.printableItems_iff]
        exact henum ks hks
      simp [Part.printable, hall]
  · unfold Checks.stringProblem at h
    split at h
    · rcases orElse_some h with h | h
      · exact problem_printable h rfl
      rcases orElse_some h with h | h
      · obtain ⟨n, _, h⟩ := Option.bind_eq_some_iff.1 h
        exact problem_printable h rfl
      rcases orElse_some h with h | h
      · obtain ⟨p, _, h⟩ := Option.bind_eq_some_iff.1 h
        exact problem_printable h rfl
      · exact problem_printable h rfl
    · cases h
  · unfold Checks.numberProblem at h
    split at h
    · rcases orElse_some h with h | h
      · obtain ⟨k, hk, h⟩ := Option.bind_eq_some_iff.1 h
        refine problem_printable h ?_
        simp [Part.printable, hbounds k (.inl hk)]
      · obtain ⟨k, hk, h⟩ := Option.bind_eq_some_iff.1 h
        refine problem_printable h ?_
        simp [Part.printable, hbounds k (.inr hk)]
    · cases h
  · unfold Checks.lengthProblem at h
    split at h
    · rcases orElse_some h with h | h
      · refine problem_printable h ?_
        simp [Part.printable, hmin]
      · obtain ⟨n, hn, h⟩ := Option.bind_eq_some_iff.1 h
        refine problem_printable h ?_
        simp [Part.printable, hmax n hn]
    · cases h
  · unfold Checks.keysProblem at h
    split at h
    · rcases orElse_some h with h | h
      · obtain ⟨k, _, h⟩ := List.exists_of_findSome?_eq_some h
        exact problem_printable h rfl
      · have hkeys : ∀ ks : List PyStr, Json.printable (.arr (ks.map .str)) = true := by
          intro ks
          rw [Json.printable, Json.printableItems_iff]
          intro k hk
          obtain ⟨t, _, rfl⟩ := List.mem_map.1 hk
          rfl
        refine problem_printable h ?_
        simp [Part.printable, hkeys]
    · cases h

theorem eachItem_some {f : Json → PyStr → Option Msg} {xs : List Json} : ∀ {i : Nat},
    eachItem f path i xs = some m → ∃ x ∈ xs, ∃ p, f x p = some m := by
  induction xs with
  | nil => exact fun h => nomatch h
  | cons x xs ih =>
    intro i h
    rcases orElse_some h with h | h
    · exact ⟨x, List.mem_cons_self, _, h⟩
    · obtain ⟨y, hy, p, hp⟩ := ih h
      exact ⟨y, List.mem_cons_of_mem x hy, p, hp⟩

theorem validateProps_some {ps : List (PyStr × Schema)} (h : validateProps ps v path = some m) :
    ∃ p ∈ ps, validateProp p v path = some m := by
  induction ps with
  | nil =>
    rw [validateProps] at h
    cases h
  | cons p ps ih =>
    rw [validateProps] at h
    rcases orElse_some h with h | h
    · exact ⟨p, List.mem_cons_self, h⟩
    · obtain ⟨q, hq, h⟩ := ih h
      exact ⟨q, List.mem_cons_of_mem p hq, h⟩

/-- **Every text of a supported schema's errors can be formatted.** Induction on the schema. -/
theorem validate_printable (hs : Supported s) : ∀ {v : Json} {path : PyStr},
    validate s.schema v path = some m → m.all Part.printable = true := by
  induction hs with
  | @node c pattern items props hconst henum hbounds hmin hmax _ _ ihitems ihprops =>
    intro v path h
    have hown := @own_printable (withPattern c pattern) v path
      ((PatternSchema.schemaProps props).map Prod.fst) m hconst henum (fun k hk => (hbounds k hk).2) hmin hmax
    rw [PatternSchema.schema, validate] at h
    rcases orElse_some h with h | h
    · exact hown (.inl h)
    rcases orElse_some h with h | h
    · exact hown (.inr (.inl h))
    rcases orElse_some h with h | h
    · exact hown (.inr (.inr (.inl h)))
    rcases orElse_some h with h | h
    · exact hown (.inr (.inr (.inr (.inl h))))
    rcases orElse_some h with h | h
    · exact hown (.inr (.inr (.inr (.inr (.inl h)))))
    rcases orElse_some h with h | h
    · cases items with
      | none =>
        rw [PatternSchema.schemaItems, validateItems] at h
        · cases h
        · simp
      | some s =>
        cases v with
        | arr xs =>
          rw [PatternSchema.schemaItems, validateItems] at h
          obtain ⟨x, _, p, hp⟩ := eachItem_some h
          exact ihitems s rfl hp
        | null => cases h
        | bool b => cases h
        | int z => cases h
        | float x => cases h
        | str t => cases h
        | obj kvs => cases h
    rcases orElse_some h with h | h
    · exact hown (.inr (.inr (.inr (.inr (.inr h)))))
    · obtain ⟨q, hq, h⟩ := validateProps_some h
      rw [PatternSchema.schemaProps_eq] at hq
      obtain ⟨p, hp, rfl⟩ := List.mem_map.1 hq
      cases v with
      | obj kvs =>
        rw [validateProp] at h
        split at h
        · exact ihprops p hp h
        · cases h
      | null => cases h
      | bool b => cases h
      | int z => cases h
      | float x => cases h
      | str t => cases h
      | arr xs => cases h

theorem validateCall_eq_ok {t : Schema} : validateCall t v = .ok () ↔ validate t v (py "$") = none := by
  rw [validateCall]
  split
  · rename_i h
    simp [h]
  · rename_i m h
    simp [h]

theorem validateCall_ok : validateCall s.schema v = .ok () ↔ Satisfies .python s v :=
  validateCall_eq_ok.trans (validate_iff s v (py "$"))

/-- **When the validator is right about a value**: the value is equal, matches and is bounded in JSON
Schema's reading wherever it is in Python's, or neither reading accepts it. -/
theorem right_iff (hs : Supported s) (v : Json) : Right s v ↔
    Agree .python .json s v ∨ ¬ Satisfies .python s v ∧ ¬ Satisfies .json s v := by
  rw [← satisfies_iff_iff, Right, validateCall_ok]
  refine ⟨fun h => h.1, fun h => ⟨h, fun hno => ?_⟩⟩
  have hpython : ¬ Satisfies .python s v := fun hp => hno (h.1 hp)
  cases hm : validate s.schema v (py "$") with
  | none => exact absurd ((validate_iff s v _).1 hm) hpython
  | some m =>
    refine ⟨m, ?_⟩
    rw [validateCall, hm]
    simp only [validate_printable hs hm, if_true]

end Raises

/-! ## Anchored patterns -/

section Anchored

variable {source : String} {letters : PyStr} {dollar : List Nat → List Nat → Bool} {s : PyStr}

/-- `^[letters][0-9]+$` as a regular expression. -/
def idRegex (source : String) (letters : PyStr) : RePattern where
  source := py source
  regex dollar := .seqs [.look fun before _ => before.isEmpty, .char fun c => decide (c ∈ letters),
    .plus (.char isDigit), .look dollar]

theorem mem_ends_idRegex {a b : Place Nat} : b ∈ ((idRegex source letters).regex dollar).ends a ↔
    a.before = [] ∧ ∃ c ds tail, a.after = c :: (ds ++ tail) ∧ c ∈ letters ∧ ds ≠ [] ∧
      (∀ d ∈ ds, isDigit d = true) ∧ dollar (c :: ds).reverse tail = true ∧
      b = a.skip (ds.length + 1) := by
  simp only [idRegex, Regex.seqs, Regex.plus, Regex.mem_ends_seq, Regex.mem_ends_look, List.isEmpty_iff]
  constructor
  · rintro ⟨_, ⟨hbefore, rfl⟩, m, hm, q, hq, hdollar, rfl⟩
    obtain ⟨c, rest, hafter, hc, rfl⟩ := Regex.mem_ends_char.1 hm
    obtain ⟨n, rfl, hn, hdigits, hlo, _⟩ := Regex.mem_ends_rep_char.1 hq
    rw [Place.skip_after, hafter] at hn hdigits
    rw [Place.skip_skip] at hdollar ⊢
    refine ⟨hbefore, c, rest.take n, rest.drop n, by rw [List.take_append_drop, hafter],
      of_decide_eq_true hc, ?_, hdigits, ?_, ?_⟩
    · intro hnil
      have hlen := congrArg List.length hnil
      simp only [List.drop_succ_cons, List.drop_zero] at hn
      rw [List.length_take, Nat.min_eq_left hn] at hlen
      simp only [List.length_nil] at hlen
      omega
    · rw [Place.skip_before, Place.skip_after, hafter, hbefore, List.append_nil, Nat.add_comm] at hdollar
      exact hdollar
    · simp only [List.drop_succ_cons, List.drop_zero] at hn
      rw [List.length_take, Nat.min_eq_left hn, Nat.add_comm]
  · rintro ⟨hbefore, c, ds, tail, hafter, hc, hne, hdigits, hdollar, rfl⟩
    refine ⟨a, ⟨hbefore, rfl⟩, a.skip 1, ?_, a.skip (ds.length + 1), ?_, ?_, rfl⟩
    · exact Regex.mem_ends_char.2 ⟨c, ds ++ tail, hafter, decide_eq_true hc, rfl⟩
    · refine Regex.mem_ends_rep_char.2 ⟨ds.length, by rw [Place.skip_skip, Nat.add_comm], ?_, ?_, ?_, by simp⟩
      · rw [Place.skip_after, hafter]
        simp
      · rw [Place.skip_after, hafter]
        simpa using hdigits
      · exact List.length_pos_iff.2 hne
    · rw [Place.skip_before, Place.skip_after, hafter, hbefore]
      simpa using hdollar

/-- What an anchored pattern finds, whatever `$` matches. -/
theorem idRegex_found : (idRegex source letters).found dollar s = true ↔
    ∃ c ds tail, s = c :: (ds ++ tail) ∧ c ∈ letters ∧ ds ≠ [] ∧ (∀ d ∈ ds, isDigit d = true) ∧
      dollar (c :: ds).reverse tail = true := by
  unfold RePattern.found Regex.search
  constructor
  · intro h
    obtain ⟨⟨a, b⟩, hab⟩ := Option.isSome_iff_exists.1 h
    obtain ⟨n, _, rfl, hhere, _⟩ := Regex.searchFrom_eq_some hab
    obtain ⟨hbefore, c, ds, tail, hafter, hrest⟩ := mem_ends_idRegex.1 (List.mem_of_mem_head? hhere)
    have htake : s.take n = [] := by simpa [Place.skip_before] using hbefore
    have hdrop : s.drop n = s := by
      rcases List.take_eq_nil_iff.1 htake with rfl | rfl
      · exact List.drop_zero
      · exact List.drop_nil
    rw [Place.skip_after] at hafter
    exact ⟨c, ds, tail, hdrop ▸ hafter, hrest.1, hrest.2.1, hrest.2.2.1, hrest.2.2.2.1⟩
  · rintro ⟨c, ds, tail, hs, hc, hne, hdigits, hdollar⟩
    rw [Option.isSome_iff_ne_none]
    intro hnone
    have hhere := Regex.searchFrom_eq_none hnone 0 (Nat.zero_le _)
    rw [Place.skip_zero, Regex.here_eq_none] at hhere
    have hmem : (⟨[], s, []⟩ : Place Nat).skip (ds.length + 1) ∈
        ((idRegex source letters).regex dollar).ends ⟨[], s, []⟩ :=
      mem_ends_idRegex.2 ⟨rfl, c, ds, tail, hs, hc, hne, hdigits, hdollar, rfl⟩
    rw [hhere] at hmem
    cases hmem

theorem dropFinalNewline_eq {t : PyStr} : dropFinalNewline s = t ↔
    s = t ++ [10] ∨ s.getLast? ≠ some 10 ∧ s = t := by
  unfold dropFinalNewline
  split
  · next hlast =>
    have hs : s.dropLast ++ [10] = s := List.dropLast_append_getLast? 10 hlast
    constructor
    · rintro rfl
      exact .inl hs.symm
    · rintro (rfl | ⟨hother, _⟩)
      · exact List.dropLast_concat
      · exact absurd hlast hother
  · next hlast =>
    constructor
    · rintro rfl
      exact .inr ⟨hlast, rfl⟩
    · rintro (rfl | ⟨_, rfl⟩)
      · exact absurd List.getLast?_concat hlast
      · rfl

theorem pyDollar_iff {before after : List Nat} :
    pyDollar before after = true ↔ after = [] ∨ after = [10] :=
  decide_eq_true_iff

/-- The patterns that the tools' schemas use are these regular expressions as Python reads them. -/
theorem idRegex_python : (idRegex source letters).python = idPattern source letters := by
  have hsearch (s : PyStr) : (idRegex source letters).found pyDollar s = true ↔
      (idPattern source letters).search s = true := by
    rw [idRegex_found]
    constructor
    · rintro ⟨c, ds, tail, rfl, hc, hne, hdigits, hdollar⟩
      -- the last character before the end, or before the final newline, is a digit
      have hdrop : dropFinalNewline (c :: (ds ++ tail)) = c :: ds := by
        refine dropFinalNewline_eq.2 ?_
        rcases pyDollar_iff.1 hdollar with rfl | rfl
        · refine .inr ⟨fun hlast => ?_, by rw [List.append_nil]⟩
          rw [List.append_nil, List.getLast?_cons, List.getLast?_eq_some_getLast hne] at hlast
          have hten : ds.getLast hne = 10 := Option.some.inj hlast
          have hdigit := hdigits _ (List.getLast_mem hne)
          rw [hten] at hdigit
          cases hdigit
        · exact .inl rfl
      simp only [idPattern, hdrop, Bool.and_eq_true, decide_eq_true_iff, Bool.not_eq_true',
        List.isEmpty_eq_false_iff, List.all_eq_true]
      exact ⟨⟨hc, hne⟩, hdigits⟩
    · intro h
      simp only [idPattern] at h
      split at h
      · next c ds hdrop =>
        simp only [Bool.and_eq_true, decide_eq_true_iff, Bool.not_eq_true', List.isEmpty_eq_false_iff,
          List.all_eq_true] at h
        obtain ⟨⟨hc, hne⟩, hdigits⟩ := h
        rcases dropFinalNewline_eq.1 hdrop with rfl | ⟨_, rfl⟩
        · exact ⟨c, ds, [10], rfl, hc, hne, hdigits, pyDollar_iff.2 (.inr rfl)⟩
        · exact ⟨c, ds, [], by rw [List.append_nil], hc, hne, hdigits, pyDollar_iff.2 (.inl rfl)⟩
      · cases h
  exact congrArg (Pattern.mk (py source)) (funext fun s => Bool.eq_iff_iff.2 (hsearch s))

end Anchored

/-! ### Constants and newlines -/

def hypothesisId : RePattern := idRegex "^h[0-9]+$" (py "h")

def hypothesisSchema : PatternSchema := .node { types := [.string] } (some hypothesisId) none []

/-- `{"const": 1}`. -/
def oneSchema : PatternSchema := .node { const := some (.int 1) } none none []

theorem hypothesisSchema_supported : Supported hypothesisSchema :=
  .node nofun nofun (by rintro k (h | h) <;> cases h) rfl nofun nofun nofun

theorem right_hypothesis : Right hypothesisSchema (.str (py "h12")) ↔
    Agree .python .json hypothesisSchema (.str (py "h12")) ∨
      ¬ Satisfies .python hypothesisSchema (.str (py "h12")) ∧
      ¬ Satisfies .json hypothesisSchema (.str (py "h12")) :=
  right_iff hypothesisSchema_supported _

/-- `True` is taken for 1, and an id may end in a newline. -/
theorem loose_readings :
    (validateCall oneSchema.schema (.bool true) = .ok () ∧ ¬ Right oneSchema (.bool true)) ∧
    validateCall hypothesisSchema.schema (.str (py "h12" ++ [10])) = .ok () ∧
    ¬ Right hypothesisSchema (.str (py "h12" ++ [10])) := by
  have hone : validate oneSchema.schema (.bool true) (py "$") = none := by decide +kernel
  have hid : validate hypothesisSchema.schema (.str (py "h12" ++ [10])) (py "$") = none := by
    decide +kernel
  refine ⟨⟨validateCall_eq_ok.2 hone, fun h => ?_⟩, validateCall_eq_ok.2 hid, fun h => ?_⟩
  · cases h.1.1 (validateCall_eq_ok.2 hone) with
    | node hm _ _ =>
      have hequal := hm.const (.int 1) rfl
      exact absurd hequal (by decide)
  · cases h.1.1 (validateCall_eq_ok.2 hid) with
    | node hm _ _ =>
      have hfound := hm.pattern _ hypothesisId rfl rfl
      exact absurd hfound (by decide +kernel)

end Valops
