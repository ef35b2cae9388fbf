import Valops.Common.Rpc

/-!
# The JSON-Schema subset

`validate` as in the source: the text of the first `SchemaError`, or nothing. A node's own checks
come first, in the order of the source, then the items of a list, then the keys and the properties
of an object. Main results: `object_property` (what a validated object holds under a required key)
and `type_of_validate`.
-/

set_option autoImplicit false

namespace Valops

open Py

/-- The names of `_TYPES`. -/
inductive Ty where
  | object | array | string | boolean | integer | number | null
  deriving DecidableEq, Repr

/-- A type as it appears in a message. -/
def Ty.text : Ty → PyStr
  | .object => py "object"
  | .array => py "array"
  | .string => py "string"
  | .boolean => py "boolean"
  | .integer => py "integer"
  | .number => py "number"
  | .null => py "null"

/-- `isinstance(value, _TYPES[ty])`, where a boolean is no number. -/
def Ty.matches : Ty → Json → Bool
  | .object, .obj _ => true
  | .array, .arr _ => true
  | .string, .str _ => true
  | .boolean, .bool _ => true
  | .integer, .int _ => true
  | .number, .int _ => true
  | .number, .float _ => true
  | .null, .null => true
  | _, _ => false

/-- A regular expression: its text, and the strings in which `re.search` finds it. -/
structure Pattern where
  source : PyStr
  search : PyStr → Bool

/-- `$` also matches before a newline at the end. -/
def dropFinalNewline (s : PyStr) : PyStr := if s.getLast? = some 10 then s.dropLast else s

/-- `^[letters][0-9]+$`. -/
def idPattern (source : String) (letters : PyStr) : Pattern where
  source := py source
  search := fun s =>
    match dropFinalNewline s with
    | c :: ds => decide (c ∈ letters) && !ds.isEmpty && ds.all isDigit
    | [] => false

/-- What a schema says about a value itself. -/
structure Checks where
  types : List Ty := []
  const : Option Json := none
  enum : Option (List Json) := none
  minLength : Nat := 0
  maxLength : Option Nat := none
  pattern : Option Pattern := none
  minimum : Option Json := none
  maximum : Option Json := none
  minItems : Nat := 0
  maxItems : Option Nat := none
  required : List PyStr := []
  additionalProperties : Bool := true

/-- A schema. -/
inductive Schema where
  | node (checks : Checks) (items : Option Schema) (properties : List (PyStr × Schema))

/-- `SchemaError(f"{path}{text}")`, if the check fails. -/
def problem (bad : Bool) (path : PyStr) (text : Msg) : Option Msg :=
  if bad then some (.text path :: text) else none

theorem problem_eq_none {bad : Bool} {path : PyStr} {text : Msg} :
    problem bad path text = none ↔ bad = false := by
  cases bad <;> simp [problem]

namespace Checks

variable (c : Checks)

/-- `type`. -/
def typeProblem (v : Json) (path : PyStr) : Option Msg :=
  problem (!c.types.isEmpty && !c.types.any fun ty => ty.matches v) path
    (.text (py ": expected ") :: c.types.map fun ty => .text ty.text)

/-- `const` and `enum`. -/
def valueProblem (v : Json) (path : PyStr) : Option Msg :=
  (c.const.bind fun k => problem (!v.pyEq k) path [.text (py ": must equal "), .repr k]) <|>
  (c.enum.bind fun ks => problem (!ks.any fun k => v.pyEq k) path
    [.text (py ": not one of "), .str (.arr ks)])

/-- The checks on strings. -/
def stringProblem (v : Json) (path : PyStr) : Option Msg :=
  match v with
  | .str s =>
    problem (s.length < c.minLength) path (msg ": too short") <|>
    (c.maxLength.bind fun n => problem (n < s.length) path (msg ": too long")) <|>
    (c.pattern.bind fun p => problem (!p.search s) path
      [.text (py ": does not match "), .text p.source]) <|>
    problem (s.isBlank && 0 < c.minLength) path (msg ": blank")
  | _ => none

/-- The checks on numbers. -/
def numberProblem (v : Json) (path : PyStr) : Option Msg :=
  if Ty.number.matches v then
    (c.minimum.bind fun k => problem ((v.pyLt k).getD false) path
      [.text (py ": below minimum "), .str k]) <|>
    (c.maximum.bind fun k => problem ((k.pyLt v).getD false) path
      [.text (py ": above maximum "), .str k])
  else none

/-- The length of a list. -/
def lengthProblem (v : Json) (path : PyStr) : Option Msg :=
  match v with
  | .arr xs =>
    problem (xs.length < c.minItems) path
      [.text (py ": needs at least "), .str (.int c.minItems), .text (py " items")] <|>
    (c.maxItems.bind fun n => problem (n < xs.length) path
      [.text (py ": at most "), .str (.int n), .text (py " items")])
  | _ => none

/-- Missing and unexpected keys of an object. -/
def keysProblem (props : List PyStr) (v : Json) (path : PyStr) : Option Msg :=
  match v with
  | .obj kvs =>
    (c.required.findSome? fun k => problem (Json.lookup k kvs).isNone path
      [.text (py ": missing "), .text k]) <|>
    (let extra := (kvs.map Prod.fst).filter fun k => !decide (k ∈ props)
     problem (!c.additionalProperties && !extra.isEmpty) path
      [.text (py ": unexpected "), .str (.arr (extra.map .str))])
  | _ => none

end Checks

/-- `for i, v in enumerate(value): validate(v, items, f"{path}[{i}]")`. -/
def eachItem (f : Json → PyStr → Option Msg) (path : PyStr) : Nat → List Json → Option Msg
  | _, [] => none
  | i, x :: xs => f x (path ++ py "[" ++ natText i ++ py "]") <|> eachItem f path (i + 1) xs

mutual

/-- `validate`. -/
def validate : Schema → Json → PyStr → Option Msg
  | .node c items props, v, path =>
    c.typeProblem v path <|> c.valueProblem v path <|> c.stringProblem v path <|>
    c.numberProblem v path <|> c.lengthProblem v path <|> validateItems items v path <|>
    c.keysProblem (props.map Prod.fst) v path <|> validateProps props v path
termination_by structural s => s

/-- The items of a list. -/
def validateItems : Option Schema → Json → PyStr → Option Msg
  | some s, .arr xs, path => eachItem (fun x p => validate s x p) path 0 xs
  | _, _, _ => none
termination_by structural s => s

/-- The properties of an object that are there. -/
def validateProps : List (PyStr × Schema) → Json → PyStr → Option Msg
  | [], _, _ => none
  | prop :: props, v, path => validateProp prop v path <|> validateProps props v path
termination_by structural props => props

/-- One property. -/
def validateProp : PyStr × Schema → Json → PyStr → Option Msg
  | (k, s), v, path =>
    match v with
    | .obj kvs =>
      match Json.lookup k kvs with
      | some x => validate s x (path ++ py "." ++ k)
      | none => none
    | _ => none
termination_by structural prop => prop

end

/-- `is_valid`. -/
def is_valid (v : Json) (s : Schema) : Bool := (validate s v (py "$")).isNone

/-! ## What a valid value is like -/

theorem orElse_none {α : Type} {a b : Option α} : (a <|> b) = none ↔ a = none ∧ b = none := by
  cases a <;> simp

section Valid

variable {c : Checks} {items : Option Schema} {props : List (PyStr × Schema)} {v : Json}
  {path : PyStr}

/-- The parts of a validation that found nothing. -/
theorem validate_parts (h : validate (.node c items props) v path = none) :
    c.typeProblem v path = none ∧ c.valueProblem v path = none ∧ c.stringProblem v path = none ∧
    c.numberProblem v path = none ∧ c.lengthProblem v path = none ∧
    validateItems items v path = none ∧ c.keysProblem (props.map Prod.fst) v path = none ∧
    validateProps props v path = none := by
  rw [validate] at h
  simpa only [orElse_none] using h

/-- A value of a type. -/
theorem type_of_validate {ty : Ty} (hty : c.types = [ty])
    (h : validate (.node c items props) v path = none) : ty.matches v = true := by
  have ht := (validate_parts h).1
  rw [Checks.typeProblem, problem_eq_none, hty] at ht
  simpa using ht

theorem str_of_validate (hty : c.types = [.string])
    (h : validate (.node c items props) v path = none) : ∃ s, v = .str s := by
  have ht := type_of_validate hty h
  cases v <;> simp [Ty.matches] at ht ⊢

theorem arr_of_validate (hty : c.types = [.array])
    (h : validate (.node c items props) v path = none) : ∃ xs, v = .arr xs := by
  have ht := type_of_validate hty h
  cases v <;> simp [Ty.matches] at ht ⊢

theorem obj_of_validate (hty : c.types = [.object])
    (h : validate (.node c items props) v path = none) : ∃ kvs, v = .obj kvs := by
  have ht := type_of_validate hty h
  cases v <;> simp [Ty.matches] at ht ⊢

theorem nonempty_of_validate {xs : List Json} (hmin : 0 < c.minItems)
    (h : validate (.node c items props) (.arr xs) path = none) : xs ≠ [] := by
  have hl := (validate_parts h).2.2.2.2.1
  rw [Checks.lengthProblem, orElse_none, problem_eq_none] at hl
  rintro rfl
  simp only [List.length_nil, decide_eq_false_iff_not, not_lt] at hl
  omega

theorem validateProps_mem {kvs : Fields} {prop : PyStr × Schema} {x : Json} (hmem : prop ∈ props)
    (hx : Json.lookup prop.1 kvs = some x) (h : validateProps props (.obj kvs) path = none) :
    validate prop.2 x (path ++ py "." ++ prop.1) = none := by
  induction props with
  | nil => cases hmem
  | cons p ps ih =>
    rw [validateProps, orElse_none] at h
    rcases List.mem_cons.1 hmem with rfl | hmem
    · have hp := h.1
      obtain ⟨k, s⟩ := prop
      simp only [validateProp] at hp
      rw [hx] at hp
      exact hp
    · exact ih hmem h.2

/-- **What a valid object holds under a required key.** -/
theorem object_property {kvs : Fields} {k : PyStr} {s : Schema} (hreq : k ∈ c.required)
    (hprop : (k, s) ∈ props) (h : validate (.node c items props) (.obj kvs) path = none) :
    ∃ x, Json.lookup k kvs = some x ∧ validate s x (path ++ py "." ++ k) = none := by
  obtain ⟨-, -, -, -, -, -, hkeys, hprops⟩ := validate_parts h
  rw [Checks.keysProblem, orElse_none, List.findSome?_eq_none_iff] at hkeys
  have hk := hkeys.1 k hreq
  rw [problem_eq_none] at hk
  cases hx : Json.lookup k kvs with
  | none => simp [hx] at hk
  | some x => exact ⟨x, rfl, validateProps_mem hprop hx hprops⟩

theorem eachItem_mem {f : Json → PyStr → Option Msg} {x : Json} :
    ∀ {xs : List Json} {i : Nat}, eachItem f path i xs = none → x ∈ xs → ∃ p, f x p = none
  | [], _, _, hx => absurd hx List.not_mem_nil
  | y :: ys, i, h, hx => by
    rw [eachItem, orElse_none] at h
    rcases List.mem_cons.1 hx with rfl | hx
    · exact ⟨_, h.1⟩
    · exact eachItem_mem h.2 hx

/-- Every item of a valid list is valid. -/
theorem item_of_validate {s : Schema} {xs : List Json} {x : Json} (hx : x ∈ xs)
    (h : validate (.node c (some s) props) (.arr xs) path = none) : ∃ p, validate s x p = none := by
  have hi := (validate_parts h).2.2.2.2.2.1
  rw [validateItems] at hi
  exact eachItem_mem hi hx

end Valid

end Valops
