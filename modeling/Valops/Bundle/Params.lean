import Valops.Common.Tools

/-!
# The parameter register

`generate_thresholds` checks a register and makes the bundle's thresholds of it; `Bundle.param` reads
them, with the overrides of a configuration laid over the first level of a value.
-/

set_option autoImplicit false

namespace Valops.Register

open Py

/-! ## Checking a register -/

/-- What `generate_thresholds` raises: a `RegisterError` with its text, or what reading the values
raises. -/
inductive Refusal where
  | register (text : Msg)
  | exc (e : Exc)
  deriving DecidableEq

/-- A computation among those that may also raise a `RegisterError`. -/
def raising {α : Type} (x : Except Exc α) : Except Refusal α :=
  match x with
  | .ok a => .ok a
  | .error e => .error (.exc e)

/-- `if c: raise RegisterError(text)`. -/
def refuseIf (c : Bool) (text : Msg) : Except Refusal Unit :=
  if c then .error (.register text) else .ok ()

mutual

/-- `_walk_nulls`: where the value is unset. -/
def walk_nulls : Json → PyStr → List PyStr
  | .null, path => [path]
  | .obj kvs, path => walkNullFields kvs path
  | .bool _, _ => []
  | .int _, _ => []
  | .float _, _ => []
  | .str _, _ => []
  | .arr _, _ => []
termination_by structural v => v

def walkNullFields : List (PyStr × Json) → PyStr → List PyStr
  | [], _ => []
  | kv :: rest, path => walkNullField kv path ++ walkNullFields rest path
termination_by structural kvs => kvs

def walkNullField : PyStr × Json → PyStr → List PyStr
  | (k, sub), path => walk_nulls sub (path ++ py "." ++ k)
termination_by structural kv => kv

end

/-- `isinstance(v, (int, float)) and not isinstance(v, bool)`. -/
def isNumeric : Json → Bool
  | .int _ => true
  | .float _ => true
  | _ => false

/-- One comparison with a stated bound, if it is stated. -/
def checkBound (bounds : Fields) (k : String) (violates : Json → Option Bool)
    (text : Json → Msg) : Except Refusal Unit :=
  match Json.lookup (py k) bounds with
  | none => .ok ()
  | some b => do
    let bad ← raising (orRaise (violates b) (.other .typeError))
    refuseIf bad (text b)

/-- The checks of one value. -/
def checkAgainst (path : PyStr) (bounds : Fields) (v : Json) : Except Refusal Unit := do
  refuseIf (!isNumeric v) [.text path, .text (py ": "), .repr v, .text (py " is not numeric")]
  checkBound bounds "min" (fun b => v.pyLt b)
    fun b => [.text path, .text (py ": "), .str v, .text (py " below bound "), .str b]
  checkBound bounds "max" (fun b => b.pyLt v)
    fun b => [.text path, .text (py ": "), .str v, .text (py " above bound "), .str b]
  checkBound bounds "eq" (fun b => some (!v.pyEq b))
    fun b => [.text path, .text (py ": "), .str v, .text (py " must equal "), .str b]

mutual

/-- `_check_bounds` where `min`, `max` or `eq` are stated: every value in a mapping is checked. -/
def checkLeaf (path : PyStr) (bounds : Fields) : Json → Except Refusal Unit
  | .obj kvs => checkLeafFields path bounds kvs
  | .null => checkAgainst path bounds .null
  | .bool b => checkAgainst path bounds (.bool b)
  | .int z => checkAgainst path bounds (.int z)
  | .float x => checkAgainst path bounds (.float x)
  | .str s => checkAgainst path bounds (.str s)
  | .arr xs => checkAgainst path bounds (.arr xs)
termination_by structural v => v

def checkLeafFields (path : PyStr) (bounds : Fields) : List (PyStr × Json) → Except Refusal Unit
  | [] => .ok ()
  | kv :: rest => do
    checkLeafField path bounds kv
    checkLeafFields path bounds rest
termination_by structural kvs => kvs

def checkLeafField (path : PyStr) (bounds : Fields) : PyStr × Json → Except Refusal Unit
  | (_, v) => checkLeaf path bounds v
termination_by structural kv => kv

end

/-- `"min" in bounds or "max" in bounds or "eq" in bounds`. -/
def isLeaf (bounds : Fields) : Bool :=
  (Json.lookup (py "min") bounds).isSome || (Json.lookup (py "max") bounds).isSome ||
    (Json.lookup (py "eq") bounds).isSome

mutual

/-- `_check_bounds`. -/
def check_bounds : Json → Json → PyStr → Except Refusal Unit
  | .obj bounds, value, path =>
    if isLeaf bounds then checkLeaf path bounds value
    else
      match value with
      | .obj kvs => checkKeys bounds kvs path
      | _ => .error (.register [.text path, .text (py ": expected a mapping")])
  | .null, _, _ => .ok ()
  | .bool _, _, _ => .ok ()
  | .int _, _, _ => .ok ()
  | .float _, _, _ => .ok ()
  | .str _, _, _ => .ok ()
  | .arr _, _, _ => .ok ()
termination_by structural bounds => bounds

def checkKeys : List (PyStr × Json) → Fields → PyStr → Except Refusal Unit
  | [], _, _ => .ok ()
  | kb :: rest, kvs, path => do
    checkKey kb kvs path
    checkKeys rest kvs path
termination_by structural kbs => kbs

def checkKey : PyStr × Json → Fields → PyStr → Except Refusal Unit
  | (k, b), kvs, path =>
    match Json.lookup k kvs with
    | none => .error (.register [.text (path ++ py "." ++ k), .text (py ": missing")])
    | some v => check_bounds b v (path ++ py "." ++ k)
termination_by structural kb => kb

end

/-- The body of the loop over the parameters: what goes into the thresholds. -/
def readRow (pid : PyStr) (row : Json) : Except Refusal (Option Json) := do
  let value ← raising (get row "value")
  let not_bundled ← raising (get row "not_bundled")
  let nulls := walk_nulls value pid
  refuseIf (!nulls.isEmpty && !not_bundled.truthy)
    [.text (List.intercalate (py ", ") nulls), .text (py " unset (set at G0); refusing to build")]
  let bounds ← raising (get row "bounds")
  check_bounds bounds value pid
  pure (if not_bundled.truthy then none else some value)

/-- `out[pid] = value`, for a parameter that goes into the thresholds. -/
def addRow (pid : PyStr) : Option Json → Fields → Fields
  | some value, out => (pid, value) :: out
  | none, out => out

/-- The loop over the parameters. -/
def readRows : Fields → Except Refusal Fields
  | [] => .ok []
  | (pid, row) :: rest => do
    let value ← readRow pid row
    let out ← readRows rest
    pure (addRow pid value out)

/-- `f"P-{i:02d}" for i in range(1, 32)`. -/
def parameterIds : List PyStr :=
  (List.range' 1 31).map fun i => py "P-" ++ (if i < 10 then py "0" else []) ++ natText i

/-- `2 * v`. -/
def twice : Json → Except Exc Json
  | .int z => .ok (.int (2 * z))
  | .bool b => .ok (.int (if b then 2 else 0))
  | .float x => .ok (.float (x.add x))
  | .str s => .ok (.str (s ++ s))
  | .arr xs => .ok (.arr (xs ++ xs))
  | _ => .error (.other .typeError)

/-- `v < w`. -/
def less (v w : Json) : Except Refusal Bool := raising (orRaise (v.pyLt w) (.other .typeError))

/-- The rules across parameters. -/
def crossRules (out : Json) : Except Refusal Unit := do
  let p10 ← raising (index out "P-10")
  let p11 ← raising (index out "P-11")
  refuseIf (← less p11 p10) (msg "P-10 token expiry must be <= P-11 step timeout")
  let p19 ← raising (index out "P-19")
  let p18 ← raising (index out "P-18")
  refuseIf (← less p19 (← raising (twice p18))) (msg "P-19 max anchor lag must be >= 2 x P-18")
  let p14 ← raising (index out "P-14")
  let concurrency ← raising (index p14 "concurrency")
  refuseIf (!concurrency.eqInt 1) (msg "P-14 concurrency is fixed at 1 by design")
  let p26 ← raising (index out "P-26")
  let rpo_min ← raising (index p26 "rpo_min")
  refuseIf (← less p18 rpo_min) (msg "P-26 RPO must never exceed P-18")

/-- `generate_thresholds`. -/
def generate_thresholds (register : Json) : Except Refusal Json := do
  let params ← raising (get register "parameters")
  match orEmpty params with
  | .obj rows => do
    let missing := parameterIds.filter fun p => (Json.lookup p rows).isNone
    refuseIf (!missing.isEmpty) [.text (py "register lacks "), .str (.arr (missing.map Json.str))]
    let out ← readRows rows
    crossRules (.obj out)
    let register_version ← raising (get register "register_version")
    pure (.obj [(py "parameters", .obj out), (py "register_version", register_version)])
  -- anything else has no `items`
  | _ => .error (.exc (.other .attributeError))

/-! ## Reading the thresholds -/

/-- `v[k]`. -/
def subscript (v : Json) (k : PyStr) : Except Exc Json :=
  match v with
  | .obj kvs => orRaise (Json.lookup k kvs) (.other .keyError)
  | _ => .error (.other .typeError)

/-- `name in v`. -/
def contains (v : Json) (name : PyStr) : Except Exc Bool :=
  match v with
  | .obj kvs => .ok (Json.lookup name kvs).isSome
  | .arr xs => .ok (xs.any fun x => x.eqStr name)
  | .str s => .ok (decide (name <:+: s))
  | _ => .error (.other .typeError)

/-- `{**v, **w}`. -/
def merge (v w : Fields) : Fields := w.foldr (fun kv acc => Json.insertField kv.1 kv.2 acc) v

/-- A value with the overrides of a configuration. -/
def overridden (v : Json) (configuration : Option PyStr) : Except Exc Json :=
  match v, configuration with
  | .obj kvs, some name => do
    let by_configuration := (Json.lookup (py "by_configuration") kvs).getD .null
    if name = [] then pure v
    else if ← contains (orEmpty by_configuration) name then do
      match ← subscript by_configuration name with
      | .obj overrides => pure (.obj (merge kvs overrides))
      | _ => throw (.other .typeError)
    else pure v
  | _, _ => pure v

/-- `Bundle.param` over the thresholds of the bundle. -/
def param (thresholds : Json) (pid : PyStr) (key configuration : Option PyStr) :
    Except Exc Json := do
  let v ← subscript thresholds pid
  let v ← overridden v configuration
  match key with
  | some key => subscript v key
  | none => pure v

/-- A parameter and the keys below it. -/
structure Place where
  pid : PyStr
  path : List PyStr

/-- A place is read through `param` with its first key, and below that key by key, as `open_session`
does for each role of P-30. -/
def Place.read (p : Place) (thresholds : Json) (configuration : Option PyStr) : Except Exc Json :=
  match p.path with
  | [] => param thresholds p.pid none configuration
  | key :: rest => do
    let v ← param thresholds p.pid (some key) configuration
    rest.foldlM subscript v

/-- What the program reads. The verifier also reads what the rules of the bundle refer to. -/
def places (refs : List (PyStr × Option PyStr)) : List Place :=
  ([py "P-01", py "P-02", py "P-04", py "P-08", py "P-09", py "P-10", py "P-11", py "P-12", py "P-15",
    py "P-18", py "P-19"].map fun pid => ⟨pid, []⟩) ++
  [⟨py "P-03", [py "threshold"]⟩, ⟨py "P-03", [py "samples"]⟩, ⟨py "P-14", [py "rate_per_min"]⟩,
    ⟨py "P-17", [py "window"]⟩, ⟨py "P-17", [py "deadline_min"]⟩] ++
  Role.all.flatMap (fun role => [⟨py "P-05", [role.text]⟩, ⟨py "P-06", [role.text]⟩,
    ⟨py "P-30", [py "input_tokens", role.text]⟩, ⟨py "P-30", [py "output_tokens", role.text]⟩]) ++
  refs.map fun ref => ⟨ref.1, ref.2.toList⟩

end Valops.Register
