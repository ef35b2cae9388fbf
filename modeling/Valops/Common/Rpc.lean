import Valops.Py.Compare

/-!
# Errors and requests

`RpcError` with its code and message, the other exceptions a handler can raise (the server answers
them with `internal`), and the parameters of a call: an object that came out of the JSON decoder,
so its keys are in order at every depth.

Messages are kept as the pieces of the format string; `str` and `repr` of an arbitrary value are
not spelled out.
-/

set_option autoImplicit false

namespace Valops

open Py

/-- The codes of `RpcError`. -/
inductive Code where
  | alert_failed | audit_unavailable | bundle_refused | conflict | contract | denied | forbidden
  | forbidden_transition | illegal_state | integrity | internal | invalid | invalid_args
  | mode_unknown | no_key | not_admitted | not_found | provider_unapproved | quota | rate_limited
  | store_unavailable | terminal | token_expired | token_revoked | too_large | unauthenticated
  | unavailable | unknown_method
  deriving DecidableEq, Repr

/-- The text of a code. -/
def Code.text : Code → PyStr
  | .alert_failed => py "alert_failed"
  | .audit_unavailable => py "audit_unavailable"
  | .bundle_refused => py "bundle_refused"
  | .conflict => py "conflict"
  | .contract => py "contract"
  | .denied => py "denied"
  | .forbidden => py "forbidden"
  | .forbidden_transition => py "forbidden_transition"
  | .illegal_state => py "illegal_state"
  | .integrity => py "integrity"
  | .internal => py "internal"
  | .invalid => py "invalid"
  | .invalid_args => py "invalid_args"
  | .mode_unknown => py "mode_unknown"
  | .no_key => py "no_key"
  | .not_admitted => py "not_admitted"
  | .not_found => py "not_found"
  | .provider_unapproved => py "provider_unapproved"
  | .quota => py "quota"
  | .rate_limited => py "rate_limited"
  | .store_unavailable => py "store_unavailable"
  | .terminal => py "terminal"
  | .token_expired => py "token_expired"
  | .token_revoked => py "token_revoked"
  | .too_large => py "too_large"
  | .unauthenticated => py "unauthenticated"
  | .unavailable => py "unavailable"
  | .unknown_method => py "unknown_method"

/-- A piece of a message: text, an error's code, `{v}` or `{v!r}`. -/
inductive Part where
  | text (s : PyStr)
  | code (c : Code)
  | str (v : Json)
  | repr (v : Json)
  deriving DecidableEq

/-- The pieces of a formatted message. -/
abbrev Msg := List Part

/-- A message without fields. -/
def msg (s : String) : Msg := [.text (py s)]

/-- Exceptions other than `RpcError`. -/
inductive PyErr where
  | attributeError
  | keyError
  | typeError
  | valueError
  | overflowError
  | assertionError
  | bundleError
  | databaseError
  | osError
  | nameError
  | indexError
  | runtimeError
  deriving DecidableEq, Repr

/-- What a call raises. -/
inductive Exc where
  | rpc (code : Code) (message : Msg) (data : Json)
  | other (e : PyErr)
  deriving DecidableEq

/-- `RpcError(code, message)`. -/
def rpcError (code : Code) (message : Msg) : Exc := .rpc code message .null

/-! ## Sequencing -/

/-- `if not c: raise e`. -/
def require (c : Bool) (e : Exc) : Except Exc Unit := if c then .ok () else .error e

/-- A `none` of the library as the exception it stands for. -/
def orRaise {α : Type} (x : Option α) (e : Exc) : Except Exc α :=
  match x with
  | some a => .ok a
  | none => .error e

section Inversion

variable {α β : Type} {c : Bool} {e d : Exc}

@[simp] theorem require_eq_ok {u : Unit} : require c e = .ok u ↔ c = true := by
  cases c <;> simp [require]

@[simp] theorem orRaise_eq_ok {x : Option α} {a : α} : orRaise x e = .ok a ↔ x = some a := by
  cases x <;> simp [orRaise]

theorem toOption_eq_some {ε : Type} {x : Except ε α} {a : α} : x.toOption = some a ↔ x = .ok a := by
  cases x <;> simp [Except.toOption]

theorem ok_bind (a : α) (f : α → Except Exc β) : ((Except.ok a : Except Exc α) >>= f) = f a := rfl

theorem error_bind (f : α → Except Exc β) : ((Except.error e : Except Exc α) >>= f) = .error e := rfl

/-- What a sequence that succeeds went through. -/
theorem bind_eq_ok {x : Except Exc α} {f : α → Except Exc β} {b : β} :
    (x >>= f) = .ok b ↔ ∃ a, x = .ok a ∧ f a = .ok b := by
  cases x with
  | error e => simp [bind, Except.bind]
  | ok a => simp [bind, Except.bind]

@[simp] theorem pure_eq_ok {a b : α} : (pure a : Except Exc α) = .ok b ↔ a = b := by
  simp [pure, Except.pure]

@[simp] theorem throw_ne_ok {a : α} : (throw e : Except Exc α) ≠ .ok a := by
  simp [throw, throwThe, MonadExceptOf.throw]

/-- What a sequence that fails went through. -/
theorem bind_eq_error {x : Except Exc α} {f : α → Except Exc β} :
    (x >>= f) = .error e ↔ x = .error e ∨ ∃ a, x = .ok a ∧ f a = .error e := by
  cases x with
  | error d => simp [bind, Except.bind]
  | ok a => simp [bind, Except.bind]

theorem orRaise_error {x : Option α} (h : orRaise x d = .error e) : e = d := by
  cases x with
  | none => exact (Except.error.inj h).symm
  | some a => cases h

theorem require_error (h : require c d = .error e) : e = d := by
  cases c with
  | false => exact (Except.error.inj h).symm
  | true => cases h

end Inversion

/-! ## Dictionaries -/

/-- `v.get(k, d)`; only a dict has the attribute. -/
def getD (v : Json) (k : String) (d : Json) : Except Exc Json :=
  match v with
  | .obj kvs => .ok ((Json.lookup (py k) kvs).getD d)
  | _ => .error (.other .attributeError)

/-- `v.get(k)`. -/
def get (v : Json) (k : String) : Except Exc Json := getD v k .null

/-- `v[k]` for a string `k`. -/
def index (v : Json) (k : String) : Except Exc Json :=
  match v with
  | .obj kvs => orRaise (Json.lookup (py k) kvs) (.other .keyError)
  | _ => .error (.other .typeError)

/-- `v or {}`. -/
def orEmpty (v : Json) : Json := if v.truthy then v else .obj []

theorem wf_empty : (Json.obj []).WF := .obj List.Pairwise.nil fun _ h => absurd h List.not_mem_nil

theorem wf_getD {v d w : Json} {k : String} (hv : v.WF) (hd : d.WF) (h : getD v k d = .ok w) :
    w.WF := by
  unfold getD at h
  split at h
  · cases h
    rename_i kvs
    cases hl : Json.lookup (py k) kvs with
    | none => exact hd
    | some x => exact Json.wf_lookup hv hl
  · cases h

theorem wf_get {v w : Json} {k : String} (hv : v.WF) (h : get v k = .ok w) : w.WF :=
  wf_getD hv .null h

theorem wf_index {v w : Json} {k : String} (hv : v.WF) (h : index v k = .ok w) : w.WF := by
  unfold index at h
  split at h
  · exact Json.wf_lookup hv (orRaise_eq_ok.1 h)
  · cases h

theorem wf_orEmpty {v : Json} (hv : v.WF) : (orEmpty v).WF := by
  unfold orEmpty
  split
  · exact hv
  · exact wf_empty

/-- The parameters of a request: what the decoder made of the `params` object. -/
structure Params where
  fields : Fields
  wf : (Json.obj fields).WF
  deriving DecidableEq

/-- `p.get(k)`. -/
def Params.get (p : Params) (k : String) : Json := (Json.lookup (py k) p.fields).getD .null

theorem Params.wf_get (p : Params) (k : String) : (p.get k).WF := by
  unfold Params.get
  cases h : Json.lookup (py k) p.fields with
  | none => exact .null
  | some v => exact Json.wf_lookup p.wf h

/-- Parameters written out. -/
def Params.ofFields (kvs : Fields) (h : ∀ kv ∈ kvs, kv.2.WF) : Params :=
  ⟨Json.mkFields kvs, Json.wf_mkObj h⟩

end Valops
