import Valops.Common.Builtins
import Valops.Conc.Loop
import Valops.Store.Service

/-!
# What the controller calls

The calls and readings of the controller, one operation each, with what they may return. A call of
another process returns its result or raises: an `RpcError`, or one of the exceptions that
`RpcClient.call` lets through. What the other side really does is said elsewhere; here every result
is possible.

A program of the controller issues these operations and may raise.
-/

set_option autoImplicit false

namespace Valops.Controller

open Py Store Conc

/-! ## Arithmetic on values -/

/-- `v * n` for a positive integer; sequences are repeated. -/
def timesInt (v : Json) (n : Nat) : Except Exc Json :=
  match v with
  | .int z => .ok (.int (z * n))
  | .bool b => .ok (.int (if b then n else 0))
  | .float x => do
    let y ← orRaise (Double.ofInt? n) (.other .overflowError)
    pure (.float (x.mul y))
  | .str s => .ok (.str (List.replicate n s).flatten)
  | .arr xs => .ok (.arr (List.replicate n xs).flatten)
  | _ => .error (.other .typeError)

/-- `v * x` for a float. -/
def timesFloat (v : Json) (x : Double) : Except Exc Json := do
  let y ← toFloat v
  pure (.float (y.mul x))

/-- `a > b`. -/
def greater (a b : Json) : Except Exc Bool := orRaise (Json.pyLt b a) (.other .typeError)

/-! ## Exceptions -/

/-- What a function of the controller raises: an exception of a call, or the `AssertionError` of the
isolation check. -/
inductive Raised where
  | exc (e : Exc)
  | isolation (text : Msg)
  deriving DecidableEq

/-- A computation that may raise, among those that may also fail the isolation check. -/
def raising {α : Type} (x : Except Exc α) : Except Raised α :=
  match x with
  | .ok a => .ok a
  | .error e => .error (.exc e)

/-! ## Values -/

/-- `Bundle`. A file is read when its value is needed, and reading it may raise. -/
structure Bundle where
  id : PyStr
  thresholds : Except Exc Json
  deployment : Except Exc Json
  providers : Except Exc Json

/-- The severities the controller uses. -/
inductive Severity where
  | warning | high | critical
  deriving DecidableEq, Repr

/-- The arguments of `system_alert`. -/
structure SystemAlert where
  severity : Severity
  title : PyStr
  text : PyStr
  episode_id : Option PyStr
  dedupe_key : Option PyStr
  deriving DecidableEq

/-- `LaunchResult`; the transcript on `stderr` is only passed on. -/
structure LaunchResult where
  exit_code : Option Int
  timed_out : Bool
  structured_output : Option Json

/-- How `launcher.run` ends, when it raises nothing else. -/
inductive Launched where
  | unavailable (why : PyStr)
  | result (r : LaunchResult)

/-- What a worker finds in its home. -/
structure StepSpec where
  role : Role
  episode_id : PyStr
  session_id : PyStr
  token : PyStr
  kind : ReportKind
  state : Option EpisodeState
  inlined_prompts : Bool
  configuration : Fields
  max_turns : Int
  max_budget_usd : Double
  input_view : View

/-- A value that came out of the decoder. -/
structure Decoded where
  value : Json
  wf : value.WF

/-- `v.get(k)`. -/
def Decoded.get (v : Decoded) (k : String) : Except Exc Decoded :=
  match h : Valops.get v.value k with
  | .ok w => .ok ⟨w, wf_get v.wf h⟩
  | .error e => .error e

/-- What `verify_chain` reports. -/
structure ChainReport where
  ok : Bool
  errors : List PyStr

/-! ## Operations -/

/-- The calls and readings. -/
inductive Op where
  | store (m : Method) (p : Params)
  | system_alert (a : SystemAlert)
  | alerts_for (episode_id session_id : PyStr)
  | submit (event : PyStr) (episode_id : PyStr) (data : Fields)
  | audit_status
  | ping (broker : PyStr)
  | revoke_session (broker session_id : PyStr)
  | open_session (session_id episode_id : PyStr) (role : Role) (bundle_id : PyStr)
  | close_session (session_id : PyStr)
  | active
  | verify (bundle_id : Json)
  | load (bundle_id : Json)
  | superseded_at (bundle_id : Json)
  | flag_get
  | flag_set (reason : PyStr)
  | launcher_preflight
  | launch (session_id : PyStr) (adapter socket_path : Json) (timeout_s : Double)
  | read_prompt (bundle_id : PyStr) (role : Role) (inlined : Bool)
  | build_home (spec : StepSpec) (prompt : PyStr)
  | remove_home (session_id : PyStr)
  | now
  | uuid4
  | mint (episode_id : PyStr) (role : Role) (session_id bundle_id : PyStr) (ttl_s : Double)
  | verify_chain

/-- What an operation returns. `None` of the registry and the flag is JSON's where the value itself
came out of a file. -/
def Res : Op → Type
  | .store _ _ => Except Exc Reply
  | .system_alert _ => Except Exc Unit
  | .alerts_for _ _ => Except Exc (List Fields)
  | .submit _ _ _ => Except Exc Unit
  | .audit_status => Except Exc Json
  | .ping _ => Except Exc Unit
  | .revoke_session _ _ => Except Exc Unit
  | .open_session _ _ _ _ => Except Exc Json
  | .close_session _ => Except Exc Decoded
  | .active => Except Exc (Option PyStr)
  | .verify _ => Except Exc (Option Msg)
  | .load _ => Except Exc Bundle
  | .superseded_at _ => Except Exc Json
  | .flag_get => Except Exc Json
  | .flag_set _ => Except Exc Unit
  | .launcher_preflight => Except Exc (Option PyStr)
  | .launch _ _ _ _ => Except Exc Launched
  | .read_prompt _ _ _ => Except Exc PyStr
  | .build_home _ _ => Except Exc Unit
  | .remove_home _ => Except Exc Unit
  | .now => Double
  | .uuid4 => PyStr
  | .mint _ _ _ _ _ => Except Exc PyStr
  | .verify_chain => Except Exc (Option ChainReport)

/-- A program that may raise. -/
abbrev Calls (α : Type) := ExceptT Raised (Prog Op Res) α

variable {α : Type}

/-- The exception that has been raised so far, or nothing. -/
def reraise (e : Option Raised) : Calls Unit := ExceptT.mk (.ret (match e with
  | some e => .error e
  | none => .ok ()))

/-- A computation inside a program. -/
def compute (x : Except Exc α) : Calls α := ExceptT.mk (.ret (raising x))

/-- The next operation. -/
abbrev ask (o : Op) : Prog Op Res (Res o) := perform o

/-- The next operation, which may raise. -/
def call (p : Prog Op Res (Except Exc α)) : Calls α := ExceptT.mk (p.bind fun r => .ret (raising r))

/-- A reading that does not raise. -/
def reading (p : Prog Op Res α) : Calls α := ExceptT.mk (p.bind fun a => .ret (.ok a))

/-- `except RpcError`. -/
def orRpc (p : Calls α) (h : Code → Msg → Calls α) : Calls α :=
  tryCatch p fun
    | .exc (.rpc code text _) => h code text
    | e => throw e

end Valops.Controller
