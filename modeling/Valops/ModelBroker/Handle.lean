import Valops.Conc.Path
import Valops.ModelBroker.Session
import Valops.Py.Dict

/-!
# Handling a request

`ModelBroker.handle` as the program of a connection's thread. Its operations are the read of the
body, the locked sections on the session, the exchange with the provider, the audit client and the
reply to the worker.

The exchange is what the provider and the worker's connection did; `relay` is what `_forward` makes
of it. Everything else between two operations is a function of what came before.
-/

set_option autoImplicit false

namespace Valops.ModelBroker

open Py Conc

/-! ## The outside -/

/-- `urlparse`. -/
structure Url where
  scheme : PyStr
  hostname : Option PyStr
  port : Except Exc (Option Nat)
  path : PyStr

/-- The functions of the library: `json.loads` and `decode(errors="replace")` of bytes, the hash, and
`urlparse`. -/
structure Library where
  builtins : Builtins
  loads : Bytes → Option Json
  decode : Bytes → PyStr
  sha256_hex : Bytes → PyStr
  urlparse : PyStr → Url

/-- A request as the HTTP server has parsed it; header names and values are Latin-1. -/
structure HttpRequest where
  path : PyStr
  headers : List (PyStr × PyStr)
  deriving DecidableEq

/-- What goes to the provider. -/
structure Outbound where
  https : Bool
  host : Option PyStr
  port : Nat
  path : PyStr
  headers : Dict PyStr PyStr
  body : Bytes

/-- The answer of the provider piece by piece, and whether each piece could be written to the worker:
it ends, a read raises, or there is another chunk. -/
inductive Relay where
  | done (delivered : Bool)
  | broken
  | chunk (data : Bytes) (delivered : Bool) (rest : Relay)

/-- What happened between the broker, the provider and the worker: no answer, or an answer with this
status. `head` says whether the head could be written, and with it an answer that is not streamed. -/
inductive Exchange where
  | unreachable
  | answered (status : Nat) (head : Bool) (content : Relay)

/-! ## The relay -/

/-- `MAX_REQUEST`. -/
def MAX_REQUEST : Int := 4 * 1024 * 1024

/-- `MAX_RESPONSE`. -/
def MAX_RESPONSE : Nat := 8 * 1024 * 1024

/-- The loop of `_forward`: the status and what has been captured. -/
def relayStream (status : Nat) : Bytes → Relay → Nat × Bytes
  | captured, .done delivered => (if delivered then status else 0, captured)
  | captured, .broken => (0, captured)
  | captured, .chunk data delivered rest =>
    let captured := if captured.length < MAX_RESPONSE then captured ++ data else captured
    if delivered then relayStream status captured rest else (0, captured)

/-- `r.read(limit)`; `none` where it raises. -/
def Relay.read (limit : Nat) : Bytes → Relay → Option Bytes
  | got, .done _ => some (got.take limit)
  | got, .broken => if limit ≤ got.length then some (got.take limit) else none
  | got, .chunk data _ rest =>
    if limit ≤ got.length then some (got.take limit) else rest.read limit (got ++ data)

/-- What `_forward` returns: a status, 0 where the exchange raised, and the captured bytes. -/
def relay (stream : Bool) : Exchange → Nat × Bytes
  | .unreachable => (0, [])
  | .answered status head content =>
    if stream ∧ 200 ≤ status ∧ status < 300 then
      if head then relayStream status [] content else (0, [])
    else
      match content.read MAX_RESPONSE [] with
      | none => (0, [])
      | some data => (if head then status else 0, data)

/-! ## Operations -/

/-- The operations of a request's thread. -/
inductive Op where
  | read (n : Int)
  | limits (size : Nat) (rest : PyStr) (body : Fields)
  | forward (o : Outbound) (stream : Bool)
  | meter (usage : Int × Int) (status : Nat)
  | refused (r : Refusal)
  | submit (event : PyStr) (data : Fields)
  | reply (status : Nat) (body : Json)

/-- What an operation returns. -/
def Res : Op → Type
  | .read _ => Except Exc Bytes
  | .limits _ _ _ => Except Halt (Fields × Int × Int)
  | .forward _ _ => Except Exc Exchange
  | .meter _ _ => Except Exc Unit
  | .refused _ => Unit
  | .submit _ _ => Except Exc Unit
  | .reply _ _ => Except Exc Unit

/-- What an operation does to the session. -/
def exec (N : Numbers) (b : Builtins) (s : Session N) (o : Op) (r : Res o) (s' : Session N) : Prop :=
  match o, r with
  | .limits size rest body, r =>
    match limits b s size rest body with
    | .ok adm => r = .ok (adm.body, adm.est_in, adm.clamp) ∧ s' = adm.session
    | .error e => r = .error e ∧ s' = s
  | .meter usage status, r => (meter s usage status) = (r, s')
  | .refused r, _ => s' = s.refused r
  | _, _ => s' = s

/-- The limits admit the request or refuse it, and leave the session when they refuse. -/
theorem exec_limits {N : Numbers} {b : Builtins} {s s' : Session N} {size : Nat} {rest : PyStr}
    {body : Fields} {r : Res (.limits size rest body)} : exec N b s (.limits size rest body) r s' =
      match limits b s size rest body with
      | .ok adm => r = .ok (adm.body, adm.est_in, adm.clamp) ∧ s' = adm.session
      | .error e => r = .error e ∧ s' = s := rfl

/-- A program that may raise. -/
abbrev Request (α : Type) := ExceptT Halt (Prog Op Res) α

variable {α : Type}

/-- A computation inside a program. -/
def compute (x : Except Halt α) : Request α := ExceptT.mk (.ret x)

/-- The next operation. -/
abbrev ask (o : Op) : Prog Op Res (Res o) := perform o

/-- The next operation, which may raise. -/
def call (p : Prog Op Res (Except Exc α)) : Request α :=
  ExceptT.mk (p.bind fun r => .ret (raising r))

/-- The next operation, which may refuse. -/
def section_ (p : Prog Op Res (Except Halt α)) : Request α := ExceptT.mk p

/-! ## The request -/

section Handle

variable {N : Numbers} (lib : Library) (key : PyStr) (s : Session N) (h : HttpRequest)

/-- `str.lower` on Latin-1 text. -/
def lower (t : PyStr) : PyStr :=
  t.map fun c => if (65 ≤ c ∧ c ≤ 90) ∨ (192 ≤ c ∧ c ≤ 222 ∧ c ≠ 215) then c + 32 else c

/-- `h.headers.get(name)`, for a name in lower case. -/
def HttpRequest.header (name : PyStr) : Option PyStr :=
  (h.headers.find? fun kv => decide (lower kv.1 = name)).map Prod.snd

/-- `int(h.headers.get("Content-Length") or 0)`. -/
def contentLength : Except Exc Int :=
  match h.header (py "content-length") with
  | some t => if t = [] then .ok 0 else orRaise (lib.builtins.int_of_text t) (.other .valueError)
  | none => .ok 0

/-- `h.path.partition("?")[0].lstrip("/")`. -/
def HttpRequest.target : PyStr := (h.path.takeWhile fun c => c != 63).dropWhile fun c => c == 47

/-- The first segment of the path. -/
def HttpRequest.provider_seg : PyStr := h.target.takeWhile fun c => c != 47

/-- The rest of the path. -/
def HttpRequest.rest : PyStr := 47 :: (h.target.dropWhile fun c => c != 47).drop 1

/-- The checks of route, path, body and model. -/
def checkBody (raw : Bytes) : Except Halt Fields := do
  if h.provider_seg ≠ s.provider.text then
    .error (.refusal ⟨403, py "provider", [.text (py "this session is bound to "), .text s.provider.text]⟩)
  else
    match path_ok s.provider h.rest with
    | none => .error (.refusal ⟨403, py "path",
        [.text (py "path "), .text h.rest, .text (py " not permitted")]⟩)
    | some m =>
      match lib.loads raw with
      | none => refuse 400 "json" "request body must be JSON"
      | some (.obj body) =>
        if requested_model s.provider m body ≠ some s.model then
          .error (.refusal ⟨403, py "model",
            [.text (py "model not allowlisted for this session; pinned "), .text s.model]⟩)
        else pure body
      | some _ => refuse 400 "json" "request body must be a JSON object"

/-- `{k.lower(): v for k, v in h.headers.items() if k.lower() in FORWARD_HEADERS[provider]}`. -/
def forwarded : Dict PyStr PyStr :=
  h.headers.foldl (fun d kv =>
    if lower kv.1 ∈ FORWARD_HEADERS s.provider then Dict.set d (lower kv.1) kv.2 else d) []

/-- The headers that are sent. -/
def outboundHeaders (size : Nat) : Dict PyStr PyStr :=
  let auth := auth_headers s.provider key
  let d := Dict.set (forwarded s h) auth.1 auth.2
  let d := if s.provider = .anthropic ∧ Dict.get? d (py "anthropic-version") = none then
    Dict.set d (py "anthropic-version") (py "2023-06-01") else d
  let d := Dict.set d (py "content-type") (py "application/json")
  Dict.set d (py "content-length") (natText size)

/-- `path.rstrip("/")`. -/
def stripSlashes (path : PyStr) : PyStr := (path.reverse.dropWhile fun c => c == 47).reverse

/-- `n or d`. -/
def portOr (n : Option Nat) (d : Nat) : Nat := if n.getD 0 = 0 then d else n.getD 0

/-- What `_forward` sends. -/
def outbound (stream : Bool) (body : Bytes) : Except Exc Outbound := do
  let u := lib.urlparse s.upstream
  let https := decide (u.scheme = py "https")
  let port ← u.port
  pure
    { https
      host := u.hostname
      port := portOr port (if https then 443 else 80)
      path := stripSlashes u.path ++ h.rest ++
        (if s.provider = .google ∧ stream then py "?alt=sse" else [])
      headers := outboundHeaders key s h body.length
      body }

/-- The usage that an answer reports. -/
def reported (stream : Bool) (captured : Bytes) : Except Exc (Option (Int × Int)) :=
  if stream then usage_from_stream lib.builtins s.provider (lib.decode captured)
  else usage_from_json lib.builtins s.provider ((lib.loads captured).getD .null)

/-- `_audit`: an `RpcError` is only logged. -/
def _audit (event : String) (data : Fields) : Prog Op Res (Except Exc Unit) :=
  (ask (.submit (py event) data)).bind fun
    | .error (.other e) => .ret (.error (.other e))
    | _ => .ret (.ok ())

/-- The entry of a forwarded request. -/
def requestData (status : Nat) (stream : Bool) (usage : Int × Int) (sent captured : Bytes) : Fields :=
  [(py "status", .int status), (py "stream", .bool stream),
    (py "usage", .arr [.int usage.1, .int usage.2]),
    (py "request_sha256", .str (lib.sha256_hex sent)),
    (py "response_sha256", .str (lib.sha256_hex captured))]

/-- The part of `handle` up to the limits: the body to forward, the estimate and the clamp. -/
def checkRequest : Request (Fields × Int × Int) := do
  let n ← compute (raising (contentLength lib h))
  if n ≤ 0 ∨ MAX_REQUEST < n then compute (refuse 400 "size" "request body missing or too large")
  else do
    let raw ← call (ask (.read n))
    let body ← compute (checkBody lib s h raw)
    section_ (ask (.limits raw.length h.rest body))

/-- `json.dumps(body).encode()`. -/
def encodeBody (body : Fields) : Except Exc Bytes :=
  orRaise ((dumps (.obj body)).bind encodeUtf8) (.other .valueError)

/-- What is done with the answer: it is metered and audited. -/
def settle (stream : Bool) (out_body : Bytes) (est_in clamp : Int) (x : Exchange) : Request Unit := do
  let usage ← compute (raising (reported lib s stream (relay stream x).2))
  let charged := charge usage (relay stream x).1 est_in clamp
  call (ask (.meter charged (relay stream x).1))
  call (_audit "model_request"
    (requestData lib (relay stream x).1 stream charged out_body (relay stream x).2))

/-- The part of `handle` after the limits. -/
def forward (body : Fields) (est_in clamp : Int) : Request Unit := do
  let stream := is_stream s.provider h.rest body
  let out_body ← compute (raising (encodeBody body))
  let o ← compute (raising (outbound lib key s h stream out_body))
  let x ← call (ask (.forward o stream))
  settle lib s stream out_body est_in clamp x

/-- The handler of a refusal. -/
def onRefusal (r : Refusal) : Prog Op Res (Except Exc Unit) := do
  let _ ← ask (.refused r)
  let audited ← _audit "model_refusal" [(py "cause", .str r.cause),
    (py "message", .str (lib.builtins.format r.message))]
  match audited with
  | .error e => .ret (.error e)
  | .ok _ => do
    let replied ← ask (.reply r.status (error_body s.provider r.status
      (py "valops model broker refused: " ++ lib.builtins.format r.message)))
    match replied with
    | .error (.other .osError) => .ret (.ok ())
    | replied => .ret replied

/-- `handle`. -/
def handle : Prog Op Res (Except Exc Unit) :=
  Prog.bind (do
    let (body, est_in, clamp) ← checkRequest lib s h
    forward lib key s h body est_in clamp : Request Unit).run fun
  | .ok _ => .ret (.ok ())
  | .error (.raised e) => .ret (.error e)
  | .error (.refusal r) => onRefusal lib s r

end Handle

end Valops.ModelBroker
