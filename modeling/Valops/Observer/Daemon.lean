import Valops.Conc.Raise
import Valops.Observer.Breaker
import Valops.Observer.Builtins
import Valops.Observer.Chain
import Valops.Observer.RateLimit
import Valops.Observer.Validate

/-!
# The observer daemon

`ObserverDaemon.observe` serves one request: it looks the command up, checks the arguments, the
breaker, the rate limit and the lock of the command, runs the builtin or the process, and writes one
entry to the local chain in `_finish`. Requests are served in threads of their own, which share the
state of the daemon; each operation on the state is one step.

Only an `OSError` of the builtin or of the process becomes a result.
-/

set_option autoImplicit false

namespace Valops.Observer.Daemon

open Py Conc

/-! ## State -/

/-- What an `ObserverDaemon` is built with. -/
structure Config where
  table : CommandTable
  local_ : Fields
  rate : Nat

/-- The state that the threads share: the local chain and its file, the breaker, the calls of the last
minute and the locks that are held. -/
structure State (sha : Bytes → PyStr) where
  chain : LocalChain
  holds : Holds sha chain
  file : Bytes
  breaker : Breaker
  calls : Calls
  held : List PyStr

theorem append_holds {sha : Bytes → PyStr} {c : LocalChain} (h : Holds sha c) (file : Bytes) (ts : Double)
    (x : Served) : Holds sha (c.append sha file ts x).1 := by
  rcases append_cases file ts x h with heq | ⟨_, _, _, _, _, hc⟩
  · rw [heq]
    exact h
  · exact hc

/-- The state after an append. -/
def State.append {sha : Bytes → PyStr} (s : State sha) (ts : Double) (x : Served) : State sha :=
  { s with
    chain := (s.chain.append sha s.file ts x).1
    holds := append_holds s.holds s.file ts x
    file := (s.chain.append sha s.file ts x).2 }

/-! ## Operations -/

/-- A process: its exit code, or none if it ran into the time limit, and what the reader got of its
output. -/
structure Ran where
  rc : Option Int
  chunks : List Bytes

/-- The steps of a request. -/
inductive Op where
  | now
  | monotonic
  | elapsed (t0 : ℚ)
  | breaker
  | rate_ok (cid : PyStr)
  | acquire (cid : PyStr)
  | release (cid : PyStr)
  | host
  | sample (latency_ms : Double) (healthy : Bool)
  | spawn (argv : List PyStr) (timeout_s : Double)
  | append (x : Served)

abbrev Res : Op → Type
  | .now => Double
  | .monotonic => ℚ
  | .elapsed _ => Double
  | .breaker => Breaker
  | .rate_ok _ => Bool
  | .acquire _ => Bool
  | .release _ => Unit
  | .host => Host
  | .sample _ _ => Unit
  | .spawn _ _ => Answer Ran
  | .append _ => Except Exc Nat

/-- The arguments of a process: without null characters, and with surrogates only for bytes that are
no text. -/
def spawnable (argv : List PyStr) : Bool :=
  argv.all fun tok => tok.all fun c => decide (c ≠ 0) && (isScalar c || decide (0xDC80 ≤ c ∧ c ≤ 0xDCFF))

section Steps

variable {sha : Bytes → PyStr}

/-- `append`: an entry without a canonical form is not written. -/
def Appends (s : State sha) (ts : Double) (x : Served) (r : Except Exc Nat) (s' : State sha) : Prop :=
  s' = s.append ts x ∧ r =
    if (canonical (s.chain.entry ts x)).isSome then .ok (s.chain.seq + 1) else .error (.other .valueError)

/-- What a step does. -/
def Behaves (rate : Nat) (s : State sha) : (o : Op) → Res o → State sha → Prop
  | .now, _, s' => s' = s
  | .monotonic, _, s' => s' = s
  | .elapsed _, _, s' => s' = s
  | .breaker, x, s' => x = s.breaker ∧ s' = s
  | .rate_ok cid, x, s' => ∃ t, x = (_rate_ok rate s.calls cid t).1 ∧
      s' = { s with calls := (_rate_ok rate s.calls cid t).2 }
  | .acquire cid, x, s' => x = decide (cid ∉ s.held) ∧
      s' = { s with held := if cid ∈ s.held then s.held else cid :: s.held }
  | .release cid, _, s' => s' = { s with held := s.held.erase cid }
  | .host, _, s' => s' = s
  | .sample ms ok, _, s' => ∃ t, s' = { s with breaker := s.breaker.sample ⟨ms, ok, t⟩ }
  | .spawn argv _, x, s' => s' = s ∧
      if spawnable argv then ∀ e, x ≠ .error (.other e) else x = .error (.other (.other .valueError))
  | .append x, r, s' => ∃ ts, Appends s ts x r s'

end Steps

/-! ## Requests -/

/-- The body of a request, as it came out of the decoder. -/
structure Request where
  command_id : Json
  args : Json
  request_id : Json
  decoded : request_id.WF ∧ command_id.WF

inductive Status where
  | ok | error | timeout | rejected | unavailable | suspended | rate_limited | busy
  deriving DecidableEq

def Status.text : Status → PyStr
  | .ok => py "ok"
  | .error => py "error"
  | .timeout => py "timeout"
  | .rejected => py "rejected"
  | .unavailable => py "unavailable"
  | .suspended => py "suspended"
  | .rate_limited => py "rate_limited"
  | .busy => py "busy"

/-- What `observe` returns. -/
structure Observation where
  command_id : Json
  request_id : Json
  collected_at : Double
  status : Status
  structured : Json
  output : PyStr
  truncated : Bool
  flags : List PyStr
  redactions : Nat
  elapsed_ms : Double
  audit_ref : PyStr

/-- A step of a request that may raise. -/
abbrev Act (α : Type) := ExceptT Exc (Prog Op Res) α

/-- The next step. -/
abbrev ask (o : Op) : Act (Res o) := issue o

/-- `base` and `t0`. -/
structure Base where
  request : Request
  collected_at : Double
  t0 : ℚ

/-- How the locked part ends: it has answered already, or it has an outcome. -/
inductive Attempt where
  | answered (o : Observation)
  | ran (status : Status) (structured : Json) (text : PyStr) (truncated : Bool)

/-- `f"daemon:{seq}"`. -/
def auditRef (seq : Nat) : PyStr := py "daemon:" ++ natText seq

/-- `{"error": text}`. -/
def errorText (text : PyStr) : Json := .obj [(py "error", .str text)]

/-- `Breaker.state`. -/
def breakerState (br : Breaker) : Json :=
  Json.mkObj [(py "open", .bool br.open_), (py "trips", .int br.trips),
    (py "opened_at", (br.opened_at.map Json.float).getD .null), (py "threshold_ms", .float br.threshold_ms)]

/-- The loop of `reader`: what comes beyond the cap is discarded. -/
def reader (limit : Int) (chunks : List Bytes) : Bytes × Bool :=
  chunks.foldl (fun x chunk => if (x.1.length : Int) < limit then (x.1 ++ chunk, x.2) else (x.1, true)) ([], false)

/-- `_exec`, once the process has ended. -/
def _exec (cmd : Command) (ran : Ran) : Status × Bytes × Bool :=
  let status :=
    match ran.rc with
    | some rc => if rc = 0 then .ok else .error
    | none => if cmd.timeout_is_sample then .ok else .timeout
  let buf := reader cmd.output_cap_bytes ran.chunks
  let x := cap buf.1 cmd.output_cap_bytes
  (status, x.1, x.2 || buf.2)

section Observe

variable (b : Builtins) (u : UnicodeData) (sha : Bytes → PyStr) (d : Config)

/-- `_finish`. -/
def _finish (base : Base) (status : Status) (structured : Json) (text : PyStr) (truncated : Bool) :
    Act Observation := do
  let redacted := redact u text
  let elapsed_ms ← ask (.elapsed base.t0)
  let bytes ← result (orRaise (encodeUtf8 redacted.1) (.other .valueError))
  let r ← ask (.append
    { request_id := base.request.request_id, command_id := base.request.command_id
      status := status.text, output_hash := sha bytes, elapsed_ms, decoded := base.request.decoded })
  let seq ← result r
  pure
    { command_id := base.request.command_id, request_id := base.request.request_id
      collected_at := base.collected_at, status, structured, output := redacted.1, truncated
      flags := suspicious u text, redactions := redacted.2, elapsed_ms, audit_ref := auditRef seq }

/-- A builtin has run. -/
def capped (cmd : Command) (built : Built) : Act Attempt := do
  let bytes ← result (orRaise (encodeUtf8 built.text) (.other .valueError))
  let raw := cap bytes cmd.output_cap_bytes
  match built.probe with
  | none => pure (.ran .ok built.structured (decodeReplace raw.1) raw.2)
  | some (ms, ok) => do
    let _ ← ask (.sample ms ok)
    let br ← ask .breaker
    let structured := match built.structured with
      | .obj kvs => .obj (Json.insertField (py "breaker") (breakerState br) kvs)
      | v => v
    pure (.ran .ok structured (decodeReplace raw.1) raw.2)

/-- A builtin, with `except OSError`. -/
def attemptBuiltin (base : Base) (cmd : Command) (vargs : Fields) : Act Attempt := do
  let h ← ask .host
  match runBuiltin b u h cmd.id vargs d.local_ with
  | .ok built => capped cmd built
  | .error (.os name) => Attempt.answered <$> _finish u sha base .error (errorText name) [] false
  | .error (.other e) => throw e

/-- `parser(text, self.local) if parser and status == "ok" else {"parsed": False}`. -/
def structuredOf (cmd : Command) (status : Status) (text : PyStr) : Except Exc Json := do
  let parser ← parserOf cmd.parser
  match parser with
  | some p => if status = .ok then runParser b u p text d.local_ else pure notParsed
  | none => pure notParsed

/-- The tokens of the process; `ArgError` is a `ValueError`. -/
def argvOf (cmd : Command) (vargs : Fields) : Except Exc (List PyStr) :=
  match assemble_argv b cmd vargs d.local_ with
  | .ok argv => .ok argv
  | .error (.arg _) => .error (.other .valueError)
  | .error (.exc e) => .error e

/-- The process has ended. -/
def parsed (cmd : Command) (ran : Ran) : Act Attempt := do
  let x := _exec cmd ran
  let text := decodeReplace x.2.1
  let structured ← result (structuredOf b u d cmd x.1 text)
  pure (.ran x.1 structured text x.2.2)

/-- A process, with `except OSError`. -/
def attemptExec (base : Base) (cmd : Command) (vargs : Fields) : Act Attempt := do
  let argv ← result (argvOf b d cmd vargs)
  let r ← ask (.spawn argv cmd.timeout_s)
  match r with
  | .ok ran => parsed b u d cmd ran
  | .error (.os name) => Attempt.answered <$> _finish u sha base .error (errorText name) [] false
  | .error (.other e) => throw e

/-- The locked part. -/
def attempt (base : Base) (cmd : Command) (vargs : Fields) : Act Attempt :=
  if cmd.kind = .builtin then attemptBuiltin b u sha d base cmd vargs
  else attemptExec b u sha d base cmd vargs

/-- The lock is held. -/
def locked (base : Base) (cmd : Command) (vargs : Fields) : Act Observation := do
  let x ← finally_ (attempt b u sha d base cmd vargs) (.release cmd.id)
  match x with
  | .answered o => pure o
  | .ran status structured text truncated => _finish u sha base status structured text truncated

/-- The lock of the command is tried. -/
def concurrency (base : Base) (cmd : Command) (vargs : Fields) : Act Observation := do
  let free ← ask (.acquire cmd.id)
  if free then locked b u sha d base cmd vargs
  else _finish u sha base .busy (.obj []) [] false

/-- The rate limit. -/
def limited (base : Base) (cmd : Command) (vargs : Fields) : Act Observation := do
  let ok ← ask (.rate_ok cmd.id)
  if ok then concurrency b u sha d base cmd vargs
  else _finish u sha base .rate_limited (.obj []) [] false

/-- The breaker, of a command that uses the RPC service. -/
def backed (base : Base) (cmd : Command) (vargs : Fields) : Act Observation := do
  let br ← ask .breaker
  if br.open_ then do
    let br ← ask .breaker
    _finish u sha base .suspended (.obj [(py "breaker", breakerState br)]) [] false
  else limited b u sha d base cmd vargs

/-- The arguments are valid. -/
def serve (base : Base) (cmd : Command) (vargs : Fields) : Act Observation :=
  if cmd.kind = .unavailable then
    _finish u sha base .unavailable
      (.obj [(py "reason", .str (py "query not verified against a primary source [U]"))]) [] false
  else if cmd.rpc_backed then backed b u sha d base cmd vargs
  else limited b u sha d base cmd vargs

/-- `self.table.commands.get(command_id) if isinstance(command_id, str) else None`. -/
def Config.command (command_id : Json) : Option Command :=
  match command_id with
  | .str cid => d.table.get cid
  | _ => none

/-- `observe`. -/
def observe (req : Request) : Act Observation := do
  let t0 ← ask .monotonic
  let collected_at ← ask .now
  let base : Base := ⟨req, collected_at, t0⟩
  match d.command req.command_id with
  | none => _finish u sha base .rejected (errorText (py "unknown command_id")) [] false
  | some cmd =>
    match validate_args cmd req.args with
    | .ok vargs => serve b u sha d base cmd vargs
    | .error (.arg text) => _finish u sha base .rejected (errorText (b.format text)) [] false
    | .error (.exc e) => throw e

end Observe

end Valops.Observer.Daemon
