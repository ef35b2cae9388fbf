import Valops.Common.Builtins
import Valops.Py.Dumps
import Valops.Py.Lines
import Valops.Py.Loads
import Valops.Common.Schema

/-!
# Wire formats of the providers

Path allowlists, the model a request names, the output cap, and the token counts of an answer, for
each of the three providers. A body is the worker's JSON object; an answer is what the provider
sent, so every type can stand in every field and the functions raise where Python does.
-/

set_option autoImplicit false

namespace Valops.ModelBroker

open Py

/-- The providers of `PATHS`. -/
inductive Provider where
  | anthropic | openai | google
  deriving DecidableEq, Repr

def Provider.text : Provider → PyStr
  | .anthropic => py "anthropic"
  | .openai => py "openai"
  | .google => py "google"

/-- `d.get(k)` on the fields of a dict. -/
def field (kvs : Fields) (k : String) : Json := (Json.lookup (py k) kvs).getD .null

/-- `v or w`. -/
def orElse (v w : Json) : Json := if v.truthy then v else w

/-! ## Paths -/

/-- A character of a model name in a path. -/
def isModelChar (c : Nat) : Bool :=
  isDigit c || decide (65 ≤ c ∧ c ≤ 90) || decide (97 ≤ c ∧ c ≤ 122) || c == 46 || c == 45 || c == 95

/-- The match of the pattern for a google path: the model. -/
def googlePath (path : PyStr) : Option PyStr := do
  let rest ← dropPrefix (py "/v1beta/models/") (dropFinalNewline path)
  let model := rest.takeWhile isModelChar
  let call := rest.dropWhile isModelChar
  if model ≠ [] ∧ (call = py ":generateContent" ∨ call = py ":streamGenerateContent") then some model
  else none

/-- `path_ok`: the match, with its group if the pattern has one. -/
def path_ok (provider : Provider) (path : PyStr) : Option (Option PyStr) :=
  match provider with
  | .anthropic => if dropFinalNewline path = py "/v1/messages" then some none else none
  | .openai =>
    if dropFinalNewline path ∈ [py "/v1/chat/completions", py "/v1/responses"] then some none else none
  | .google => (googlePath path).map some

/-- `requested_model`. -/
def requested_model (provider : Provider) (path_match : Option PyStr) (body : Fields) :
    Option PyStr :=
  match provider with
  | .google => path_match
  | _ =>
    match field body "model" with
    | .str m => some m
    | _ => none

/-- `path.endswith(":streamGenerateContent")`, or `bool(body.get("stream"))`. -/
def is_stream (provider : Provider) (path : PyStr) (body : Fields) : Bool :=
  match provider with
  | .google => decide (py ":streamGenerateContent" <:+ path)
  | _ => (field body "stream").truthy

/-! ## The output cap -/

section Clamp

variable (b : Builtins)

/-- `min(int(v or remaining), remaining)`. -/
def capped (v : Json) (remaining : Int) : Except Exc Int := do
  let n ← b.int (orElse v (.int remaining))
  pure (min n remaining)

/-- `d[k] = min(int(d.get(k) or remaining), remaining)`, and the new value. -/
def clampField (kvs : Fields) (k : String) (remaining : Int) : Except Exc (Fields × Int) := do
  let n ← capped b (field kvs k) remaining
  pure (Json.insertField (py k) (.int n) kvs, n)

/-- The field of a chat completion that is rewritten. -/
def chatKey (body : Fields) : String :=
  if (Json.lookup (py "max_tokens") body).isSome then "max_tokens" else "max_completion_tokens"

/-- `{**(body.get("stream_options") or {}), "include_usage": True}` for a streaming request. -/
def includeUsage (body : Fields) : Except Exc Fields :=
  if (field body "stream").truthy then
    match orElse (field body "stream_options") (.obj []) with
    | .obj kvs => .ok (Json.insertField (py "stream_options")
        (.obj (Json.insertField (py "include_usage") (.bool true) kvs)) body)
    | _ => .error (.other .typeError)
  else .ok body

/-- `clamp_output`: the body with its output cap, and the cap. -/
def clamp_output (provider : Provider) (path : PyStr) (body : Fields) (remaining : Int) :
    Except Exc (Fields × Int) :=
  match provider with
  | .anthropic => clampField b body "max_tokens" remaining
  | .openai =>
    if py "/responses" <:+ path then clampField b body "max_output_tokens" remaining
    else do
      let (body, n) ← clampField b body (chatKey body) remaining
      let body ← includeUsage body
      pure (body, n)
  | .google =>
    match (Json.lookup (py "generationConfig") body).getD (.obj []) with
    | .obj gc => do
      let (gc, n) ← clampField b gc "maxOutputTokens" remaining
      pure (Json.insertField (py "generationConfig") (.obj gc) body, n)
    | _ => .error (.other .attributeError)

end Clamp

/-! ## Usage -/

section Usage

variable (b : Builtins)

/-- `int(v or 0)`. -/
def count (v : Json) : Except Exc Int := b.int (orElse v (.int 0))

/-- The input tokens of an anthropic usage record, cached ones included. -/
def anthropicInput (u : Fields) : Except Exc Int := do
  let fresh ← count b (field u "input_tokens")
  let created ← count b (field u "cache_creation_input_tokens")
  let read ← count b (field u "cache_read_input_tokens")
  pure (fresh + created + read)

/-- `(v or {}).get(k)`. -/
def innerGet (v : Json) (k : String) : Except Exc Json := get (orEmpty v) k

/-- `obj.get("usage") or (obj.get(k) or {}).get("usage")`. -/
def usageOf (obj : Fields) (k : String) : Except Exc Json :=
  if (field obj "usage").truthy then pure (field obj "usage") else innerGet (field obj k) "usage"

/-- `u.get(k, u.get(l))`. -/
def eitherKey (u : Fields) (k l : String) : Json :=
  (Json.lookup (py k) u).getD (field u l)

/-- `usage_from_json` for a dict. -/
def usageOfObject (provider : Provider) (obj : Fields) : Except Exc (Option (Int × Int)) :=
  match provider with
  | .anthropic => do
    let u ← usageOf obj "message"
    match u with
    | .obj u =>
      if (Json.lookup (py "input_tokens") u).isSome ∨ (Json.lookup (py "output_tokens") u).isSome then do
        let i ← anthropicInput b u
        let o ← count b (field u "output_tokens")
        pure (some (i, o))
      else pure none
    | _ => pure none
  | .openai => do
    let u ← usageOf obj "response"
    match u with
    | .obj u =>
      let i := eitherKey u "prompt_tokens" "input_tokens"
      let o := eitherKey u "completion_tokens" "output_tokens"
      if i ≠ .null ∨ o ≠ .null then do
        let i ← count b i
        let o ← count b o
        pure (some (i, o))
      else pure none
    | _ => pure none
  | .google =>
    match field obj "usageMetadata" with
    | .obj u => do
      let i ← count b (field u "promptTokenCount")
      let o ← count b (field u "candidatesTokenCount")
      let t ← count b (field u "thoughtsTokenCount")
      pure (some (i, o + t))
    | _ => pure none

/-- `usage_from_json`. -/
def usage_from_json (provider : Provider) (v : Json) : Except Exc (Option (Int × Int)) :=
  match v with
  | .obj obj => usageOfObject b provider obj
  | _ => pure none

/-- What a stream has said about input and output so far. -/
abbrev Partial := Option Int × Option Int

/-- The body of the loop of `usage_from_stream` on an event. -/
def streamEvent (provider : Provider) (acc : Partial) (v : Json) : Except Exc Partial :=
  match provider with
  | .anthropic => do
    let type ← get v "type"
    if type.eqStr (py "message_start") then do
      let message ← get v "message"
      let u ← innerGet message "usage"
      match orEmpty u with
      | .obj u => do
        let i ← anthropicInput b u
        pure (some i, acc.2)
      | _ => throw (.other .attributeError)
    else do
      let u ← if type.eqStr (py "message_delta") then get v "usage" else pure .null
      match u with
      | .obj u => do
        let o ← count b (field u "output_tokens")
        if (field u "input_tokens").truthy then do
          let i ← b.int (field u "input_tokens")
          pure (some i, some o)
        else pure (acc.1, some o)
      | _ => pure acc
  | _ => do
    let u ← usage_from_json b provider v
    match u with
    | some (i, o) => pure (some i, some o)
    | none => pure acc

/-- The loop of `usage_from_stream`; a line that is not JSON is skipped. -/
def streamLoop (provider : Provider) : Partial → List PyStr → Except Exc Partial
  | acc, [] => .ok acc
  | acc, d :: ds =>
    match loads d with
    | none => streamLoop provider acc ds
    | some v => do
      let acc ← streamEvent b provider acc v
      streamLoop provider acc ds

/-- The `data:` lines of a text, without the mark. -/
def dataLines (text : PyStr) : List PyStr :=
  ((splitlines text).filter fun l => decide (py "data:" <+: l)).map fun l =>
    (((l.drop 5).dropWhile isSpace).reverse.dropWhile isSpace).reverse

/-- The events of a stream: its `data:` lines, or for google the members of a JSON array; `none` where
the text of such an answer is not JSON. -/
def streamEvents (provider : Provider) (text : PyStr) : Except Exc (Option (List PyStr)) :=
  if dataLines text = [] ∧ provider = .google then
    match loads text with
    | none => pure none
    | some (.arr xs) => do
      let ds ← xs.mapM fun x => orRaise (dumps x) (.other .valueError)
      pure (some ds)
    | some v => do
      let d ← orRaise (dumps v) (.other .valueError)
      pure (some [d])
  else pure (some (dataLines text))

/-- `usage_from_stream`, on the decoded text. -/
def usage_from_stream (provider : Provider) (text : PyStr) : Except Exc (Option (Int × Int)) := do
  let events ← streamEvents provider text
  match events with
  | none => pure none
  | some ds => do
    let acc ← streamLoop b provider (none, none) ds
    pure (if acc = (none, none) then none else some (acc.1.getD 0, acc.2.getD 0))

end Usage

/-! ## Errors -/

/-- `{...}.get(status, other)`. -/
def statusName (names : List (Nat × String)) (other : String) (status : Nat) : PyStr :=
  py (((names.find? fun x => x.1 == status).map Prod.snd).getD other)

/-- `error_body`, before it is printed. -/
def error_body (provider : Provider) (status : Nat) (message : PyStr) : Json :=
  match provider with
  | .anthropic =>
    let t := statusName [(400, "invalid_request_error"), (403, "permission_error"),
      (429, "rate_limit_error")] "api_error" status
    Json.mkObj [(py "type", .str (py "error")),
      (py "error", Json.mkObj [(py "type", .str t), (py "message", .str message)])]
  | .openai => Json.mkObj [(py "error", Json.mkObj [(py "message", .str message),
      (py "type", .str (py "invalid_request_error")), (py "code", .str (py "valops_broker_refusal"))])]
  | .google =>
    let s := statusName [(400, "INVALID_ARGUMENT"), (403, "PERMISSION_DENIED"),
      (429, "RESOURCE_EXHAUSTED")] "INTERNAL" status
    Json.mkObj [(py "error", Json.mkObj [(py "code", .int status), (py "message", .str message),
      (py "status", .str s)])]

/-! ## Headers -/

/-- `FORWARD_HEADERS`. -/
def FORWARD_HEADERS : Provider → List PyStr
  | .anthropic => [py "content-type", py "accept", py "anthropic-version", py "anthropic-beta"]
  | .openai => [py "content-type", py "accept", py "openai-beta"]
  | .google => [py "content-type", py "accept"]

/-- `CREDENTIAL_HEADERS`. -/
def CREDENTIAL_HEADERS : List PyStr :=
  [py "authorization", py "x-api-key", py "x-goog-api-key", py "api-key", py "cookie",
    py "proxy-authorization"]

/-- `auth_headers`. -/
def auth_headers (provider : Provider) (key : PyStr) : PyStr × PyStr :=
  match provider with
  | .anthropic => (py "x-api-key", key)
  | .openai => (py "authorization", py "Bearer " ++ key)
  | .google => (py "x-goog-api-key", key)

end Valops.ModelBroker
