import Valops.Store.Service

/-!
# The workers' side of the brokers

The tools with which a worker writes, and what the three brokers share: the checks of `authorize`,
the quotas, and the revocation of sessions. A handler is split where it calls the store: what comes
before makes a `Request`, what comes after answers the worker. Quotas are taken before the store is
called and stay taken when a later check fails.
-/

set_option autoImplicit false

namespace Valops.Brokers

open Py Store

/-! ## Tools -/

/-- The three brokers. -/
inductive BrokerName where
  | episode | observer | report
  deriving DecidableEq, Repr

/-- The tools that end in an entry of the store. -/
inductive Tool where
  | get_validator_monitor | get_catchup | get_leader_schedule | get_identity_balance
  | get_running_version | tail_validator_log | get_host_metrics | get_host_hygiene
  | get_consensus_state_files | get_telemetry_health | add_hypothesis | set_hypothesis_status
  | propose_recommendation | report_no_action | submit_verdict | write_incident_report
  deriving DecidableEq, Repr

/-- An integer in a range. -/
def intSchema (minimum : Int) (maximum : Option Int) : Schema :=
  .node { types := [.integer], minimum := some (.int minimum), maximum := maximum.map .int } none []

/-- The list of signal ids that an artefact cites. -/
def refsSchema : Schema := listSchema (idSchema "^s[0-9]+$" (py "s")) 1 50

namespace Tool

def name : Tool → PyStr
  | get_validator_monitor => py "get_validator_monitor"
  | get_catchup => py "get_catchup"
  | get_leader_schedule => py "get_leader_schedule"
  | get_identity_balance => py "get_identity_balance"
  | get_running_version => py "get_running_version"
  | tail_validator_log => py "tail_validator_log"
  | get_host_metrics => py "get_host_metrics"
  | get_host_hygiene => py "get_host_hygiene"
  | get_consensus_state_files => py "get_consensus_state_files"
  | get_telemetry_health => py "get_telemetry_health"
  | add_hypothesis => py "add_hypothesis"
  | set_hypothesis_status => py "set_hypothesis_status"
  | propose_recommendation => py "propose_recommendation"
  | report_no_action => py "report_no_action"
  | submit_verdict => py "submit_verdict"
  | write_incident_report => py "write_incident_report"

/-- `broker`. -/
def broker : Tool → BrokerName
  | add_hypothesis | set_hypothesis_status | propose_recommendation | report_no_action
  | submit_verdict => .episode
  | write_incident_report => .report
  | _ => .observer

/-- `roles`. -/
def roles : Tool → List Role
  | add_hypothesis | set_hypothesis_status => [.diagnostician]
  | propose_recommendation | report_no_action => [.change_planner]
  | submit_verdict => [.proposal_judge]
  | write_incident_report => [.reporter]
  | _ => [.diagnostician, .change_planner, .proposal_judge]

/-- `command_id`; the telemetry tool has none. -/
def command_id : Tool → Option PyStr
  | get_validator_monitor => some (py "validator_monitor")
  | get_catchup => some (py "catchup")
  | get_leader_schedule => some (py "leader_schedule_self")
  | get_identity_balance => some (py "identity_balance")
  | get_running_version => some (py "running_version")
  | tail_validator_log => some (py "log_tail")
  | get_host_metrics => some (py "host_metrics")
  | get_host_hygiene => some (py "host_hygiene")
  | get_consensus_state_files => some (py "consensus_state_files")
  | _ => none

/-- `input_schema`. -/
def input_schema : Tool → Schema
  | get_leader_schedule => objectSchema [] [("epoch", intSchema 0 none)]
  | tail_validator_log => objectSchema ["lines"] [("lines", intSchema 1 (some 500))]
  | add_hypothesis => objectSchema ["rank", "claim", "test", "expected_evidence"]
      [("rank", intSchema 1 (some 20)), ("claim", strSchema 4000), ("test", strSchema 4000),
        ("expected_evidence", strSchema 4000)]
  | set_hypothesis_status => objectSchema ["hypothesis_id", "status", "evidence_refs"]
      [("hypothesis_id", idSchema "^h[0-9]+$" (py "h")),
        ("status", enumSchema ["supported", "refuted"]), ("evidence_refs", refsSchema)]
  | propose_recommendation => recommendationSchema
  | report_no_action => objectSchema ["reason", "evidence_refs"]
      [("reason", strSchema 4000), ("evidence_refs", refsSchema)]
  | submit_verdict => objectSchema ["target_id", "result", "checks"]
      [("target_id", idSchema "^[rn][0-9]+$" (py "rn")), ("result", enumSchema ["PASS", "FAIL"]),
        ("checks", checksSchema)]
  | write_incident_report => objectSchema ["kind", "markdown"]
      [("kind", enumSchema ["incident", "closure"]), ("markdown", strSchema 60000)]
  | _ => objectSchema [] []

/-- The operation of the store that a tool calls. -/
def method : Tool → Method
  | add_hypothesis => .append_hypothesis
  | set_hypothesis_status => .append_hypothesis_status
  | propose_recommendation => .append_recommendation
  | report_no_action => .append_no_action
  | submit_verdict => .append_verdict
  | write_incident_report => .append_report
  | _ => .append_observation

/-- The socket of the store that the broker is connected to. -/
def endpoint (t : Tool) : Endpoint :=
  match t.broker with
  | .episode => .agent
  | .observer => .observe
  | .report => .agent_report

end Tool

/-! ## Brokers -/

/-- What the brokers are built with; `sha256_hex` is the library's. -/
structure BrokerConfig where
  store : StoreConfig
  sha256_hex : Bytes → PyStr

/-- What one handler meets outside: the clock, the bundle of the token, the audit's answer to each
event, the host's answer to a sample, and the disk. -/
structure BrokerWorld where
  now : Double
  registry : BundleRegistry
  limit : Except Exc Int
  commands : PyStr → Bool
  audit : String → Except Exc PyStr
  sample : Except Exc Fields
  time_ns : Int
  disk : Except Exc Unit

/-- `Quota`. -/
abbrev Quota := Dict (Key × PyStr) Int

/-- The state of a broker. -/
structure Broker where
  revoked : List PyStr := []
  quota : Quota := []

/-- `Quota.take`. -/
def Quota.take (q : Quota) (session_id : Json) (name : PyStr) (limit : Int) : Except Exc Quota := do
  let n := (Dict.get? q (⟨session_id⟩, name)).getD 0
  require (n < limit) (rpcError .quota
    [.text (py "limit "), .str (.int limit), .text (py " reached for "), .text name])
  pure (Dict.set q (⟨session_id⟩, name) (n + 1))

/-- A call of the store that a handler is about to make; `result` is what it will tell the worker
apart from the store's answer. -/
structure Request where
  tool : Tool
  token : Json
  cap : Capability
  idem_key : PyStr
  args : Fields
  result : Fields
  deriving DecidableEq

/-- The keyword arguments of the call. -/
def Request.fields (r : Request) : Fields :=
  Json.mkFields ([(py "token", r.token), (py "episode_id", r.cap.episode_id),
    (py "idem_key", .str r.idem_key)] ++ r.args)

section Handlers

variable (cfg : BrokerConfig)

/-- The gate of a broker. -/
def Broker.gate (w : BrokerWorld) (b : Broker) : TokenGate :=
  ⟨cfg.store.verify, w.registry.verify, b.revoked⟩

/-- `tool_allowed`. -/
def tool_allowed (role : Json) (t : Tool) : Except Exc Bool := do
  hashed role
  pure (t.roles.any fun r => role.eqStr r.text)

/-- `authorize`. -/
def authorize (w : BrokerWorld) (b : Broker) (p : Params) (t : Tool) :
    Except Exc (Capability × Json) := do
  let cap ← (b.gate cfg w).check w.now (p.get "token") (p.get "episode_id") .null
  let ok ← tool_allowed cap.role t
  if !ok then
    let _ ← w.audit "tool_denied"
    throw (rpcError .forbidden
      [.text (py "role "), .str cap.role, .text (py " may not call "), .text t.name])
  else
    let args := orEmpty (p.get "args")
    match validate t.input_schema args (py "$") with
    | some text => do
      let _ ← w.audit "tool_denied"
      throw (rpcError .invalid_args text)
    | none => pure (cap, args)

/-- The part of a handler that comes before the store is called: the checks, the quota, and what
this tool does then. -/
def charged (w : BrokerWorld) (b : Broker) (p : Params) (t : Tool) (name : PyStr)
    (limit : Except Exc Int) (rest : Capability → Json → Except Exc Request) :
    Except Exc Request × Broker :=
  let taken : Except Exc (Capability × Json × Quota) := do
    let (cap, args) ← authorize cfg w b p t
    let n ← limit
    let q ← Quota.take b.quota cap.session_id name n
    pure (cap, args, q)
  match taken with
  | .error e => (.error e, b)
  | .ok (cap, args, q) => (rest cap args, { b with quota := q })

/-- `revoke_session` of the admin endpoint. -/
def Broker.revoke (b : Broker) (p : Params) : Except Exc (Json × Broker) := do
  let bad := rpcError .invalid (msg "session_id required")
  let sid ← orRaise (asStr (p.get "session_id")) bad
  require (!sid.isEmpty) bad
  pure (Json.mkObj [(py "revoked", .str sid)], { b with revoked := sid :: b.revoked })

/-- The answer of the store as `RpcClient.call` returns it: an exception of the handler that is no
`RpcError` arrives as `internal`. -/
def received (r : Except Exc Reply) : Except Exc Json :=
  match r with
  | .ok (.json v) => .ok v
  | .ok _ => .error (.other .typeError)
  | .error (.rpc code text data) => .error (.rpc code text data)
  | .error (.other _) => .error (rpcError .internal [])

end Handlers

end Valops.Brokers
