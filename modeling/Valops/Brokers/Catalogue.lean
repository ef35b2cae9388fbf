import Valops.Brokers.Workers

/-!
# The whole catalogue of tools

Beside the tools that end in an entry of the store there are two that read an episode,
`get_verification_result` and `draft_failover_runbook`, and one that reads it and then dispatches an
alert, `send_alert`. The read goes through the store's `agent_read`, which looks up no tool.
-/

set_option autoImplicit false

namespace Valops.Brokers

open Py Store

/-! ## Tools -/

/-- `states` of a tool that ends in an entry. -/
def Tool.states : Tool → List EpisodeState
  | add_hypothesis | set_hypothesis_status => [.diagnosing]
  | propose_recommendation | report_no_action => [.recommending]
  | submit_verdict => [.judging]
  | write_incident_report => [.reporting, .resolved]
  | _ => [.diagnosing, .recommending, .judging]

/-- `TOOLS`. -/
inductive CatalogueTool where
  | entry (t : Tool)
  | get_verification_result | draft_failover_runbook | send_alert
  deriving DecidableEq, Repr

namespace CatalogueTool

def name : CatalogueTool → PyStr
  | entry t => t.name
  | get_verification_result => py "get_verification_result"
  | draft_failover_runbook => py "draft_failover_runbook"
  | send_alert => py "send_alert"

/-- `broker`. -/
def broker : CatalogueTool → BrokerName
  | entry t => t.broker
  | get_verification_result | draft_failover_runbook => .episode
  | send_alert => .report

/-- `roles`. -/
def roles : CatalogueTool → List Role
  | entry t => t.roles
  | get_verification_result => [.change_planner, .proposal_judge, .reporter]
  | draft_failover_runbook => [.change_planner]
  | send_alert => [.reporter]

/-- `states`. -/
def states : CatalogueTool → List EpisodeState
  | entry t => t.states
  | get_verification_result => [.recommending, .judging, .reporting, .resolved]
  | draft_failover_runbook => [.recommending]
  | send_alert => [.reporting, .resolved]

/-- `input_schema`. -/
def input_schema : CatalogueTool → Schema
  | entry t => t.input_schema
  | send_alert => objectSchema ["kind", "summary"]
      [("kind", enumSchema ["incident", "closure"]), ("summary", strSchema 1500)]
  | _ => objectSchema [] []

/-- The socket of the store that the broker is connected to. -/
def endpoint (t : CatalogueTool) : Endpoint :=
  match t.broker with
  | .episode => .agent
  | .observer => .observe
  | .report => .agent_report

/-- `tool_allowed`. -/
def allowed (role : Json) (t : CatalogueTool) : Except Exc Bool := do
  hashed role
  pure (t.roles.any fun r => role.eqStr r.text)

/-- `authorize`. -/
def authorize (cfg : BrokerConfig) (w : BrokerWorld) (b : Broker) (p : Params) (t : CatalogueTool) :
    Except Exc (Capability × Json) := do
  let cap ← (b.gate cfg w).check w.now (p.get "token") (p.get "episode_id") .null
  let ok ← allowed cap.role t
  if !ok then
    let _ ← w.audit "tool_denied"
    throw (rpcError .forbidden
      [.text (py "role "), .str cap.role, .text (py " may not call "), .text t.name])
  else
    let args := orEmpty (p.get "args")
    match validate t.input_schema args (py "$") with
    | some text => do
      let _ ← w.audit "tool_denied"
      throw (rpcError .invalid_args text)
    | none => pure (cap, args)

theorem authorize_entry (cfg : BrokerConfig) (w : BrokerWorld) (b : Broker) (p : Params) (t : Tool) :
    (entry t).authorize cfg w b p = Brokers.authorize cfg w b p t := rfl

end CatalogueTool

/-- What the worker is told. -/
inductive ToolAnswer where
  | json (v : Json)
  | verification (verifications : List Verification)
      (recovery_observations : List RecoveryObservation) (state : Option EpisodeState)
  | checklist (mode : Mode) (text : PyStr)
  | alert (alert_id ack : Json) (duplicate : Bool)

/-- The alerts of the report broker, by id, when some were sent, and the text of `alerts.jsonl`. -/
structure Alerts where
  alerts : Dict PyStr Fields := []
  sent_times : List Double := []
  log : PyStr := []

/-- What a handler of these tools meets outside: the bundle of the token (its skill file and its fault
classes), the section of a text that `_section` finds, the alert sink, a new id, the clock and the
log of the alerts. -/
structure ReadWorld extends BrokerWorld where
  skill_file : Except Exc (Option PyStr)
  section_of : PyStr → Mode → Option PyStr
  fault_classes : Except Exc Json
  sink : Except PyStr Json
  uuid : PyStr
  dispatched : Double
  sent_ts : Double
  development : Bool
  log : Except Exc Unit

section Handlers

variable (cfg : BrokerConfig)

/-- The keyword arguments of the call `read_episode`. -/
def readFields (token : Json) (cap : Capability) : Fields :=
  Json.mkFields [(py "token", token), (py "episode_id", cap.episode_id)]

/-- The answer of the store as `RpcClient.call` returns it. -/
def receivedView (r : Except Exc Reply) : Except Exc View :=
  match r with
  | .ok (.view v) => .ok v
  | .ok _ => .error (.other .typeError)
  | .error (.rpc code text data) => .error (.rpc code text data)
  | .error (.other _) => .error (rpcError .internal [])

/-! ## The episode broker -/

/-- `get_verification_result`, of the episode it has read. -/
def get_verification_result : View → ToolAnswer
  | .judge v => .verification v.verifications v.recovery_observations v.state
  | .full rec _ => .verification rec.verifications rec.recovery_observations rec.state
  | .record rec => .verification rec.verifications rec.recovery_observations rec.state

/-- `view.get("consensus_mode")`. -/
def consensusMode : View → Option Mode
  | .judge v => v.consensus_mode
  | .full rec _ => rec.consensus_mode
  | .record rec => rec.consensus_mode

/-- `draft_failover_runbook`, of the episode it has read. -/
def draft_failover_runbook (w : ReadWorld) (view : View) : Except Exc ToolAnswer := do
  let unknown := rpcError .mode_unknown
    (msg "consensus mode is unknown: the failover checklist is mode-specific and is withheld")
  let mode ← orRaise (consensusMode view) unknown
  require (decide (mode ≠ .unknown)) unknown
  let f ← w.skill_file
  let text ← orRaise f (rpcError .not_found (msg "bundle has no failover-runbook-draft skill"))
  let section_text := w.section_of text mode
  let _ ← w.audit "tool_call"
  -- `_section(text, mode) or text`: an empty section counts as none
  let found := section_text.getD []
  pure (.checklist mode (if found = [] then text else found))

/-! ## The report broker -/

/-- `d.get(key)` for any `key`. -/
def getKey (d key : Json) : Except Exc Json :=
  match d with
  | .obj kvs => do
    hashed key
    match key with
    | .str k => pure ((Json.lookup k kvs).getD .null)
    | _ => pure .null
  | _ => .error (.other .attributeError)

/-- The recommendation line of an alert. -/
def recommendationLine : Artefact → Except Exc PyStr
  | .recommendation r =>
    if r.action_text.truthy then do
      let text ← orRaise (asStr r.action_text) (.other .typeError)
      pure (r.id ++ py ": " ++ text)
    else pure (r.id ++ py ": NO ACTION - None")
  | .no_action n => pure (n.id ++ py ": NO ACTION - " ++ n.reason)

/-- `[c["check"] for c in checks if c["result"] == "fail"]`. -/
def failedChecks : List Json → Except Exc (List Json)
  | [] => pure []
  | c :: rest => do
    let result ← index c "result"
    if result.eqStr (py "fail") then
      let check ← index c "check"
      let fails ← failedChecks rest
      pure (check :: fails)
    else failedChecks rest

/-- The verdict line of an alert. -/
def verdictLine (v : Verdict) : Except Exc PyStr := do
  let fails ← failedChecks v.checks
  let texts ← fails.mapM fun c => orRaise (asStr c) (.other .typeError)
  let line := v.result.text ++ py " on " ++ v.target_id
  pure (if texts = [] then line else line ++ py " (failed: " ++ (py ", ").intercalate texts ++ py ")")

/-- The recommendation, or the lack of one. -/
def recommendationText (rec : Record) : Except Exc PyStr :=
  match under_judgement rec with
  | some last => recommendationLine last
  | none => pure (py "none")

/-- The verdict, or the lack of one. -/
def verdictText (rec : Record) : Except Exc PyStr :=
  match rec.verdicts.getLast? with
  | some v => verdictLine v
  | none => pure (py "none")

/-- `compose`. -/
def compose (rec : Record) (top : Option Hypothesis) (kind summary : PyStr) (report_ref : PyStr)
    (fault_classes : Json) : Except Exc Fields := do
  let trig := orEmpty rec.trigger
  let by_check ← get fault_classes "by_check"
  let check ← get trig "check"
  let fc ← getKey (orEmpty by_check) check
  let recommendation ← recommendationText rec
  let verdict ← verdictText rec
  let severity ← getD trig "severity" (.str (py "unknown"))
  let title := (if kind = py "closure" then py "Closure" else py "Incident") ++ py ": " ++
    (rec.cls.map EpisodeClass.text).getD (py "None") ++ py " / " ++ strOf cfg.store check
  let top_text := match top with
    | some h => py "rank " ++ strOf cfg.store (.int h.rank) ++ py ": " ++ h.claim
    | none => py "no hypothesis"
  pure (Json.mkFields [(py "kind", .str kind), (py "episode_id", .str rec.episode_id),
    (py "severity", severity), (py "title", .str title),
    (py "fault_class", if fc.truthy then fc else .str (py "outside supported classes")),
    (py "top_hypothesis", .str top_text), (py "recommendation", .str recommendation),
    (py "judge_verdict", .str verdict), (py "report", .str report_ref),
    (py "summary", .str (summary.take 1500)),
    (py "state", (rec.state.map fun s => Json.str s.text).getD .null),
    (py "consensus_mode", (rec.consensus_mode.map fun m => Json.str m.text).getD .null),
    (py "opened_ts", (rec.opened_ts.map Json.float).getD .null),
    (py "needs_ack", .bool (decide (kind = py "incident")))])

/-- `MAX_ALERTS_PER_HOUR`. -/
def MAX_ALERTS_PER_HOUR : Nat := 60

/-- What is logged of an alert that was sent. -/
def sentEvent (alert : Fields) : Json :=
  Json.mkObj [(py "ev", .str (py "sent")), (py "alert", .obj alert)]

/-- `_log`; `written` is what the write does. -/
def _log (written : Except Exc Unit) (log : PyStr) (ev : Json) : Except Exc PyStr := do
  require ev.printable (.other .valueError)
  written
  pure (log ++ (ev.text .default ++ [10]))

/-- `_dispatch` to the primary operator. -/
def _dispatch (w : ReadWorld) (al : Alerts) (alert : Fields) : Except Exc Fields × Alerts :=
  let hour := Double.ofRatio false (3600 * 2 ^ binary64.unit) 1
  let recent := al.sent_times.filter fun x => (w.dispatched.sub x).lt hour
  if MAX_ALERTS_PER_HOUR ≤ recent.length ∧
      Json.lookup (py "severity") alert ≠ some (.str (py "critical")) then
    (do
      let _ ← w.audit "alert"
      throw (rpcError .rate_limited (msg "alert rate cap reached")), { al with sent_times := recent })
  else
    let sent_times := recent ++ [w.dispatched]
    match w.sink with
    | .error text => (.error (rpcError .alert_failed [.text text]), { al with sent_times })
    | .ok ack =>
      let alert := Json.mkFields (alert ++ [(py "alert_id", .str w.uuid), (py "sent_ts", .float w.sent_ts),
        (py "development", .bool w.development), (py "ack", ack), (py "acked", .bool false),
        (py "resent", .bool false), (py "escalated", .bool false)])
      let al := { al with alerts := Dict.set al.alerts w.uuid alert, sent_times }
      match _log w.log al.log (sentEvent alert) with
      | .error e => (.error e, al)
      | .ok log =>
        (do
          let _ ← w.audit "alert"
          pure alert, { al with log })

/-- The alert that the session has sent of this kind. -/
def Alerts.sentBy (al : Alerts) (session_id kind : Json) : Option Fields :=
  (al.alerts.map Prod.snd).find? fun a =>
    ((Json.lookup (py "session_id") a).getD .null).pyEq session_id &&
      ((Json.lookup (py "kind") a).getD .null).pyEq kind

/-- The record of an episode; only a reporter gets here, and a reporter's view is full. -/
def fullView : View → Except Exc (Record × Option Hypothesis)
  | .full rec top => pure (rec, top)
  | _ => throw (.other .keyError)

/-- The alert that `send_alert` dispatches; `view` is the store's answer. -/
def composedAlert (w : ReadWorld) (cap : Capability) (args : Json) (view : Except Exc View) :
    Except Exc Fields := do
  let view ← view
  let (rec, top) ← fullView view
  let kind ← index args "kind"
  let kind ← orRaise (asStr kind) (.other .typeError)
  let report ← orRaise (rec.reports.filter fun r => r.kind.text = kind).getLast?
    (rpcError .contract (msg "write the report before sending its alert (the alert links to it)"))
  let summary ← index args "summary"
  let summary ← orRaise (asStr summary) (.other .typeError)
  let fault_classes ← w.fault_classes
  let alert ← compose cfg rec top kind summary report.ref fault_classes
  pure (Json.mkFields (alert ++ [(py "session_id", cap.session_id)]))

/-- `send_alert`, once it is authorised. -/
def send_alert (w : ReadWorld) (al : Alerts) (cap : Capability) (args : Json)
    (view : Except Exc View) : Except Exc ToolAnswer × Alerts :=
  match (index args "kind").toOption.bind fun kind => al.sentBy cap.session_id kind with
  | some a =>
    (do
      let alert_id ← index (.obj a) "alert_id"
      let ack ← index (.obj a) "ack"
      pure (.alert alert_id ack true), al)
  | none =>
    match composedAlert cfg w cap args view with
    | .error e => (.error e, al)
    | .ok alert =>
      match _dispatch w al alert with
      | (.error e, al') => (.error e, al')
      | (.ok sent, al') =>
        (do
          let alert_id ← index (.obj sent) "alert_id"
          let ack ← index (.obj sent) "ack"
          pure (.alert alert_id ack false), al')

end Handlers

end Valops.Brokers
