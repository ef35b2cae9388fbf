import Mathlib.Data.List.Sort
import Valops.Common.Tokens
import Valops.Store.Codec
import Valops.Store.Transitions

/-!
# The episode store

The handlers of `EpisodeStore`, each as one lock-held section: from the store and a request to a
reply or an exception, and the store after it. A handler that writes first decides (`Decision`),
and `_append` carries out what it decided; `append_verification` is the one handler with two
sections.

What a section meets outside the store is a `World`: two clock readings, the bundle registry, the
answer of the audit sequencer, whether SQLite takes the row, and a fresh UUID. All of it is
arbitrary. `restart` is a new process on the same database.
-/

set_option autoImplicit false

namespace Valops.Store

open Py

/-! ## The store -/

/-- What a store is built with; `str` and `rfc3339` are the library's functions, `real_text` is what
SQLite makes of a float in a text column, and `skills` is the content of a bundle. -/
structure StoreConfig where
  verify : VerifyKey
  str : Json → PyStr
  rfc3339 : Double → PyStr
  real_text : Double → PyStr
  skills : PyStr → Except Exc Json

/-- What one section meets outside. `audit` is the answer of `submit`, buffered or not. -/
structure World where
  now : Double
  ts : Double
  registry : BundleRegistry
  audit : Except Exc Fields
  insert : Option PyErr
  insert_open : Option PyErr
  uuid : PyStr

/-- A row of `entries`. -/
structure Row where
  episode_id : PyStr
  rev : Nat
  ts : Double
  kind : Kind
  body : PyStr
  principal : PyStr
  session_id : Json
  bundle_id : PyStr
  audit_ref : PyStr
  idem_key : PyStr
  result : PyStr
  deriving DecidableEq

/-- A row of `opens`. -/
structure OpenRow where
  idem_key : PyStr
  episode_id : PyStr
  result : PyStr
  deriving DecidableEq

/-- The database and the live records. -/
structure EpisodeStore where
  rows : List Row := []
  opens : List OpenRow := []
  records : Dict PyStr Record := []
  deriving DecidableEq

/-- The sockets. -/
inductive Endpoint where
  | agent | agent_report | control | verify | observe
  deriving DecidableEq, Repr

/-- The principal of a socket. -/
def Endpoint.principal : Endpoint → PyStr
  | .agent => py "episode_broker"
  | .agent_report => py "report_broker"
  | .control => py "controller"
  | .verify => py "verifier"
  | .observe => py "observer_broker"

/-- The methods. -/
inductive Method where
  | append_hypothesis | append_hypothesis_status | append_recommendation | append_no_action
  | append_verdict | append_report | read_episode | open_episode | set_state | append_signal
  | append_cost | append_step | annotate | list_episodes | append_verification
  | append_recovery_observation | append_observation
  deriving DecidableEq, Repr

/-- The methods that exist on a socket. -/
def Endpoint.methods : Endpoint → List Method
  | .agent => [.append_hypothesis, .append_hypothesis_status, .append_recommendation,
      .append_no_action, .append_verdict, .read_episode]
  | .agent_report => [.append_report, .read_episode]
  | .control => [.open_episode, .set_state, .append_signal, .append_cost, .append_step, .annotate,
      .read_episode, .list_episodes]
  | .verify => [.append_verification, .append_recovery_observation, .set_state, .read_episode,
      .list_episodes]
  | .observe => [.append_observation]

/-- An episode in a listing. -/
structure EpisodeSummary where
  episode_id : PyStr
  state : Option EpisodeState
  revision : Nat
  cls : Option EpisodeClass
  bundle_id : Option PyStr
  trigger : Json
  opened_at : Option PyStr
  opened_ts : Option Double
  validator_id : Option PyStr
  consensus_mode : Option Mode
  deriving DecidableEq

/-- What a handler returns. -/
inductive Reply where
  | json (v : Json)
  | view (v : View)
  | episodes (es : List EpisodeSummary)
  deriving DecidableEq

/-- An entry a handler has decided to append to a record. -/
structure Draft where
  record : Record
  body : Body
  principal : PyStr
  session_id : Json
  idem_key : PyStr
  result : Json

/-- What a handler decides: the reply it gave before, or a new entry. -/
inductive Decision where
  | reply (v : Json)
  | append (d : Draft)

/-- `{"ok": True}`. -/
def okResult : Json := Json.mkObj [(py "ok", .bool true)]

/-- An error of the contract checks. -/
def contract (text : Msg) : Exc := rpcError .contract text

section Handlers

variable (cfg : StoreConfig)

/-- `f"{v}"`. -/
def strOf (v : Json) : PyStr :=
  match v with
  | .str s => s
  | v => cfg.str v

/-! ## Appending -/

/-- A text parameter of a statement; SQLite takes UTF-8. -/
def bindStr (s : PyStr) : Except Exc PyStr := do
  let _ ← orRaise (encodeUtf8 s) (.other .valueError)
  pure s

/-- A parameter for a text column, as it is stored: numbers become text. -/
def bindText (v : Json) : Except Exc Json :=
  match v with
  | .null => .ok .null
  | .str s => do
    let s ← bindStr s
    pure (.str s)
  | .bool b => .ok (.str (if b then py "1" else py "0"))
  | .int z =>
    if -(2 ^ 63 : Int) ≤ z ∧ z < 2 ^ 63 then .ok (.str (intText z))
    else .error (.other .overflowError)
  | .float .nan => .ok .null
  | .float x => .ok (.str (cfg.real_text x))
  | _ => .error (.other .databaseError)

/-- `AuditClient.ref` of the answer to `submit`; what `submit` raises is the path's failure. -/
def auditRef (w : World) : Except Exc PyStr :=
  match w.audit with
  | .error (.rpc code text _) =>
    .error (rpcError .audit_unavailable (.code code :: .text (py ": ") :: text))
  | .error (.other e) => .error (.other e)
  | .ok r =>
    match Json.lookup (py "seq") r with
    | some seq => .ok (py "audit:" ++ strOf cfg seq)
    | none => .ok (py "audit:pending")

/-- A failure of the database. -/
def dbResult (e : Option PyErr) : Except Exc Unit :=
  match e with
  | some e => .error (.other e)
  | none => .ok ()

/-- `_append` up to and with the `INSERT`: the row it adds. -/
def newRow (w : World) (s : EpisodeStore) (d : Draft) : Except Exc Row := do
  let _ ← orRaise (canonical d.body.toJson) (.other .valueError)
  let audit_ref ← auditRef cfg w
  let body ← orRaise (dumps d.body.toJson) (.other .valueError)
  let result ← orRaise (dumps d.result) (.other .valueError)
  let episode_id ← bindStr d.record.episode_id
  let principal ← bindStr d.principal
  let session_id ← bindText cfg d.session_id
  let bundle_id ← orRaise d.record.bundle_id (.other .databaseError)
  let audit_ref ← bindStr audit_ref
  let idem_key ← bindStr d.idem_key
  dbResult w.insert
  require (!s.rows.any fun r => decide (r.episode_id = episode_id ∧
    (r.rev = d.record.revision + 1 ∨ r.idem_key = idem_key))) (.other .databaseError)
  pure ⟨episode_id, d.record.revision + 1, w.ts, d.body.kind, body, principal, session_id, bundle_id,
    audit_ref, idem_key, result⟩

/-- The dict `_append` applies to the record: the arguments, not the stored values. -/
def Draft.entry (d : Draft) (row : Row) : Entry :=
  ⟨d.record.episode_id, row.rev, row.ts, d.body, d.principal, d.session_id, row.audit_ref⟩

/-- `_append`. -/
def _append (w : World) (s : EpisodeStore) (d : Draft) : Except Exc Json × EpisodeStore :=
  match newRow cfg w s d with
  | .error e => (.error e, s)
  | .ok row =>
    let r := apply cfg.rfc3339 d.record (d.entry row)
    let s' : EpisodeStore := { s with
      rows := s.rows ++ [row]
      records := s.records.set d.record.episode_id r.1 }
    match r.2 with
    | none => (.ok d.result, s')
    | some x => (.error x, s')

/-! ## Shared checks -/

/-- `_record`. -/
def _record (s : EpisodeStore) (episode_id : Json) : Except Exc Record := do
  hashed episode_id
  match episode_id with
  | .str e => orRaise (s.records.get? e) (rpcError .not_found (msg "no such episode"))
  | _ => throw (rpcError .not_found (msg "no such episode"))

/-- What `_idem` finds: an earlier result, or that the key is new. -/
inductive Idem where
  | prior (result : Json)
  | fresh (key : PyStr)

/-- A key is a string with at most 200 characters that is not blank. -/
def keyText (idem_key : Json) : Except Exc PyStr :=
  match idem_key with
  | .str k =>
    if k.isBlank ∨ 200 < k.length then .error (rpcError .invalid (msg "idem_key required"))
    else bindStr k
  | _ => .error (rpcError .invalid (msg "idem_key required"))

/-- `_idem`. -/
def _idem (s : EpisodeStore) (episode_id : PyStr) (idem_key : Json) : Except Exc Idem := do
  let key ← keyText idem_key
  match s.rows.find? fun r => decide (r.episode_id = episode_id ∧ r.idem_key = key) with
  | some r => do
    let v ← orRaise (loads r.result) (.other .valueError)
    pure (.prior v)
  | none => pure (.fresh key)

/-- The earlier result, or what a new key leads to. -/
def onFresh (s : EpisodeStore) (rec : Record) (idem_key : Json)
    (draft : PyStr → Except Exc Draft) : Except Exc Decision := do
  let idem ← _idem s rec.episode_id idem_key
  match idem with
  | .prior v => pure (.reply v)
  | .fresh key => do
    let d ← draft key
    pure (.append d)

/-- `_next_id` for a list of this length. -/
def _next_id (n : Nat) (letter : String) : PyStr := py letter ++ natText (n + 1)

/-- `_refs_exist`. -/
def _refs_exist (rec : Record) (refs : Json) : Except Exc (List PyStr) := do
  let bad := contract (msg "evidence_refs must be a non-empty list of collected signal ids")
  let xs ← orRaise (asArr refs) bad
  require (!xs.isEmpty) bad
  require (xs.all Json.hashable) (.other .typeError)
  let missing := xs.filter fun x => !rec.signals.any fun s => x.eqStr s.id
  require missing.isEmpty (contract
    [.text (py "evidence_refs name signals never collected in this episode: "), .str (.arr missing)])
  orRaise (allStrs xs) (.other .typeError)

/-- The bundle of a record as a value. -/
def Record.bundle (rec : Record) : Json :=
  match rec.bundle_id with
  | some b => .str b
  | none => .null

/-- The gate of a store: the registry as it is now, and no session revoked. -/
def tokenGate (w : World) : TokenGate := ⟨cfg.verify, w.registry.verify, []⟩

/-- The rules of the tool that governs an operation. -/
def checkTool (cap : Capability) (rec : Record) (op : AgentOp) : Except Exc Unit := do
  require (op.tool.roles.any fun r => cap.role.eqStr r.text)
    (rpcError .forbidden [.text (py "role "), .str cap.role, .text (py " may not "), .text op.name])
  require (decide (∃ st ∈ op.tool.states, rec.state = some st))
    (rpcError .illegal_state [.text op.name, .text (py " not legal in state "),
      .text ((rec.state.map EpisodeState.text).getD (py "None"))])

/-- `_agent_gate`; `read_episode` has no tool. -/
def _agent_gate (w : World) (s : EpisodeStore) (ep : Endpoint) (op : Option AgentOp) (p : Params) :
    Except Exc (Capability × Record) := do
  require (decide (ep.principal ∈ [py "episode_broker", py "report_broker"]))
    (rpcError .forbidden (msg "store-agent serves brokers only"))
  let cap ← (tokenGate cfg w).check w.now (p.get "token") (p.get "episode_id") .null
  let rec ← _record s (p.get "episode_id")
  require (cap.bundle_id.pyEq rec.bundle)
    (rpcError .bundle_refused (msg "token bundle differs from the episode's bound bundle"))
  match op with
  | some op => do
    checkTool cap rec op
    pure (cap, rec)
  | none => pure (cap, rec)

/-- `f"agent:{cap.role}"`. -/
def agentPrincipal (cap : Capability) : PyStr := py "agent:" ++ strOf cfg cap.role

/-! ## store-agent -/

/-- One field of the falsifiability contract. -/
def contractField (h : Json) (f : String) : Except Exc PyStr := do
  let v ← get h f
  require v.nonempty (contract [.text (py "hypothesis requires a non-empty "), .repr (.str (py f)),
    .text (py " (falsifiability contract)")])
  orRaise (asStr v) (.other .typeError)

/-- The rank of a hypothesis. -/
def contractRank (h : Json) : Except Exc Int := do
  let v ← get h "rank"
  match v with
  | .int z => do
    require (1 ≤ z) (contract (msg "rank must be a positive integer"))
    pure z
  | _ => throw (contract (msg "rank must be a positive integer"))

/-- The entry of `append_hypothesis`. -/
def hypothesisDraft (cap : Capability) (rec : Record) (p : Params) (key : PyStr) :
    Except Exc Draft := do
  let h := orEmpty (p.get "hypothesis")
  let claim ← contractField h "claim"
  let test ← contractField h "test"
  let expected_evidence ← contractField h "expected_evidence"
  let rank ← contractRank h
  require (!rec.hypotheses.any fun x => x.step_session.pyEq cap.session_id && decide (x.rank = rank))
    (contract [.text (py "rank "), .str (.int rank), .text (py " already used in this step")])
  let hid := _next_id rec.hypotheses.length "h"
  pure ⟨rec, .hypothesis ⟨hid, cap.session_id, rank, claim, test, expected_evidence⟩,
    agentPrincipal cfg cap, cap.session_id, key, Json.mkObj [(py "hypothesis_id", .str hid)]⟩

/-- `append_hypothesis`. -/
def append_hypothesis (w : World) (s : EpisodeStore) (ep : Endpoint) (p : Params) :
    Except Exc Decision := do
  let (cap, rec) ← _agent_gate cfg w s ep (some .append_hypothesis) p
  onFresh s rec (p.get "idem_key") (hypothesisDraft cfg cap rec p)

/-- The id of a hypothesis of the record. -/
def knownHypothesis (rec : Record) (v : Json) : Except Exc PyStr := do
  hashed v
  require (rec.hypotheses.any fun h => v.eqStr h.id) (contract [.text (py "no hypothesis "), .str v])
  orRaise (asStr v) (.other .typeError)

/-- `("supported", "refuted")`. -/
def statusOf (v : Json) : Except Exc HypothesisStatus :=
  orRaise (named [.supported, .refuted] HypothesisStatus.text v)
    (contract (msg "status must be supported|refuted"))

/-- The entry of `append_hypothesis_status`. -/
def hypothesisStatusDraft (cap : Capability) (rec : Record) (p : Params) (key : PyStr) :
    Except Exc Draft := do
  let hid ← knownHypothesis rec (p.get "hypothesis_id")
  let status ← statusOf (p.get "status")
  let refs ← _refs_exist rec (p.get "evidence_refs")
  pure ⟨rec, .hypothesis_status ⟨hid, status, refs⟩, agentPrincipal cfg cap, cap.session_id, key,
    okResult⟩

/-- `append_hypothesis_status`. -/
def append_hypothesis_status (w : World) (s : EpisodeStore) (ep : Endpoint) (p : Params) :
    Except Exc Decision := do
  let (cap, rec) ← _agent_gate cfg w s ep (some .append_hypothesis_status) p
  onFresh s rec (p.get "idem_key") (hypothesisStatusDraft cfg cap rec p)

/-- `_one_per_session`, for the sessions of the lists it looks through. -/
def _one_per_session (sessions : List Json) (cap : Capability) : Except Exc Unit :=
  require (!sessions.any fun x => x.pyEq cap.session_id)
    (contract (msg "this step has already recorded its artefact"))

/-- `x in container`, for a string. -/
def contains (x : PyStr) (container : Json) : Except Exc Bool :=
  match container with
  | .arr xs => .ok (xs.any fun y => y.eqStr x)
  | .str t => .ok (decide (x <:+: t))
  | .obj kvs => .ok (Json.lookup x kvs).isSome
  | _ => .error (.other .typeError)

/-- `self.bundles.load(rec["bundle_id"]).skills`. -/
def loadSkills (w : World) (rec : Record) : Except Exc Json := do
  w.registry.checkLoad rec.bundle
  let id ← orRaise rec.bundle_id (.other .bundleError)
  cfg.skills id

/-- The skill exists and a planner may use it. -/
def checkPlannerSkill (skills : Json) (name : PyStr) : Except Exc Json := do
  let bad := contract [.text (py "skill "), .repr (.str name),
    .text (py " is not a planner skill in the bound bundle")]
  let skill ← getSkill skills name
  require (decide (skill ≠ .null)) bad
  let roles ← getD skill "roles" (.arr [])
  let planner ← contains (py "change_planner") roles
  require planner bad
  pure skill

/-- The skill applies to the episode's mode. -/
def checkMode (rec : Record) (name : PyStr) (modes : Json) : Except Exc Unit :=
  if modes.eqStr (py "any") then .ok ()
  else do
    require (decide (rec.consensus_mode ≠ some .unknown))
      (contract (msg "consensus mode is unknown: mode-specific skills are prohibited"))
    let mode ← orRaise rec.consensus_mode (.other .typeError)
    let applies ← contains mode.text modes
    require applies (contract [.text (py "skill "), .text name,
      .text (py " does not apply to mode "), .text mode.text])

/-- The sessions that have written a recommendation or a no-action record. -/
def artefactSessions (rec : Record) : List Json :=
  rec.recommendations.map (·.session_id) ++ rec.no_action.map (·.session_id)

/-- The entry of `append_recommendation`. -/
def recommendationDraft (w : World) (cap : Capability) (rec : Record) (p : Params) (key : PyStr) :
    Except Exc Draft := do
  _one_per_session (artefactSessions rec) cap
  let r := orEmpty (p.get "recommendation")
  let problem := validate recommendationSchema r (py "$")
  require problem.isNone (contract (problem.getD []))
  let hypothesis ← index r "hypothesis_id"
  let hypothesis ← knownHypothesis rec hypothesis
  let skills ← loadSkills cfg w rec
  let name ← index r "skill"
  let name ← orRaise (asStr name) (.other .typeError)
  let skill ← checkPlannerSkill skills name
  let modes ← get skill "modes"
  checkMode rec name modes
  let refs ← index r "evidence_refs"
  let refs ← _refs_exist rec refs
  let action_text ← index r "action_text"
  let preconditions ← index r "preconditions"
  let expected_postcondition ← index r "expected_postcondition"
  let rid := _next_id rec.recommendations.length "r"
  pure ⟨rec, .recommendation ⟨rid, hypothesis, action_text, name, preconditions,
      expected_postcondition, refs⟩,
    agentPrincipal cfg cap, cap.session_id, key, Json.mkObj [(py "recommendation_id", .str rid)]⟩

/-- `append_recommendation`. -/
def append_recommendation (w : World) (s : EpisodeStore) (ep : Endpoint) (p : Params) :
    Except Exc Decision := do
  let (cap, rec) ← _agent_gate cfg w s ep (some .append_recommendation) p
  onFresh s rec (p.get "idem_key") (recommendationDraft cfg w cap rec p)

/-- The entry of `append_no_action`. -/
def noActionDraft (cap : Capability) (rec : Record) (p : Params) (key : PyStr) :
    Except Exc Draft := do
  _one_per_session (artefactSessions rec) cap
  require (p.get "reason").nonempty (contract (msg "no-action requires a reason"))
  let refs ← _refs_exist rec (p.get "evidence_refs")
  let reason ← orRaise (asStr (p.get "reason")) (.other .typeError)
  let nid := _next_id rec.no_action.length "n"
  pure ⟨rec, .no_action ⟨nid, reason, refs⟩, agentPrincipal cfg cap, cap.session_id, key,
    Json.mkObj [(py "no_action_id", .str nid)]⟩

/-- `append_no_action`. -/
def append_no_action (w : World) (s : EpisodeStore) (ep : Endpoint) (p : Params) :
    Except Exc Decision := do
  let (cap, rec) ← _agent_gate cfg w s ep (some .append_no_action) p
  onFresh s rec (p.get "idem_key") (noActionDraft cfg cap rec p)

/-- The entry of `append_verdict`. -/
def verdictDraft (cap : Capability) (rec : Record) (p : Params) (key : PyStr) :
    Except Exc Draft := do
  _one_per_session (rec.verdicts.map (·.session_id)) cap
  let bad := contract (msg "verdict must target the artefact currently under judgement")
  let target ← orRaise (under_judgement rec) bad
  require ((p.get "target_id").eqStr target.id) bad
  let result ← orRaise (VerdictResult.ofJson (p.get "result"))
    (contract (msg "result must be PASS|FAIL"))
  let badChecks := contract (msg "a verdict requires a non-empty list of checks performed")
  let checks ← orRaise (asArr (p.get "checks")) badChecks
  require (!checks.isEmpty) badChecks
  let problem := validate checksSchema (p.get "checks") (py "$")
  require problem.isNone (contract (problem.getD []))
  pure ⟨rec, .verdict ⟨target.id, result, checks⟩, agentPrincipal cfg cap, cap.session_id, key,
    okResult⟩

/-- `append_verdict`. -/
def append_verdict (w : World) (s : EpisodeStore) (ep : Endpoint) (p : Params) :
    Except Exc Decision := do
  let (cap, rec) ← _agent_gate cfg w s ep (some .append_verdict) p
  onFresh s rec (p.get "idem_key") (verdictDraft cfg cap rec p)

/-- The state a kind of report needs. -/
def ReportKind.need : ReportKind → EpisodeState
  | .incident => .reporting
  | .closure => .resolved

/-- The entry of `append_report`. -/
def reportDraft (cap : Capability) (rec : Record) (p : Params) (key : PyStr) :
    Except Exc Draft := do
  hashed (p.get "kind")
  let bad := rpcError .illegal_state [.text (py "a "), .str (p.get "kind"),
    .text (py " report is not legal in state "),
    .text ((rec.state.map EpisodeState.text).getD (py "None"))]
  let kind ← orRaise (ReportKind.ofJson (p.get "kind")) bad
  require (decide (rec.state = some kind.need)) bad
  let badRef := contract (msg "report ref must be a content address")
  require (p.get "ref").nonempty badRef
  let ref ← orRaise (asStr (p.get "ref")) (.other .typeError)
  require (decide (py "report:sha256:" <+: ref)) badRef
  pure ⟨rec, .report ⟨kind, ref⟩, agentPrincipal cfg cap, cap.session_id, key, okResult⟩

/-- `append_report`. -/
def append_report (w : World) (s : EpisodeStore) (ep : Endpoint) (p : Params) :
    Except Exc Decision := do
  require (decide (ep.principal = py "report_broker"))
    (rpcError .forbidden (msg "reports are written through the report broker"))
  let (cap, rec) ← _agent_gate cfg w s ep (some .append_report) p
  onFresh s rec (p.get "idem_key") (reportDraft cfg cap rec p)

/-- `view_for`. -/
def view_for (rec : Record) (judge : Bool) (skills : Json) : Except Exc View :=
  if judge then do
    let v ← judge_view rec skills
    pure (.judge v)
  else pure (full_view rec)

/-- `agent_read`: the view is forced by the role. -/
def agent_read (w : World) (s : EpisodeStore) (ep : Endpoint) (p : Params) : Except Exc Reply := do
  let (cap, rec) ← _agent_gate cfg w s ep none p
  hashed cap.role
  let role ← orRaise (Role.ofJson cap.role) (.other .keyError)
  let skills ← loadSkills cfg w rec
  let v ← view_for rec (role = .proposal_judge) skills
  pure (.view v)

/-! ## store-control -/

/-- `p.get("idem_key") or f"state:{expected}:{state}"`. -/
def stateKey (p : Params) : Json :=
  if (p.get "idem_key").truthy then p.get "idem_key"
  else .str (py "state:" ++ strOf cfg (p.get "expected_revision") ++ py ":" ++
    strOf cfg (p.get "state"))

/-- Some state allows the step. -/
def everAllowed (principal : PyStr) (dst : Json) : Bool :=
  EpisodeState.all.any fun f => (inTable principal (some f) dst).isSome

/-- The entry of `set_state`. -/
def stateDraft (ep : Endpoint) (rec : Record) (p : Params) (key : PyStr) : Except Exc Draft := do
  let dst := p.get "state"
  let expected := p.get "expected_revision"
  let stateText := (rec.state.map EpisodeState.text).getD (py "None")
  require (decide (∀ st ∈ TERMINAL, rec.state ≠ some st)) (rpcError .terminal
    [.text (py "episode is "), .text stateText, .text (py "; no transition is permitted")])
  let step ← allowed ep.principal rec.state dst
  require (step.isSome || everAllowed ep.principal dst) (rpcError .forbidden_transition
    [.text ep.principal, .text (py " may never set "), .str dst])
  require (expected.eqInt rec.revision) (.rpc .conflict (msg "stale revision")
    (Json.mkObj [(py "revision", .int rec.revision), (py "state", .str stateText)]))
  let to_ ← orRaise step (rpcError .forbidden_transition [.text ep.principal, .text (py " may not move "),
    .text stateText, .text (py " -> "), .str dst])
  let frm ← orRaise rec.state (.other .typeError)
  pure ⟨rec, .state ⟨frm, to_, p.get "reason"⟩, ep.principal, .null, key,
    Json.mkObj [(py "revision", .int (rec.revision + 1 : Nat)), (py "state", .str to_.text)]⟩

/-- `set_state`. -/
def set_state (s : EpisodeStore) (ep : Endpoint) (p : Params) : Except Exc Decision := do
  let rec ← _record s (p.get "episode_id")
  onFresh s rec (stateKey cfg p) (stateDraft ep rec p)

/-- `_verifier_set_state`. -/
def _verifier_set_state (s : EpisodeStore) (ep : Endpoint) (p : Params) : Except Exc Decision := do
  require ((p.get "state").eqStr (py "resolved")) (rpcError .forbidden_transition
    (msg "the verifier endpoint can only set resolved"))
  set_state cfg s ep p

/-- `snap.get("structured")`, or the summary. -/
def snapshotSummary (snap : Json) : Except Exc Json := do
  let structured ← get snap "structured"
  if structured ≠ .null then pure structured else get snap "summary"

/-- The entry of `append_signal`. -/
def signalDraft (principal : PyStr) (session_id : Json) (rec : Record) (p : Params) (key : PyStr) :
    Except Exc Draft := do
  require (decide (∀ st ∈ TERMINAL, rec.state ≠ some st))
    (rpcError .terminal (msg "episode is terminal"))
  let snap := orEmpty (p.get "snapshot")
  let command_id ← get snap "command_id"
  require command_id.nonempty (rpcError .invalid (msg "snapshot.command_id required"))
  let command_id ← orRaise (asStr command_id) (.other .typeError)
  let status ← get snap "status"
  let summary ← snapshotSummary snap
  let truncated ← get snap "truncated"
  let collected_at ← get snap "collected_at"
  let flags ← getD snap "flags" (.arr [])
  let ref ← get snap "audit_ref"
  let sid := _next_id rec.signals.length "s"
  pure ⟨rec, .signal ⟨sid, command_id, status, summary, truncated.truthy, collected_at, flags, ref,
    principal⟩, principal, session_id, key, Json.mkObj [(py "signal_id", .str sid)]⟩

/-- `append_signal`, by a principal and for a session. -/
def append_signal (s : EpisodeStore) (principal : PyStr) (session_id : Json) (p : Params) :
    Except Exc Decision := do
  let rec ← _record s (p.get "episode_id")
  onFresh s rec (p.get "idem_key") (signalDraft principal session_id rec p)

/-- The entry of `_simple`. -/
def simpleDraft (ep : Endpoint) (rec : Record) (p : Params) (body : Body) (key : PyStr) :
    Except Exc Draft :=
  .ok ⟨rec, body, ep.principal, p.get "session_id", key,
    Json.mkObj [(py "ok", .bool true), (py "revision", .int (rec.revision + 1 : Nat))]⟩

/-- `_simple`. -/
def _simple (s : EpisodeStore) (ep : Endpoint) (p : Params) (body : Body) : Except Exc Decision := do
  let rec ← _record s (p.get "episode_id")
  onFresh s rec (p.get "idem_key") (simpleDraft ep rec p body)

/-- `p.get("role")`, a key of `VIEW_BY_ROLE`. -/
def knownRole (p : Params) (e : Exc) : Except Exc Role := do
  hashed (p.get "role")
  orRaise (Role.ofJson (p.get "role")) e

/-- `isinstance(v, int)`; booleans are integers. -/
def isInt : Json → Bool
  | .int _ => true
  | .bool _ => true
  | _ => false

/-- `isinstance(v, (int, float))`. -/
def isNumber : Json → Bool
  | .float _ => true
  | v => isInt v

/-- `append_cost`. -/
def append_cost (s : EpisodeStore) (ep : Endpoint) (p : Params) : Except Exc Decision := do
  let bad := rpcError .invalid (msg "role, usd and turns required")
  let role ← knownRole p bad
  require (isNumber (p.get "usd") && isInt (p.get "turns")) bad
  _simple s ep p (.cost ⟨role, p.get "usd", p.get "turns", p.get "session_id",
    p.get "configuration", p.get "tokens"⟩)

/-- `append_step`. -/
def append_step (s : EpisodeStore) (ep : Endpoint) (p : Params) : Except Exc Decision := do
  let bad := rpcError .invalid (msg "role and outcome ok|failed required")
  let outcome ← orRaise (Outcome.ofJson (p.get "outcome")) bad
  let role ← knownRole p bad
  _simple s ep p (.step ⟨role, p.get "session_id", outcome, p.get "reason", p.get "state",
    p.get "configuration"⟩)

/-- A parameter that must be a string and not blank. -/
def requiredText (p : Params) (k : String) (e : Exc) : Except Exc PyStr := do
  require (p.get k).nonempty e
  orRaise (asStr (p.get k)) (.other .typeError)

/-- `annotate`. -/
def annotate (s : EpisodeStore) (ep : Endpoint) (p : Params) : Except Exc Decision := do
  let note ← requiredText p "note" (rpcError .invalid (msg "note required"))
  _simple s ep p ( Body.annotation ⟨p.get "kind", note⟩)

/-- `control_read`. -/
def control_read (w : World) (s : EpisodeStore) (p : Params) : Except Exc Reply := do
  let rec ← _record s (p.get "episode_id")
  let view := (Json.lookup (py "view") p.fields).getD (.str (py "full"))
  if view.eqStr (py "record") then pure (.view (.record rec))
  else if view.eqStr (py "judge") then do
    let skills ← loadSkills cfg w rec
    let v ← judge_view rec skills
    pure (.view (.judge v))
  else pure (.view (full_view rec))

/-- The listed fields of a record. -/
def summary (rec : Record) : EpisodeSummary :=
  ⟨rec.episode_id, rec.state, rec.revision, rec.cls, rec.bundle_id, rec.trigger, rec.opened_at,
    rec.opened_ts, rec.validator_id, rec.consensus_mode⟩

/-- `r["opened_ts"] or 0`. -/
def sortKey (e : EpisodeSummary) : Double := e.opened_ts.getD Double.zero

/-- The records a listing shows. -/
def listed (p : Params) (rec : Record) : Bool :=
  !((p.get "nonterminal_only").truthy && decide (∃ st ∈ TERMINAL, rec.state = some st)) &&
  !((p.get "class").truthy && decide (EpisodeClass.ofJson (p.get "class") ≠ rec.cls))

/-- `list_episodes`. -/
def list_episodes (s : EpisodeStore) (p : Params) : Reply :=
  let out := (s.records.map Prod.snd).filter (listed p)
  .episodes ((out.map summary).insertionSort fun a b => (sortKey b).lt (sortKey a) = false)

/-! ## store-verify -/

/-- The arguments of `append_verification`. -/
def verificationBody (p : Params) : Except Exc Body := do
  let bad := rpcError .invalid (msg "rule and result pass|fail required")
  let result ← orRaise (CheckResult.ofJson (p.get "result")) bad
  let rule ← requiredText p "rule" bad
  pure (.verification ⟨rule, result, p.get "samples"⟩)

/-- The first section of `append_verification`: arguments, and that the episode is not terminal. -/
def verification_check (s : EpisodeStore) (p : Params) : Except Exc Unit := do
  let _ ← verificationBody p
  let rec ← _record s (p.get "episode_id")
  require (decide (∀ st ∈ TERMINAL, rec.state ≠ some st)) (rpcError .terminal
    (msg "episode is terminal; record a recovery observation instead"))

/-- The second section of `append_verification`. -/
def append_verification (s : EpisodeStore) (ep : Endpoint) (p : Params) : Except Exc Decision := do
  let body ← verificationBody p
  _simple s ep p body

/-- `append_recovery_observation`. -/
def append_recovery_observation (s : EpisodeStore) (ep : Endpoint) (p : Params) :
    Except Exc Decision := do
  let rule ← requiredText p "rule" (rpcError .invalid (msg "rule required"))
  _simple s ep p (.recovery_observation ⟨rule, p.get "note"⟩)

/-! ## store-observe -/

/-- `append_observation`. -/
def append_observation (w : World) (s : EpisodeStore) (p : Params) : Except Exc Decision := do
  let cap ← (tokenGate cfg w).check w.now (p.get "token") (p.get "episode_id") .null
  let rec ← _record s cap.episode_id
  require (cap.bundle_id.pyEq rec.bundle)
    (rpcError .bundle_refused (msg "token bundle differs from the episode's bound bundle"))
  append_signal s (py "observer_broker/agent:" ++ strOf cfg cap.role) cap.session_id p

/-! ## Opening an episode -/

/-- What `open_episode` decides: an earlier result, an open episode with the same key, or a new
episode. -/
inductive OpenDecision where
  | reply (v : Json)
  | duplicate (idem_key : PyStr) (rec : Record)
  | fresh (idem_key : PyStr) (b : OpenedBody)

/-- The body of a new episode: the checks on the arguments. -/
def openedBody (w : World) (p : Params) : Except Exc OpenedBody := do
  let cls ← orRaise (EpisodeClass.ofJson (p.get "class")) (rpcError .invalid
    (msg "class must be one of ('validator_health', 'telemetry_health')"))
  let trig := orEmpty (p.get "trigger")
  let bad := rpcError .invalid (msg "trigger {source, check, severity} and validator_id required")
  let source ← get trig "source"
  require source.nonempty bad
  let check ← get trig "check"
  require check.nonempty bad
  let severity ← get trig "severity"
  require severity.nonempty bad
  let vid ← requiredText p "validator_id" bad
  let mode ← orRaise (Mode.ofJson (p.get "consensus_mode"))
    (rpcError .invalid (msg "consensus_mode must be tower|alpenglow|unknown"))
  let reason ← w.registry.verify (p.get "bundle_id")
  require reason.isNone (rpcError .bundle_refused (reason.getD []))
  let bundle_id ← orRaise (asStr (p.get "bundle_id")) (.other .typeError)
  pure ⟨cls, trig, vid, bundle_id, mode, orEmpty (p.get "consensus_mode_evidence"),
    cls.text ++ py "|" ++ strOf cfg check ++ py "|" ++ vid⟩

/-- `open_episode`, up to what it writes. -/
def openDecision (w : World) (s : EpisodeStore) (p : Params) : Except Exc OpenDecision := do
  let idem ← requiredText p "idem_key" (rpcError .invalid (msg "idem_key required"))
  let idem ← bindStr idem
  match s.opens.find? fun r => decide (r.idem_key = idem) with
  | some r => do
    let v ← orRaise (loads r.result) (.other .valueError)
    pure (.reply v)
  | none => do
    let b ← openedBody cfg w p
    match (s.records.map Prod.snd).find? fun rec => decide (rec.dedupe_key = some b.dedupe_key ∧
        ∀ st ∈ TERMINAL, rec.state ≠ some st) with
    | some rec => pure (.duplicate idem rec)
    | none => pure (.fresh idem b)

/-- `{"episode_id": ..., "deduplicated": ...}`. -/
def openResult (episode_id : PyStr) (deduplicated : Bool) : Json :=
  Json.mkObj [(py "episode_id", .str episode_id), (py "deduplicated", .bool deduplicated)]

/-- `INSERT INTO opens`, and the result. -/
def insertOpen (w : World) (s : EpisodeStore) (idem episode_id : PyStr) (deduplicated : Bool) :
    Except Exc Reply × EpisodeStore :=
  match w.insert_open, dumps (openResult episode_id deduplicated) with
  | some e, _ => (.error (.other e), s)
  | none, none => (.error (.other .valueError), s)
  | none, some text =>
    (.ok (.json (openResult episode_id deduplicated)),
      { s with opens := s.opens ++ [⟨idem, episode_id, text⟩] })

/-- The entry of a new episode, on the record `open_episode` puts into the store for it. -/
def openDraft (ep : Endpoint) (eid idem : PyStr) (b : OpenedBody) : Draft :=
  ⟨{ empty_record eid with bundle_id := some b.bundle_id }, .opened b, ep.principal, .null, idem,
    openResult eid false⟩

/-- `open_episode`. A new record is taken out again when its first entry cannot be appended. -/
def open_episode (w : World) (s : EpisodeStore) (ep : Endpoint) (p : Params) :
    Except Exc Reply × EpisodeStore :=
  match openDecision cfg w s p with
  | .error e => (.error e, s)
  | .ok (.reply v) => (.ok (.json v), s)
  | .ok (.duplicate idem rec) => insertOpen w s idem rec.episode_id true
  | .ok (.fresh idem b) =>
    let d := openDraft ep w.uuid idem b
    match _append cfg w { s with records := s.records.set w.uuid d.record } d with
    | (.error e, s') => (.error e, { s' with records := s'.records.erase w.uuid })
    | (.ok _, s') => insertOpen w s' idem w.uuid false

/-! ## Requests -/

/-- What the writing handlers decide, except `open_episode`. -/
def decideEntry (w : World) (s : EpisodeStore) (ep : Endpoint) (m : Method) (p : Params) :
    Except Exc Decision :=
  match m with
  | .append_hypothesis => append_hypothesis cfg w s ep p
  | .append_hypothesis_status => append_hypothesis_status cfg w s ep p
  | .append_recommendation => append_recommendation cfg w s ep p
  | .append_no_action => append_no_action cfg w s ep p
  | .append_verdict => append_verdict cfg w s ep p
  | .append_report => append_report cfg w s ep p
  | .set_state => if ep = .verify then _verifier_set_state cfg s ep p else set_state cfg s ep p
  | .append_signal => append_signal s ep.principal .null p
  | .append_cost => append_cost s ep p
  | .append_step => append_step s ep p
  | .annotate => annotate s ep p
  | .append_verification => append_verification s ep p
  | .append_recovery_observation => append_recovery_observation s ep p
  | .append_observation => append_observation cfg w s p
  | .read_episode | .open_episode | .list_episodes => .error (rpcError .unknown_method [])

/-- A section that appends what a handler decided. -/
def runEntry (w : World) (s : EpisodeStore) (ep : Endpoint) (m : Method) (p : Params) :
    Except Exc Reply × EpisodeStore :=
  match decideEntry cfg w s ep m p with
  | .error e => (.error e, s)
  | .ok (.reply v) => (.ok (.json v), s)
  | .ok (.append d) =>
    match _append cfg w s d with
    | (.ok v, s') => (.ok (.json v), s')
    | (.error e, s') => (.error e, s')

/-- A request on a socket; of `append_verification`, the second section. -/
def handle (w : World) (s : EpisodeStore) (ep : Endpoint) (m : Method) (p : Params) :
    Except Exc Reply × EpisodeStore :=
  if m ∉ ep.methods then (.error (rpcError .unknown_method []), s)
  else
    match m with
    | .open_episode => open_episode cfg w s ep p
    | .read_episode =>
      (if ep = .agent ∨ ep = .agent_report then agent_read cfg w s ep p
        else control_read cfg w s p, s)
    | .list_episodes => (.ok (list_episodes s p), s)
    | m => runEntry cfg w s ep m p

/-! ## Restarting -/

/-- `_row`. -/
def Row.entry (r : Row) : Option Entry :=
  (readBody r.kind r.body).map fun b =>
    ⟨r.episode_id, r.rev, r.ts, b, r.principal, r.session_id, r.audit_ref⟩

/-- `ORDER BY episode_id, rev`. -/
def rowLe (a b : Row) : Prop :=
  a.episode_id < b.episode_id ∨ a.episode_id = b.episode_id ∧ a.rev ≤ b.rev

instance : DecidableRel rowLe := fun a b =>
  inferInstanceAs (Decidable (a.episode_id < b.episode_id ∨ a.episode_id = b.episode_id ∧ a.rev ≤ b.rev))

/-- The loop of `_rebuild`. -/
def rebuildRows : Dict PyStr Record → List Row → Except Exc (Dict PyStr Record)
  | records, [] => .ok records
  | records, r :: rows => do
    let e ← orRaise r.entry (.other .valueError)
    let old := (records.get? e.episode_id).getD (empty_record e.episode_id)
    let new ← applyOrRaise cfg.rfc3339 old e
    rebuildRows (records.set e.episode_id new) rows

/-- `_rebuild`. -/
def _rebuild (rows : List Row) : Except Exc (Dict PyStr Record) :=
  rebuildRows cfg [] (rows.insertionSort rowLe)

/-- A new process on the database. -/
def restart (s : EpisodeStore) : Except Exc EpisodeStore := do
  let records ← _rebuild cfg s.rows
  pure { s with records := records }

end Handlers

end Valops.Store
