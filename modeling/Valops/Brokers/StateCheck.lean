import Valops.Brokers.Catalogue
import Valops.Brokers.Success

/-!
# Which tools are state-checked

The catalogue says of every tool in which states of the episode it is legal. The store's gate looks up
the tool of an operation that writes for an agent, so the tools with such an operation are refused in
every other state. An observation, a read and an alert pass no such check, and a token outlives the step
it was minted for: `observed_before_diagnosis`.

Main result: `state_checked`.
-/

set_option autoImplicit false

namespace Valops.Brokers

open Py Store

/-- What a call comes to: what the worker is told, and what it leaves of the store and of the alerts.
The broker takes the call at one moment and the store answers it at another; `q` is what the decoder
makes of the arguments of the call of the store. -/
inductive Outcome (cfg : BrokerConfig) (x y : Net) (al : Alerts) (w : ReadWorld) (p : Params) :
    CatalogueTool → Except Exc ToolAnswer → EpisodeStore → Alerts → Prop
  | refused {t : Tool} {e : Exc} {b : Broker}
      (bad : prepare cfg w.toBrokerWorld (x.brokers t.broker) t p = (.error e, b)) :
      Outcome cfg x y al w p (.entry t) (.error e) y.sys.store al
  | entry {t : Tool} {r : Request} {b : Broker} {ws : World} {q : Params}
      (ok : prepare cfg w.toBrokerWorld (x.brokers t.broker) t p = (.ok r, b))
      (sent : q.fields = r.fields) :
      Outcome cfg x y al w p (.entry t)
        ((r.answer w.toBrokerWorld
          (received (handle cfg.store ws y.sys.store t.endpoint t.method q).1)).map .json)
        (handle cfg.store ws y.sys.store t.endpoint t.method q).2 al
  | denied {t : CatalogueTool} {e : Exc} (reads : ∀ t', t ≠ .entry t')
      (bad : t.authorize cfg w.toBrokerWorld (x.brokers t.broker) p = .error e) :
      Outcome cfg x y al w p t (.error e) y.sys.store al
  | verification {cap : Capability} {args : Json} {ws : World} {q : Params}
      (ok : CatalogueTool.get_verification_result.authorize cfg w.toBrokerWorld (x.brokers .episode) p =
        .ok (cap, args))
      (sent : q.fields = readFields (p.get "token") cap) :
      Outcome cfg x y al w p .get_verification_result
        ((receivedView (handle cfg.store ws y.sys.store .agent .read_episode q).1).map
          get_verification_result) y.sys.store al
  | runbook {cap : Capability} {args : Json} {ws : World} {q : Params}
      (ok : CatalogueTool.draft_failover_runbook.authorize cfg w.toBrokerWorld (x.brokers .episode) p =
        .ok (cap, args))
      (sent : q.fields = readFields (p.get "token") cap) :
      Outcome cfg x y al w p .draft_failover_runbook
        (receivedView (handle cfg.store ws y.sys.store .agent .read_episode q).1 >>=
          draft_failover_runbook w) y.sys.store al
  | alert {cap : Capability} {args : Json} {ws : World} {q : Params}
      (ok : CatalogueTool.send_alert.authorize cfg w.toBrokerWorld (x.brokers .report) p =
        .ok (cap, args))
      (sent : q.fields = readFields (p.get "token") cap) :
      Outcome cfg x y al w p .send_alert
        (send_alert cfg w al cap args
          (receivedView (handle cfg.store ws y.sys.store .agent_report .read_episode q).1)).1
        y.sys.store
        (send_alert cfg w al cap args
          (receivedView (handle cfg.store ws y.sys.store .agent_report .read_episode q).1)).2

/-- The token of a call is valid at the broker and its role may use the tool, but in the state in which
the store finds the episode the tool is not legal. -/
structure Illegal (cfg : BrokerConfig) (x y : Net) (w : BrokerWorld) (p : Params) (t : CatalogueTool)
    (cap : Capability) (e : PyStr) (rec : Record) : Prop where
  reached : Conc.Reachable NetInitial (NetMoves cfg) Conc.anyAct x
  later : Conc.Reachable (· = x) (NetMoves cfg) Conc.anyAct y
  token : Checked ((x.brokers t.broker).gate cfg w) w.now (p.get "token") (p.get "episode_id") cap
  role : ∃ r ∈ t.roles, cap.role = .str r.text
  episode : cap.episode_id = .str e
  found : y.sys.store.records.get? e = some rec
  state : ∀ st ∈ t.states, rec.state ≠ some st

/-- Wherever the tool is not legal the call is refused, and leaves the store and the alerts as they
were. -/
def StateChecked (t : CatalogueTool) : Prop :=
  ∀ cfg x y (w : ReadWorld) p cap e rec, Illegal cfg x y w.toBrokerWorld p t cap e rec →
    ∀ al res s al', Outcome cfg x y al w p t res s al' →
      (∃ err, res = .error err) ∧ s = y.sys.store ∧ al' = al

section Gate

variable {cfg : BrokerConfig} {x y : Net} {w : ReadWorld} {p : Params} {t : Tool} {cap : Capability}
  {e : PyStr} {rec : Record}

/-- The catalogue and the store's gate agree on the states of a tool. -/
theorem Tool.gate_states (h : t.broker ≠ .observer) :
    ∃ op, t.method.agentOp? = some op ∧ op.tool.states = t.states := by
  cases t <;> first | exact ⟨_, rfl, rfl⟩ | exact absurd rfl h

/-- **The gate refuses** an operation outside the states of its tool, whatever its key. -/
theorem gate_refuses {s : EpisodeStore} {ws : World} {q : Params} (h : t.broker ≠ .observer)
    (hid : q.get "episode_id" = .str e) (hrec : s.records.get? e = some rec)
    (hstate : ∀ st ∈ t.states, rec.state ≠ some st) :
    ∃ err, handle cfg.store ws s t.endpoint t.method q = (.error err, s) := by
  obtain ⟨op, hop, hstates⟩ := Tool.gate_states h
  obtain ⟨hwrites, hopen, _⟩ := t.method_kind
  have hm : t.method ∈ t.endpoint.methods := by cases t <;> decide
  rw [handle_eq_runEntry hm hwrites hopen]
  cases hdec : decideEntry cfg.store ws s t.endpoint t.method q with
  | error err => exact ⟨err, by rw [runEntry, hdec]⟩
  | ok dec =>
    obtain ⟨e', rec', _, hid', hrec', _, hreached⟩ := decideEntry_lookup hdec
    cases hid.symm.trans hid'
    cases hrec.symm.trans hrec'
    obtain ⟨st, hst, heq⟩ := hreached op hop
    exact absurd heq (hstate st (hstates ▸ hst))

/-- A request carries the token of the worker's call. -/
theorem prepare_token {w : BrokerWorld} {b b' : Broker} {r : Request}
    (h : prepare cfg w b t p = (.ok r, b')) : r.token = p.get "token" := by
  unfold prepare at h
  split at h
  · obtain ⟨cap, args, _, hrest⟩ := (charged_eq h).2 r rfl
    obtain ⟨idem, _, hrest⟩ := bind_eq_ok.1 hrest
    obtain ⟨_, _, hrest⟩ := bind_eq_ok.1 hrest
    obtain ⟨_, _, hrest⟩ := bind_eq_ok.1 hrest
    obtain ⟨built, _, hrest⟩ := bind_eq_ok.1 hrest
    obtain ⟨_, _, hrest⟩ := bind_eq_ok.1 hrest
    cases pure_eq_ok.1 hrest
    rfl
  · obtain ⟨cap, args, _, hrest⟩ := (charged_eq h).2 r rfl
    obtain ⟨res, _, hrest⟩ := bind_eq_ok.1 hrest
    obtain ⟨_, _, hrest⟩ := bind_eq_ok.1 hrest
    obtain ⟨_, _, hrest⟩ := bind_eq_ok.1 hrest
    obtain ⟨ref, _, hrest⟩ := bind_eq_ok.1 hrest
    cases pure_eq_ok.1 hrest
    rfl
  · obtain ⟨cap, args, _, hrest⟩ := (charged_eq h).2 r rfl
    obtain ⟨_, _, hrest⟩ := bind_eq_ok.1 hrest
    obtain ⟨markdown, _, hrest⟩ := bind_eq_ok.1 hrest
    obtain ⟨body, _, hrest⟩ := bind_eq_ok.1 hrest
    obtain ⟨_, _, hrest⟩ := bind_eq_ok.1 hrest
    obtain ⟨kind, _, hrest⟩ := bind_eq_ok.1 hrest
    cases pure_eq_ok.1 hrest
    rfl

/-- **An illegal call of a gated tool is refused**, by the broker or by the gate. -/
theorem entry_refused (hbroker : t.broker ≠ .observer)
    (h : Illegal cfg x y w.toBrokerWorld p (.entry t) cap e rec) {al al' : Alerts}
    {res : Except Exc ToolAnswer} {s : EpisodeStore} (hout : Outcome cfg x y al w p (.entry t) res s al') :
    (∃ err, res = .error err) ∧ s = y.sys.store ∧ al' = al := by
  cases hout with
  | refused bad => exact ⟨⟨_, rfl⟩, rfl, rfl⟩
  | denied reads bad => exact absurd rfl (reads t)
  | @entry _ r b ws q ok sent =>
    obtain ⟨_, hauth, _⟩ := (prepare_eq ok).2 r rfl
    have htoken := h.token
    rw [← prepare_token ok] at htoken
    have hcap : r.cap = cap := hauth.checked.unique htoken rfl
    obtain ⟨_, hepisode, _⟩ := r.get_given hauth sent
    rw [hcap, h.episode] at hepisode
    obtain ⟨err, hrun⟩ : ∃ err, handle cfg.store ws y.sys.store t.endpoint t.method q =
        (.error err, y.sys.store) := gate_refuses hbroker hepisode h.found h.state
    rw [hrun]
    refine ⟨?_, rfl, rfl⟩
    cases hanswer : r.answer w.toBrokerWorld (received (.error err)) with
    | error err' => exact ⟨err', rfl⟩
    | ok reply =>
      obtain ⟨v, hv⟩ := answer_eq_ok hanswer
      cases received_eq_ok hv

end Gate

/-! ## The tools that the gate does not know -/

/-- A handler of the samples that nothing goes wrong in. -/
def sampleRead : ReadWorld where
  toBrokerWorld := sampleBroker
  skill_file := .ok (some (py "Stop the primary first."))
  section_of _ _ := none
  fault_classes := .ok (.obj [])
  sink := .ok (.str (py "sent"))
  uuid := py "a1"
  dispatched := Double.zero
  sent_ts := Double.zero
  development := false
  log := .ok ()

section Ungated

variable {x : Net} {g : Grant} {p : Params} {t : CatalogueTool} {st : EpisodeState}

theorem illegal_of (hx : Conc.Reachable NetInitial (NetMoves sampleNet) Conc.anyAct x)
    (hcheck : ((x.brokers t.broker).gate sampleNet sampleBroker).check sampleBroker.now (p.get "token")
      (p.get "episode_id") .null = .ok g.capability)
    (hrole : g.role ∈ t.roles) (hepisode : g.capability.episode_id = .str (py "e"))
    (hstate : x.sys.store.stateOf (.str (py "e")) = some st) (hst : st ∉ t.states) :
    ∃ rec, Illegal sampleNet x x sampleRead.toBrokerWorld p t g.capability (py "e") rec := by
  obtain ⟨rec, hrec, hrecState⟩ := Option.bind_eq_some_iff.1 hstate
  refine ⟨rec, hx, .start rfl, (check_eq_ok hcheck).1, ⟨g.role, hrole, rfl⟩, hepisode, hrec, ?_⟩
  intro st' hst' heq
  cases hrecState.symm.trans heq
  exact hst hst'

/-- A tool is not state-checked if an illegal call succeeds. -/
theorem not_stateChecked {cfg : BrokerConfig} {y : Net} {w : ReadWorld} {cap : Capability} {e : PyStr}
    {rec : Record} {al : Alerts} {res : Except Exc ToolAnswer} {s : EpisodeStore}
    (hill : Illegal cfg x y w.toBrokerWorld p t cap e rec) (hok : res.toOption.isSome = true)
    (hout : Outcome cfg x y {} w p t res s al) : ¬ StateChecked t := by
  intro h
  obtain ⟨⟨err, rfl⟩, _⟩ := h cfg x y w p cap e rec hill {} res s al hout
  cases hok

end Ungated

/-- An episode that was just opened. -/
def openedNet : Net := Conc.after (Net.act sampleNet) {} [.store (.mint diagnostician),
  .store (.mint (sampleGrant .change_planner "S")), .store (.call (openCall "e" "k1" "slots" "v"))]

theorem openedNet_opened : Conc.Reachable NetInitial (NetMoves sampleNet) Conc.anyAct openedNet ∧
    openedNet.sys.store.stateOf (.str (py "e")) = some .open :=
  ⟨.after Net.act_moves (.start rfl) (by decide +kernel), by decide +kernel⟩

/-- The arguments that any observation tool takes. -/
def observationArgs : Tool → Json
  | .tail_validator_log => Json.mkObj [(py "lines", .int 1)]
  | _ => .obj []

theorem observationArgs_wf (t : Tool) : (observationArgs t).WF := by
  unfold observationArgs
  split
  · exact Json.wf_mkObj (by simp)
  · exact wf_empty

def observationParams (t : Tool) : Params :=
  agentParams diagnostician "12345678" [(py "args", observationArgs t)] (by
    simpa using observationArgs_wf t)

theorem observationParams_given (t : Tool) :
    (observationParams t).get "token" = sampleToken diagnostician ∧
      (observationParams t).get "episode_id" = .str (py "e") := by
  have hget : ∀ (k : String) (v : Json) (front back : Fields),
      agentFields diagnostician "12345678" [(py "args", observationArgs t)] = front ++ (py k, v) :: back →
      py k ∉ back.map Prod.fst → (observationParams t).get k = v := by
    intro k v front back heq hback
    have hne : ∀ kv ∈ back, kv.1 ≠ py k := by
      rintro kv hkv hk
      rw [← hk] at hback
      exact hback (List.mem_map_of_mem hkv)
    show (Json.lookup (py k) (Json.mkFields (agentFields _ _ _))).getD .null = v
    rw [heq, Json.lookup_mkFields hne]
    rfl
  constructor
  · refine hget _ _ [] _ rfl ?_
    show py "token" ∉ [py "episode_id", py "idem_key", py "args"]
    decide
  · refine hget _ _ [_] _ rfl ?_
    show py "episode_id" ∉ [py "idem_key", py "args"]
    decide

/-- What the store is asked to record. -/
def observationRequest (t : Tool) : Request :=
  ⟨t, sampleToken diagnostician, diagnostician.capability, py "S:obs:12345678",
    [(py "snapshot", sampleSnapshot)],
    [(py "command_id", .str (py "catchup")), (py "status", .str (py "ok"))]⟩

/-- What the store's decoder makes of it. -/
def observationStored : Params :=
  agentParams diagnostician "S:obs:12345678" [(py "snapshot", sampleSnapshot)]
    snapshotField_wf

/-- An observation on its way through its broker into the store. -/
theorem observation_recorded :
    (∀ t : Tool, t.broker = .observer →
      (prepare sampleNet sampleBroker {} t (observationParams t)).1 = .ok (observationRequest t)) ∧
    (∀ t : Tool, observationStored.fields = (observationRequest t).fields) ∧
    received (handle sampleNet.store (sampleWorld "-") openedNet.sys.store .observe .append_observation
      observationStored).1 = .ok (Json.mkObj [(py "signal_id", .str (py "s1"))]) := by
  refine ⟨fun t => ?_, fun t => ?_, by decide +kernel⟩
  · cases t <;> decide +kernel
  · have hfields : observationStored.fields = (observationRequest .get_catchup).fields := by decide +kernel
    rw [hfields]
    simp only [Request.fields, observationRequest]

theorem observation_taken {t : Tool} (ht : t.broker = .observer) :
    prepare sampleNet sampleRead.toBrokerWorld (openedNet.brokers t.broker) t (observationParams t) =
      (.ok (observationRequest t), (prepare sampleNet sampleBroker {} t (observationParams t)).2) := by
  have hbroker : openedNet.brokers t.broker = {} := by
    rw [ht]
    rfl
  rw [hbroker]
  exact Prod.ext (observation_recorded.1 t ht) rfl

theorem observation_outcome {t : Tool} (ht : t.broker = .observer) :
    ∃ v, Outcome sampleNet openedNet openedNet {} sampleRead (observationParams t) (.entry t)
      (.ok (.json v)) (handle sampleNet.store (sampleWorld "-") openedNet.sys.store .observe
        .append_observation observationStored).2 {} := by
  have htool : t.endpoint = .observe ∧ t.method = .append_observation := by
    revert ht
    cases t <;> decide
  have hout : Outcome sampleNet openedNet openedNet {} sampleRead (observationParams t) (.entry t)
      (((observationRequest t).answer sampleBroker (received (handle sampleNet.store (sampleWorld "-")
        openedNet.sys.store t.endpoint t.method observationStored).1)).map .json)
      (handle sampleNet.store (sampleWorld "-") openedNet.sys.store t.endpoint t.method
        observationStored).2 {} :=
    .entry (observation_taken ht) (observation_recorded.2.1 t)
  unfold Request.answer at hout
  rw [show (observationRequest t).tool.broker = .observer from ht, htool.1, htool.2,
    observation_recorded.2.2] at hout
  exact ⟨_, hout⟩

theorem observation_illegal {t : Tool} (ht : t.broker = .observer) :
    ∃ rec, Illegal sampleNet openedNet openedNet sampleRead.toBrokerWorld (observationParams t) (.entry t)
      diagnostician.capability (py "e") rec := by
  have htool : Role.diagnostician ∈ t.roles ∧ EpisodeState.open ∉ t.states := by
    revert ht
    cases t <;> decide
  refine illegal_of openedNet_opened.1 ?_ htool.1 rfl openedNet_opened.2 htool.2
  obtain ⟨htoken, hepisode⟩ := observationParams_given t
  have hbroker : openedNet.brokers (CatalogueTool.entry t).broker = {} := by
    rw [show (CatalogueTool.entry t).broker = .observer from ht]
    rfl
  rw [hbroker, htoken, hepisode]
  decide +kernel

/-- An observation is recorded before the episode is diagnosed. -/
theorem observation_unchecked {t : Tool} (ht : t.broker = .observer) :
    ¬ StateChecked (.entry t) := by
  obtain ⟨rec, hill⟩ := observation_illegal ht
  obtain ⟨v, hout⟩ := observation_outcome ht
  exact not_stateChecked hill rfl hout

/-- The planner of the episode. -/
def planner : Grant := sampleGrant .change_planner "S"

def plannerParams : Params := agentParams planner "12345678" [] (by simp)

/-- The call `read_episode` of a broker. -/
def storedRead (g : Grant) : Params :=
  Params.ofFields [(py "token", sampleToken g), (py "episode_id", .str (py "e"))] (by
    simpa using sampleToken_wf g)

/-- The records of the verifier and a checklist are read before the episode is diagnosed. -/
theorem reads_unchecked :
    ¬ StateChecked .get_verification_result ∧ ¬ StateChecked .draft_failover_runbook := by
  have hcheck : ((openedNet.brokers .episode).gate sampleNet sampleBroker).check sampleBroker.now
      (plannerParams.get "token") (plannerParams.get "episode_id") .null = .ok planner.capability := by
    decide +kernel
  constructor
  · obtain ⟨rec, hill⟩ := illegal_of (g := planner) (p := plannerParams) (t := .get_verification_result)
      openedNet_opened.1 hcheck (by decide) rfl openedNet_opened.2 (by decide)
    have hauth : CatalogueTool.get_verification_result.authorize sampleNet sampleRead.toBrokerWorld
        (openedNet.brokers .episode) plannerParams = .ok (planner.capability, .obj []) := by decide +kernel
    have hread : ((receivedView (handle sampleNet.store (sampleWorld "-") openedNet.sys.store .agent
        .read_episode (storedRead planner)).1).map get_verification_result).toOption.isSome = true := by
      decide +kernel
    exact not_stateChecked hill hread (.verification hauth (by decide +kernel))
  · obtain ⟨rec, hill⟩ := illegal_of (g := planner) (p := plannerParams) (t := .draft_failover_runbook)
      openedNet_opened.1 hcheck (by decide) rfl openedNet_opened.2 (by decide)
    have hauth : CatalogueTool.draft_failover_runbook.authorize sampleNet sampleRead.toBrokerWorld
        (openedNet.brokers .episode) plannerParams = .ok (planner.capability, .obj []) := by decide +kernel
    have hread : (receivedView (handle sampleNet.store (sampleWorld "-") openedNet.sys.store .agent
        .read_episode (storedRead planner)).1 >>=
          draft_failover_runbook sampleRead).toOption.isSome = true := by
      decide +kernel
    exact not_stateChecked hill hread (.runbook hauth (by decide +kernel))

/-! ## Alerts -/

/-- The reporter of the episode. -/
def sampleReporter : Grant := sampleGrant .reporter "S"

def reportParams : Params :=
  agentParams sampleReporter "12345678"
    [(py "args", Json.mkObj [(py "kind", .str (py "incident")), (py "markdown", .str (py "slots"))])] (by
      have hargs : (Json.mkObj [(py "kind", .str (py "incident")), (py "markdown", .str (py "slots"))]).WF :=
        Json.wf_mkObj (by simp)
      simpa using hargs)

/-- The ref of the report. -/
def sampleRef : PyStr := py "report:sha256:" ++ List.replicate 64 97

def reportRequest : Request :=
  ⟨.write_incident_report, sampleToken sampleReporter, sampleReporter.capability,
    py "S:report:incident:" ++ List.replicate 16 97,
    [(py "kind", .str (py "incident")), (py "ref", .str sampleRef)], [(py "ref", .str sampleRef)]⟩

def reportStored : Params :=
  Params.ofFields ([(py "token", sampleToken sampleReporter), (py "episode_id", .str (py "e")),
      (py "idem_key", .str (py "S:report:incident:" ++ List.replicate 16 97))] ++
    [(py "kind", .str (py "incident")), (py "ref", .str sampleRef)]) (by
      simpa using sampleToken_wf sampleReporter)

/-- An episode that was reported and waits for the operator. -/
def reportedNet : Net := Conc.after (Net.act sampleNet) {} [.store (.mint sampleReporter),
  .store (.call (openCall "e" "k1" "slots" "v")), .store (.call (stateCall .control "e" "diagnosing" 1)),
  .store (.call (stateCall .control "e" "reporting" 2)),
  .prepare sampleBroker .write_incident_report reportParams,
  .deliver (sampleWorld "-") reportRequest reportStored,
  .store (.call (stateCall .control "e" "awaiting_operator" 4))]

theorem reportedNet_awaits : Conc.Reachable NetInitial (NetMoves sampleNet) Conc.anyAct reportedNet ∧
    reportedNet.sys.store.stateOf (.str (py "e")) = some .awaiting_operator :=
  ⟨.after Net.act_moves (.start rfl) (by decide +kernel), by decide +kernel⟩

def alertArgs : Json := Json.mkObj [(py "kind", .str (py "incident")), (py "summary", .str (py "slots"))]

def alertParams : Params :=
  agentParams sampleReporter "12345678" [(py "args", alertArgs)] (by
    have hargs : alertArgs.WF := Json.wf_mkObj (by simp)
    simpa using hargs)

/-- An alert is dispatched while the operator is awaited. -/
theorem alert_unchecked : ¬ StateChecked .send_alert := by
  obtain ⟨rec, hill⟩ := illegal_of (g := sampleReporter) (p := alertParams) (t := .send_alert)
    reportedNet_awaits.1 (by decide +kernel) (by decide) rfl reportedNet_awaits.2 (by decide)
  have hauth : CatalogueTool.send_alert.authorize sampleNet sampleRead.toBrokerWorld
      (reportedNet.brokers .report) alertParams = .ok (sampleReporter.capability, alertArgs) := by
    decide +kernel
  have hsent : (send_alert sampleNet sampleRead {} sampleReporter.capability alertArgs
      (receivedView (handle sampleNet.store (sampleWorld "-") reportedNet.sys.store .agent_report
        .read_episode (storedRead sampleReporter)).1)).1.toOption.isSome = true := by
    decide +kernel
  exact not_stateChecked hill hsent (.alert hauth (by decide +kernel))

/-- **A tool is state-checked** exactly when it ends in an entry that is not an observation. -/
theorem state_checked (t : CatalogueTool) :
    StateChecked t ↔ ∃ t' : Tool, t = .entry t' ∧ t'.broker ≠ .observer := by
  cases t with
  | entry t =>
    constructor
    · intro h
      exact ⟨t, rfl, fun ht => observation_unchecked ht h⟩
    · rintro ⟨t', ht, hbroker⟩
      cases ht
      intro cfg x y w p cap e rec hill al res s al' hout
      exact entry_refused hbroker hill hout
  | get_verification_result =>
    exact ⟨fun h => absurd h reads_unchecked.1, fun ⟨_, ht, _⟩ => by cases ht⟩
  | draft_failover_runbook =>
    exact ⟨fun h => absurd h reads_unchecked.2, fun ⟨_, ht, _⟩ => by cases ht⟩
  | send_alert => exact ⟨fun h => absurd h alert_unchecked, fun ⟨_, ht, _⟩ => by cases ht⟩

/-- An observation is recorded in an episode that was just opened. -/
theorem observed_before_diagnosis : ∃ cfg x w p cap e rec v s al,
    Illegal cfg x x w.toBrokerWorld p (.entry .get_catchup) cap e rec ∧
    Outcome cfg x x {} w p (.entry .get_catchup) (.ok (.json v)) s al ∧
    x.sys.store.stateOf (.str e) = some .open ∧ s.rows.length = x.sys.store.rows.length + 1 := by
  obtain ⟨rec, hill⟩ := observation_illegal (t := .get_catchup) rfl
  obtain ⟨v, hout⟩ := observation_outcome (t := .get_catchup) rfl
  exact ⟨sampleNet, openedNet, sampleRead, observationParams .get_catchup, _, py "e", rec, v, _, {}, hill,
    hout, openedNet_opened.2, by decide +kernel⟩

end Valops.Brokers
