import Valops.Store.Service

/-!
# What the handlers let through

Every check a handler made before it decided to append an entry, read off its success. `Admitted`
has one constructor for each kind of entry; its arguments are the facts the checks establish about
the record, the request and the token. Everything later is derived from it and never unfolds a
handler.

Main results: `decideEntry_append` (a decision to append was admitted) and `openDecision_fresh`.
-/

set_option autoImplicit false

namespace Valops.Store

open Py

variable {cfg : StoreConfig} {w : World} {s : EpisodeStore} {ep : Endpoint} {m : Method} {p : Params}
  {rec : Record} {d : Draft} {key : PyStr}

/-- The record is in no terminal state. -/
def Record.Live (rec : Record) : Prop := ∀ st ∈ TERMINAL, rec.state ≠ some st

instance (rec : Record) : Decidable rec.Live :=
  inferInstanceAs (Decidable (∀ st ∈ TERMINAL, rec.state ≠ some st))

/-- The names are those of signals of the record. -/
def RefsExist (rec : Record) (refs : List PyStr) : Prop :=
  refs ≠ [] ∧ ∀ r ∈ refs, ∃ sig ∈ rec.signals, sig.id = r

/-- What `_agent_gate` establishes for an operation with a tool. -/
structure Authority (cfg : StoreConfig) (w : World) (ep : Endpoint) (op : AgentOp) (p : Params)
    (cap : Capability) (rec : Record) : Prop where
  broker : ep = .agent ∨ ep = .agent_report
  checked : Checked (tokenGate cfg w) w.now (p.get "token") (p.get "episode_id") cap
  bundle : cap.bundle_id.pyEq rec.bundle = true
  role : ∃ r ∈ op.tool.roles, cap.role = .str r.text
  state : ∃ st ∈ op.tool.states, rec.state = some st

/-- A skill of the bound bundle that a planner may use in the episode's mode. -/
def PlannerSkill (cfg : StoreConfig) (rec : Record) (name : PyStr) : Prop :=
  ∃ id skills skill roles modes, rec.bundle_id = some id ∧ cfg.skills id = .ok skills ∧
    getSkill skills name = .ok skill ∧ getD skill "roles" (.arr []) = .ok roles ∧
    contains (py "change_planner") roles = .ok true ∧ get skill "modes" = .ok modes ∧
    (modes = .str (py "any") ∨ ∃ m, rec.consensus_mode = some m ∧ m ≠ .unknown ∧
      contains m.text modes = .ok true)

/-- The body, principal and session of an entry that the checks let through. -/
inductive Admitted (cfg : StoreConfig) (w : World) (ep : Endpoint) (p : Params) (rec : Record) :
    Body → PyStr → Json → Prop
  | hypothesis {cap : Capability} {rank : Int} {claim test expected_evidence : PyStr}
      (auth : Authority cfg w ep .append_hypothesis p cap rec) (rank_pos : 1 ≤ rank)
      (rank_new : ∀ x ∈ rec.hypotheses, x.step_session.pyEq cap.session_id = true → x.rank ≠ rank) :
      Admitted cfg w ep p rec
        (.hypothesis ⟨_next_id rec.hypotheses.length "h", cap.session_id, rank, claim, test,
          expected_evidence⟩) (agentPrincipal cfg cap) cap.session_id
  | hypothesis_status {cap : Capability} {b : HypothesisStatusBody}
      (auth : Authority cfg w ep .append_hypothesis_status p cap rec)
      (known : ∃ h ∈ rec.hypotheses, h.id = b.hypothesis_id) (refs : RefsExist rec b.evidence_refs) :
      Admitted cfg w ep p rec (.hypothesis_status b) (agentPrincipal cfg cap) cap.session_id
  | recommendation {cap : Capability} {b : RecommendationBody}
      (auth : Authority cfg w ep .append_recommendation p cap rec)
      (session : ∀ x ∈ artefactSessions rec, x.pyEq cap.session_id = false)
      (id : b.id = _next_id rec.recommendations.length "r")
      (known : ∃ h ∈ rec.hypotheses, h.id = b.hypothesis) (skill : PlannerSkill cfg rec b.skill)
      (refs : RefsExist rec b.evidence_refs) :
      Admitted cfg w ep p rec (.recommendation b) (agentPrincipal cfg cap) cap.session_id
  | no_action {cap : Capability} {b : NoActionBody}
      (auth : Authority cfg w ep .append_no_action p cap rec)
      (session : ∀ x ∈ artefactSessions rec, x.pyEq cap.session_id = false)
      (id : b.id = _next_id rec.no_action.length "n") (refs : RefsExist rec b.evidence_refs) :
      Admitted cfg w ep p rec (.no_action b) (agentPrincipal cfg cap) cap.session_id
  | verdict {cap : Capability} {b : VerdictBody} {target : Artefact}
      (auth : Authority cfg w ep .append_verdict p cap rec)
      (session : ∀ x ∈ rec.verdicts, x.session_id.pyEq cap.session_id = false)
      (judged : under_judgement rec = some target) (target_id : b.target_id = target.id)
      (checks : b.checks ≠ []) :
      Admitted cfg w ep p rec (.verdict b) (agentPrincipal cfg cap) cap.session_id
  | report {cap : Capability} {b : ReportBody} (auth : Authority cfg w ep .append_report p cap rec)
      (broker : ep = .agent_report) (need : rec.state = some b.kind.need) :
      Admitted cfg w ep p rec (.report b) (agentPrincipal cfg cap) cap.session_id
  | state {b : StateBody} (endpoint : ep = .control ∨ ep = .verify)
      (frm : rec.state = some b.frm) (step : (b.frm, b.dst) ∈ table ep.principal)
      (requested : p.get "state" = .str b.dst.text)
      (expected : (p.get "expected_revision").eqInt rec.revision = true) :
      Admitted cfg w ep p rec (.state b) ep.principal .null
  | signal {b : SignalBody} (endpoint : ep = .control) (live : rec.Live)
      (id : b.id = _next_id rec.signals.length "s") :
      Admitted cfg w ep p rec (.signal b) ep.principal .null
  | observation {cap : Capability} {b : SignalBody} (endpoint : ep = .observe)
      (checked : Checked (tokenGate cfg w) w.now (p.get "token") (p.get "episode_id") cap)
      (live : rec.Live) (id : b.id = _next_id rec.signals.length "s") :
      Admitted cfg w ep p rec (.signal b)
        (py "observer_broker/agent:" ++ strOf cfg cap.role) cap.session_id
  | cost {b : CostBody} (endpoint : ep = .control) (usd : b.usd = p.get "usd")
      (number : isNumber b.usd = true) (turns : isInt b.turns = true)
      (session : b.session_id = p.get "session_id") :
      Admitted cfg w ep p rec (.cost b) ep.principal (p.get "session_id")
  | step {b : StepBody} (endpoint : ep = .control) (role : p.get "role" = .str b.role.text)
      (session : b.session_id = p.get "session_id")
      (outcome : p.get "outcome" = .str b.outcome.text) :
      Admitted cfg w ep p rec (.step b) ep.principal (p.get "session_id")
  | annotation {b : AnnotationBody} (endpoint : ep = .control) :
      Admitted cfg w ep p rec ( Body.annotation b) ep.principal (p.get "session_id")
  | verification {b : VerificationBody} (endpoint : ep = .verify) :
      Admitted cfg w ep p rec (.verification b) ep.principal (p.get "session_id")
  | recovery_observation {b : RecoveryObservationBody} (endpoint : ep = .verify) :
      Admitted cfg w ep p rec (.recovery_observation b) ep.principal (p.get "session_id")

/-! ## Results -/

/-- A value that `json.loads` gives back from `json.dumps`. -/
structure Plain (v : Json) : Prop where
  wf : v.WF
  scalar : v.scalar = true

theorem plain_mkObj {kvs : Fields} (h : ∀ kv ∈ kvs, kv.1.all isScalar = true ∧ Plain kv.2) :
    Plain (Json.mkObj kvs) := by
  exact ⟨Json.wf_mkObj fun kv hkv => (h kv hkv).2.wf,
    Json.scalar_mkObj fun kv hkv => ⟨(h kv hkv).1, (h kv hkv).2.scalar⟩⟩

theorem plain_str {t : PyStr} (h : t.all isScalar = true) : Plain (.str t) := ⟨.str t, h⟩

theorem plain_int (z : Int) : Plain (.int z) := ⟨.int z, rfl⟩

theorem plain_bool (b : Bool) : Plain (.bool b) := ⟨.bool b, rfl⟩

theorem natText_scalar (n : Nat) : (natText n).all isScalar = true := by
  rw [List.all_eq_true]
  intro c hc
  have hdigit := natText_isDigit n c hc
  refine isScalar_of_lt ?_
  simp only [isDigit, Bool.and_eq_true, decide_eq_true_eq] at hdigit
  omega

/-- The result that carries an id. -/
theorem plain_id {key letter : String} {n : Nat} (hkey : (py key).all isScalar = true)
    (hletter : (py letter).all isScalar = true) :
    Plain (Json.mkObj [(py key, .str (_next_id n letter))]) := by
  refine plain_mkObj ?_
  simp only [List.mem_singleton, forall_eq]
  refine ⟨hkey, plain_str ?_⟩
  rw [_next_id, List.all_append, hletter, natText_scalar]
  rfl

theorem plain_okResult : Plain okResult := by
  refine plain_mkObj ?_
  simp only [List.mem_singleton, forall_eq]
  exact ⟨by decide, plain_bool _⟩

/-- The result of `set_state`. -/
theorem plain_stateResult {n : Nat} {st : EpisodeState} :
    Plain (Json.mkObj [(py "revision", .int (n : Int)), (py "state", .str st.text)]) := by
  refine plain_mkObj ?_
  simp only [List.mem_cons, List.not_mem_nil, or_false, forall_eq_or_imp, forall_eq]
  exact ⟨⟨by decide, plain_int _⟩, by decide, plain_str (by cases st <;> decide)⟩

/-- The result of `_simple`. -/
theorem plain_simpleResult {n : Nat} :
    Plain (Json.mkObj [(py "ok", .bool true), (py "revision", .int (n : Int))]) := by
  refine plain_mkObj ?_
  simp only [List.mem_cons, List.not_mem_nil, or_false, forall_eq_or_imp, forall_eq]
  exact ⟨⟨by decide, plain_bool _⟩, by decide, plain_int _⟩

/-- A row's result reads back. -/
theorem Plain.loads {v : Json} {t : PyStr} (h : Plain v) (ht : dumps v = some t) :
    loads t = some v :=
  loads_dumps h.wf h.scalar ht

/-! ## Drafts -/

/-- The kind of entry a method writes. -/
def Method.kind : Method → Option Kind
  | .append_hypothesis => some .hypothesis
  | .append_hypothesis_status => some .hypothesis_status
  | .append_recommendation => some .recommendation
  | .append_no_action => some .no_action
  | .append_verdict => some .verdict
  | .append_report => some .report
  | .open_episode => some .opened
  | .set_state => some .state
  | .append_signal | .append_observation => some .signal
  | .append_cost => some .cost
  | .append_step => some .step
  | .annotate => some Kind.annotation
  | .append_verification => some .verification
  | .append_recovery_observation => some .recovery_observation
  | .read_episode | .list_episodes => none

/-- The key under which a method looks for an earlier entry. -/
def Method.idemKey (cfg : StoreConfig) (m : Method) (p : Params) : Json :=
  if m = .set_state then stateKey cfg p else p.get "idem_key"

/-- A decision to append: the record is in the store, its key is new, the body is well-formed and of
the method's kind, and the checks let it through. -/
structure Drafted (cfg : StoreConfig) (w : World) (s : EpisodeStore) (ep : Endpoint) (m : Method)
    (p : Params) (d : Draft) : Prop where
  kind : m.kind = some d.body.kind
  found : ∃ e, p.get "episode_id" = .str e ∧ s.records.get? e = some d.record
  key : keyText (m.idemKey cfg p) = .ok d.idem_key
  fresh : ∀ r ∈ s.rows, r.episode_id = d.record.episode_id → r.idem_key ≠ d.idem_key
  wf : d.body.toJson.WF
  result : Plain d.result
  admitted : Admitted cfg w ep p d.record d.body d.principal d.session_id

/-! ## Shared checks -/

theorem hashed_eq_ok {v : Json} {u : Unit} (h : hashed v = .ok u) : v.hashable = true :=
  require_eq_ok.1 h

theorem _record_eq_ok {v : Json} (h : _record s v = .ok rec) :
    ∃ e, v = .str e ∧ s.records.get? e = some rec := by
  unfold _record at h
  obtain ⟨_, _, h⟩ := bind_eq_ok.1 h
  split at h
  · exact ⟨_, rfl, orRaise_eq_ok.1 h⟩
  · cases h

theorem _record_str {e : PyStr} (h : s.records.get? e = some rec) :
    _record s (.str e) = .ok rec := by
  show orRaise (s.records.get? e) _ = _
  rw [h]
  rfl

theorem _idem_fresh {e : PyStr} {v : Json} (h : _idem s e v = .ok (.fresh key)) :
    keyText v = .ok key ∧ ∀ r ∈ s.rows, r.episode_id = e → r.idem_key ≠ key := by
  unfold _idem at h
  obtain ⟨k, hk, h⟩ := bind_eq_ok.1 h
  split at h
  · obtain ⟨_, _, h⟩ := bind_eq_ok.1 h
    cases pure_eq_ok.1 h
  · rename_i hnone
    cases pure_eq_ok.1 h
    refine ⟨hk, ?_⟩
    intro r hr he hk
    have := List.find?_eq_none.1 hnone r hr
    simp [he, hk] at this

theorem onFresh_append {idem : Json} {draft : PyStr → Except Exc Draft}
    (h : onFresh s rec idem draft = .ok (.append d)) :
    ∃ key, keyText idem = .ok key ∧
      (∀ r ∈ s.rows, r.episode_id = rec.episode_id → r.idem_key ≠ key) ∧ draft key = .ok d := by
  unfold onFresh at h
  obtain ⟨i, hi, h⟩ := bind_eq_ok.1 h
  cases i with
  | prior v => cases pure_eq_ok.1 h
  | fresh key =>
    obtain ⟨d', hd, h⟩ := bind_eq_ok.1 h
    cases pure_eq_ok.1 h
    exact ⟨key, (_idem_fresh hi).1, (_idem_fresh hi).2, hd⟩

theorem _refs_exist_eq_ok {v : Json} {refs : List PyStr} (h : _refs_exist rec v = .ok refs) :
    v = ofStrs refs ∧ RefsExist rec refs := by
  unfold _refs_exist at h
  obtain ⟨xs, hxs, h⟩ := bind_eq_ok.1 h
  obtain ⟨_, hne, h⟩ := bind_eq_ok.1 h
  obtain ⟨_, _, h⟩ := bind_eq_ok.1 h
  obtain ⟨_, hmissing, h⟩ := bind_eq_ok.1 h
  have hall := allStrs_eq_some (orRaise_eq_ok.1 h)
  have hv : v = .arr xs := by
    rw [orRaise_eq_ok] at hxs
    cases v <;> simp [asArr] at hxs
    rw [hxs]
  subst hall
  refine ⟨hv, ?_, ?_⟩
  · rintro rfl
    simp at hne
  · intro r hr
    rw [require_eq_ok, List.isEmpty_iff, List.filter_eq_nil_iff] at hmissing
    have hm := hmissing (.str r) (List.mem_map_of_mem hr)
    simp only [Bool.not_eq_true, Bool.not_eq_false', List.any_eq_true] at hm
    obtain ⟨sig, hsig, heq⟩ := hm
    cases Json.eqStr_iff.1 heq
    exact ⟨sig, hsig, rfl⟩

theorem wf_ofStrs (xs : List PyStr) : (ofStrs xs).WF := by
  refine .arr fun x hx => ?_
  obtain ⟨s, _, rfl⟩ := List.mem_map.1 hx
  exact .str s

/-- What the gate of the agent endpoints lets through. -/
theorem _agent_gate_eq_ok {op : AgentOp} {cap : Capability}
    (h : _agent_gate cfg w s ep (some op) p = .ok (cap, rec)) :
    Authority cfg w ep op p cap rec ∧
      ∃ e, p.get "episode_id" = .str e ∧ s.records.get? e = some rec := by
  unfold _agent_gate at h
  obtain ⟨_, hbroker, h⟩ := bind_eq_ok.1 h
  obtain ⟨c, hcheck, h⟩ := bind_eq_ok.1 h
  obtain ⟨r, hrec, h⟩ := bind_eq_ok.1 h
  obtain ⟨_, hbundle, h⟩ := bind_eq_ok.1 h
  obtain ⟨_, htool, h⟩ := bind_eq_ok.1 h
  cases pure_eq_ok.1 h
  unfold checkTool at htool
  obtain ⟨_, hrole, hstate⟩ := bind_eq_ok.1 htool
  refine ⟨⟨?_, (check_eq_ok hcheck).1, require_eq_ok.1 hbundle, ?_, ?_⟩, _record_eq_ok hrec⟩
  · have hmem := of_decide_eq_true (require_eq_ok.1 hbroker)
    revert hmem
    cases ep <;> decide
  · obtain ⟨r, hr, heq⟩ := List.any_eq_true.1 (require_eq_ok.1 hrole)
    exact ⟨r, hr, Json.eqStr_iff.1 heq⟩
  · exact of_decide_eq_true (require_eq_ok.1 hstate)

/-! ## The entries of the handlers -/

/-- A draft on a record under a key, let through by the checks. -/
structure Shaped (cfg : StoreConfig) (w : World) (ep : Endpoint) (m : Method) (p : Params)
    (rec : Record) (key : PyStr) (d : Draft) : Prop where
  kind : m.kind = some d.body.kind
  record : d.record = rec
  idem_key : d.idem_key = key
  wf : d.body.toJson.WF
  result : Plain d.result
  admitted : Admitted cfg w ep p rec d.body d.principal d.session_id

/-- A new key leads to a draft that was let through. -/
theorem drafted_of_onFresh {idem : Json} {draft : PyStr → Except Exc Draft} {e : PyStr}
    (hid : p.get "episode_id" = .str e) (hfound : s.records.get? e = some rec)
    (hidem : m.idemKey cfg p = idem)
    (hshaped : ∀ key d, draft key = .ok d → Shaped cfg w ep m p rec key d)
    (h : onFresh s rec idem draft = .ok (.append d)) : Drafted cfg w s ep m p d := by
  obtain ⟨key, hkey, hfresh, hdraft⟩ := onFresh_append h
  obtain ⟨hkind, rfl, rfl, hwf, hresult, hadm⟩ := hshaped key d hdraft
  exact ⟨hkind, ⟨e, hid, hfound⟩, hidem ▸ hkey, hfresh, hwf, hresult, hadm⟩

theorem hypothesisDraft_shaped {cap : Capability}
    (auth : Authority cfg w ep .append_hypothesis p cap rec)
    (h : hypothesisDraft cfg cap rec p key = .ok d) : Shaped cfg w ep .append_hypothesis p rec key d := by
  unfold hypothesisDraft at h
  obtain ⟨claim, _, h⟩ := bind_eq_ok.1 h
  obtain ⟨test, _, h⟩ := bind_eq_ok.1 h
  obtain ⟨evidence, _, h⟩ := bind_eq_ok.1 h
  obtain ⟨rank, hrank, h⟩ := bind_eq_ok.1 h
  obtain ⟨_, hnew, h⟩ := bind_eq_ok.1 h
  cases pure_eq_ok.1 h
  have hpos : 1 ≤ rank := by
    unfold contractRank at hrank
    obtain ⟨v, _, hrank⟩ := bind_eq_ok.1 hrank
    split at hrank
    · obtain ⟨_, hle, hrank⟩ := bind_eq_ok.1 hrank
      cases pure_eq_ok.1 hrank
      exact of_decide_eq_true (require_eq_ok.1 hle)
    · cases hrank
  refine ⟨rfl, rfl, rfl, ?_, plain_id (by decide) (by decide), .hypothesis auth hpos ?_⟩
  · refine Json.wf_mkObj ?_
    simp [auth.checked.session_wf]
  · intro x hx hsess heq
    rw [require_eq_ok, Bool.not_eq_true', List.any_eq_false] at hnew
    exact hnew x hx (by simp [hsess, heq])

theorem knownHypothesis_eq_ok {v : Json} {id : PyStr} (h : knownHypothesis rec v = .ok id) :
    v = .str id ∧ ∃ x ∈ rec.hypotheses, x.id = id := by
  unfold knownHypothesis at h
  obtain ⟨_, _, h⟩ := bind_eq_ok.1 h
  obtain ⟨_, hany, h⟩ := bind_eq_ok.1 h
  obtain ⟨x, hx, heq⟩ := List.any_eq_true.1 (require_eq_ok.1 hany)
  have hv := Json.eqStr_iff.1 heq
  subst hv
  cases orRaise_eq_ok.1 h
  exact ⟨rfl, x, hx, rfl⟩

theorem hypothesisStatusDraft_shaped {cap : Capability}
    (auth : Authority cfg w ep .append_hypothesis_status p cap rec)
    (h : hypothesisStatusDraft cfg cap rec p key = .ok d) : Shaped cfg w ep .append_hypothesis_status p rec key d := by
  unfold hypothesisStatusDraft at h
  obtain ⟨hid, hknown, h⟩ := bind_eq_ok.1 h
  obtain ⟨status, _, h⟩ := bind_eq_ok.1 h
  obtain ⟨refs, hrefs, h⟩ := bind_eq_ok.1 h
  cases pure_eq_ok.1 h
  refine ⟨rfl, rfl, rfl, ?_, plain_okResult, .hypothesis_status auth (knownHypothesis_eq_ok hknown).2
    (_refs_exist_eq_ok hrefs).2⟩
  refine Json.wf_mkObj ?_
  simp [wf_ofStrs]

theorem _one_per_session_eq_ok {sessions : List Json} {cap : Capability} {u : Unit}
    (h : _one_per_session sessions cap = .ok u) : ∀ x ∈ sessions, x.pyEq cap.session_id = false := by
  rw [_one_per_session, require_eq_ok, Bool.not_eq_true', List.any_eq_false] at h
  exact fun x hx => Bool.eq_false_iff.2 (h x hx)

theorem checkPlannerSkill_eq_ok {skills skill : Json} {name : PyStr}
    (h : checkPlannerSkill skills name = .ok skill) : getSkill skills name = .ok skill ∧
      ∃ roles, getD skill "roles" (.arr []) = .ok roles ∧
        contains (py "change_planner") roles = .ok true := by
  unfold checkPlannerSkill at h
  obtain ⟨sk, hsk, h⟩ := bind_eq_ok.1 h
  obtain ⟨_, _, h⟩ := bind_eq_ok.1 h
  obtain ⟨roles, hroles, h⟩ := bind_eq_ok.1 h
  obtain ⟨planner, hplanner, h⟩ := bind_eq_ok.1 h
  obtain ⟨_, hreq, h⟩ := bind_eq_ok.1 h
  cases pure_eq_ok.1 h
  cases require_eq_ok.1 hreq
  exact ⟨hsk, roles, hroles, hplanner⟩

theorem checkMode_eq_ok {name : PyStr} {modes : Json} {u : Unit}
    (h : checkMode rec name modes = .ok u) : modes = .str (py "any") ∨
      ∃ m, rec.consensus_mode = some m ∧ m ≠ .unknown ∧ contains m.text modes = .ok true := by
  unfold checkMode at h
  split at h
  · rename_i hany
    exact .inl (Json.eqStr_iff.1 hany)
  · obtain ⟨_, hknown, h⟩ := bind_eq_ok.1 h
    obtain ⟨m, hm, h⟩ := bind_eq_ok.1 h
    obtain ⟨applies, happ, h⟩ := bind_eq_ok.1 h
    cases require_eq_ok.1 h
    have hmode := orRaise_eq_ok.1 hm
    refine .inr ⟨m, hmode, ?_, happ⟩
    rintro rfl
    exact of_decide_eq_true (require_eq_ok.1 hknown) hmode

theorem recommendationDraft_shaped {cap : Capability}
    (auth : Authority cfg w ep .append_recommendation p cap rec)
    (h : recommendationDraft cfg w cap rec p key = .ok d) : Shaped cfg w ep .append_recommendation p rec key d := by
  unfold recommendationDraft at h
  obtain ⟨_, hsession, h⟩ := bind_eq_ok.1 h
  obtain ⟨_, _, h⟩ := bind_eq_ok.1 h
  obtain ⟨hyp, _, h⟩ := bind_eq_ok.1 h
  obtain ⟨hypothesis, hknown, h⟩ := bind_eq_ok.1 h
  obtain ⟨skills, hskills, h⟩ := bind_eq_ok.1 h
  obtain ⟨nameJson, _, h⟩ := bind_eq_ok.1 h
  obtain ⟨name, _, h⟩ := bind_eq_ok.1 h
  obtain ⟨skill, hskill, h⟩ := bind_eq_ok.1 h
  obtain ⟨modes, hmodes, h⟩ := bind_eq_ok.1 h
  obtain ⟨_, hmode, h⟩ := bind_eq_ok.1 h
  obtain ⟨refsJson, _, h⟩ := bind_eq_ok.1 h
  obtain ⟨refs, hrefs, h⟩ := bind_eq_ok.1 h
  obtain ⟨action_text, haction, h⟩ := bind_eq_ok.1 h
  obtain ⟨preconditions, hpre, h⟩ := bind_eq_ok.1 h
  obtain ⟨expected, hexp, h⟩ := bind_eq_ok.1 h
  cases pure_eq_ok.1 h
  have hr : (orEmpty (p.get "recommendation")).WF := wf_orEmpty (p.wf_get _)
  unfold loadSkills at hskills
  obtain ⟨_, _, hskills⟩ := bind_eq_ok.1 hskills
  obtain ⟨id, hid, hskills⟩ := bind_eq_ok.1 hskills
  obtain ⟨hget, roles, hroles, hplanner⟩ := checkPlannerSkill_eq_ok hskill
  refine ⟨rfl, rfl, rfl, ?_, plain_id (by decide) (by decide), .recommendation auth (_one_per_session_eq_ok hsession) rfl
    (knownHypothesis_eq_ok hknown).2 ?_ (_refs_exist_eq_ok hrefs).2⟩
  · refine Json.wf_mkObj ?_
    simp [wf_ofStrs, wf_index hr haction, wf_index hr hpre, wf_index hr hexp]
  · exact ⟨id, skills, skill, roles, modes, orRaise_eq_ok.1 hid, hskills, hget, hroles, hplanner,
      hmodes, checkMode_eq_ok hmode⟩

theorem noActionDraft_shaped {cap : Capability}
    (auth : Authority cfg w ep .append_no_action p cap rec)
    (h : noActionDraft cfg cap rec p key = .ok d) : Shaped cfg w ep .append_no_action p rec key d := by
  unfold noActionDraft at h
  obtain ⟨_, hsession, h⟩ := bind_eq_ok.1 h
  obtain ⟨_, _, h⟩ := bind_eq_ok.1 h
  obtain ⟨refs, hrefs, h⟩ := bind_eq_ok.1 h
  obtain ⟨reason, _, h⟩ := bind_eq_ok.1 h
  cases pure_eq_ok.1 h
  refine ⟨rfl, rfl, rfl, ?_, plain_id (by decide) (by decide), .no_action auth (_one_per_session_eq_ok hsession) rfl
    (_refs_exist_eq_ok hrefs).2⟩
  refine Json.wf_mkObj ?_
  simp [wf_ofStrs]

theorem verdictDraft_shaped {cap : Capability} (auth : Authority cfg w ep .append_verdict p cap rec)
    (h : verdictDraft cfg cap rec p key = .ok d) : Shaped cfg w ep .append_verdict p rec key d := by
  unfold verdictDraft at h
  obtain ⟨_, hsession, h⟩ := bind_eq_ok.1 h
  obtain ⟨target, htarget, h⟩ := bind_eq_ok.1 h
  obtain ⟨_, _, h⟩ := bind_eq_ok.1 h
  obtain ⟨result, _, h⟩ := bind_eq_ok.1 h
  obtain ⟨checks, hchecks, h⟩ := bind_eq_ok.1 h
  obtain ⟨_, hne, h⟩ := bind_eq_ok.1 h
  obtain ⟨_, _, h⟩ := bind_eq_ok.1 h
  cases pure_eq_ok.1 h
  refine ⟨rfl, rfl, rfl, ?_, plain_okResult, .verdict auth ?_ (orRaise_eq_ok.1 htarget) rfl ?_⟩
  · have hwf : (p.get "checks").WF := p.wf_get _
    have hchecks' := orRaise_eq_ok.1 hchecks
    cases hv : p.get "checks" with
    | arr xs =>
      rw [hv] at hchecks' hwf
      cases hchecks'
      refine Json.wf_mkObj ?_
      simp [hwf]
    | _ =>
      rw [hv] at hchecks'
      cases hchecks'
  · exact fun x hx => _one_per_session_eq_ok hsession _ (List.mem_map_of_mem hx)
  · rintro rfl
    simp at hne

theorem reportDraft_shaped {cap : Capability} (hep : ep = .agent_report)
    (auth : Authority cfg w ep .append_report p cap rec)
    (h : reportDraft cfg cap rec p key = .ok d) : Shaped cfg w ep .append_report p rec key d := by
  unfold reportDraft at h
  obtain ⟨_, _, h⟩ := bind_eq_ok.1 h
  obtain ⟨kind, _, h⟩ := bind_eq_ok.1 h
  obtain ⟨_, hneed, h⟩ := bind_eq_ok.1 h
  obtain ⟨_, _, h⟩ := bind_eq_ok.1 h
  obtain ⟨ref, _, h⟩ := bind_eq_ok.1 h
  obtain ⟨_, _, h⟩ := bind_eq_ok.1 h
  cases pure_eq_ok.1 h
  refine ⟨rfl, rfl, rfl, ?_, plain_okResult, .report auth hep (of_decide_eq_true (require_eq_ok.1 hneed))⟩
  refine Json.wf_mkObj ?_
  simp

theorem stateDraft_shaped (hep : ep = .control ∨ ep = .verify)
    (h : stateDraft ep rec p key = .ok d) : Shaped cfg w ep .set_state p rec key d := by
  unfold stateDraft at h
  obtain ⟨_, _, h⟩ := bind_eq_ok.1 h
  obtain ⟨step, hstep, h⟩ := bind_eq_ok.1 h
  obtain ⟨_, _, h⟩ := bind_eq_ok.1 h
  obtain ⟨_, hexpected, h⟩ := bind_eq_ok.1 h
  obtain ⟨dst, hdst, h⟩ := bind_eq_ok.1 h
  obtain ⟨frm, hfrm, h⟩ := bind_eq_ok.1 h
  cases pure_eq_ok.1 h
  unfold allowed at hstep
  obtain ⟨_, _, hstep⟩ := bind_eq_ok.1 hstep
  cases pure_eq_ok.1 hstep
  obtain ⟨f, hf, hto, htable⟩ := inTable_eq_some (orRaise_eq_ok.1 hdst)
  have hfrm' := orRaise_eq_ok.1 hfrm
  rw [hf] at hfrm'
  cases hfrm'
  refine ⟨rfl, rfl, rfl, ?_, plain_stateResult, .state hep hf htable hto (require_eq_ok.1 hexpected)⟩
  refine Json.wf_mkObj ?_
  simp [p.wf_get]

/-- What a signal's checks establish, whoever writes it. -/
theorem signalDraft_eq_ok {principal : PyStr} {session_id : Json}
    (h : signalDraft principal session_id rec p key = .ok d) : ∃ b : SignalBody,
      b.id = _next_id rec.signals.length "s" ∧ rec.Live ∧ (Body.signal b).toJson.WF ∧ Plain d.result ∧
      d.record = rec ∧ d.idem_key = key ∧ d.body = .signal b ∧ d.principal = principal ∧
      d.session_id = session_id := by
  unfold signalDraft at h
  obtain ⟨_, hlive, h⟩ := bind_eq_ok.1 h
  obtain ⟨_, _, h⟩ := bind_eq_ok.1 h
  obtain ⟨_, _, h⟩ := bind_eq_ok.1 h
  obtain ⟨command_id, _, h⟩ := bind_eq_ok.1 h
  obtain ⟨status, hstatus, h⟩ := bind_eq_ok.1 h
  obtain ⟨summary, hsummary, h⟩ := bind_eq_ok.1 h
  obtain ⟨truncated, _, h⟩ := bind_eq_ok.1 h
  obtain ⟨collected_at, hcollected, h⟩ := bind_eq_ok.1 h
  obtain ⟨flags, hflags, h⟩ := bind_eq_ok.1 h
  obtain ⟨ref, href, h⟩ := bind_eq_ok.1 h
  cases pure_eq_ok.1 h
  have hsnap : (orEmpty (p.get "snapshot")).WF := wf_orEmpty (p.wf_get _)
  have hsum : summary.WF := by
    unfold snapshotSummary at hsummary
    obtain ⟨structured, hstructured, hsummary⟩ := bind_eq_ok.1 hsummary
    split at hsummary
    · cases pure_eq_ok.1 hsummary
      exact wf_get hsnap hstructured
    · exact wf_get hsnap hsummary
  have hnil : (Json.arr []).WF := .arr fun x hx => absurd hx List.not_mem_nil
  refine ⟨_, rfl, of_decide_eq_true (require_eq_ok.1 hlive), ?_, plain_id (by decide) (by decide), rfl,
    rfl, rfl, rfl, rfl⟩
  refine Json.wf_mkObj ?_
  simp [wf_get hsnap hstatus, hsum, wf_get hsnap hcollected, wf_getD hsnap hnil hflags,
    wf_get hsnap href]

/-- `_simple` writes the body it is given. -/
theorem _simple_append {b : Body} (hkind : m.kind = some b.kind)
    (hidem : m.idemKey cfg p = p.get "idem_key") (hwf : b.toJson.WF)
    (hadm : ∀ rec, Admitted cfg w ep p rec b ep.principal (p.get "session_id"))
    (h : _simple s ep p b = .ok (.append d)) : Drafted cfg w s ep m p d := by
  unfold _simple at h
  obtain ⟨rec, hrec, h⟩ := bind_eq_ok.1 h
  obtain ⟨e, hid, hfound⟩ := _record_eq_ok hrec
  refine drafted_of_onFresh hid hfound hidem ?_ h
  rintro key d hd
  cases hd
  exact ⟨hkind, rfl, rfl, hwf, plain_simpleResult, hadm rec⟩

/-! ## The handlers -/

theorem knownRole_eq_ok {e : Exc} {r : Role} (h : knownRole p e = .ok r) :
    p.get "role" = .str r.text := by
  unfold knownRole at h
  obtain ⟨_, _, h⟩ := bind_eq_ok.1 h
  exact Role.ofJson_eq_some.1 (orRaise_eq_ok.1 h)

theorem set_state_append (hep : ep = .control ∨ ep = .verify)
    (h : set_state cfg s ep p = .ok (.append d)) : Drafted cfg w s ep .set_state p d := by
  unfold set_state at h
  obtain ⟨rec, hrec, h⟩ := bind_eq_ok.1 h
  obtain ⟨e, hid, hfound⟩ := _record_eq_ok hrec
  exact drafted_of_onFresh hid hfound rfl (fun _ _ => stateDraft_shaped hep) h

/-- An operation of the agent endpoints. -/
theorem agent_append {op : AgentOp} {draft : Capability → Record → PyStr → Except Exc Draft}
    (hidem : m.idemKey cfg p = p.get "idem_key") (hdraft : ∀ cap rec key d, Authority cfg w ep op p cap rec → draft cap rec key = .ok d →
      Shaped cfg w ep m p rec key d)
    (h : (do
      let (cap, rec) ← _agent_gate cfg w s ep (some op) p
      onFresh s rec (p.get "idem_key") (draft cap rec)) = .ok (.append d)) :
    Drafted cfg w s ep m p d := by
  obtain ⟨⟨cap, rec⟩, hgate, h⟩ := bind_eq_ok.1 h
  obtain ⟨auth, e, hid, hfound⟩ := _agent_gate_eq_ok hgate
  exact drafted_of_onFresh hid hfound hidem (fun key d => hdraft cap rec key d auth) h

theorem append_cost_append (hep : ep = .control) (h : append_cost s ep p = .ok (.append d)) :
    Drafted cfg w s ep .append_cost p d := by
  unfold append_cost at h
  obtain ⟨role, _, h⟩ := bind_eq_ok.1 h
  obtain ⟨_, hnum, h⟩ := bind_eq_ok.1 h
  rw [require_eq_ok, Bool.and_eq_true] at hnum
  refine _simple_append rfl rfl ?_ (fun rec => .cost hep rfl hnum.1 hnum.2 rfl) h
  refine Json.wf_mkObj ?_
  simp [p.wf_get]

theorem append_step_append (hep : ep = .control) (h : append_step s ep p = .ok (.append d)) :
    Drafted cfg w s ep .append_step p d := by
  unfold append_step at h
  obtain ⟨outcome, houtcome, h⟩ := bind_eq_ok.1 h
  obtain ⟨role, hrole, h⟩ := bind_eq_ok.1 h
  have hout : named [.ok, .failed] Outcome.text (p.get "outcome") = some outcome :=
    orRaise_eq_ok.1 houtcome
  refine _simple_append rfl rfl ?_ (fun rec => .step hep (knownRole_eq_ok hrole) rfl (named_eq_some hout)) h
  refine Json.wf_mkObj ?_
  simp [p.wf_get]

theorem annotate_append (hep : ep = .control) (h : annotate s ep p = .ok (.append d)) :
    Drafted cfg w s ep .annotate p d := by
  unfold annotate at h
  obtain ⟨note, _, h⟩ := bind_eq_ok.1 h
  refine _simple_append rfl rfl ?_ (fun rec => Admitted.annotation hep) h
  refine Json.wf_mkObj ?_
  simp [p.wf_get]

theorem append_verification_append (hep : ep = .verify)
    (h : append_verification s ep p = .ok (.append d)) : Drafted cfg w s ep .append_verification p d := by
  unfold append_verification at h
  obtain ⟨b, hb, h⟩ := bind_eq_ok.1 h
  unfold verificationBody at hb
  obtain ⟨result, _, hb⟩ := bind_eq_ok.1 hb
  obtain ⟨rule, _, hb⟩ := bind_eq_ok.1 hb
  cases pure_eq_ok.1 hb
  refine _simple_append rfl rfl ?_ (fun rec => .verification hep) h
  refine Json.wf_mkObj ?_
  simp [p.wf_get]

theorem append_recovery_observation_append (hep : ep = .verify)
    (h : append_recovery_observation s ep p = .ok (.append d)) : Drafted cfg w s ep .append_recovery_observation p d := by
  unfold append_recovery_observation at h
  obtain ⟨rule, _, h⟩ := bind_eq_ok.1 h
  refine _simple_append rfl rfl ?_ (fun rec => .recovery_observation hep) h
  refine Json.wf_mkObj ?_
  simp [p.wf_get]

/-- `append_signal` by a principal that may write signals. -/
theorem append_signal_append {principal : PyStr} {session_id : Json}
    (hkind : m.kind = some .signal) (hidem : m.idemKey cfg p = p.get "idem_key")
    (hadm : ∀ rec (b : SignalBody), rec.Live → b.id = _next_id rec.signals.length "s" →
      Admitted cfg w ep p rec (.signal b) principal session_id)
    (h : append_signal s principal session_id p = .ok (.append d)) : Drafted cfg w s ep m p d := by
  unfold append_signal at h
  obtain ⟨rec, hrec, h⟩ := bind_eq_ok.1 h
  obtain ⟨e, hid, hfound⟩ := _record_eq_ok hrec
  refine drafted_of_onFresh hid hfound hidem ?_ h
  intro key d hd
  obtain ⟨b, hb, hlive, hwf, hresult, hrec, hkey, hbody, hprincipal, hsession⟩ := signalDraft_eq_ok hd
  refine ⟨by rw [hbody]; exact hkind, hrec, hkey, by rw [hbody]; exact hwf, hresult, ?_⟩
  rw [hbody, hprincipal, hsession]
  exact hadm rec b hlive hb

theorem append_observation_append (hep : ep = .observe)
    (h : append_observation cfg w s p = .ok (.append d)) : Drafted cfg w s ep .append_observation p d := by
  unfold append_observation at h
  obtain ⟨cap, hcap, h⟩ := bind_eq_ok.1 h
  obtain ⟨_, _, h⟩ := bind_eq_ok.1 h
  obtain ⟨_, _, h⟩ := bind_eq_ok.1 h
  exact append_signal_append rfl rfl (fun rec b hlive hb =>
    .observation hep (check_eq_ok hcap).1 hlive hb) h

/-- **A decision to append was let through by the checks.** -/
theorem decideEntry_append (hm : m ∈ ep.methods)
    (h : decideEntry cfg w s ep m p = .ok (.append d)) : Drafted cfg w s ep m p d := by
  cases m with
  | append_hypothesis => exact agent_append rfl (fun _ _ _ _ auth => hypothesisDraft_shaped auth) h
  | append_hypothesis_status =>
    exact agent_append rfl (fun _ _ _ _ auth => hypothesisStatusDraft_shaped auth) h
  | append_recommendation =>
    exact agent_append rfl (fun _ _ _ _ auth => recommendationDraft_shaped auth) h
  | append_no_action => exact agent_append rfl (fun _ _ _ _ auth => noActionDraft_shaped auth) h
  | append_verdict => exact agent_append rfl (fun _ _ _ _ auth => verdictDraft_shaped auth) h
  | append_report =>
    obtain ⟨_, _, h⟩ := bind_eq_ok.1 h
    have hep : ep = .agent_report := by cases ep <;> simp_all [Endpoint.methods]
    exact agent_append rfl (fun _ _ _ _ auth => reportDraft_shaped hep auth) h
  | set_state =>
    have hep : ep = .control ∨ ep = .verify := by cases ep <;> simp_all [Endpoint.methods]
    unfold decideEntry at h
    simp only at h
    split at h
    · obtain ⟨_, _, h⟩ := bind_eq_ok.1 h
      exact set_state_append hep h
    · exact set_state_append hep h
  | append_signal =>
    have hep : ep = .control := by cases ep <;> simp_all [Endpoint.methods]
    exact append_signal_append rfl rfl (fun rec b hlive hb => .signal hep hlive hb) h
  | append_cost =>
    exact append_cost_append (by cases ep <;> simp_all [Endpoint.methods]) h
  | append_step =>
    exact append_step_append (by cases ep <;> simp_all [Endpoint.methods]) h
  | annotate => exact annotate_append (by cases ep <;> simp_all [Endpoint.methods]) h
  | append_verification =>
    exact append_verification_append (by cases ep <;> simp_all [Endpoint.methods]) h
  | append_recovery_observation =>
    exact append_recovery_observation_append (by cases ep <;> simp_all [Endpoint.methods]) h
  | append_observation =>
    exact append_observation_append (by cases ep <;> simp_all [Endpoint.methods]) h
  | read_episode => cases h
  | open_episode => cases h
  | list_episodes => cases h

/-- What the checks on the arguments of `open_episode` leave: the triple is in the body, and the
dedupe key is its parts joined. -/
structure OpenedFrom (cfg : StoreConfig) (p : Params) (b : OpenedBody) (check : PyStr) : Prop where
  trigger : b.trigger = orEmpty (p.get "trigger")
  checked : get b.trigger "check" = .ok (.str check)
  dedupe : b.dedupe_key = b.cls.text ++ py "|" ++ check ++ py "|" ++ b.validator_id
  wf : (Body.opened b).toJson.WF

theorem openedBody_eq_ok {b : OpenedBody} (h : openedBody cfg w p = .ok b) :
    ∃ check, OpenedFrom cfg p b check := by
  unfold openedBody at h
  obtain ⟨cls, _, h⟩ := bind_eq_ok.1 h
  obtain ⟨source, _, h⟩ := bind_eq_ok.1 h
  obtain ⟨_, _, h⟩ := bind_eq_ok.1 h
  obtain ⟨check, hcheck, h⟩ := bind_eq_ok.1 h
  obtain ⟨_, hne, h⟩ := bind_eq_ok.1 h
  obtain ⟨severity, _, h⟩ := bind_eq_ok.1 h
  obtain ⟨_, _, h⟩ := bind_eq_ok.1 h
  obtain ⟨vid, _, h⟩ := bind_eq_ok.1 h
  obtain ⟨mode, _, h⟩ := bind_eq_ok.1 h
  obtain ⟨_, _, h⟩ := bind_eq_ok.1 h
  obtain ⟨_, _, h⟩ := bind_eq_ok.1 h
  obtain ⟨bundle_id, _, h⟩ := bind_eq_ok.1 h
  cases pure_eq_ok.1 h
  obtain ⟨c, rfl, _⟩ := Json.nonempty_iff.1 (require_eq_ok.1 hne)
  refine ⟨c, rfl, hcheck, rfl, Json.wf_mkObj ?_⟩
  simp [wf_orEmpty (p.wf_get _)]

/-- What `open_episode` establishes when it decides to open: the key is new, the arguments are
good, and no episode with the dedupe key is live. -/
structure OpensFresh (cfg : StoreConfig) (w : World) (s : EpisodeStore) (p : Params) (idem : PyStr)
    (b : OpenedBody) : Prop where
  key : p.get "idem_key" = .str idem
  utf8 : (encodeUtf8 idem).isSome = true
  unused : ∀ r ∈ s.opens, r.idem_key ≠ idem
  body : openedBody cfg w p = .ok b
  unmatched : ∀ e rec, (e, rec) ∈ s.records → rec.dedupe_key = some b.dedupe_key → ¬ rec.Live

/-- The key of an `open_episode` call. -/
theorem openKey_eq_ok {e : Exc} {idem idem' : PyStr} (h : requiredText p "idem_key" e = .ok idem)
    (h' : bindStr idem = .ok idem') : p.get "idem_key" = .str idem' ∧
      (encodeUtf8 idem').isSome = true := by
  unfold requiredText at h
  obtain ⟨_, _, h⟩ := bind_eq_ok.1 h
  unfold bindStr at h'
  obtain ⟨bs, hbs, h'⟩ := bind_eq_ok.1 h'
  cases pure_eq_ok.1 h'
  have hstr : asStr (p.get "idem_key") = some idem := orRaise_eq_ok.1 h
  refine ⟨?_, by rw [orRaise_eq_ok.1 hbs]; rfl⟩
  cases hv : p.get "idem_key" with
  | str t =>
    rw [hv] at hstr
    cases hstr
    rfl
  | _ =>
    rw [hv] at hstr
    cases hstr

theorem openDecision_fresh {idem : PyStr} {b : OpenedBody}
    (h : openDecision cfg w s p = .ok (.fresh idem b)) : OpensFresh cfg w s p idem b := by
  unfold openDecision at h
  obtain ⟨key, hkey, h⟩ := bind_eq_ok.1 h
  obtain ⟨key', hkey', h⟩ := bind_eq_ok.1 h
  obtain ⟨hidem, hutf8⟩ := openKey_eq_ok hkey hkey'
  split at h
  · obtain ⟨_, _, h⟩ := bind_eq_ok.1 h
    cases pure_eq_ok.1 h
  rename_i hunused
  obtain ⟨b', hb, h⟩ := bind_eq_ok.1 h
  split at h
  · cases pure_eq_ok.1 h
  rename_i hnone
  cases pure_eq_ok.1 h
  refine ⟨hidem, hutf8, ?_, hb, fun e rec hmem hkey hlive => ?_⟩
  · intro r hr heq
    exact List.find?_eq_none.1 hunused r hr (decide_eq_true heq)
  · have hfind := List.find?_eq_none.1 hnone rec (List.mem_map.2 ⟨(e, rec), hmem, rfl⟩)
    exact hfind (decide_eq_true ⟨hkey, hlive⟩)

/-- A duplicate is of a record of the store. -/
theorem openDecision_duplicate {idem : PyStr} (h : openDecision cfg w s p = .ok (.duplicate idem rec)) :
    ∃ k, (k, rec) ∈ s.records := by
  unfold openDecision at h
  obtain ⟨_, _, h⟩ := bind_eq_ok.1 h
  obtain ⟨_, _, h⟩ := bind_eq_ok.1 h
  split at h
  · obtain ⟨_, _, h⟩ := bind_eq_ok.1 h
    cases pure_eq_ok.1 h
  obtain ⟨_, _, h⟩ := bind_eq_ok.1 h
  split at h
  · rename_i rec' hfind
    cases pure_eq_ok.1 h
    obtain ⟨⟨k, r⟩, hmem, rfl⟩ := List.mem_map.1 (List.mem_of_find?_eq_some hfind)
    exact ⟨k, hmem⟩
  · cases pure_eq_ok.1 h

end Valops.Store
