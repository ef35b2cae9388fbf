import Valops.Py.RoundTrip
import Valops.Store.Fold

/-!
# Bodies as JSON text

The `body` column holds `json.dumps(body, sort_keys=True)` and `_row` reads it back. `toJson` is
the dict that each handler builds; `ofJson` is what `apply` takes out of the parsed dict.

Main result: `read_write`, a body that was written reads back as itself.
-/

set_option autoImplicit false

namespace Valops.Store

open Py

/-- The `kind` column. -/
inductive Kind where
  | opened | signal | hypothesis | hypothesis_status | recommendation | no_action | verdict | report
  | verification | recovery_observation | state | cost | step | annotation
  deriving DecidableEq, Repr

/-- The kind of a body. -/
def Body.kind : Body → Kind
  | .opened _ => .opened
  | .signal _ => .signal
  | .hypothesis _ => .hypothesis
  | .hypothesis_status _ => .hypothesis_status
  | .recommendation _ => .recommendation
  | .no_action _ => .no_action
  | .verdict _ => .verdict
  | .report _ => .report
  | .verification _ => .verification
  | .recovery_observation _ => .recovery_observation
  | .state _ => .state
  | .cost _ => .cost
  | .step _ => .step
  | Body.annotation _ => Kind.annotation

/-- A list of strings. -/
def ofStrs (xs : List PyStr) : Json := .arr (xs.map .str)

/-! ## Writing -/

/-- The dict a handler passes to `_append`. -/
def Body.toJson : Body → Json
  | .opened b => Json.mkObj
    [(py "class", .str b.cls.text), (py "trigger", b.trigger),
      (py "validator_id", .str b.validator_id), (py "bundle_id", .str b.bundle_id),
      (py "consensus_mode", .str b.consensus_mode.text),
      (py "consensus_mode_evidence", b.consensus_mode_evidence),
      (py "dedupe_key", .str b.dedupe_key)]
  | .signal b => Json.mkObj
    [(py "id", .str b.id), (py "command_id", .str b.command_id), (py "status", b.status),
      (py "summary", b.summary), (py "truncated", .bool b.truncated),
      (py "collected_at", b.collected_at), (py "flags", b.flags), (py "ref", b.ref),
      (py "source", .str b.source)]
  | .hypothesis b => Json.mkObj
    [(py "id", .str b.id), (py "step_session", b.step_session), (py "rank", .int b.rank),
      (py "claim", .str b.claim), (py "test", .str b.test),
      (py "expected_evidence", .str b.expected_evidence)]
  | .hypothesis_status b => Json.mkObj
    [(py "hypothesis_id", .str b.hypothesis_id), (py "status", .str b.status.text),
      (py "evidence_refs", ofStrs b.evidence_refs)]
  | .recommendation b => Json.mkObj
    [(py "id", .str b.id), (py "hypothesis", .str b.hypothesis), (py "action_text", b.action_text),
      (py "skill", .str b.skill), (py "preconditions", b.preconditions),
      (py "expected_postcondition", b.expected_postcondition),
      (py "evidence_refs", ofStrs b.evidence_refs)]
  | .no_action b => Json.mkObj
    [(py "id", .str b.id), (py "reason", .str b.reason),
      (py "evidence_refs", ofStrs b.evidence_refs)]
  | .verdict b => Json.mkObj
    [(py "target_id", .str b.target_id), (py "result", .str b.result.text),
      (py "checks", .arr b.checks)]
  | .report b => Json.mkObj [(py "kind", .str b.kind.text), (py "ref", .str b.ref)]
  | .verification b => Json.mkObj
    [(py "rule", .str b.rule), (py "result", .str b.result.text), (py "samples", b.samples)]
  | .recovery_observation b => Json.mkObj [(py "rule", .str b.rule), (py "note", b.note)]
  | .state b => Json.mkObj
    [(py "from", .str b.frm.text), (py "to", .str b.dst.text), (py "reason", b.reason)]
  | .cost b => Json.mkObj
    [(py "role", .str b.role.text), (py "usd", b.usd), (py "turns", b.turns),
      (py "session_id", b.session_id), (py "configuration", b.configuration),
      (py "tokens", b.tokens)]
  | .step b => Json.mkObj
    [(py "role", .str b.role.text), (py "session_id", b.session_id),
      (py "outcome", .str b.outcome.text), (py "reason", b.reason), (py "state", b.state),
      (py "configuration", b.configuration)]
  | Body.annotation b => Json.mkObj [(py "kind", b.kind), (py "note", .str b.note)]

/-! ## Reading -/

/-- `b[k]`. -/
def field (b : Json) (k : String) : Option Json :=
  match b with
  | .obj kvs => Json.lookup (py k) kvs
  | _ => none

def asStr : Json → Option PyStr
  | .str s => some s
  | _ => none

def asInt : Json → Option Int
  | .int z => some z
  | _ => none

def asBool : Json → Option Bool
  | .bool b => some b
  | _ => none

def asArr : Json → Option (List Json)
  | .arr xs => some xs
  | _ => none

/-- The strings of a list of strings. -/
def allStrs : List Json → Option (List PyStr)
  | [] => some []
  | .str s :: rest => (allStrs rest).map (s :: ·)
  | _ :: _ => none

def asStrs (v : Json) : Option (List PyStr) := (asArr v).bind allStrs

theorem allStrs_map (xs : List PyStr) : allStrs (xs.map .str) = some xs := by
  induction xs with
  | nil => rfl
  | cons x xs ih => simp [allStrs, ih]

@[simp] theorem asStrs_ofStrs (xs : List PyStr) : asStrs (ofStrs xs) = some xs := allStrs_map xs

theorem allStrs_eq_some : ∀ {xs : List Json} {ss : List PyStr}, allStrs xs = some ss →
    xs = ss.map .str
  | [], _, h => by
    cases h
    rfl
  | x :: rest, ss, h => by
    cases x with
    | str s =>
      obtain ⟨ss', hss', rfl⟩ := Option.map_eq_some_iff.1 h
      rw [List.map_cons, ← allStrs_eq_some hss']
    | _ => cases h

section Read

variable (b : Json)

def OpenedBody.ofJson : Option OpenedBody := do
  let cls ← (field b "class").bind EpisodeClass.ofJson
  let trigger ← field b "trigger"
  let validator_id ← (field b "validator_id").bind asStr
  let bundle_id ← (field b "bundle_id").bind asStr
  let consensus_mode ← (field b "consensus_mode").bind Mode.ofJson
  let consensus_mode_evidence ← field b "consensus_mode_evidence"
  let dedupe_key ← (field b "dedupe_key").bind asStr
  pure ⟨cls, trigger, validator_id, bundle_id, consensus_mode, consensus_mode_evidence, dedupe_key⟩

def SignalBody.ofJson : Option SignalBody := do
  let id ← (field b "id").bind asStr
  let command_id ← (field b "command_id").bind asStr
  let status ← field b "status"
  let summary ← field b "summary"
  let truncated ← (field b "truncated").bind asBool
  let collected_at ← field b "collected_at"
  let flags ← field b "flags"
  let ref ← field b "ref"
  let source ← (field b "source").bind asStr
  pure ⟨id, command_id, status, summary, truncated, collected_at, flags, ref, source⟩

def HypothesisBody.ofJson : Option HypothesisBody := do
  let id ← (field b "id").bind asStr
  let step_session ← field b "step_session"
  let rank ← (field b "rank").bind asInt
  let claim ← (field b "claim").bind asStr
  let test ← (field b "test").bind asStr
  let expected_evidence ← (field b "expected_evidence").bind asStr
  pure ⟨id, step_session, rank, claim, test, expected_evidence⟩

def HypothesisStatusBody.ofJson : Option HypothesisStatusBody := do
  let hypothesis_id ← (field b "hypothesis_id").bind asStr
  let status ← (field b "status").bind HypothesisStatus.ofJson
  let evidence_refs ← (field b "evidence_refs").bind asStrs
  pure ⟨hypothesis_id, status, evidence_refs⟩

def RecommendationBody.ofJson : Option RecommendationBody := do
  let id ← (field b "id").bind asStr
  let hypothesis ← (field b "hypothesis").bind asStr
  let action_text ← field b "action_text"
  let skill ← (field b "skill").bind asStr
  let preconditions ← field b "preconditions"
  let expected_postcondition ← field b "expected_postcondition"
  let evidence_refs ← (field b "evidence_refs").bind asStrs
  pure ⟨id, hypothesis, action_text, skill, preconditions, expected_postcondition, evidence_refs⟩

def NoActionBody.ofJson : Option NoActionBody := do
  let id ← (field b "id").bind asStr
  let reason ← (field b "reason").bind asStr
  let evidence_refs ← (field b "evidence_refs").bind asStrs
  pure ⟨id, reason, evidence_refs⟩

def VerdictBody.ofJson : Option VerdictBody := do
  let target_id ← (field b "target_id").bind asStr
  let result ← (field b "result").bind VerdictResult.ofJson
  let checks ← (field b "checks").bind asArr
  pure ⟨target_id, result, checks⟩

def ReportBody.ofJson : Option ReportBody := do
  let kind ← (field b "kind").bind ReportKind.ofJson
  let ref ← (field b "ref").bind asStr
  pure ⟨kind, ref⟩

def VerificationBody.ofJson : Option VerificationBody := do
  let rule ← (field b "rule").bind asStr
  let result ← (field b "result").bind CheckResult.ofJson
  let samples ← field b "samples"
  pure ⟨rule, result, samples⟩

def RecoveryObservationBody.ofJson : Option RecoveryObservationBody := do
  let rule ← (field b "rule").bind asStr
  let note ← field b "note"
  pure ⟨rule, note⟩

def StateBody.ofJson : Option StateBody := do
  let frm ← (field b "from").bind EpisodeState.ofJson
  let dst ← (field b "to").bind EpisodeState.ofJson
  let reason ← field b "reason"
  pure ⟨frm, dst, reason⟩

def CostBody.ofJson : Option CostBody := do
  let role ← (field b "role").bind Role.ofJson
  let usd ← field b "usd"
  let turns ← field b "turns"
  let session_id ← field b "session_id"
  let configuration ← field b "configuration"
  let tokens ← field b "tokens"
  pure ⟨role, usd, turns, session_id, configuration, tokens⟩

def StepBody.ofJson : Option StepBody := do
  let role ← (field b "role").bind Role.ofJson
  let session_id ← field b "session_id"
  let outcome ← (field b "outcome").bind Outcome.ofJson
  let reason ← field b "reason"
  let state ← field b "state"
  let configuration ← field b "configuration"
  pure ⟨role, session_id, outcome, reason, state, configuration⟩

def AnnotationBody.ofJson : Option AnnotationBody := do
  let kind ← field b "kind"
  let note ← (field b "note").bind asStr
  pure ⟨kind, note⟩

end Read

/-- The body of a row of a kind. -/
def Body.ofJson : Kind → Json → Option Body
  | .opened, v => (OpenedBody.ofJson v).map .opened
  | .signal, v => (SignalBody.ofJson v).map .signal
  | .hypothesis, v => (HypothesisBody.ofJson v).map .hypothesis
  | .hypothesis_status, v => (HypothesisStatusBody.ofJson v).map .hypothesis_status
  | .recommendation, v => (RecommendationBody.ofJson v).map .recommendation
  | .no_action, v => (NoActionBody.ofJson v).map .no_action
  | .verdict, v => (VerdictBody.ofJson v).map .verdict
  | .report, v => (ReportBody.ofJson v).map .report
  | .verification, v => (VerificationBody.ofJson v).map .verification
  | .recovery_observation, v => (RecoveryObservationBody.ofJson v).map .recovery_observation
  | .state, v => (StateBody.ofJson v).map .state
  | .cost, v => (CostBody.ofJson v).map .cost
  | .step, v => (StepBody.ofJson v).map .step
  | Kind.annotation, v => (AnnotationBody.ofJson v).map Body.annotation

/-! ## Round trip -/

/-- What is read from the dict of a body is the body. -/
theorem ofJson_toJson (b : Body) : Body.ofJson b.kind b.toJson = some b := by
  cases b with
  | opened b =>
    obtain ⟨cls, _, _, _, mode, _, _⟩ := b
    cases cls <;> cases mode <;> rfl
  | signal b => rfl
  | hypothesis b => rfl
  | hypothesis_status b =>
    obtain ⟨id, status, refs⟩ := b
    have h : HypothesisStatusBody.ofJson (Body.hypothesis_status ⟨id, status, refs⟩).toJson =
        (asStrs (ofStrs refs)).bind fun refs => some ⟨id, status, refs⟩ := by
      cases status <;> rfl
    show Option.map _ (HypothesisStatusBody.ofJson _) = _
    rw [h, asStrs_ofStrs]
    rfl
  | recommendation b =>
    obtain ⟨id, hypothesis, action_text, skill, preconditions, post, refs⟩ := b
    have h : RecommendationBody.ofJson
        (Body.recommendation ⟨id, hypothesis, action_text, skill, preconditions, post, refs⟩).toJson =
        (asStrs (ofStrs refs)).bind fun refs =>
          some ⟨id, hypothesis, action_text, skill, preconditions, post, refs⟩ := rfl
    show Option.map _ (RecommendationBody.ofJson _) = _
    rw [h, asStrs_ofStrs]
    rfl
  | no_action b =>
    obtain ⟨id, reason, refs⟩ := b
    have h : NoActionBody.ofJson (Body.no_action ⟨id, reason, refs⟩).toJson =
        (asStrs (ofStrs refs)).bind fun refs => some ⟨id, reason, refs⟩ := rfl
    show Option.map _ (NoActionBody.ofJson _) = _
    rw [h, asStrs_ofStrs]
    rfl
  | verdict b =>
    obtain ⟨_, result, _⟩ := b
    cases result <;> rfl
  | report b =>
    obtain ⟨kind, _⟩ := b
    cases kind <;> rfl
  | verification b =>
    obtain ⟨_, result, _⟩ := b
    cases result <;> rfl
  | recovery_observation b => rfl
  | state b =>
    obtain ⟨frm, dst, reason⟩ := b
    have h : StateBody.ofJson (Body.state ⟨frm, dst, reason⟩).toJson =
        (EpisodeState.ofJson (.str frm.text)).bind fun frm =>
          (EpisodeState.ofJson (.str dst.text)).bind fun dst => some ⟨frm, dst, reason⟩ := rfl
    show Option.map _ (StateBody.ofJson _) = _
    rw [h, EpisodeState.ofJson_text, EpisodeState.ofJson_text]
    rfl
  | cost b =>
    obtain ⟨role, _⟩ := b
    cases role <;> rfl
  | step b =>
    obtain ⟨role, _, outcome, _⟩ := b
    cases role <;> cases outcome <;> rfl
  | annotation b => rfl

/-- `json.loads(r[4])` of a row, as `apply` reads it. -/
def readBody (kind : Kind) (text : PyStr) : Option Body := (loads text).bind (Body.ofJson kind)

/-- **A body that was written reads back as itself**, when it also has a canonical form. -/
theorem read_write {b : Body} {c : Bytes} {t : PyStr} (hwf : b.toJson.WF)
    (hc : canonical b.toJson = some c) (ht : dumps b.toJson = some t) :
    readBody b.kind t = some b := by
  have hload := loads_dumps hwf (scalar_of_canonical hc).2 ht
  rw [readBody, hload]
  exact ofJson_toJson b

end Valops.Store
