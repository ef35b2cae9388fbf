import Mathlib.Data.List.MinMax
import Valops.Py.Dict
import Valops.Py.Dumps
import Valops.Common.Tools

/-!
# The episode record

Entries of the log and the record they fold to. The body of an entry is typed by its kind: the
fields the store computes or checks have the types it gives them, fields it passes through are JSON
values. `apply` may raise: the record is then left as far as the source had got.

`replay` folds a log and keeps going; `fold` is the source's function, which stops at an exception.
The views at the end are what readers get.
-/

set_option autoImplicit false

namespace Valops.Store

open Py

/-! ## Bodies -/

/-- The statuses of a hypothesis; `open` is only the initial one. -/
inductive HypothesisStatus where
  | «open» | supported | refuted
  deriving DecidableEq, Repr

def HypothesisStatus.text : HypothesisStatus → PyStr
  | .open => py "open"
  | .supported => py "supported"
  | .refuted => py "refuted"

def HypothesisStatus.ofJson : Json → Option HypothesisStatus :=
  named [.open, .supported, .refuted] HypothesisStatus.text

/-- The results of a verdict. -/
inductive VerdictResult where
  | PASS | FAIL
  deriving DecidableEq, Repr

def VerdictResult.text : VerdictResult → PyStr
  | .PASS => py "PASS"
  | .FAIL => py "FAIL"

def VerdictResult.ofJson : Json → Option VerdictResult := named [.PASS, .FAIL] VerdictResult.text

/-- The kinds of report. -/
inductive ReportKind where
  | incident | closure
  deriving DecidableEq, Repr

def ReportKind.text : ReportKind → PyStr
  | .incident => py "incident"
  | .closure => py "closure"

def ReportKind.ofJson : Json → Option ReportKind := named [.incident, .closure] ReportKind.text

/-- The results of a verification. -/
inductive CheckResult where
  | pass | fail
  deriving DecidableEq, Repr

def CheckResult.text : CheckResult → PyStr
  | .pass => py "pass"
  | .fail => py "fail"

def CheckResult.ofJson : Json → Option CheckResult := named [.pass, .fail] CheckResult.text

/-- The outcomes of a step. -/
inductive Outcome where
  | ok | failed
  deriving DecidableEq, Repr

def Outcome.text : Outcome → PyStr
  | .ok => py "ok"
  | .failed => py "failed"

def Outcome.ofJson : Json → Option Outcome := named [.ok, .failed] Outcome.text

structure OpenedBody where
  cls : EpisodeClass
  trigger : Json
  validator_id : PyStr
  bundle_id : PyStr
  consensus_mode : Mode
  consensus_mode_evidence : Json
  dedupe_key : PyStr
  deriving DecidableEq

structure SignalBody where
  id : PyStr
  command_id : PyStr
  status : Json
  summary : Json
  truncated : Bool
  collected_at : Json
  flags : Json
  ref : Json
  source : PyStr
  deriving DecidableEq

structure HypothesisBody where
  id : PyStr
  step_session : Json
  rank : Int
  claim : PyStr
  test : PyStr
  expected_evidence : PyStr
  deriving DecidableEq

structure HypothesisStatusBody where
  hypothesis_id : PyStr
  status : HypothesisStatus
  evidence_refs : List PyStr
  deriving DecidableEq

structure RecommendationBody where
  id : PyStr
  hypothesis : PyStr
  action_text : Json
  skill : PyStr
  preconditions : Json
  expected_postcondition : Json
  evidence_refs : List PyStr
  deriving DecidableEq

structure NoActionBody where
  id : PyStr
  reason : PyStr
  evidence_refs : List PyStr
  deriving DecidableEq

structure VerdictBody where
  target_id : PyStr
  result : VerdictResult
  checks : List Json
  deriving DecidableEq

structure ReportBody where
  kind : ReportKind
  ref : PyStr
  deriving DecidableEq

structure VerificationBody where
  rule : PyStr
  result : CheckResult
  samples : Json
  deriving DecidableEq

structure RecoveryObservationBody where
  rule : PyStr
  note : Json
  deriving DecidableEq

structure StateBody where
  frm : EpisodeState
  dst : EpisodeState
  reason : Json
  deriving DecidableEq

structure CostBody where
  role : Role
  usd : Json
  turns : Json
  session_id : Json
  configuration : Json
  tokens : Json
  deriving DecidableEq

structure StepBody where
  role : Role
  session_id : Json
  outcome : Outcome
  reason : Json
  state : Json
  configuration : Json
  deriving DecidableEq

structure AnnotationBody where
  kind : Json
  note : PyStr
  deriving DecidableEq

/-- An entry's kind and body. -/
inductive Body where
  | opened (b : OpenedBody)
  | signal (b : SignalBody)
  | hypothesis (b : HypothesisBody)
  | hypothesis_status (b : HypothesisStatusBody)
  | recommendation (b : RecommendationBody)
  | no_action (b : NoActionBody)
  | verdict (b : VerdictBody)
  | report (b : ReportBody)
  | verification (b : VerificationBody)
  | recovery_observation (b : RecoveryObservationBody)
  | state (b : StateBody)
  | cost (b : CostBody)
  | step (b : StepBody)
  | annotation (b : AnnotationBody)
  deriving DecidableEq

/-- An entry, as `apply` gets it. -/
structure Entry where
  episode_id : PyStr
  rev : Nat
  ts : Double
  body : Body
  principal : PyStr
  session_id : Json
  audit_ref : PyStr
  deriving DecidableEq

/-! ## The record -/

structure Signal extends SignalBody where
  t : PyStr
  audit_ref : PyStr
  deriving DecidableEq

structure StatusEvent where
  t : PyStr
  status : HypothesisStatus
  session_id : Json
  deriving DecidableEq

structure Hypothesis extends HypothesisBody where
  status : HypothesisStatus
  evidence_refs : List PyStr
  status_history : List StatusEvent
  t : PyStr
  deriving DecidableEq

structure Recommendation extends RecommendationBody where
  session_id : Json
  t : PyStr
  rev : Nat
  deriving DecidableEq

structure NoAction extends NoActionBody where
  session_id : Json
  t : PyStr
  rev : Nat
  deriving DecidableEq

structure Verdict extends VerdictBody where
  session_id : Json
  t : PyStr
  deriving DecidableEq

structure Report extends ReportBody where
  session_id : Json
  t : PyStr
  deriving DecidableEq

structure Verification extends VerificationBody where
  t : PyStr
  deriving DecidableEq

structure RecoveryObservation extends RecoveryObservationBody where
  t : PyStr
  deriving DecidableEq

structure Step extends StepBody where
  t : PyStr
  ts : Double
  deriving DecidableEq

structure Annotation extends AnnotationBody where
  t : PyStr
  deriving DecidableEq

/-- A line of `state_history`; the first has no `from` and no `reason`. -/
structure StateEvent where
  t : PyStr
  ts : Double
  frm : Option EpisodeState
  dst : EpisodeState
  by_ : PyStr
  rev : Nat
  reason : Json
  deriving DecidableEq

structure SessionCost where
  role : Role
  usd : Json
  turns : Json
  configuration : Json
  tokens : Json
  deriving DecidableEq

/-- A JSON value as the key of a dict. -/
structure Key where
  value : Json
  deriving DecidableEq

/-- Dicts compare keys with `==`, after identity; there is one NaN object. -/
instance : BEq Key := ⟨fun a b => decide (a.value = b.value) || a.value.pyEq b.value⟩

structure Cost where
  per_role_usd : Dict Role Double := []
  turns : Dict Role Int := []
  by_session : Dict Key SessionCost := []
  deriving DecidableEq

/-- The record. Before `opened` is applied the fields that it sets are `None`. -/
structure Record where
  episode_id : PyStr
  revision : Nat := 0
  cls : Option EpisodeClass := none
  opened_at : Option PyStr := none
  opened_ts : Option Double := none
  trigger : Json := .null
  validator_id : Option PyStr := none
  policy_bundle : Option PyStr := none
  bundle_id : Option PyStr := none
  consensus_mode : Option Mode := none
  consensus_mode_evidence : Json := .obj []
  signals : List Signal := []
  hypotheses : List Hypothesis := []
  recommendations : List Recommendation := []
  no_action : List NoAction := []
  verdicts : List Verdict := []
  verifications : List Verification := []
  recovery_observations : List RecoveryObservation := []
  reports : List Report := []
  annotations : List Annotation := []
  steps : List Step := []
  state : Option EpisodeState := none
  state_history : List StateEvent := []
  cost : Cost := {}
  dedupe_key : Option PyStr := none
  deriving DecidableEq

/-- `empty_record`. -/
def empty_record (episode_id : PyStr) : Record := { episode_id }

/-! ## Applying an entry -/

/-- A number as the operand of a float addition. -/
def toFloat : Json → Except Exc Double
  | .float x => .ok x
  | .int z => orRaise (Double.ofInt? z) (.other .overflowError)
  | .bool b => orRaise (Double.ofInt? (if b then 1 else 0)) (.other .overflowError)
  | _ => .error (.other .typeError)

/-- A number as the operand of an integer addition. -/
def toInt : Json → Except Exc Int
  | .int z => .ok z
  | .bool b => .ok (if b then 1 else 0)
  | _ => .error (.other .typeError)

/-- The `cost` branch: three assignments, each of which may raise before it stores anything. -/
def applyCost (c : Cost) (b : CostBody) : Cost × Option Exc :=
  match toFloat b.usd with
  | .error x => (c, some x)
  | .ok usd =>
    let sum := ((c.per_role_usd.get? b.role).getD Double.zero).add usd
    let c := { c with per_role_usd := c.per_role_usd.set b.role (Double.round6 sum) }
    match toInt b.turns with
    | .error x => (c, some x)
    | .ok turns =>
      let c := { c with turns := c.turns.set b.role ((c.turns.get? b.role).getD 0 + turns) }
      if b.session_id.hashable then
        let cost : SessionCost := ⟨b.role, b.usd, b.turns, b.configuration, b.tokens⟩
        ({ c with by_session := c.by_session.set ⟨b.session_id⟩ cost }, none)
      else (c, some (.other .typeError))

/-- The `hypothesis_status` branch on one hypothesis. -/
def applyStatus (b : HypothesisStatusBody) (t : PyStr) (session_id : Json) (h : Hypothesis) :
    Hypothesis :=
  if h.id = b.hypothesis_id then
    { h with
      status := b.status
      evidence_refs := b.evidence_refs
      status_history := h.status_history ++ [⟨t, b.status, session_id⟩] }
  else h

section Apply

variable (rfc3339 : Double → PyStr)

/-- `apply`: the record it leaves, and what it raises. -/
def apply (rec : Record) (e : Entry) : Record × Option Exc :=
  let t := rfc3339 e.ts
  let r := { rec with revision := e.rev }
  match e.body with
  | .opened b =>
    ({ r with
        cls := some b.cls
        opened_at := some t
        opened_ts := some e.ts
        trigger := b.trigger
        validator_id := some b.validator_id
        bundle_id := some b.bundle_id
        policy_bundle := some (py "sha256:" ++ b.bundle_id)
        consensus_mode := some b.consensus_mode
        consensus_mode_evidence := b.consensus_mode_evidence
        state := some .open
        dedupe_key := some b.dedupe_key
        state_history := r.state_history ++ [⟨t, e.ts, none, .open, e.principal, e.rev, .null⟩] },
      none)
  | .signal b => ({ r with signals := r.signals ++ [⟨b, t, e.audit_ref⟩] }, none)
  | .hypothesis b =>
    ({ r with hypotheses := r.hypotheses ++ [⟨b, .open, [], [], t⟩] }, none)
  | .hypothesis_status b =>
    ({ r with hypotheses := r.hypotheses.map (applyStatus b t e.session_id) }, none)
  | .recommendation b =>
    ({ r with recommendations := r.recommendations ++ [⟨b, e.session_id, t, e.rev⟩] }, none)
  | .no_action b =>
    ({ r with no_action := r.no_action ++ [⟨b, e.session_id, t, e.rev⟩] }, none)
  | .verdict b => ({ r with verdicts := r.verdicts ++ [⟨b, e.session_id, t⟩] }, none)
  | .report b => ({ r with reports := r.reports ++ [⟨b, e.session_id, t⟩] }, none)
  | .verification b => ({ r with verifications := r.verifications ++ [⟨b, t⟩] }, none)
  | .recovery_observation b =>
    ({ r with recovery_observations := r.recovery_observations ++ [⟨b, t⟩] }, none)
  | .state b =>
    ({ r with
        state := some b.dst
        state_history := r.state_history ++
          [⟨t, e.ts, some b.frm, b.dst, e.principal, e.rev, b.reason⟩] }, none)
  | .cost b =>
    let (c, x) := applyCost r.cost b
    ({ r with cost := c }, x)
  | .step b => ({ r with steps := r.steps ++ [⟨b, t, e.ts⟩] }, none)
  | Body.annotation b => ({ r with annotations := r.annotations ++ [⟨b, t⟩] }, none)

/-- `apply` as a statement that raises. -/
def applyOrRaise (rec : Record) (e : Entry) : Except Exc Record :=
  match apply rfc3339 rec e with
  | (rec', none) => .ok rec'
  | (_, some x) => .error x

/-- The entries of a log, one after the other. -/
def foldFrom : Record → List Entry → Except Exc Record
  | rec, [] => .ok rec
  | rec, e :: es => do
    let rec' ← applyOrRaise rfc3339 rec e
    foldFrom rec' es

/-- `fold`. -/
def fold (entries : List Entry) : Except Exc Record :=
  match entries with
  | [] => .error (.other .keyError)
  | e :: es => foldFrom rfc3339 (empty_record e.episode_id) (e :: es)

/-- The record a log leaves when what `apply` raises is ignored. -/
def replay (rec : Record) (entries : List Entry) : Record :=
  entries.foldl (fun rec e => (apply rfc3339 rec e).1) rec

end Apply

/-! ## Views -/

/-- `top_hypothesis`. -/
def top_hypothesis (rec : Record) : Option Hypothesis := do
  let s ← (rec.steps.filter fun s => s.role = .diagnostician ∧ s.outcome = .ok).getLast?
  rec.hypotheses.find? fun h => h.step_session.pyEq s.session_id && h.rank = 1

/-- A recommendation or a no-action record. -/
inductive Artefact where
  | recommendation (r : Recommendation)
  | no_action (n : NoAction)
  deriving DecidableEq

namespace Artefact

def id : Artefact → PyStr
  | recommendation r => r.id
  | no_action n => n.id

def rev : Artefact → Nat
  | recommendation r => r.rev
  | no_action n => n.rev

def session_id : Artefact → Json
  | recommendation r => r.session_id
  | no_action n => n.session_id

def evidence_refs : Artefact → List PyStr
  | recommendation r => r.evidence_refs
  | no_action n => n.evidence_refs

end Artefact

/-- `rec["recommendations"] + rec["no_action"]`. -/
def artefacts (rec : Record) : List Artefact :=
  rec.recommendations.map .recommendation ++ rec.no_action.map .no_action

/-- `under_judgement`: `max` keeps the first of equals. -/
def under_judgement (rec : Record) : Option Artefact := (artefacts rec).argmax Artefact.rev

/-- What the judge sees of the artefact: no session and no revision. -/
inductive JudgedArtefact where
  | recommendation (b : RecommendationBody) (t : PyStr)
  | no_action (b : NoActionBody) (t : PyStr)
  deriving DecidableEq

/-- `target_c`. -/
def Artefact.judged : Artefact → JudgedArtefact
  | .recommendation r => .recommendation r.toRecommendationBody r.t
  | .no_action n => .no_action n.toNoActionBody n.t

/-- What the judge sees of the skill. -/
structure SkillView where
  name : PyStr
  modes : Json
  preconditions : Json
  deriving DecidableEq

structure JudgeView where
  episode_id : PyStr
  cls : Option EpisodeClass
  trigger : Json
  state : Option EpisodeState
  consensus_mode : Option Mode
  consensus_mode_evidence : Json
  signals : List Signal
  under_judgement : Option JudgedArtefact
  skill : Option SkillView
  verifications : List Verification
  recovery_observations : List RecoveryObservation
  deriving DecidableEq

/-- What a reader gets: the judge's view, or the record without its dedupe key and with the top
hypothesis, or the record. -/
inductive View where
  | judge (v : JudgeView)
  | full (rec : Record) (top_hypothesis : Option Hypothesis)
  | record (rec : Record)
  deriving DecidableEq

/-- `skills.get(name)`. -/
def getSkill (skills : Json) (name : PyStr) : Except Exc Json :=
  match skills with
  | .obj kvs => .ok ((Json.lookup name kvs).getD .null)
  | _ => .error (.other .attributeError)

/-- The entry of a skill for the judge: `skills.get(name) or {}`. -/
def skillView (skills : Json) : Option Artefact → Except Exc (Option SkillView)
  | some (.recommendation r) => do
    let s ← getSkill skills r.skill
    let modes ← get (orEmpty s) "modes"
    let preconditions ← getD (orEmpty s) "preconditions" (.arr [])
    pure (some ⟨r.skill, modes, preconditions⟩)
  | _ => pure none

/-- `judge_view`. -/
def judge_view (rec : Record) (skills : Json) : Except Exc JudgeView := do
  let target := under_judgement rec
  let skill ← skillView skills target
  pure
    { episode_id := rec.episode_id
      cls := rec.cls
      trigger := rec.trigger
      state := rec.state
      consensus_mode := rec.consensus_mode
      consensus_mode_evidence := rec.consensus_mode_evidence
      signals := rec.signals
      under_judgement := target.map Artefact.judged
      skill
      verifications := rec.verifications
      recovery_observations := rec.recovery_observations }

/-- `full_view`. -/
def full_view (rec : Record) : View := .full { rec with dedupe_key := none } (top_hypothesis rec)

end Valops.Store
