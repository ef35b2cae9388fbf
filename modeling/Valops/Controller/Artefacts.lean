import Valops.Controller.Calls

/-!
# Artefact validation

What the controller checks after a step, on the record and never on what the worker printed: the
artefacts of the step's session, the structured output against the stored artefact, and before a
judge starts that its view carries no prose of others.

Main results: `validate_judge_ok` and `validate_planner_ok` (what a step that passes has written).
-/

set_option autoImplicit false

namespace Valops.Controller

open Py Store

/-! ## Validation -/

/-- `Validation`. -/
structure Validation where
  ok : Bool
  reason : Msg := []
  deriving DecidableEq

/-- `_fail`. -/
def _fail (reason : Msg) : Validation := ⟨false, reason⟩

/-- What is stored for a step: the ids of hypotheses, the id of an artefact, a verdict, or the
reference of a report. -/
inductive Stored where
  | hypotheses (ids : List PyStr)
  | artefact (id : PyStr)
  | verdict (v : Verdict)
  | report (ref : PyStr)
  | nothing
  deriving DecidableEq

/-- `x.get("session_id") == session`. -/
def ofSession (session : PyStr) (session_id : Json) : Bool := session_id.eqStr session

/-- `list(range(1, n + 1))`. -/
def ranksTo (n : Nat) : List Int := (List.range n).map fun i => (i : Int) + 1

/-- `validate_diagnostician`. -/
def validate_diagnostician (rec : Record) (session : PyStr) : Validation × Stored :=
  let hs := rec.hypotheses.filter fun h => ofSession session h.step_session
  let ranks := (hs.map fun h => h.rank).insertionSort (· ≤ ·)
  if hs.isEmpty then (_fail (msg "missing artefact: no hypothesis written in this step"), .nothing)
  else
    match hs.find? fun h => !([h.claim, h.test, h.expected_evidence].all fun s => !s.isBlank) with
    | some h => (_fail [.text (py "hypothesis "), .text h.id, .text (py " lacks a contract field")], .nothing)
    | none =>
      if ranks ≠ ranksTo hs.length then
        (_fail [.text (py "ranks must be 1.."), .str (.int hs.length), .text (py " with no gaps, got "),
          .str (.arr (ranks.map .int))], .nothing)
      else (⟨true, []⟩, .hypotheses (hs.map fun h => h.id))

/-- `validate_planner`. -/
def validate_planner (rec : Record) (session : PyStr) : Validation × Stored :=
  let own := (artefacts rec).filter fun a => ofSession session a.session_id
  match own with
  | [art] =>
    if art.evidence_refs.isEmpty then (_fail (msg "artefact has no evidence references"), .nothing)
    else (⟨true, []⟩, .artefact art.id)
  | _ => (_fail [.text (py "expected exactly one recommendation or no-action record, got "),
      .str (.int own.length)], .nothing)

/-- `validate_judge`. -/
def validate_judge (rec : Record) (session : PyStr) : Validation × Stored :=
  match rec.verdicts.filter fun v => ofSession session v.session_id with
  | [v] =>
    if v.checks.isEmpty then (_fail (msg "verdict without a non-empty checks list"), .nothing)
    else (⟨true, []⟩, .verdict v)
  | _ => (_fail (msg "missing verdict (absence of a verdict is not consent)"), .nothing)

/-- A field of an alert; the report broker returns dicts. -/
def alertField (a : Fields) (k : String) : Json := (Json.lookup (py k) a).getD .null

/-- `validate_reporter`. -/
def validate_reporter (rec : Record) (session : PyStr) (kind : ReportKind) (alerts : List Fields) :
    Validation × Stored :=
  let rs := rec.reports.filter fun r => ofSession session r.session_id && decide (r.kind = kind)
  match rs.getLast? with
  | none => (_fail [.text (py "missing "), .text kind.text, .text (py " report ref")], .nothing)
  | some r =>
    let acked := alerts.filter fun a => (alertField a "session_id").eqStr session &&
      (alertField a "kind").eqStr kind.text && (alertField a "ack").truthy
    if acked.isEmpty then
      (_fail [.text kind.text, .text (py " alert not dispatched/acknowledged by the sink")], .nothing)
    else (⟨true, []⟩, .report r.ref)

/-! ## Structured output -/

/-- `^report:sha256:[0-9a-f]{64}$`. -/
def refPattern : Pattern where
  source := py "^report:sha256:[0-9a-f]" ++ [123] ++ py "64" ++ [125] ++ py "$"
  search := fun s =>
    let s := dropFinalNewline s
    decide (s.take 14 = py "report:sha256:") && decide (s.length = 78) &&
      (s.drop 14).all fun c => isDigit c || decide (97 ≤ c ∧ c ≤ 102)

/-- `ARTEFACT_SCHEMA`. -/
def ARTEFACT_SCHEMA : Role → Schema
  | .diagnostician => objectSchema ["hypothesis_ids"] [("hypothesis_ids",
      .node { types := [.array], minItems := 1 } (some (idSchema "^h[0-9]+$" (py "h"))) [])]
  | .change_planner => objectSchema ["artefact_id"] [("artefact_id", idSchema "^[rn][0-9]+$" (py "rn"))]
  | .proposal_judge => objectSchema ["target_id", "result"]
      [("target_id", idSchema "^[rn][0-9]+$" (py "rn")), ("result", enumSchema ["PASS", "FAIL"])]
  | .reporter => objectSchema ["report_ref"] [("report_ref",
      .node { types := [.string], pattern := some refPattern } none [])]

/-- `set(v) == stored` for a list of strings. -/
def sameIds (v : Json) (stored : List PyStr) : Bool :=
  match v with
  | .arr xs => xs.all (fun x => stored.any fun s => x.eqStr s) && stored.all fun s => xs.any fun x => x.eqStr s
  | _ => false

/-- The comparison of a structured output that matches its schema. -/
def disagreement (v : Json) (stored : Stored) : Except Exc (Option Msg) :=
  match stored with
  | .hypotheses ids => do
    let got ← index v "hypothesis_ids"
    pure (if sameIds got ids then none
      else some (msg "structured output disagrees with stored hypotheses"))
  | .artefact id => do
    let got ← index v "artefact_id"
    pure (if got.eqStr id then none else some (msg "structured output disagrees with stored artefact"))
  | .verdict w => do
    let result ← index v "result"
    let target ← index v "target_id"
    pure (if result.eqStr w.result.text && target.eqStr w.target_id then none
      else some (msg "structured verdict disagrees with stored verdict"))
  | .report ref => do
    let got ← index v "report_ref"
    pure (if got.eqStr ref then none else some (msg "structured report ref disagrees with stored report"))
  | .nothing => pure none

/-- `cross_check`; without structured output there is nothing to disagree with. -/
def cross_check (role : Role) (structured : Option Json) (stored : Stored) : Except Exc Validation :=
  match structured with
  | none => pure ⟨true, []⟩
  | some v =>
    if !is_valid v (ARTEFACT_SCHEMA role) then
      pure (_fail (msg "structured output does not match its schema"))
    else do
      let problem ← disagreement v stored
      pure (match problem with
        | some text => _fail text
        | none => ⟨true, []⟩)

/-! ## The judge's view -/

/-- An optional text. -/
def optStr {α : Type} (text : α → PyStr) (x : Option α) : Json := (x.map fun a => Json.str (text a)).getD .null

def signalFields (s : Signal) : Fields :=
  [(py "id", .str s.id), (py "command_id", .str s.command_id), (py "status", s.status),
    (py "summary", s.summary), (py "truncated", .bool s.truncated), (py "collected_at", s.collected_at),
    (py "flags", s.flags), (py "ref", s.ref), (py "source", .str s.source), (py "t", .str s.t),
    (py "audit_ref", .str s.audit_ref)]

def verificationFields (v : Verification) : Fields :=
  [(py "rule", .str v.rule), (py "result", .str v.result.text), (py "samples", v.samples),
    (py "t", .str v.t), (py "by", .str (py "verifier"))]

def recoveryFields (o : RecoveryObservation) : Fields :=
  [(py "rule", .str o.rule), (py "note", o.note), (py "t", .str o.t)]

def judgedFields : JudgedArtefact → Fields
  | .recommendation b t =>
    [(py "id", .str b.id), (py "hypothesis", .str b.hypothesis), (py "action_text", b.action_text),
      (py "skill", .str b.skill), (py "preconditions", b.preconditions),
      (py "expected_postcondition", b.expected_postcondition),
      (py "evidence_refs", .arr (b.evidence_refs.map .str)), (py "t", .str t)]
  | .no_action b t =>
    [(py "id", .str b.id), (py "reason", .str b.reason),
      (py "evidence_refs", .arr (b.evidence_refs.map .str)), (py "t", .str t)]

def skillFields (s : SkillView) : Fields :=
  [(py "name", .str s.name), (py "modes", s.modes), (py "preconditions", s.preconditions)]

/-- The view as the dict that is returned. -/
def judgeFields (v : JudgeView) : Fields :=
  [(py "view", .str (py "judge")), (py "episode_id", .str v.episode_id),
    (py "class", optStr EpisodeClass.text v.cls), (py "trigger", v.trigger),
    (py "state", optStr EpisodeState.text v.state), (py "consensus_mode", optStr Mode.text v.consensus_mode),
    (py "consensus_mode_evidence", v.consensus_mode_evidence),
    (py "signals", .arr (v.signals.map fun s => .obj (signalFields s))),
    (py "under_judgement", (v.under_judgement.map fun a => .obj (judgedFields a)).getD .null),
    (py "skill", (v.skill.map fun s => .obj (skillFields s)).getD .null),
    (py "verifications", .arr (v.verifications.map fun s => .obj (verificationFields s))),
    (py "recovery_observations", .arr (v.recovery_observations.map fun s => .obj (recoveryFields s)))]

/-- `forbidden_keys`, in alphabetical order. -/
def forbidden_keys : List PyStr :=
  [py "cost", py "hypotheses", py "no_action", py "recommendations", py "reports", py "steps",
    py "verdicts"]

/-- `assert not (len(prose) >= 12 and prose in blob)`. -/
def assertAbsent (blob prose : PyStr) (text : Msg) : Except Raised Unit :=
  if 12 ≤ prose.length ∧ prose <:+: blob then .error (.isolation text) else .ok ()

/-- `note = c.get("note") or ""` and its assertion. A longer list or dict fails in `note in blob`,
and the other values have no length. -/
def assertNote (blob : PyStr) (c : Json) : Except Raised Unit := do
  let note ← raising (get c "note")
  match note with
  | .str s => assertAbsent blob s (msg "judge view contains a prior verdict note")
  | .arr xs => if 12 ≤ xs.length then throw (.exc (.other .typeError))
  | .obj kvs => if 12 ≤ kvs.length then throw (.exc (.other .typeError))
  | v => if v.truthy then throw (.exc (.other .typeError))

/-- `assert_judge_isolated`. -/
def assert_judge_isolated (view : Fields) (rec : Record) : Except Raised Unit := do
  let present := forbidden_keys.filter fun k => (Json.lookup k view).isSome
  if !present.isEmpty then
    throw (.isolation [.text (py "judge view carries "), .str (.arr (present.map .str))])
  let blob ← raising (orRaise (dumps (.obj (view.filter fun kv => kv.1 ≠ py "under_judgement")))
    (.other .valueError))
  rec.hypotheses.forM fun h =>
    [("claim", h.claim), ("test", h.test), ("expected_evidence", h.expected_evidence)].forM fun f =>
      assertAbsent blob f.2 [.text (py "judge view contains hypothesis "), .text h.id, .text (py " "),
        .text (py f.1)]
  rec.verdicts.forM fun v => v.checks.forM fun c => assertNote blob c

end Valops.Controller
