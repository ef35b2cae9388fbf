import Valops.Bundle.Params
import Valops.Controller.Artefacts
import Valops.Controller.Preflight

/-!
# The episode runner

`Runner`: one step of a role with its clean-up (`run_step`), the state machine of an episode
(`advance`), the closure reporter (`_closure`) and the loop over all episodes (`tick`), as programs
over the controller's calls.

What a `finally` block reads is what the `try` block has assigned, so the block returns a `Left`: its
variables, and what it raised.
-/

set_option autoImplicit false

namespace Valops.Controller

open Py Store Conc

/-- `StepOutcome`. -/
structure StepOutcome where
  ok : Bool
  reason : PyStr := []
  limit_hit : Bool := false
  deriving DecidableEq

/-! ## Reading the bundle -/

/-- `v[k]`, for a key that came out of a file. -/
def subscriptBy (v k : Json) : Except Exc (PyStr × Json) :=
  match k with
  | .str s => do
    let w ← Register.subscript v s
    pure (s, w)
  | _ => .error (.other (if k.hashable then .keyError else .typeError))

/-- `configuration_for`. -/
def configuration_for (bundle : Bundle) (role : Role) : Except Exc (PyStr × Json) := do
  let providers ← bundle.providers
  let roles ← index providers "roles"
  let name ← Register.subscript roles role.text
  let configurations ← index providers "configurations"
  subscriptBy configurations name

/-- `bundle.thresholds[pid]`. -/
def threshold (bundle : Bundle) (pid : String) : Except Exc Json := do
  let thresholds ← bundle.thresholds
  index thresholds pid

section Runner

variable (b : Builtins)

/-- `float(bundle.thresholds[pid])`. -/
def floatThreshold (bundle : Bundle) (pid : String) : Except Exc Double := do
  let v ← threshold bundle pid
  b.float v

/-- `int(bundle.thresholds[pid])`. -/
def intThreshold (bundle : Bundle) (pid : String) : Except Exc Int := do
  let v ← threshold bundle pid
  b.int v

/-- `bundle.param(pid, role, conf_name)`. -/
def roleParam (bundle : Bundle) (pid : String) (role : Role) (conf_name : PyStr) : Except Exc Json := do
  let thresholds ← bundle.thresholds
  Register.param thresholds (py pid) (some role.text) (some conf_name)

/-- `inlined`. -/
def inlinedPrompts (bundle : Bundle) (conf : Json) : Except Exc Bool := do
  let adapter ← index conf "adapter"
  if adapter.eqStr (py "claude_sdk") then do
    let deployment ← bundle.deployment
    let v ← getD deployment "skills_inline" (.bool true)
    pure v.truthy
  else pure true

/-! ## Alerts and audit -/

/-- `alert`. -/
def alert (severity : Severity) (title text : PyStr) (episode_id dedupe : Option PyStr) :
    Calls Unit :=
  orRpc (call (ask (.system_alert ⟨severity, title, text, episode_id, dedupe⟩))) fun _ _ => pure ()

/-- `_audit`. -/
def _audit (event episode_id : PyStr) (data : Fields) : Calls Unit :=
  orRpc (call (ask (.submit event episode_id data))) fun _ _ => pure ()

/-! ## The store -/

/-- A write to the store, whose reply is not looked at. -/
def storing (m : Method) (p : Params) : Prog Op Res (Except Exc Unit) :=
  (ask (.store m p)).bind fun r => .ret (r.map fun _ => ())

/-- The parameters of `read_episode`. -/
def readParams (episode_id : PyStr) (view : String) : Params :=
  Params.ofFields [(py "episode_id", .str episode_id), (py "view", .str (py view))] (by simp)

/-- The record of a reply. -/
def recordOf : Reply → Except Exc Record
  | .view (.record rec) => .ok rec
  | _ => .error (.other .typeError)

/-- `record`. -/
def record (episode_id : PyStr) : Calls Record := do
  let r ← call (ask (.store .read_episode (readParams episode_id "record")))
  compute (recordOf r)

/-- The text of an optional value. -/
def optText {α : Type} (text : α → PyStr) (x : Option α) : PyStr := (x.map text).getD (py "None")

/-- The parameters of `set_state`. -/
def stateParams (rec : Record) (to_ : EpisodeState) (reason : PyStr) : Params :=
  Params.ofFields
    [(py "episode_id", .str rec.episode_id), (py "state", .str to_.text),
      (py "expected_revision", .int rec.revision), (py "reason", .str reason),
      (py "idem_key", .str (py "state:" ++ natText rec.revision ++ py ":" ++ to_.text))] (by simp)

/-- `transition`. -/
def transition (rec : Record) (to_ : EpisodeState) (reason : PyStr) : Calls Bool := do
  let done ← tryCatch (do
      call (storing .set_state (stateParams rec to_ reason))
      pure true) fun
    | .exc (.rpc .conflict _ _) => pure false
    | e => throw e
  if done then do
    _audit (py "state_change") rec.episode_id
      [(py "from", optStr EpisodeState.text rec.state), (py "to", .str to_.text),
        (py "reason", .str reason)]
    pure true
  else pure false

/-- `hand_off`. -/
def hand_off (rec : Record) (reason : PyStr) (severity : Severity) : Calls Unit := do
  let done ← transition rec .handed_off reason
  if done then do
    let check ← compute (index rec.trigger "check")
    alert severity (py "Episode handed off: " ++ reason.take 120)
      (py "Episode " ++ rec.episode_id ++ py " (" ++ optText EpisodeClass.text rec.cls ++ py "/" ++
        b.str check ++ py ") handed to the operator. No action is taken by the system. Reason: " ++
        reason)
      (some rec.episode_id) (some (py "handoff:" ++ rec.episode_id))
  else pure ()

/-! ## One step -/

/-- The view of a reply as a judge's. -/
def judgeViewOf : Reply → Except Exc JudgeView
  | .view (.judge v) => .ok v
  | _ => .error (.other .typeError)

/-- The view of a reply. -/
def viewOf : Reply → Except Exc View
  | .view v => .ok v
  | _ => .error (.other .typeError)

/-- The isolation check inside a program. -/
def asserted (x : Except Raised Unit) : Calls Unit := ExceptT.mk (.ret x)

/-- `input_view`. -/
def input_view (rec : Record) (role : Role) : Calls View :=
  if role = .proposal_judge then do
    let r ← call (ask (.store .read_episode (readParams rec.episode_id "judge")))
    let v ← compute (judgeViewOf r)
    asserted (assert_judge_isolated (judgeFields v) rec)
    pure (.judge v)
  else do
    let r ← call (ask (.store .read_episode (readParams rec.episode_id "full")))
    compute (viewOf r)

/-- What identifies a step while it runs. -/
structure Minted where
  session : PyStr
  token : PyStr
  conf_name : PyStr
  conf : Json

/-- `spec`. -/
def stepSpec (rec : Record) (role : Role) (bundle : Bundle) (kind : ReportKind) (m : Minted)
    (view : View) (inlined : Bool) : Except Exc StepSpec := do
  let fields ← match m.conf with
    | .obj kvs => pure kvs
    | _ => throw (.other .typeError)
  let turns ← roleParam bundle "P-05" role m.conf_name
  let max_turns ← b.int turns
  let budget ← roleParam bundle "P-06" role m.conf_name
  let max_budget_usd ← b.float budget
  let _ ← floatThreshold b bundle "P-11"
  pure
    { role, kind, inlined_prompts := inlined, max_turns, max_budget_usd
      episode_id := rec.episode_id
      session_id := m.session
      token := m.token
      state := rec.state
      configuration := Register.merge [(py "name", .str m.conf_name)] fields
      input_view := view }

/-- The arguments of `build_home`: the spec and the prompt. -/
def gather (rec : Record) (role : Role) (bundle : Bundle) (kind : ReportKind) (m : Minted) :
    Calls (StepSpec × PyStr) := do
  let view ← input_view rec role
  let inlined ← compute (inlinedPrompts bundle m.conf)
  let spec ← compute (stepSpec b rec role bundle kind m view inlined)
  let prompt ← call (ask (.read_prompt bundle.id role inlined))
  pure (spec, prompt)

/-- The `try` block after the session has been opened, until the home is assigned. -/
def prepare (rec : Record) (role : Role) (bundle : Bundle) (kind : ReportKind) (m : Minted) :
    Calls Unit := do
  let home ← gather b rec role bundle kind m
  call (ask (.build_home home.1 home.2))

/-- The rest of the `try` block: the worker's result, or how the step ended early. -/
def launch (rec : Record) (role : Role) (bundle : Bundle) (m : Minted) (ms : Json) :
    Calls (Except StepOutcome LaunchResult) := do
  let socket_path ← compute (index ms "socket_path")
  let adapter ← compute (index m.conf "adapter")
  let timeout_s ← compute (floatThreshold b bundle "P-11")
  let launched ← call (ask (.launch m.session adapter socket_path timeout_s))
  match launched with
  | .unavailable why => pure (.error ⟨false, py "sandbox unavailable: " ++ why, false⟩)
  | .result res => do
    _audit (py "step") rec.episode_id
      [(py "role", .str role.text), (py "session_id", .str m.session),
        (py "exit", (res.exit_code.map Json.int).getD .null), (py "timed_out", .bool res.timed_out)]
    pure (.ok res)

/-- The variables that are read after the `try` block, and what the block raised. `ms` is not assigned
when opening the session raises anything but an `RpcError`, and `None` when it raises one. -/
structure Left where
  ms : Option (Option Json) := none
  home : Bool := false
  res : Option LaunchResult := none
  early : Option StepOutcome := none
  raised : Option Raised := none

/-- What the launch leaves. -/
def Left.launched (ms : Json) : Except Raised (Except StepOutcome LaunchResult) → Left
  | .error e => { ms := some (some ms), home := true, raised := some e }
  | .ok (.error early) => { ms := some (some ms), home := true, early := some early }
  | .ok (.ok res) => { ms := some (some ms), home := true, res := some res }

/-- `e.code in ("provider_unapproved", "not_admitted", "no_key")`. -/
def notRetried (code : Code) : Bool := code ∈ [.provider_unapproved, .not_admitted, .no_key]

/-- The `try` block. -/
def tryBlock (rec : Record) (role : Role) (bundle : Bundle) (kind : ReportKind) (m : Minted) :
    Prog Op Res Left :=
  (ask (.open_session m.session rec.episode_id role bundle.id)).bind fun
  | .error (.rpc code text _) => .ret
      { ms := some none
        early := some ⟨false, py "model broker refused session: " ++ code.text ++ py " " ++ b.format text,
          notRetried code⟩ }
  | .error e => .ret { raised := some (.exc e) }
  | .ok ms => (prepare b rec role bundle kind m).run.bind fun
    | .error e => .ret { ms := some (some ms), raised := some e }
    | .ok _ => (launch b rec role bundle m ms).run.bind fun r => .ret (Left.launched ms r)

/-- The loop over the brokers. -/
def revokes (session : PyStr) : List PyStr → Calls Unit
  | [] => pure ()
  | name :: rest => do
    orRpc (call (ask (.revoke_session name session))) fun _ _ => pure ()
    revokes session rest

/-- No meter. -/
def noMeter : Decoded := ⟨.obj [], wf_empty⟩

/-- `meter = close_session(...) if ms else {}`, with its handler. -/
def closing (session : PyStr) : Option (Option Json) → Calls Decoded
  | none => throw (.exc (.other .nameError))
  | some none => pure noMeter
  | some (some ms) =>
    if ms.truthy then orRpc (call (ask (.close_session session))) fun _ _ => pure noMeter
    else pure noMeter

/-- The parameters of `append_cost`. -/
def costParams (episode_id : PyStr) (role : Role) (m : Minted) (meter : Decoded) :
    Except Exc Params := do
  let usd ← getD meter.value "usd" (.float .zero)
  let usd ← b.float usd
  let turns ← getD meter.value "requests" (.int 0)
  let turns ← b.int turns
  let input ← meter.get "input_tokens"
  let output ← meter.get "output_tokens"
  pure (Params.ofFields
    [(py "episode_id", .str episode_id), (py "role", .str role.text), (py "usd", .float usd),
      (py "turns", .int turns), (py "session_id", .str m.session),
      (py "configuration", .str m.conf_name),
      (py "tokens", Json.mkObj [(py "input", input.value), (py "output", output.value)]),
      (py "idem_key", .str (py "cost:" ++ m.session))] (by
        have hmeter : (Json.mkObj [(py "input", input.value), (py "output", output.value)]).WF :=
          Json.wf_mkObj (by simpa using ⟨input.wf, output.wf⟩)
        simpa using hmeter))

/-- The cost of the step, if there is a meter. -/
def charging (episode_id : PyStr) (role : Role) (m : Minted) (meter : Decoded) : Calls Unit :=
  if meter.value.truthy then do
    let p ← compute (costParams b episode_id role m meter)
    orRpc (call (storing .append_cost p)) fun _ _ => pure ()
  else pure ()

/-- `if home is not None: remove_home(home)`. -/
def removing (session : PyStr) (home : Bool) : Calls Unit :=
  if home then call (ask (.remove_home session)) else pure ()

/-- The `finally` block: the meter. -/
def cleanUp (admins : List PyStr) (episode_id : PyStr) (role : Role) (m : Minted) (left : Left) :
    Calls Decoded := do
  revokes m.session admins
  let meter ← closing m.session left.ms
  _audit (py "token_revoked") episode_id [(py "session_id", .str m.session)]
  charging b episode_id role m meter
  removing m.session left.home
  pure meter

/-- `LIMIT_CAUSES`. -/
def LIMIT_CAUSES : List PyStr :=
  [py "limit_requests", py "limit_input_tokens", py "limit_output_or_usd"]

/-- `any(r["cause"] in LIMIT_CAUSES for r in rs)`. -/
def anyLimit : List Json → Except Exc Bool
  | [] => .ok false
  | r :: rs => do
    let cause ← index r "cause"
    if LIMIT_CAUSES.any fun c => cause.eqStr c then pure true else anyLimit rs

/-- `limit_hit`; the elements of a string and the keys of a dict are strings. -/
def limitHit (meter : Json) : Except Exc Bool := do
  let refusals ← getD meter "refusals" (.arr [])
  match refusals with
  | .arr rs => anyLimit rs
  | .str s => anyLimit (s.map fun c => .str [c])
  | .obj kvs => anyLimit (kvs.map fun kv => .str kv.1)
  | _ => throw (.other .typeError)

/-- The checks of `validate` on the record, by role. -/
def validation (rec : Record) (role : Role) (episode_id session : PyStr) (kind : ReportKind) :
    Calls (Validation × Stored) :=
  match role with
  | .diagnostician => pure (validate_diagnostician rec session)
  | .change_planner => pure (validate_planner rec session)
  | .proposal_judge => pure (validate_judge rec session)
  | .reporter => do
    let alerts ← call (ask (.alerts_for episode_id session))
    pure (validate_reporter rec session kind alerts)

/-- `validate`. -/
def validate (role : Role) (episode_id session : PyStr) (kind : ReportKind)
    (structured : Option Json) : Calls StepOutcome := do
  let rec ← record episode_id
  let v ← validation rec role episode_id session kind
  if !v.1.ok then pure ⟨false, b.format v.1.reason, false⟩
  else do
    let c ← compute (cross_check role structured v.2)
    pure ⟨c.ok, b.format c.reason, false⟩

/-- The outcome of a step, before limits are looked at. -/
def stepOutcome (rec : Record) (role : Role) (bundle : Bundle) (kind : ReportKind) (m : Minted)
    (left : Left) : Calls StepOutcome :=
  match left.early, left.res with
  | some early, _ => pure early
  | none, some res =>
    if res.timed_out then do
      let limit ← compute (threshold bundle "P-11")
      pure ⟨false, py "step exceeded P-11 (" ++ b.str limit ++ py "s); process tree killed", false⟩
    else validate b role rec.episode_id m.session kind res.structured_output
  | none, none => throw (.exc (.other .attributeError))

/-- The outcome where a limit of the model broker was hit. -/
def StepOutcome.limited (out : StepOutcome) (limit_hit : Bool) : StepOutcome :=
  if limit_hit && !out.ok then
    { out with limit_hit := true, reason := out.reason ++ py "; model-broker budget/limit reached" }
  else out

/-- The parameters of `append_step`. -/
def stepParams (rec : Record) (role : Role) (m : Minted) (out : StepOutcome) : Params :=
  Params.ofFields
    [(py "episode_id", .str rec.episode_id), (py "role", .str role.text),
      (py "session_id", .str m.session),
      (py "outcome", .str (if out.ok then Outcome.ok else Outcome.failed).text),
      (py "reason", .str out.reason), (py "state", optStr EpisodeState.text rec.state),
      (py "configuration", .str m.conf_name), (py "idem_key", .str (py "step:" ++ m.session))] (by
        have hstate : (optStr EpisodeState.text rec.state).WF := by
          cases rec.state with
          | none => exact .null
          | some st => exact .str st.text
        simpa using hstate)

/-- What follows the clean-up: the outcome is recorded. -/
def conclude (rec : Record) (role : Role) (bundle : Bundle) (kind : ReportKind) (m : Minted)
    (left : Left) (meter : Decoded) : Calls StepOutcome := do
  let hit ← compute (limitHit meter.value)
  let out ← stepOutcome b rec role bundle kind m left
  let out := out.limited hit
  call (storing .append_step (stepParams rec role m out))
  pure out

/-- What precedes the `try` block. -/
def begin_step (rec : Record) (role : Role) (bundle : Bundle) (session : PyStr) : Calls Minted := do
  let (conf_name, conf) ← compute (configuration_for bundle role)
  let ttl ← compute (floatThreshold b bundle "P-10")
  let token ← call (ask (.mint rec.episode_id role session bundle.id ttl))
  _audit (py "token_minted") rec.episode_id
    [(py "role", .str role.text), (py "session_id", .str session), (py "ttl_s", .float ttl),
      (py "configuration", .str conf_name)]
  pure ⟨session, token, conf_name, conf⟩

/-- `run_step`. -/
def run_step (admins : List PyStr) (rec : Record) (role : Role) (bundle : Bundle)
    (kind : ReportKind) : Calls StepOutcome := do
  let session ← reading (ask .uuid4)
  let m ← begin_step b rec role bundle session
  let left ← reading (tryBlock b rec role bundle kind m)
  let meter ← cleanUp b admins rec.episode_id role m left
  -- only now does an exception of the `try` block go on
  reraise left.raised
  conclude b rec role bundle kind m left meter

/-! ## The state machine -/

/-- `_failures_in_state`. -/
def _failures_in_state (rec : Record) (role : Role) : Except Exc (List Step) := do
  let entered ← orRaise rec.state_history.getLast? (.other .indexError)
  pure (rec.steps.filter fun s => s.role = role ∧ s.outcome = .failed ∧ s.ts.ge entered.ts = true)

/-- `_after_failure`. -/
def _after_failure (rec : Record) (role : Role) (out : StepOutcome) (bundle : Bundle) :
    Calls Unit := do
  let rec ← record rec.episode_id
  if out.limit_hit then
    hand_off b rec (role.text ++ py ": not retryable - " ++ out.reason) .high
  else do
    let fails ← compute (_failures_in_state rec role)
    let limit ← compute (intThreshold b bundle "P-08")
    if limit < fails.length then
      hand_off b rec (role.text ++ py ": step failed " ++ natText fails.length ++ py "x; last: " ++
        out.reason) .high
    else pure ()

/-- `rec["bundle_id"][:12]`. -/
def bundlePrefix (rec : Record) : Except Exc PyStr := do
  let id ← orRaise rec.bundle_id (.other .typeError)
  pure (id.take 12)

/-- `x * 3600`. -/
def hours (x : Double) : Except Exc Double := do
  let hour ← orRaise (Double.ofInt? 3600) (.other .overflowError)
  pure (x.mul hour)

/-- `_bundle_problem`. -/
def _bundle_problem (rec : Record) : Calls Bool := do
  let reason ← call (ask (.verify rec.bundle))
  match reason with
  | some text => do
    let reason := b.format text
    if py "revoked" <:+: reason then
      hand_off b rec (py "bound bundle revoked (RB-4): " ++ reason) .critical
    else do
      let id ← compute (bundlePrefix rec)
      call (ask (.flag_set (py "bound bundle " ++ id ++ py " fails verification: " ++ reason)))
      alert .critical (py "Bundle integrity failure: observe-only (RB-3)") reason
        (some rec.episode_id) (some (py "integrity:" ++ b.str rec.bundle))
    pure true
  | none => do
    let sup ← call (ask (.superseded_at rec.bundle))
    if sup ≠ .null ∧ rec.state ≠ some .resolved ∧ rec.state ≠ some .handed_off then do
      let bundle ← call (ask (.load rec.bundle))
      let t ← reading (ask .now)
      let since ← compute (toFloat sup)
      let drain ← compute (floatThreshold b bundle "P-12")
      let limit ← compute (hours drain)
      if limit.lt (t.sub since) then do
        hand_off b rec (py "bundle drain deadline exceeded (P-12)") .high
        pure true
      else pure false
    else pure false

/-- Where `advance` goes after a step that is ok. -/
inductive Route where
  | go (to_ : EpisodeState) (reason : PyStr)
  | handOff (reason : PyStr)
  deriving DecidableEq

/-- `", ".join(...)` of the checks of a verdict that failed. -/
def failedChecks : List Json → Except Exc (List PyStr)
  | [] => .ok []
  | c :: cs => do
    let result ← index c "result"
    if result.eqStr (py "fail") then do
      let check ← index c "check"
      let name ← orRaise (asStr check) (.other .typeError)
      let rest ← failedChecks cs
      pure (name :: rest)
    else failedChecks cs

/-- One verdict in the text of the hand-off. -/
def verdictText (v : Verdict) : Except Exc PyStr := do
  let names ← failedChecks v.checks
  pure (v.target_id ++ py ": " ++ (names.intersperse (py ", ")).flatten)

/-- `refuted_all`. -/
def refutedAll (rec : Record) : Bool :=
  let session := ((top_hypothesis rec).map fun h => h.step_session).getD .null
  rec.hypotheses.all fun h => !h.step_session.pyEq session || decide (h.status = .refuted)

/-- The verdicts with result FAIL. -/
def failVerdicts (rec : Record) : List Verdict := rec.verdicts.filter fun v => v.result = .FAIL

/-- The branches of `advance` after a step that is ok. -/
def route (bundle : Bundle) (state : EpisodeState) (rec : Record) : Except Exc Route :=
  match state with
  | .diagnosing =>
    if !rec.recovery_observations.isEmpty then pure (.go .reporting (py "recovery observed"))
    else if refutedAll rec then pure (.go .reporting (py "all hypotheses refuted"))
    else pure (.go .recommending (py "hypotheses validated"))
  | .recommending => pure (.go .judging (py "artefact validated"))
  | .judging => do
    let v ← orRaise rec.verdicts.getLast? (.other .indexError)
    if v.result = .PASS then pure (.go .reporting (py "Judge PASS"))
    else do
      let fails := failVerdicts rec
      let limit ← threshold bundle "P-09"
      let retries ← b.int limit
      if fails.length ≤ retries then
        pure (.go .recommending (py "Judge FAIL " ++ natText fails.length ++ py "/" ++ b.str limit))
      else do
        let reasons ← fails.mapM verdictText
        pure (.handOff (py "Judge FAIL retries exhausted (R-3). FAIL reasons: " ++
          (reasons.intersperse (py "; ")).flatten))
  | .reporting => pure (.go .awaiting_operator (py "report written and alert dispatched"))
  | _ => throw (.other .keyError)

/-- The route is taken. -/
def follow (rec : Record) : Route → Calls Unit
  | .go to_ reason => do
    let _ ← transition rec to_ reason
    pure ()
  | .handOff reason => hand_off b rec reason .high

/-- The role of a state. -/
def roleOf : EpisodeState → Option Role
  | .diagnosing => some .diagnostician
  | .recommending => some .change_planner
  | .judging => some .proposal_judge
  | .reporting => some .reporter
  | _ => none

/-- `except AssertionError`. -/
def orIsolation {α : Type} (p : Calls α) (h : PyStr → Calls α) : Calls α :=
  tryCatch p fun
    | .isolation text => h (b.format text)
    | .exc (.other .assertionError) => h []
    | e => throw e

/-- The closure reports of a record. -/
def closureReports (rec : Record) : List Report := rec.reports.filter fun r => r.kind = .closure

/-- The closure steps that failed. -/
def closureFailures (rec : Record) : List Step :=
  rec.steps.filter fun s => s.role = .reporter ∧ s.state.eqStr EpisodeState.resolved.text ∧
    s.outcome = .failed

/-- `_closure`. -/
def _closure (admins : List PyStr) (rec : Record) (bundle : Bundle) (pf : Preflight) :
    Calls Unit :=
  if !(closureReports rec).isEmpty then pure ()
  else do
    let limit ← compute (intThreshold b bundle "P-08")
    if limit < (closureFailures rec).length then
      alert .warning (py "Closure report could not be produced") (py "episode " ++ rec.episode_id)
        (some rec.episode_id) (some (py "closure-failed:" ++ rec.episode_id))
    else if !pf.llm_allowed then pure ()
    else do
      let _ ← run_step b admins rec .reporter bundle .closure
      pure ()

/-- A step of the state's role, and where it leads. -/
def work (admins : List PyStr) (rec : Record) (bundle : Bundle) (state : EpisodeState) :
    Calls Unit := do
  let role ← compute (orRaise (roleOf state) (.other .keyError))
  let out ← orIsolation b (some <$> run_step b admins rec role bundle .incident) fun text => do
    let rec ← record rec.episode_id
    hand_off b rec (py "judge isolation check failed: " ++ text) .critical
    pure none
  match out with
  | none => pure ()
  | some out =>
    if !out.ok then _after_failure b rec role out bundle
    else do
      let rec ← record rec.episode_id
      let r ← compute (route b bundle state rec)
      follow b rec r

/-- `advance`. -/
def advance (admins : List PyStr) (episode_id : PyStr) (pf : Preflight) : Calls Unit := do
  let rec ← record episode_id
  if rec.state = some .handed_off ∨ rec.state = some .awaiting_operator then pure ()
  else do
    let problem ← _bundle_problem b rec
    if problem then pure ()
    else do
      let bundle ← call (ask (.load rec.bundle))
      match rec.state with
      | some .resolved => _closure b admins rec bundle pf
      | state =>
        if !pf.llm_allowed then pure ()
        else match state with
          | some .open => do
            let _ ← transition rec .diagnosing (py "bundle verified; LLM path available")
            pure ()
          | some state => work b admins rec bundle state
          | none => throw (.exc (.other .keyError))

/-! ## The loop -/

/-- A hand-off after an exception; an `RpcError` of it is dropped. -/
def giveUp (episode_id reason : PyStr) : Calls Unit :=
  orRpc (do
    let rec ← record episode_id
    hand_off b rec reason .high) fun _ _ => pure ()

/-- One episode in `tick`, with the handlers. -/
def tickEpisode (admins : List PyStr) (pf : Preflight) (ep : EpisodeSummary) : Calls Unit :=
  if ep.state = some .handed_off then pure ()
  else tryCatch (advance b admins ep.episode_id pf) fun
    | .exc (.rpc code text _) =>
      if code = .unavailable ∨ code = .audit_unavailable then pure ()
      else giveUp b ep.episode_id (py "controller error: " ++ code.text ++ py " " ++ b.format text)
    | .exc (.other e) => giveUp b ep.episode_id (py "controller exception: " ++ b.class_name e)
    | .isolation _ =>
      giveUp b ep.episode_id (py "controller exception: " ++ b.class_name .assertionError)

/-- The loop of `tick` over the episodes. -/
def tickEpisodes (admins : List PyStr) (pf : Preflight) : List EpisodeSummary → Calls Unit
  | [] => pure ()
  | ep :: rest => do
    tickEpisode b admins pf ep
    tickEpisodes admins pf rest

/-- The episodes of a reply. -/
def episodesOf : Reply → Except Exc (List EpisodeSummary)
  | .episodes eps => .ok eps
  | _ => .error (.other .typeError)

/-- The parameters of `list_episodes`. -/
def listParams : Params :=
  Params.ofFields [(py "nonterminal_only", .bool false)] (by simp)

/-- `tick` after the pre-flight. -/
def tickAll (admins : List PyStr) (pf : Preflight) : Calls Unit := do
  let eps ← orRpc (do
      let r ← call (ask (.store .list_episodes listParams))
      let eps ← compute (episodesOf r)
      pure (some eps))
    fun code text => do
      alert .high (py "Episode store unavailable (RB-7)") (code.text ++ py ": " ++ b.format text) none none
      pure none
  match eps with
  | none => pure ()
  | some eps => tickEpisodes b admins pf eps

/-! ### The pre-flight of a tick -/

/-- `(th[pid] * 60) if th else default`. -/
def minutesOf (th : Option Json) (pid : String) (default : Int) : Except Exc Json :=
  match th with
  | some th => if th.truthy then do
      let v ← index th pid
      timesInt v 60
    else pure (.int default)
  | none => pure (.int default)

/-- The thresholds of the active bundle, if it verifies. -/
def activeThresholds : Calls (Option Json) := do
  let active ← call (ask .active)
  match active with
  | none => pure none
  | some a => do
    let problem ← call (ask (.verify (.str a)))
    match problem with
    | some _ => pure none
    | none => do
      let bundle ← call (ask (.load (.str a)))
      let th ← compute bundle.thresholds
      pure (some th)

/-- The reasons that set the flag. -/
def latchReasons : List PyStr → Calls Unit
  | [] => pure ()
  | r :: rest => do
    if py "fails verification" <:+: r ∨ py "audit chain" <:+: r then call (ask (.flag_set r))
    else pure ()
    latchReasons rest

/-- `"pf:" + r.split(":")[0]`. -/
def reasonKey (r : PyStr) : PyStr := py "pf:" ++ r.takeWhile fun c => c ≠ 58

/-- The alerts about reasons that have not been alerted; `severity` is that of the list. -/
def alertReasons (severity : PyStr → Severity) : List PyStr → List PyStr → Calls (List PyStr)
  | [], alerted => pure alerted
  | r :: rest, alerted =>
    if reasonKey r ∈ alerted then alertReasons severity rest alerted
    else do
      alert (severity r) (py "Degraded: " ++ r.take 120) r none none
      alertReasons severity rest (reasonKey r :: alerted)

/-- The alerts about warnings; one is enough. -/
def alertWarnings : List PyStr → List PyStr → Calls (List PyStr)
  | [], alerted => pure alerted
  | r :: rest, alerted =>
    if py "pf:lag" ∈ alerted then alertWarnings rest alerted
    else do
      alert .warning r r none none
      alertWarnings rest (py "pf:lag" :: alerted)

/-- `preflight`, with `_alerted` before and after. -/
def preflight (admins alerted : List PyStr) : Calls (Preflight × List PyStr) := do
  let th ← activeThresholds
  let interval ← compute (minutesOf th "P-18" 900)
  let lag ← compute (minutesOf th "P-19" 3600)
  let pf ← run b (py "model_broker" :: admins) interval lag
  latchReasons pf.observe_only
  let alerted ← alertReasons (fun r => if r ∈ pf.observe_only then .critical else .high)
    (pf.observe_only ++ pf.no_llm) alerted
  let alerted ← alertWarnings pf.warnings alerted
  pure (pf, if pf.llm_allowed then alerted.filter fun k => !(py "pf:").isPrefixOf k else alerted)

/-- `tick`, with `_alerted` before and after. -/
def tick (admins alerted : List PyStr) : Calls (List PyStr) := do
  let pf ← preflight b admins alerted
  tickAll b admins pf.1
  pure pf.2

/-- `verify_chain_now`. -/
def verify_chain_now : Calls Unit := do
  let report ← call (ask .verify_chain)
  match report with
  | some report =>
    if report.ok then pure ()
    else do
      call (ask (.flag_set (py "chain verification failed: " ++
        ((report.errors.take 3).intersperse (py "; ")).flatten)))
      alert .critical (py "Audit chain verification FAILED (RB-10)")
        ((report.errors.take 20).intersperse [10]).flatten none none
  | none => pure ()

/-- What the loop keeps from one round to the next. -/
structure Memory where
  last_verify : Double := .zero
  alerted : List PyStr := []

/-- `except Exception`. -/
def ignoring (p : Calls Unit) : Calls Unit := tryCatch p fun _ => pure ()

/-- One round of `loop`. -/
def round (admins : List PyStr) (chain_verify_every_s : Double) (m : Memory) : Calls Memory := do
  let t ← reading (ask .now)
  let last ← if chain_verify_every_s.lt (t.sub m.last_verify) then do
      ignoring verify_chain_now
      reading (ask .now)
    else pure m.last_verify
  let alerted ← tick b admins m.alerted
  pure ⟨last, alerted⟩

/-- The loop goes on after a round that has returned. -/
def goOn (admins : List PyStr) (chain_verify_every_s : Double) :
    Except Raised Memory → Option (Prog Op Res (Except Raised Memory))
  | .ok m => some (round b admins chain_verify_every_s m).run
  | .error _ => none

end Runner

end Valops.Controller
