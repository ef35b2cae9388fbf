import Valops.Common.Builtins
import Valops.Conc.Memory
import Valops.Store.Service
import Valops.Verifier.Rules

/-!
# Ticks of the verifier

`tick` goes over the listed episodes. For each, the rules of its bundle are sampled through the
observer broker and evaluated; a streak counter per episode and rule lives in the memory of the
verifier, across ticks. Every call may return or raise anything.

Two operations are marks in the history and do nothing: `checking` where the check of an episode
begins, and `sampled` where a sample has been taken and counted.
-/

set_option autoImplicit false

namespace Valops.Verifier

open Py Store Conc

/-! ## Values -/

/-- A rule; its id and the commands are strings. -/
structure Rule where
  id : PyStr
  applies_to : Json
  samples : List PyStr
  predicate : Json
  window : Json

/-- What the verifier reads of a `Bundle`. A file is read when its value is needed, and reading it may
raise. -/
structure Bundle where
  thresholds : Except Exc Json
  deployment : Except Exc Json
  verifier_rules : Except Exc (List Rule)

/-- A key of `streak`. -/
abbrev Key := PyStr × PyStr

/-- What a sample has been found to be: the state is the one the episode was listed with. -/
structure Sampled where
  key : Key
  state : Option EpisodeState
  held : Bool
  window : Except Exc Int
  rule : Rule
  thresholds : Json
  max_age_s : Double
  sample : Fields

/-- The memory of a `Verifier`. -/
structure Memory where
  streak : Dict Key Int := []
  escalated : List PyStr := []
  recovered_after_handoff : List PyStr := []

/-- `self.streak.get(key, 0)`. -/
def Memory.count (m : Memory) (k : Key) : Int := (m.streak.get? k).getD 0

/-! ## Operations -/

/-- The calls and readings, and the two marks. -/
inductive Op where
  | list_episodes
  | read_episode (episode_id : PyStr)
  | append_verification (episode_id rule : PyStr) (sample : Fields) (n : Int) (stale revision : Nat)
  | append_recovery_observation (episode_id rule note hex : PyStr)
  | set_state (episode_id rule : PyStr) (expected_revision : Nat) (n : Int)
  | probe
  | telemetry
  | sample (command_id : PyStr)
  | system_alert (episode_id : PyStr) (deadline_s : Double)
  | load (bundle_id : Option PyStr)
  | now
  | uuid4
  | log_failed (episode_id : PyStr)
  | checking (episode_id : PyStr)
  | sampled (s : Sampled)

/-- What an operation returns. -/
def Res : Op → Type
  | .list_episodes => Except Exc (List EpisodeSummary)
  | .read_episode _ => Except Exc Record
  | .append_verification _ _ _ _ _ _ => Except Exc Unit
  | .append_recovery_observation _ _ _ _ => Except Exc Unit
  | .set_state _ _ _ _ => Except Exc Unit
  | .probe => Except Exc Json
  | .telemetry => Except Exc Json
  | .sample _ => Except Exc Json
  | .system_alert _ _ => Except Exc Unit
  | .load _ => Except Exc Bundle
  | .now => Double
  | .uuid4 => PyStr
  | .log_failed _ => Unit
  | .checking _ => Unit
  | .sampled _ => Unit

/-- A program that may raise. -/
abbrev Calls (α : Type) := ExceptT Exc (Prog Op Res) α

/-- A program that may raise and writes to the memory; what it wrote stays when it raises. -/
abbrev Check (α : Type) := ExceptT Exc (StateT Memory (Prog Op Res)) α

variable {α : Type}

/-- The next operation. -/
abbrev ask (o : Op) : Prog Op Res (Res o) := perform o

/-- A computation inside a program. -/
def compute (x : Except Exc α) : Calls α := ExceptT.mk (.ret x)

/-- The next operation, which may raise. -/
def call (p : Prog Op Res (Except Exc α)) : Calls α := ExceptT.mk p

/-- An operation that does not raise. -/
def reading (p : Prog Op Res α) : Calls α := ExceptT.mk (p.bind fun a => .ret (.ok a))

/-- `except RpcError`. -/
def orRpc (p : Calls α) (h : Calls α) : Calls α :=
  tryCatch p fun
    | .rpc _ _ _ => h
    | e => throw e

/-- A program that leaves the memory alone. -/
def still (p : Calls α) : Check α :=
  ExceptT.mk fun m => Prog.bind (ExceptT.run p) fun r => .ret (r, m)

/-- A write to the memory. -/
def remember (f : Memory → Memory) : Check Unit := ExceptT.mk fun m => .ret (.ok (), f m)

/-- What the memory holds. -/
def recalled (f : Memory → α) : Check α := ExceptT.mk fun m => .ret (.ok (f m), m)

/-! ## Arithmetic -/

/-- An `int`, or a `bool` as one. -/
def intOf : Json → Option Int
  | .int z => some z
  | .bool c => some (if c then 1 else 0)
  | _ => none

/-- `v * n` for an `int`; sequences are repeated. -/
def timesInt (v : Json) (n : Int) : Except Exc Json :=
  match v with
  | .float x => do
    let y ← orRaise (Double.ofInt? n) (.other .overflowError)
    pure (.float (x.mul y))
  | .str s => .ok (.str (List.replicate n.toNat s).flatten)
  | .arr xs => .ok (.arr (List.replicate n.toNat xs).flatten)
  | _ => .error (.other .typeError)

/-- `v * w`. -/
def times (v w : Json) : Except Exc Json :=
  match intOf v, intOf w with
  | some a, some b => .ok (.int (a * b))
  | some a, none => timesInt w a
  | none, some b => timesInt v b
  | none, none =>
    match v, w with
    | .float x, .float y => .ok (.float (x.mul y))
    | _, _ => .error (.other .typeError)

/-- `a > b`. -/
def above (a b : Double) : Bool := b.lt a

/-- `{**v, ...}`. -/
def spread : Json → Except Exc Fields
  | .obj kvs => .ok kvs
  | _ => .error (.other .typeError)

/-- `dict(v or {})`, for a dict. -/
def dictOf (v : Json) : Except Exc Fields :=
  match orEmpty v with
  | .obj kvs => .ok kvs
  | _ => .error (.other .typeError)

/-- `x * 60`. -/
def minutes (x : Double) : Except Exc Double := do
  let sixty ← orRaise (Double.ofInt? 60) (.other .overflowError)
  pure (x.mul sixty)

section Ticks

variable (b : Builtins)

/-! ## Sampling -/

/-- The telemetry of `_sample`. -/
def telemetryEntry (probe tel : Json) : Except Exc Json := do
  let base ← spread tel
  let reachable ← get probe "reachable"
  let latency ← get probe "latency_ms"
  let breaker ← get tel "breaker"
  let breaker ← if breaker.truthy then pure breaker else get probe "breaker"
  let isOpen ← get (orEmpty breaker) "open"
  pure (.obj (Json.insertField (py "breaker_open") (.bool isOpen.truthy)
    (Json.insertField (py "probe_latency_ms") latency
      (Json.insertField (py "probe_reachable") (.bool reachable.truthy) base))))

/-- A telemetry sample; `none` is an `RpcError`. -/
def sampleTelemetry : Calls (Option Json) :=
  orRpc (do
    let probe ← call (ask .probe)
    let tel ← call (ask .telemetry)
    let entry ← compute (telemetryEntry probe tel)
    pure (some entry))
    (pure none)

/-- `r.get("status") == "ok" and now() - float(r.get("collected_at") or 0) <= max_age_s`, as the code
tests it. -/
def usable (max_age_s : Double) (r : Json) : Calls Bool := do
  let status ← compute (get r "status")
  if status.eqStr (py "ok") then do
    let t ← reading (ask .now)
    let collected_at ← compute (get r "collected_at")
    let since ← compute (b.float (if collected_at.truthy then collected_at else .int 0))
    pure (!above (t.sub since) max_age_s)
  else pure false

/-- A command sample; `none` is an `RpcError`, or a reply that is not usable. -/
def sampleCommand (max_age_s : Double) (cid : PyStr) : Calls (Option Json) := do
  let r ← orRpc (do
      let r ← call (ask (.sample cid))
      pure (some r))
      (pure none)
  match r with
  | none => pure none
  | some r =>
    let ok ← usable b max_age_s r
    if ok then do
      let structured ← compute (get r "structured")
      let entry ← compute (dictOf structured)
      pure (some (.obj entry))
    else pure none

/-- The loop of `_sample`: what has been sampled, and whether all of it has. -/
def sampleLoop (max_age_s : Double) : Fields → Bool → List PyStr → Calls (Fields × Bool)
  | out, fresh, [] => pure (out, fresh)
  | out, fresh, cid :: cids => do
    let entry ← if cid = py "telemetry" then sampleTelemetry else sampleCommand b max_age_s cid
    match entry with
    | some entry => sampleLoop max_age_s (Json.insertField cid entry out) fresh cids
    | none => sampleLoop max_age_s out false cids

/-- The comparison with the deployment that `_sample` adds. -/
def withVersion (bundle : Bundle) (out : Fields) : Except Exc Fields :=
  match Json.lookup (py "running_version") out with
  | none => .ok out
  | some v => do
    let version ← get v "version"
    let deployment ← bundle.deployment
    let expected ← get deployment "expected_version"
    let kvs ← spread v
    pure (Json.insertField (py "running_version")
      (.obj (Json.insertField (py "version_matches_expected") (.bool (version.pyEq expected)) kvs)) out)

/-- `_sample`. -/
def takeSample (cids : List PyStr) (max_age_s : Double) (bundle : Bundle) : Calls (Fields × Bool) := do
  let (out, fresh) ← sampleLoop b max_age_s [] true cids
  let out ← compute (withVersion bundle out)
  pure (out, fresh)

/-! ## Rules -/

/-- `ep["class"]`. -/
def classOf (ep : EpisodeSummary) : Json :=
  match ep.cls with
  | some c => .str c.text
  | none => .null

/-- The condition of `rules_for`. -/
def applies (ep : EpisodeSummary) (r : Rule) : Except Exc Bool := do
  let cls ← index r.applies_to "class"
  if cls.pyEq (classOf ep) then do
    let check ← index ep.trigger "check"
    let checks ← getD r.applies_to "checks" (.arr [check])
    orRaise (check.pyIn checks) (.other .typeError)
  else pure false

/-- `rules_for`. -/
def rules_for (ep : EpisodeSummary) : List Rule → Except Exc (List Rule)
  | [] => .ok []
  | r :: rs => do
    let fits ← applies ep r
    let rest ← rules_for ep rs
    pure (if fits then r :: rest else rest)

/-- `window`. -/
def window (thresholds : Json) (r : Rule) : Except Exc Int := do
  let v ← Rules.resolve (Rules.bundleParam thresholds) r.window
  b.int v

/-- `fresh and evaluate(rule["predicate"], sample, param)`. -/
def holds (thresholds : Json) (r : Rule) (sample : Fields) (fresh : Bool) : Except Exc Bool :=
  if fresh then Rules.evaluate (Rules.bundleParam thresholds) sample r.predicate else .ok false

/-! ## Checking an episode -/

/-- The number of annotations about stale signals. -/
def staleAnnotations (rec : Record) : Nat :=
  (rec.annotations.filter fun a => a.kind.eqStr (py "stale_signals")).length

/-- `_resolve`. -/
def _resolve (e : PyStr) (rule : PyStr) (sample : Fields) (n : Int) : Calls Unit := do
  let rec ← call (ask (.read_episode e))
  if rec.state ≠ some .awaiting_operator then pure ()
  else do
    call (ask (.append_verification e rule sample n (staleAnnotations rec) rec.revision))
    let rec ← call (ask (.read_episode e))
    -- losing a race is no failure
    tryCatch (call (ask (.set_state e rule rec.revision n))) fun
      | .rpc .conflict _ _ => pure ()
      | e => throw e

/-- The notes of an observation. -/
def afterHandOff : PyStr := py "observed after hand-off; not reopened"

def duringAnalysis : PyStr := py "observed during analysis"

/-- The note of an observation for a state. -/
def noteFor (state : Option EpisodeState) : PyStr :=
  if state = some .handed_off then afterHandOff else duringAnalysis

/-- The observation of a streak. -/
def observe (ep : EpisodeSummary) (rule : PyStr) : Check Unit := do
  let hex ← still (reading (ask .uuid4))
  still (call (ask (.append_recovery_observation ep.episode_id rule (noteFor ep.state) hex)))
  if ep.state = some .handed_off then
    remember fun m => { m with recovered_after_handoff := ep.episode_id :: m.recovered_after_handoff }
  else pure ()

/-- The body of the loop of `check_episode`; whether it returned. -/
def checkRule (bundle : Bundle) (thresholds : Json) (max_age : Double) (ep : EpisodeSummary) (r : Rule) :
    Check Bool := do
  let key : Key := (ep.episode_id, r.id)
  let (sample, fresh) ← still (takeSample b r.samples max_age bundle)
  let held ← still (compute (holds thresholds r sample fresh))
  let before ← recalled (Memory.count · key)
  let n := if held then before + 1 else 0
  remember fun m => { m with streak := m.streak.set key n }
  let w := window b thresholds r
  still (reading (ask (.sampled ⟨key, ep.state, held, w, r, thresholds, max_age, sample⟩)))
  let w ← still (compute w)
  if !held then pure false
  else if ep.state = some .awaiting_operator then
    if w ≤ n then do
      still (_resolve ep.episode_id r.id sample n)
      pure true
    else pure false
  else if n = 1 then do
    observe ep r.id
    pure false
  else pure false

/-- The loop of `check_episode`; whether it returned. -/
def checkRules (bundle : Bundle) (thresholds : Json) (max_age : Double) (ep : EpisodeSummary) :
    List Rule → Check Bool
  | [] => pure false
  | r :: rs => do
    let returned ← checkRule b bundle thresholds max_age ep r
    if returned then pure true else checkRules bundle thresholds max_age ep rs

/-- The last time at which the episode went to `awaiting_operator`. -/
def awaitingSince (rec : Record) : Option Double :=
  (rec.state_history.reverse.find? fun h => h.dst = .awaiting_operator).map StateEvent.ts

/-- `_maybe_escalate`. -/
def _maybe_escalate (ep : EpisodeSummary) (thresholds : Json) : Check Unit := do
  let done ← recalled fun m => decide (ep.episode_id ∈ m.escalated)
  if ep.state ≠ some .awaiting_operator ∨ done then pure ()
  else do
    let rec ← still (call (ask (.read_episode ep.episode_id)))
    let deadline ← still (compute (Rules.bundleParam thresholds (.str (py "P-17")) (.str (py "deadline_min"))))
    let deadline ← still (compute (b.float deadline))
    let deadline_s ← still (compute (minutes deadline))
    match awaitingSince rec with
    | none => pure ()
    | some since => do
      let t ← still (reading (ask .now))
      if above (t.sub since) deadline_s then do
        -- `int(deadline_s // 60)` of the title raises for a deadline that is no number
        let _ ← still (compute (b.int (.float deadline_s)))
        let sent ← still (orRpc (do
            call (ask (.system_alert ep.episode_id deadline_s))
            pure true)
          (pure false))
        if sent then remember fun m => { m with escalated := ep.episode_id :: m.escalated } else pure ()
      else pure ()

/-- `check_episode`. -/
def check_episode (ep : EpisodeSummary) : Check Unit := do
  still (reading (ask (.checking ep.episode_id)))
  let bundle ← still (call (ask (.load ep.bundle_id)))
  let thresholds ← still (compute bundle.thresholds)
  let p15 ← still (compute (index thresholds "P-15"))
  let p01 ← still (compute (index thresholds "P-01"))
  let product ← still (compute (times p15 p01))
  let max_age ← still (compute (b.float product))
  let rules ← still (compute bundle.verifier_rules)
  let rules ← still (compute (rules_for ep rules))
  let returned ← checkRules b bundle thresholds max_age ep rules
  if returned then pure () else _maybe_escalate b ep thresholds

/-- The loop of `tick`; an exception of one episode is logged. -/
def checkAll : List EpisodeSummary → Check Unit
  | [] => pure ()
  | ep :: eps => do
    let done ← recalled fun m => decide (ep.episode_id ∈ m.recovered_after_handoff)
    if ep.state = some .resolved ∨ ep.state = some .handed_off ∧ done then checkAll eps
    else do
      tryCatch (check_episode b ep) fun _ => still (reading (ask (.log_failed ep.episode_id)))
      checkAll eps

/-- `tick`. -/
def tick : Check Unit := do
  let eps ← still (call (ask .list_episodes))
  checkAll b eps

/-- `loop`: an `RpcError` of a tick is logged, any other exception ends the thread. -/
def again (r : Except Exc Unit × Memory) : Option (Prog Op Res (Except Exc Unit × Memory)) :=
  match r.1 with
  | .ok () => some ((ExceptT.run (tick b)).run r.2)
  | .error (.rpc _ _ _) => some ((ExceptT.run (tick b)).run r.2)
  | .error (.other _) => none

end Ticks

end Valops.Verifier
