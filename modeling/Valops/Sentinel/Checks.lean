import Valops.Common.Builtins
import Valops.Verifier.Check

/-!
# The rules of the sentinel

Pure functions of the samples of one tick, with thresholds from the bundle. `validator_findings` has
five rules, each on one sample that is present, ok and parsed; `telemetry_findings` looks at the probe
and at the telemetry of the broker. A comparison of values that cannot be compared raises, and so does
a threshold that the bundle does not have.
-/

set_option autoImplicit false

namespace Valops.Sentinel.Checks

open Py

/-! ## Data -/

inductive FindingClass where
  | validator_health | telemetry_health
  deriving DecidableEq

/-- The rules. -/
inductive Check where
  | unit_state | disk_headroom | delinquency | balance | version_drift
  | observer_unreachable | observer_slow | sample_stale | command_errors | rpc_breaker_open
  | watchtower_silent
  deriving DecidableEq

inductive Severity where
  | warning | high
  deriving DecidableEq

/-- `Finding`. -/
structure Finding where
  cls : FindingClass
  check : Check
  severity : Severity
  detail : PyStr
  command_ids : List PyStr := []
  deriving DecidableEq

/-- A sample: its status and its structured part, which is empty if there is none. -/
structure Sample where
  status : Json
  structured : Fields

/-- The samples of a tick. -/
abbrev Samples := PyStr → Option Sample

/-- What the rules read of a `Bundle`. -/
structure Bundle where
  thresholds : Json
  deployment : Json

/-- `_ok`. -/
def _ok (s : Option Sample) : Option Fields :=
  match s with
  | none => none
  | some s =>
    if s.status = .str (py "ok") ∧ ((Json.lookup (py "parsed") s.structured).getD .null).truthy then
      some s.structured
    else none

/-- `ConsecutiveCounter`. -/
structure ConsecutiveCounter where
  n : PyStr → Nat := fun _ => 0

/-- `update`. -/
def ConsecutiveCounter.update (c : ConsecutiveCounter) (key : PyStr) (breached : Bool) :
    Nat × ConsecutiveCounter :=
  let n := if breached then c.n key + 1 else 0
  (n, ⟨fun k => if k = key then n else c.n k⟩)

/-- `a < b`. -/
def less (a b : Json) : Except Exc Bool := orRaise (Json.pyLt a b) (.other .typeError)

/-- `isinstance(v, (int, float))`. -/
def isNumber : Json → Bool
  | .int _ => true
  | .float _ => true
  | .bool _ => true
  | _ => false

/-- `z / 2` for an integer; a quotient beyond the floats raises. -/
def halveInt (z : Int) : Except Exc Json :=
  let x := Double.ofRatio (decide (z < 0)) (z.natAbs * 2 ^ binary64.unit) 2
  if x.trunc?.isSome then .ok (.float x) else .error (.other .overflowError)

/-- `v / 2`. -/
def halve (v : Json) : Except Exc Json :=
  match v with
  | .int z => halveInt z
  | .bool c => halveInt (if c then 1 else 0)
  | .float x => .ok (.float (x.mul (Double.ofRatio false (2 ^ binary64.unit) 2)))
  | _ => .error (.other .typeError)

section Rules

variable (b : Builtins)

/-! ## Validator health -/

section Validator

variable (p : Json)

/-- A finding of `validator_findings`. -/
def validatorFinding (check : Check) (severity : Severity) (detail : Msg) (command_ids : List String) :
    Finding :=
  ⟨.validator_health, check, severity, b.format detail, command_ids.map py⟩

/-- The unit is not active. -/
def unitRule (hm : Fields) : List Finding :=
  if (Json.lookup (py "unit_active") hm).getD .null = .bool false then
    [validatorFinding b .unit_state .high
      [.text (py "unit state "), .str ((Json.lookup (py "unit_state") hm).getD .null)] ["host_metrics"]]
  else []

/-- A volume has too little room. -/
def diskRule (hm : Fields) : Except Exc (List Finding) :=
  let mf := (Json.lookup (py "min_free_pct") hm).getD .null
  if isNumber mf then do
    let floor ← index p "P-04"
    let low ← less mf floor
    pure (if low then
      [validatorFinding b .disk_headroom .high
        [.text (py "min free "), .str mf, .text (py "% < "), .str floor, .text (py "%")]
        ["host_metrics"]] else [])
  else .ok []

/-- The rules on `host_metrics`. -/
def hostRule (hm : Option Fields) : Except Exc (List Finding) :=
  match hm with
  | none => .ok []
  | some hm => do
    let disk ← diskRule b p hm
    pure (unitRule b hm ++ disk)

/-- Whether the validator is too far behind. -/
def behind (cu : Fields) : Except Exc Bool := do
  let slots ← index (.obj cu) "slots_behind"
  let p3 ← index p "P-03"
  let threshold ← index p3 "threshold"
  less threshold slots

/-- `n >= p["P-03"]["samples"]`. -/
def enough (n : Nat) : Except Exc Bool := do
  let p3 ← index p "P-03"
  let samples ← index p3 "samples"
  orRaise (Json.pyLe samples (.int n)) (.other .typeError)

/-- The finding after `n` samples. -/
def lateFinding (cu : Fields) (n : Nat) : Except Exc (List Finding) := do
  let late ← enough p n
  let slots ← index (.obj cu) "slots_behind"
  pure (if late then
    [validatorFinding b .delinquency .high
      [.str slots, .text (py " slots behind for "), .str (.int n), .text (py " samples")]
      ["catchup", "validator_monitor", "host_metrics"]] else [])

/-- The rule on `catchup`, which counts. -/
def catchupRule (cu : Option Fields) (c : ConsecutiveCounter) :
    Except Exc (List Finding) × ConsecutiveCounter :=
  match cu with
  | none => (.ok [], c)
  | some cu =>
    match behind p cu with
    | .error e => (.error e, c)
    | .ok breached =>
      let x := c.update (py "delinquency") breached
      (lateFinding b p cu x.1, x.2)

/-- The severity of a low balance. -/
def balanceSeverity (sol floor : Json) : Except Exc Severity := do
  let half ← halve floor
  let low ← less sol half
  pure (if low then .high else .warning)

/-- The rule on `identity_balance`. -/
def balanceRule (bal : Option Fields) : Except Exc (List Finding) :=
  match bal with
  | none => .ok []
  | some bal => do
    let sol ← index (.obj bal) "balance_sol"
    let floor ← index p "P-02"
    let low ← less sol floor
    if low then do
      let severity ← balanceSeverity sol floor
      pure [validatorFinding b .balance severity
        [.str sol, .text (py " SOL < floor "), .str floor] ["identity_balance"]]
    else pure []

end Validator

/-- The rule on `running_version`; the expected version is read in any case. -/
def versionRule (deployment : Json) (rv : Option Fields) : Except Exc (List Finding) := do
  let exp ← index deployment "expected_version"
  match rv with
  | none => pure []
  | some rv =>
    let v := (Json.lookup (py "version") rv).getD .null
    pure (if v.truthy && !v.pyEq exp then
      [validatorFinding b .version_drift .warning
        [.text (py "running "), .str v, .text (py " != expected "), .str exp] ["running_version"]] else [])

/-- The rules behind the counting one. -/
def laterRules (samples : Samples) (bundle : Bundle) : Except Exc (List Finding) := do
  let balance ← balanceRule b bundle.thresholds (_ok (samples (py "identity_balance")))
  let version ← versionRule b bundle.deployment (_ok (samples (py "running_version")))
  pure (balance ++ version)

/-- `validator_findings`; the counter keeps what it has counted when a later rule raises. -/
def validator_findings (samples : Samples) (bundle : Bundle) (c : ConsecutiveCounter) :
    Except Exc (List Finding) × ConsecutiveCounter :=
  match hostRule b bundle.thresholds (_ok (samples (py "host_metrics"))) with
  | .error e => (.error e, c)
  | .ok host =>
    let late := catchupRule b bundle.thresholds (_ok (samples (py "catchup"))) c
    (do
      let found ← late.1
      let more ← laterRules b samples bundle
      pure (host ++ found ++ more), late.2)

/-! ## Telemetry health -/

/-- The telemetry of one command. -/
structure CommandStats where
  age_s : Option Double
  p50_ms : Option Double
  max_ms : Option Double
  error_rate : Option Double
  timeouts : Nat

/-- `Telemetry.snapshot`, as the sentinel gets it. -/
structure TelemetryView where
  consecutive_unreachable : Nat
  last_unreachable_error : Json
  per_command : List (PyStr × CommandStats)
  breaker : Json

/-- What the sentinel has instead when the broker does not answer. -/
def noTelemetry : TelemetryView := ⟨99, .null, [], .null⟩

/-- A finding of `telemetry_findings`. -/
def telemetryFinding (check : Check) (severity : Severity) (detail : Msg) : Finding :=
  { cls := .telemetry_health, check, severity, detail := b.format detail }

/-- `p["P-15"] * p["P-01"]`. -/
def staleAfter (p : Json) : Except Exc Json := do
  let n ← index p "P-15"
  let s ← index p "P-01"
  Verifier.times n s

/-- An optional float. -/
def ofDouble (x : Option Double) : Json := (x.map Json.float).getD .null

/-- The loop that looks for a stale sample; it ends at the first. -/
def staleLoop (stale_after : Json) : List (PyStr × CommandStats) → Except Exc (List Finding)
  | [] => .ok []
  | (cid, s) :: rest =>
    if cid = py "health" then staleLoop stale_after rest
    else
      match s.age_s with
      | none => staleLoop stale_after rest
      | some age => do
        let old ← less stale_after (.float age)
        if old then
          pure [telemetryFinding b .sample_stale .high
            [.text cid, .text (py " newest sample "), .str (.float age), .text (py "s old")]]
        else staleLoop stale_after rest

/-- `float(tcfg.get(key, default))`. -/
def limit (tcfg : Json) (key : String) (default : Json) : Except Exc Double := do
  let v ← getD tcfg key default
  b.float v

/-- `s.get("error_rate") or 0`. -/
def errorRate (s : CommandStats) : Json :=
  let v := ofDouble s.error_rate
  if v.truthy then v else .int 0

/-- The loop that looks for errors; it ends at the first. -/
def errorLoop (tcfg : Json) : List (PyStr × CommandStats) → Except Exc (List Finding)
  | [] => .ok []
  | (cid, s) :: rest => do
    let max ← limit b tcfg "error_rate_max" (.float (Double.ofRatio false (2 ^ binary64.unit) 2))
    let many ← less (.float max) (errorRate s)
    if many then
      pure [telemetryFinding b .command_errors .warning
        [.text cid, .text (py " error rate "), .str (ofDouble s.error_rate)]]
    else errorLoop tcfg rest

/-- The probe took too long. -/
def slowRule (tcfg probe : Json) : Except Exc (List Finding) := do
  let lat ← get probe "latency_ms"
  if isNumber lat then do
    let max ← limit b tcfg "observer_latency_ms_max" (.int 5000)
    let slow ← less (.float max) lat
    pure (if slow then
      [telemetryFinding b .observer_slow .warning
        [.text (py "probe latency "), .str lat, .text (py " ms")]] else [])
  else pure []

/-- The breaker is open. -/
def breakerRule (telemetry : TelemetryView) (probe : Json) : Except Exc (List Finding) := do
  let mine ← get probe "breaker"
  let br := orEmpty (if telemetry.breaker.truthy then telemetry.breaker else mine)
  let isOpen ← get br "open"
  let trips ← get br "trips"
  pure (if isOpen.truthy then
    [telemetryFinding b .rpc_breaker_open .warning
      [.text (py "local-RPC breaker open (trips "), .str trips, .text (py ")")]] else [])

/-- The watchtower is silent; the age of a missing heartbeat is infinite and is no `int`. -/
def watchtowerRule (stale_after : Json) (watchtower_age_s : Option Double) : Except Exc (List Finding) :=
  match watchtower_age_s with
  | none => .ok []
  | some age => do
    let old ← less stale_after (.float age)
    if old then do
      let s ← b.int (.float age)
      pure [telemetryFinding b .watchtower_silent .warning
        [.text (py "no watchtower heartbeat for "), .str (.int s), .text (py "s")]]
    else pure []

/-- The rules that look at a reachable observer. -/
def reachableRules (telemetry : TelemetryView) (probe tcfg stale_after : Json)
    (watchtower_age_s : Option Double) : Except Exc (List Finding) := do
  let slow ← slowRule b tcfg probe
  let stale ← staleLoop b stale_after telemetry.per_command
  let errors ← errorLoop b tcfg telemetry.per_command
  let br ← breakerRule b telemetry probe
  let silent ← watchtowerRule b stale_after watchtower_age_s
  pure (slow ++ stale ++ errors ++ br ++ silent)

/-- The observer cannot be reached. -/
def unreachable (telemetry : TelemetryView) (probe : Json) : Except Exc (List Finding) := do
  let e ← get probe "error"
  let why := if e.truthy then e else telemetry.last_unreachable_error
  pure [{ cls := .telemetry_health, check := .observer_unreachable, severity := .high
          detail := (b.str why).take 200 }]

/-- `telemetry_findings`. -/
def telemetry_findings (telemetry : TelemetryView) (probe : Json) (bundle : Bundle)
    (watchtower_age_s : Option Double) : Except Exc (List Finding) := do
  let stale_after ← staleAfter bundle.thresholds
  let tcfg ← get bundle.deployment "telemetry"
  let reachable ← getD probe "reachable" (.bool false)
  if !reachable.truthy || decide (2 ≤ telemetry.consecutive_unreachable) then
    unreachable b telemetry probe
  else reachableRules b telemetry probe (orEmpty tcfg) stale_after watchtower_age_s

/-- Whether a command has no young sample. -/
def isStale (stale_after : Json) (cid : PyStr) (s : CommandStats) : Except Exc Bool :=
  if cid = py "health" then .ok false
  else
    match s.age_s with
    | none => .ok true
    | some age => less stale_after (.float age)

/-- The commands of `stale_checks`, in the order of the telemetry. -/
def staleCommands (stale_after : Json) : List (PyStr × CommandStats) → Except Exc (List PyStr)
  | [] => .ok []
  | (cid, s) :: rest => do
    let old ← isStale stale_after cid s
    let cids ← staleCommands stale_after rest
    pure (if old then cid :: cids else cids)

/-- `stale_checks`. -/
def stale_checks (telemetry : TelemetryView) (bundle : Bundle) : Except Exc (List PyStr) := do
  let stale_after ← staleAfter bundle.thresholds
  let cids ← staleCommands stale_after telemetry.per_command
  pure (cids.mergeSort (· ≤ ·))

end Rules

end Valops.Sentinel.Checks
