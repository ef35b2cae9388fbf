import Valops.Controller.Calls

/-!
# Pre-flight

`run` looks at the flag, the active bundle, the audit sequencer, the brokers and the sandbox, and
says why no step may start. Only an `RpcError` of the sequencer and the brokers becomes a reason;
every other exception leaves the function.
-/

set_option autoImplicit false

namespace Valops.Controller

open Py Store Conc

/-- `Preflight`. -/
structure Preflight where
  observe_only : List PyStr := []
  no_llm : List PyStr := []
  warnings : List PyStr := []

/-- `llm_allowed`. -/
def Preflight.llm_allowed (pf : Preflight) : Bool := pf.observe_only.isEmpty && pf.no_llm.isEmpty

/-- The reasons of two parts. -/
def Preflight.append (pf qf : Preflight) : Preflight :=
  ⟨pf.observe_only ++ qf.observe_only, pf.no_llm ++ qf.no_llm, pf.warnings ++ qf.warnings⟩

section Run

variable (b : Builtins)

/-- The flag. -/
def flagReasons : Calls Preflight := do
  let reason ← call (ask .flag_get)
  pure (if reason.truthy then { observe_only := [py "observe-only: " ++ b.str reason] } else {})

/-- The active bundle. -/
def bundleReasons : Calls Preflight := do
  let active ← call (ask .active)
  match active with
  | none => pure { observe_only := [py "no active bundle"] }
  | some a => do
    let r ← call (ask (.verify (.str a)))
    match r with
    | some r => pure { observe_only := [py "active bundle fails verification: " ++ b.format r] }
    | none => pure {}

/-- `1.5`. -/
def oneAndAHalf : Double := Double.ofRatio false (3 * 2 ^ binary64.unit) 2

/-- The two comparisons of the anchor lag. -/
def anchorReasons (anchor_interval_s max_anchor_lag_s lag : Json) : Except Exc Preflight := do
  let above ← if lag = .null then pure true else greater lag max_anchor_lag_s
  if above then do
    let seconds ← if lag = .null then pure (py "None") else intText <$> b.int lag
    let limit ← b.int max_anchor_lag_s
    pure { no_llm := [py "anchor lag " ++ seconds ++ py "s above P-19 (" ++ intText limit ++ py "s)"] }
  else do
    let slow ← timesFloat anchor_interval_s oneAndAHalf
    let late ← greater lag slow
    if late then do
      let seconds ← b.int lag
      pure { warnings := [py "anchor lag " ++ intText seconds ++ py "s above P-18"] }
    else pure {}

/-- What the status of the sequencer says. -/
def statusReasons (anchor_interval_s max_anchor_lag_s st : Json) : Except Exc Preflight := do
  let integrity ← get st "integrity_error"
  let lag ← get st "anchor_lag_s"
  let pf ← anchorReasons b anchor_interval_s max_anchor_lag_s lag
  pure (Preflight.append
    (if integrity.truthy then { observe_only := [py "audit chain: " ++ b.str integrity] } else {}) pf)

/-- The audit sequencer. -/
def auditReasons (anchor_interval_s max_anchor_lag_s : Json) : Calls Preflight :=
  orRpc (do
    let st ← call (ask .audit_status)
    compute (statusReasons b anchor_interval_s max_anchor_lag_s st))
  fun code _ => pure { no_llm := [py "audit sequencer unavailable: " ++ code.text] }

/-- The brokers. -/
def brokerReasons : List PyStr → Calls Preflight
  | [] => pure {}
  | name :: rest => do
    let pf ← orRpc (do
        call (ask (.ping name))
        pure ({} : Preflight))
      fun code _ => pure { no_llm := [name ++ py " unavailable: " ++ code.text] }
    let qf ← brokerReasons rest
    pure (pf.append qf)

/-- The sandbox. -/
def sandboxReasons : Calls Preflight := do
  let why ← call (ask .launcher_preflight)
  match why with
  | some why => pure { no_llm := [py "sandbox backend unavailable: " ++ why] }
  | none => pure {}

/-- `run`. -/
def run (brokers : List PyStr) (anchor_interval_s max_anchor_lag_s : Json) : Calls Preflight := do
  let flag ← flagReasons b
  let bundle ← bundleReasons b
  let audit ← auditReasons b anchor_interval_s max_anchor_lag_s
  let pings ← brokerReasons brokers
  let sandbox ← sandboxReasons
  pure ((((flag.append bundle).append audit).append pings).append sandbox)

end Run

end Valops.Controller
