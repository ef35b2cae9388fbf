import Valops.Bundle.Params
import Valops.Sentinel.Checks

/-!
# The telemetry of the observer broker

One object for all callers: the probes of the sentinel, its samples, and the samples of the workers and
of the verifier. A call of the daemon is what the client has of it, which is the text of an
`ObserverUnreachable` or the response and its latency. The lock makes the calls of all threads one
sequence.
-/

set_option autoImplicit false

namespace Valops.Brokers

open Py Sentinel.Checks

/-- `append` on a `deque` of at most 50. -/
def push {α : Type} (x : α) (xs : List α) : List α := (xs ++ [x]).drop (xs.length + 1 - 50)

/-- `Telemetry`. -/
structure Telemetry where
  last_ok : Dict PyStr Double := []
  latency : Dict PyStr (List Double) := []
  outcomes : Dict PyStr (List Json) := []
  consecutive_unreachable : Nat := 0
  last_unreachable_error : Json := .null
  breaker : Json := .null

namespace Telemetry

variable (t : Telemetry) (time : Double) (command_id : PyStr)

/-- `record` at a time of the wall clock. -/
def record (status : Json) (latency_ms : Option Double) : Telemetry :=
  let outcomes := t.outcomes.set command_id (push status ((t.outcomes.get? command_id).getD []))
  if status = .str (py "unreachable") then
    { t with outcomes, consecutive_unreachable := t.consecutive_unreachable + 1 }
  else
    { t with
      outcomes, consecutive_unreachable := 0
      latency :=
        match latency_ms with
        | none => t.latency
        | some ms => t.latency.set command_id (push ms ((t.latency.get? command_id).getD []))
      last_ok := if status = .str (py "ok") then t.last_ok.set command_id time else t.last_ok }

/-- The part of `error_rate` that is not `ok`, to three places. -/
def errorRate (outs : List Json) : Double :=
  let errors := (outs.filter fun o => decide (o ≠ .str (py "ok"))).length
  (Double.ofRatio false (errors * 2 ^ binary64.unit) outs.length).roundTo 3

/-- What a snapshot has of one command. -/
def stats : CommandStats :=
  let lat := ((t.latency.get? command_id).getD []).mergeSort fun x y => !y.lt x
  let outs := (t.outcomes.get? command_id).getD []
  { age_s := (t.last_ok.get? command_id).map fun last => (time.sub last).roundTo 1
    p50_ms := lat[lat.length / 2]?
    max_ms := lat.getLast?
    error_rate := if outs = [] then none else some (errorRate outs)
    timeouts := (outs.filter fun o => decide (o = .str (py "timeout"))).length }

/-- `set(self.outcomes) | set(self.last_ok)`. -/
def commands : List PyStr :=
  let known := t.outcomes.map Prod.fst
  known ++ (t.last_ok.map Prod.fst).filter fun cid => decide (cid ∉ known)

/-- `snapshot`. -/
def snapshot : TelemetryView where
  consecutive_unreachable := t.consecutive_unreachable
  last_unreachable_error := t.last_unreachable_error
  per_command := t.commands.map fun cid => (cid, t.stats time cid)
  breaker := t.breaker

end Telemetry

/-! ## The calls of the daemon -/

/-- What the client has of a call. -/
abbrev Answer := Except PyStr (Fields × Double)

section Calls

variable (t : Telemetry) (time : Double)

/-- The daemon was not reached. -/
def Telemetry.unreached (command_id text : PyStr) : Telemetry :=
  { t with last_unreachable_error := .str (text.take 300) }.record time command_id
    (.str (py "unreachable")) none

/-- `_sample`. -/
def _sample (command_id : PyStr) (answer : Answer) : Json × Telemetry :=
  match answer with
  | .error text =>
    (.mkObj [(py "command_id", .str command_id), (py "status", .str (py "unreachable")),
      (py "structured", .mkObj [(py "error", .str (text.take 300))]), (py "output", .str []),
      (py "truncated", .bool false), (py "flags", .arr []), (py "collected_at", .float time)],
      t.unreached time command_id text)
  | .ok (res, ms) =>
    let status := (Json.lookup (py "status") res).getD (.str (py "error"))
    let t := t.record time command_id status (some ms)
    let t :=
      match command_id == py "rpc_latency", Json.lookup (py "structured") res with
      | true, some (.obj structured) =>
        { t with breaker := (Json.lookup (py "breaker") structured).getD .null }
      | _, _ => t
    (.obj (Json.insertField (py "broker_latency_ms") (.float (ms.roundTo 1)) res), t)

/-- `sys_probe`; what the daemon says of its health comes last. -/
def sys_probe (answer : Answer) : Json × Telemetry :=
  match answer with
  | .error text =>
    (.mkObj [(py "reachable", .bool false), (py "error", .str (text.take 300))],
      t.unreached time (py "health") text)
  | .ok (h, ms) =>
    (.obj (Register.merge
        (Json.mkFields [(py "reachable", .bool true), (py "latency_ms", .float (ms.roundTo 1))]) h),
      { t.record time (py "health") (.str (py "ok")) (some ms) with
        breaker := (Json.lookup (py "breaker") h).getD .null })

/-- A call that the broker makes for someone. -/
inductive Call where
  | probe (time : Double) (answer : Answer)
  | sample (time : Double) (command_id : PyStr) (answer : Answer)

/-- What a call leaves. -/
def Call.run : Call → Telemetry
  | .probe time answer => (sys_probe t time answer).2
  | .sample time command_id answer => (_sample t time command_id answer).2

/-- The telemetry after some calls. -/
def telemetryAfter (calls : List Call) : Telemetry := calls.foldl Call.run {}

theorem telemetryAfter_snoc (calls : List Call) (c : Call) :
    telemetryAfter (calls ++ [c]) = c.run (telemetryAfter calls) := by
  rw [telemetryAfter, List.foldl_append]
  rfl

end Calls

/-! ## Lemmas -/

section Lemmas

variable {t : Telemetry} {time : Double} {cid : PyStr} {status : Json} {ms : Option Double}

theorem push_ne_nil {α : Type} (x : α) (xs : List α) : push x xs ≠ [] := by
  rw [push, Ne, List.drop_eq_nil_iff, List.length_append, List.length_singleton]
  omega

theorem mem_push {α : Type} {x y : α} {xs : List α} (h : y ∈ push x xs) : y ∈ xs ∨ y = x :=
  (List.mem_append.1 (List.mem_of_mem_drop h)).imp_right List.mem_singleton.1

theorem Telemetry.record_breaker : (t.record time cid status ms).breaker = t.breaker := by
  unfold Telemetry.record
  split <;> rfl

theorem Telemetry.record_outcomes : (t.record time cid status ms).outcomes =
    t.outcomes.set cid (push status ((t.outcomes.get? cid).getD [])) := by
  unfold Telemetry.record
  split <;> rfl

/-- What a successful call leaves. -/
theorem Telemetry.record_ok : (t.record time cid (.str (py "ok")) ms).consecutive_unreachable = 0 ∧
    (t.record time cid (.str (py "ok")) ms).last_ok = t.last_ok.set cid time := by
  have hne : (Json.str (py "ok")) ≠ .str (py "unreachable") := by decide
  unfold Telemetry.record
  dsimp only
  rw [if_neg hne]
  exact ⟨rfl, by simp⟩

theorem Telemetry.mem_commands : cid ∈ t.commands ↔
    (t.outcomes.get? cid).isSome = true ∨ (t.last_ok.get? cid).isSome = true := by
  rw [Dict.get?_isSome_iff, Dict.get?_isSome_iff, Telemetry.commands, List.mem_append, List.mem_filter,
    decide_eq_true_iff]
  exact ⟨Or.imp_right And.left, fun h => h.elim .inl fun hl => (em _).imp_right fun hn => ⟨hl, hn⟩⟩

end Lemmas

end Valops.Brokers
