import Valops.Brokers.Telemetry
import Valops.Bundle.Bounds

/-!
# Telemetry findings of a healthy observer

In a run without a failure the telemetry of a command is the age of the last request for it, whoever
made it. So a tick is quiet exactly if every command that was ever requested was requested again in
time, and the heartbeat of the watchtower is recent (`healthy_run_quiet_iff`); one request for a
command that the sentinel does not poll is enough for a stale sample (`one_request_goes_stale`).
-/

set_option autoImplicit false

namespace Valops.Sentinel.Checks

open Py Brokers

/-! ## Runs -/

/-- What happens in a run: a call of the broker, or the sentinel takes the telemetry at a time and
applies its rules, with the age of the heartbeat. -/
inductive Event where
  | call (c : Call)
  | evaluate (time : Double) (watchtower_age_s : Option Double)

/-- The calls of a run. -/
def calls (run : List Event) : List Call :=
  run.filterMap fun
    | .call c => some c
    | .evaluate _ _ => none

/-- The commands that the sentinel polls. -/
def VALIDATOR_SAMPLES : List PyStr :=
  ["host_metrics", "catchup", "identity_balance", "running_version", "rpc_latency"].map py

/-- A tick of a run: its probe, the five samples and what others call meanwhile, and the rules. -/
structure Tick where
  before : List Event
  start : Double
  health : Fields
  ms : Double
  between : List Event
  time : Double
  watchtower_age_s : Option Double

namespace Tick

variable (x : Tick)

/-- The events up to the rules. -/
def events : List Event := x.before ++ .call (.probe x.start (.ok (x.health, x.ms))) :: x.between

/-- The telemetry of the tick. -/
def telemetry : TelemetryView := (telemetryAfter (calls x.events)).snapshot x.time

/-- The probe of the tick. -/
def probe : Json := (sys_probe (telemetryAfter (calls x.before)) x.start (.ok (x.health, x.ms))).1

end Tick

/-- A tick of the run. -/
structure IsTick (run : List Event) (x : Tick) : Prop where
  run_eq : ∃ after, run = x.events ++ .evaluate x.time x.watchtower_age_s :: after
  alone : ∀ e ∈ x.between, ∃ time cid answer, e = .call (.sample time cid answer)
  polled : ∀ cid ∈ VALIDATOR_SAMPLES, ∃ time answer, .call (.sample time cid answer) ∈ x.between

/-- A breaker that is closed, or none. -/
def Closed (breaker : Json) : Prop :=
  ∃ br, orEmpty breaker = .obj br ∧ ((Json.lookup (py "open") br).getD .null).truthy = false

/-- The probe finds the observer reachable, within its limit. -/
structure Prompt (b : Builtins) (bundle : Bundle) (probe : Json) : Prop where
  reachable : ∃ v, getD probe "reachable" (.bool false) = .ok v ∧ v.truthy = true
  prompt : ∃ tcfg lat max, get bundle.deployment "telemetry" = .ok tcfg ∧
    get probe "latency_ms" = .ok lat ∧
    limit b (orEmpty tcfg) "observer_latency_ms_max" (.int 5000) = .ok max ∧
    less (.float max) lat = .ok false

/-- A call without a failure. -/
def HealthyCall (b : Builtins) (bundle : Bundle) : Call → Prop
  | .probe time answer => ∃ h ms, answer = .ok (h, ms) ∧
      Prompt b bundle (sys_probe {} time answer).1 ∧
      Closed ((Json.lookup (py "breaker") h).getD .null)
  | .sample _ cid answer => ∃ res ms, answer = .ok (res, ms) ∧
      Json.lookup (py "status") res = some (.str (py "ok")) ∧
      ∀ structured, cid = py "rpc_latency" → Json.lookup (py "structured") res = some (.obj structured) →
        Closed ((Json.lookup (py "breaker") structured).getD .null)

/-- A run without a failure. -/
def Healthy (b : Builtins) (bundle : Bundle) (run : List Event) : Prop :=
  ∀ c ∈ calls run, HealthyCall b bundle c

/-- The times of the ticks. -/
def starts (run : List Event) : List Double :=
  (calls run).filterMap fun
    | .probe time _ => some time
    | .sample _ _ _ => none

/-- There is a tick every P-01 seconds. -/
def Paced (b : Builtins) (bundle : Bundle) (run : List Event) : Prop :=
  ∃ v interval, index bundle.thresholds "P-01" = .ok v ∧ b.float v = .ok interval ∧
    (starts run).IsChain fun s s' => s' = s.add interval

/-- No finding, and no command that was polled is stale. -/
def Quiet (b : Builtins) (bundle : Bundle) (x : Tick) : Prop :=
  telemetry_findings b x.telemetry x.probe bundle x.watchtower_age_s = .ok [] ∧
    ∃ stale, stale_checks x.telemetry bundle = .ok stale ∧ ∀ cid ∈ VALIDATOR_SAMPLES, cid ∉ stale

/-! ## When a tick is quiet -/

/-- The time of the last request for a command. -/
def lastRequest (cs : List Call) (cid : PyStr) : Option Double :=
  (cs.filterMap fun
    | .probe _ _ => none
    | .sample time cid' _ => if cid' = cid then some time else none).getLast?

/-- Whatever was requested was requested again in time, the heartbeat is recent, and no error is not too
much. -/
structure Fresh (b : Builtins) (bundle : Bundle) (x : Tick) : Prop where
  recent : ∃ stale_after, staleAfter bundle.thresholds = .ok stale_after ∧
    (∀ cid last, cid ≠ py "health" → lastRequest (calls x.events) cid = some last →
      less stale_after (.float ((x.time.sub last).roundTo 1)) = .ok false) ∧
    ∀ age, x.watchtower_age_s = some age → less stale_after (.float age) = .ok false
  errors : ∃ tcfg max, get bundle.deployment "telemetry" = .ok tcfg ∧
    limit b (orEmpty tcfg) "error_rate_max" (.float (Double.ofRatio false (2 ^ binary64.unit) 2)) =
      .ok max ∧ less (.float max) (.int 0) = .ok false

/-! ## The rules one at a time -/

section Rules

variable {b : Builtins} {stale_after tcfg probe : Json} {per_command : List (PyStr × CommandStats)}

theorem staleLoop_nil_iff : staleLoop b stale_after per_command = .ok [] ↔
    ∀ cid s age, (cid, s) ∈ per_command → cid ≠ py "health" → s.age_s = some age →
      less stale_after (.float age) = .ok false := by
  induction per_command with
  | nil => exact iff_of_true rfl fun _ _ _ h => absurd h List.not_mem_nil
  | cons e rest ih =>
    obtain ⟨cid, s⟩ := e
    have hskip (hno : ∀ age, cid ≠ py "health" → s.age_s = some age →
        less stale_after (.float age) = .ok false) :
        (∀ cid' s' age, (cid', s') ∈ (cid, s) :: rest → cid' ≠ py "health" → s'.age_s = some age →
          less stale_after (.float age) = .ok false) ↔ staleLoop b stale_after rest = .ok [] := by
      rw [ih]
      refine ⟨fun h cid' s' age hmem => h cid' s' age (List.mem_cons_of_mem _ hmem), ?_⟩
      intro h cid' s' age hmem hne hage
      rcases List.mem_cons.1 hmem with heq | hmem
      · cases heq
        exact hno age hne hage
      · exact h cid' s' age hmem hne hage
    rw [staleLoop]
    split
    · rename_i hc
      exact (hskip fun _ hne => absurd hc hne).symm
    · rename_i hc
      split
      · rename_i hnone
        exact (hskip fun _ _ hage => by cases hnone.symm.trans hage).symm
      · rename_i age hage
        cases hless : less stale_after (.float age) with
        | error e =>
          refine iff_of_false (fun h => by cases h) fun h => ?_
          cases hless.symm.trans (h cid s age List.mem_cons_self hc hage)
        | ok old =>
          cases old with
          | true =>
            refine iff_of_false (fun h => by cases h) fun h => ?_
            cases hless.symm.trans (h cid s age List.mem_cons_self hc hage)
          | false =>
            refine (hskip fun age' _ hage' => ?_).symm
            cases hage.symm.trans hage'
            exact hless

/-- Without errors only the limit itself can be the reason for a finding. -/
theorem errorLoop_nil_iff (h : ∀ e ∈ per_command, errorRate e.2 = .int 0) (hne : per_command ≠ []) :
    errorLoop b tcfg per_command = .ok [] ↔
      ∃ max, limit b tcfg "error_rate_max" (.float (Double.ofRatio false (2 ^ binary64.unit) 2)) =
        .ok max ∧ less (.float max) (.int 0) = .ok false := by
  induction per_command with
  | nil => exact absurd rfl hne
  | cons e rest ih =>
    obtain ⟨cid, s⟩ := e
    have hzero : errorRate s = .int 0 := h (cid, s) List.mem_cons_self
    rw [errorLoop, hzero]
    cases hlim : limit b tcfg "error_rate_max" (.float (Double.ofRatio false (2 ^ binary64.unit) 2)) with
    | error e => exact iff_of_false (fun h => by cases h) fun ⟨_, hmax, _⟩ => by cases hmax
    | ok max =>
      cases hless : less (.float max) (.int 0) with
      | error e =>
        refine iff_of_false (fun h => ?_) fun ⟨_, hmax, hfalse⟩ => ?_
        · change (less (.float max) (.int 0) >>= _) = _ at h
          rw [hless] at h
          cases h
        · cases hmax
          cases hless.symm.trans hfalse
      | ok many =>
        cases many with
        | true =>
          refine iff_of_false (fun h => ?_) fun ⟨_, hmax, hfalse⟩ => ?_
          · change (less (.float max) (.int 0) >>= _) = _ at h
            rw [hless] at h
            cases h
          · cases hmax
            cases hless.symm.trans hfalse
        | false =>
          refine iff_of_true ?_ ⟨max, rfl, hless⟩
          change (less (.float max) (.int 0) >>= _) = _
          rw [hless]
          show errorLoop b tcfg rest = _
          rcases eq_or_ne rest [] with rfl | hrest
          · rfl
          · exact (ih (fun e he => h e (List.mem_cons_of_mem _ he)) hrest).2 ⟨max, hlim, hless⟩

theorem watchtowerRule_nil_iff {age : Option Double} : watchtowerRule b stale_after age = .ok [] ↔
    ∀ a, age = some a → less stale_after (.float a) = .ok false := by
  cases age with
  | none => exact iff_of_true rfl nofun
  | some a =>
    rw [watchtowerRule]
    cases hless : less stale_after (.float a) with
    | error e =>
      exact iff_of_false (fun h => by cases h) fun h => by cases hless.symm.trans (h a rfl)
    | ok old =>
      cases old with
      | false =>
        refine iff_of_true rfl fun a' ha => ?_
        cases ha
        exact hless
      | true =>
        refine iff_of_false (fun h => ?_) fun h => by cases hless.symm.trans (h a rfl)
        change (b.int (.float a) >>= _) = _ at h
        cases hint : b.int (.float a) with
        | error e =>
          rw [hint] at h
          cases h
        | ok z =>
          rw [hint] at h
          cases h

theorem slowRule_prompt {tcfg : Json} {lat : Json} {max : Double} (hlat : get probe "latency_ms" = .ok lat)
    (hmax : limit b tcfg "observer_latency_ms_max" (.int 5000) = .ok max)
    (hless : less (.float max) lat = .ok false) : slowRule b tcfg probe = .ok [] := by
  rw [slowRule, hlat]
  show (if isNumber lat then _ else _) = _
  split
  · rw [hmax]
    change (less (.float max) lat >>= _) = _
    rw [hless]
    rfl
  · rfl

/-- A closed breaker is no finding. -/
theorem breakerRule_closed {telemetry : TelemetryView} {mine : Json} (hmine : get probe "breaker" = .ok mine)
    (h : Closed telemetry.breaker) (h' : Closed mine) : breakerRule b telemetry probe = .ok [] := by
  have hclosed : Closed (if telemetry.breaker.truthy then telemetry.breaker else mine) := by
    split
    · exact h
    · exact h'
  obtain ⟨br, hbr, hopen⟩ := hclosed
  rw [breakerRule, hmine]
  show (get (orEmpty _) "open" >>= _) = _
  rw [hbr]
  show Except.ok (if ((Json.lookup (py "open") br).getD .null).truthy then _ else _) = _
  rw [hopen]
  rfl

/-- A list of findings made of five is empty exactly if they all are. -/
theorem reachableRules_nil_iff {telemetry : TelemetryView} {age : Option Double} :
    reachableRules b telemetry probe tcfg stale_after age = .ok [] ↔
      slowRule b tcfg probe = .ok [] ∧ staleLoop b stale_after telemetry.per_command = .ok [] ∧
      errorLoop b tcfg telemetry.per_command = .ok [] ∧ breakerRule b telemetry probe = .ok [] ∧
      watchtowerRule b stale_after age = .ok [] := by
  rw [reachableRules]
  cases slowRule b tcfg probe with
  | error e => exact iff_of_false nofun nofun
  | ok slow =>
    cases staleLoop b stale_after telemetry.per_command with
    | error e => exact iff_of_false nofun nofun
    | ok stale =>
      cases errorLoop b tcfg telemetry.per_command with
      | error e => exact iff_of_false nofun nofun
      | ok errors =>
        cases breakerRule b telemetry probe with
        | error e => exact iff_of_false nofun nofun
        | ok br =>
          cases watchtowerRule b stale_after age with
          | error e => exact iff_of_false nofun nofun
          | ok silent =>
            show Except.ok (slow ++ stale ++ errors ++ br ++ silent) = _ ↔ _
            simp

/-- Where nothing is old, no command is stale. -/
theorem staleCommands_nil (h : ∀ e ∈ per_command, isStale stale_after e.1 e.2 = .ok false) :
    staleCommands stale_after per_command = .ok [] := by
  induction per_command with
  | nil => rfl
  | cons e rest ih =>
    obtain ⟨cid, s⟩ := e
    have hfirst : isStale stale_after cid s = .ok false := h (cid, s) List.mem_cons_self
    rw [staleCommands, hfirst, ih fun e he => h e (List.mem_cons_of_mem _ he)]
    rfl

end Rules

/-! ## The telemetry of a run without a failure -/

section Runs

variable {b : Builtins} {bundle : Bundle} {t : Telemetry} {cs : List Call} {c : Call} {run : List Event}

/-- What the telemetry says after calls without a failure. -/
structure Steady (cs : List Call) (t : Telemetry) : Prop where
  reached : t.consecutive_unreachable = 0
  outcomes : ∀ cid outs, t.outcomes.get? cid = some outs →
    outs ≠ [] ∧ ∀ o ∈ outs, o = .str (py "ok")
  known : ∀ cid, (t.outcomes.get? cid).isSome = true ↔ (t.last_ok.get? cid).isSome = true
  last : ∀ cid, cid ≠ py "health" → t.last_ok.get? cid = lastRequest cs cid
  breaker : Closed t.breaker

theorem steady_nil : Steady [] {} :=
  ⟨rfl, nofun, fun _ => Iff.rfl, fun _ _ => rfl, [], rfl, rfl⟩

theorem lastRequest_snoc {cid : PyStr} : lastRequest (cs ++ [c]) cid =
    match c with
    | .probe _ _ => lastRequest cs cid
    | .sample time cid' _ => if cid' = cid then some time else lastRequest cs cid := by
  rw [lastRequest, List.filterMap_append, List.getLast?_append]
  cases c with
  | probe time answer => rfl
  | sample time cid' answer =>
    by_cases h : cid' = cid
    · simp [h]
    · simp [h, lastRequest]

/-- The record of one more success. -/
theorem Steady.record {time : Double} {cid : PyStr} {ms : Option Double} (h : Steady cs t)
    (hlast : ∀ k, k ≠ py "health" →
      lastRequest (cs ++ [c]) k = if cid = k then some time else lastRequest cs k) :
    Steady (cs ++ [c]) (t.record time cid (.str (py "ok")) ms) := by
  have hout : (t.record time cid (.str (py "ok")) ms).outcomes = _ := Telemetry.record_outcomes
  obtain ⟨hreached, hok⟩ := @Telemetry.record_ok t time cid ms
  refine ⟨hreached, fun k outs hk => ?_, fun k => ?_, fun k hne => ?_, ?_⟩
  · rw [hout] at hk
    by_cases hc : k = cid
    · rw [hc, Dict.get?_set_self] at hk
      cases hk
      refine ⟨push_ne_nil _ _, fun o ho => ?_⟩
      rcases mem_push ho with ho | rfl
      · cases hold : t.outcomes.get? cid with
        | none =>
          rw [hold] at ho
          exact absurd ho List.not_mem_nil
        | some outs =>
          rw [hold] at ho
          exact (h.outcomes cid outs hold).2 o ho
      · rfl
    · rw [Dict.get?_set_of_ne _ hc] at hk
      exact h.outcomes k outs hk
  · rw [hout, hok]
    by_cases hc : k = cid
    · rw [hc, Dict.get?_set_self, Dict.get?_set_self]
      exact Iff.rfl
    · rw [Dict.get?_set_of_ne _ hc, Dict.get?_set_of_ne _ hc]
      exact h.known k
  · rw [hok, hlast k hne]
    by_cases hc : k = cid
    · rw [hc, Dict.get?_set_self, if_pos rfl]
    · rw [Dict.get?_set_of_ne _ hc, if_neg (Ne.symm hc)]
      exact h.last k hne
  · rw [Telemetry.record_breaker]
    exact h.breaker

theorem Steady.with_breaker {breaker : Json} (h : Steady cs t) (hb : Closed breaker) :
    Steady cs { t with breaker := breaker } :=
  ⟨h.reached, h.outcomes, h.known, h.last, hb⟩

/-- **One more call without a failure.** -/
theorem Steady.step (h : Steady cs t) (hc : HealthyCall b bundle c) : Steady (cs ++ [c]) (c.run t) := by
  cases c with
  | probe time answer =>
    obtain ⟨hs, ms, rfl, -, hclosed⟩ := hc
    refine (h.record fun k hne => ?_).with_breaker hclosed
    rw [lastRequest_snoc, if_neg (Ne.symm hne)]
  | sample time cid answer =>
    obtain ⟨res, ms, rfl, hstatus, hclosed⟩ := hc
    have hrec : Steady (cs ++ [.sample time cid (.ok (res, ms))])
        (t.record time cid (.str (py "ok")) (some ms)) :=
      h.record fun k _ => by rw [lastRequest_snoc]
    unfold Call.run
    dsimp only [Brokers._sample]
    rw [hstatus, Option.getD_some]
    split
    · rename_i structured hcid hst
      exact hrec.with_breaker (hclosed structured (beq_iff_eq.1 hcid) hst)
    · exact hrec

/-- **After any calls without a failure.** -/
theorem steady_after (h : ∀ c ∈ cs, HealthyCall b bundle c) : Steady cs (telemetryAfter cs) := by
  induction cs using List.reverseRecOn with
  | nil => exact steady_nil
  | append_singleton cs c ih =>
    rw [telemetryAfter_snoc]
    have hfront := ih fun d hd => h d (List.mem_append_left _ hd)
    exact hfront.step (h c (List.mem_append_right _ (List.mem_singleton_self c)))

/-- No error among successes. -/
theorem errorRate_ok {outs : List Json} (h : ∀ o ∈ outs, o = .str (py "ok")) :
    (Json.float (Telemetry.errorRate outs)).truthy = false := by
  have hnone : (outs.filter fun o => decide (o ≠ .str (py "ok"))) = [] :=
    List.filter_eq_nil_iff.2 fun o ho => by simp [h o ho]
  rw [Telemetry.errorRate, hnone, List.length_nil, Nat.zero_mul, Double.ofRatio_zero, Double.roundTo_zero]
  decide +kernel

/-- What a snapshot has of a command. -/
theorem Steady.stats (h : Steady cs t) {time : Double} {cid : PyStr} (hcid : cid ∈ t.commands) :
    errorRate (t.stats time cid) = .int 0 ∧ (cid ≠ py "health" →
      ∃ last, lastRequest cs cid = some last ∧
        (t.stats time cid).age_s = some ((time.sub last).roundTo 1)) := by
  have hseen : (t.outcomes.get? cid).isSome = true := by
    rcases Telemetry.mem_commands.1 hcid with hs | hs
    · exact hs
    · exact (h.known cid).2 hs
  obtain ⟨outs, houts⟩ := Option.isSome_iff_exists.1 hseen
  obtain ⟨last, hlast⟩ := Option.isSome_iff_exists.1 ((h.known cid).1 hseen)
  obtain ⟨hne, hok⟩ := h.outcomes cid outs houts
  constructor
  · have hrate : (t.stats time cid).error_rate = some (Telemetry.errorRate outs) := by
      unfold Telemetry.stats
      dsimp only
      rw [houts, Option.getD_some, if_neg hne]
    rw [errorRate, hrate]
    show (if (Json.float (Telemetry.errorRate outs)).truthy then _ else _) = _
    rw [errorRate_ok hok]
    rfl
  · intro hc
    refine ⟨last, (h.last cid hc).symm.trans hlast, ?_⟩
    unfold Telemetry.stats
    dsimp only
    rw [hlast]
    rfl

/-- Only what was requested, or the probe, has an entry. -/
theorem Steady.requested (h : Steady cs t) {cid : PyStr} {last : Double} (hne : cid ≠ py "health")
    (hlast : lastRequest cs cid = some last) : cid ∈ t.commands :=
  Telemetry.mem_commands.2 (.inr (by rw [h.last cid hne, hlast]; rfl))

end Runs

/-! ## A tick of a run -/

section Ticks

variable {b : Builtins} {bundle : Bundle} {run : List Event} {x : Tick}

theorem calls_append (xs ys : List Event) : calls (xs ++ ys) = calls xs ++ calls ys :=
  List.filterMap_append ..

theorem calls_events : calls x.events =
    calls x.before ++ .probe x.start (.ok (x.health, x.ms)) :: calls x.between :=
  calls_append _ _

/-- The calls up to a tick are without a failure. -/
theorem IsTick.healthy (h : IsTick run x) (hrun : Healthy b bundle run) :
    ∀ c ∈ calls x.events, HealthyCall b bundle c := by
  obtain ⟨after, rfl⟩ := h.run_eq
  intro c hc
  refine hrun c ?_
  rw [calls_append]
  exact List.mem_append_left _ hc

/-- Some command is in the telemetry: that of the probe. -/
theorem Steady.probed (h : Steady (calls x.events) (telemetryAfter (calls x.events)))
    (htick : IsTick run x) : (telemetryAfter (calls x.events)).commands ≠ [] := by
  obtain ⟨time, answer, hmem⟩ := htick.polled (py "catchup") (by decide)
  have hreq : time ∈ (calls x.events).filterMap fun
      | .probe _ _ => none
      | .sample time cid' _ => if cid' = py "catchup" then some time else none := by
    refine List.mem_filterMap.2 ⟨.sample time (py "catchup") answer, ?_, if_pos rfl⟩
    rw [calls_events]
    refine List.mem_append_right _ (List.mem_cons_of_mem _ ?_)
    exact List.mem_filterMap.2 ⟨_, hmem, rfl⟩
  have hlast : (lastRequest (calls x.events) (py "catchup")).isSome = true := by
    rw [lastRequest, List.getLast?_isSome]
    exact List.ne_nil_of_mem hreq
  obtain ⟨last, hlast⟩ := Option.isSome_iff_exists.1 hlast
  exact List.ne_nil_of_mem (h.requested (by decide) hlast)

/-- What the probe of a tick answers. -/
theorem IsTick.probe_answer (h : IsTick run x) (hrun : Healthy b bundle run) :
    Prompt b bundle x.probe ∧ ∃ mine, get x.probe "breaker" = .ok mine ∧ Closed mine := by
  have hmem : Call.probe x.start (.ok (x.health, x.ms)) ∈ calls x.events := by
    rw [calls_events]
    exact List.mem_append_right _ List.mem_cons_self
  obtain ⟨hs, ms, heq, hprompt, hclosed⟩ := h.healthy hrun _ hmem
  cases heq
  refine ⟨hprompt, _, rfl, ?_⟩
  rw [Register.lookup_merge]
  cases hb : Json.lookup (py "breaker") x.health with
  | none => exact ⟨[], rfl, rfl⟩
  | some mine =>
    rw [hb] at hclosed
    exact hclosed

/-- **A tick of a run without a failure** is quiet exactly if everything that was ever requested was
requested again in time and the heartbeat of the watchtower is recent. -/
theorem healthy_run_quiet_iff (hrun : Healthy b bundle run) (h : IsTick run x) :
    Quiet b bundle x ↔ Fresh b bundle x := by
  have hsteady : Steady (calls x.events) (telemetryAfter (calls x.events)) :=
    steady_after (h.healthy hrun)
  obtain ⟨⟨⟨v, hv, hreach⟩, tcfg, lat, max, htcfg, hlat, hmax, hprompt⟩, mine, hmine, hclosed⟩ :=
    h.probe_answer hrun
  have hentries : ∀ e ∈ x.telemetry.per_command, errorRate e.2 = .int 0 ∧ (e.1 ≠ py "health" →
      ∃ last, lastRequest (calls x.events) e.1 = some last ∧
        e.2.age_s = some ((x.time.sub last).roundTo 1)) := by
    intro e he
    obtain ⟨cid, hcid, rfl⟩ := List.mem_map.1 he
    exact hsteady.stats hcid
  have hne : x.telemetry.per_command ≠ [] := by
    rw [Tick.telemetry, Telemetry.snapshot, Ne, List.map_eq_nil_iff]
    exact hsteady.probed h
  -- the findings, rule by rule
  have hrules : ∀ stale_after, staleAfter bundle.thresholds = .ok stale_after →
      (telemetry_findings b x.telemetry x.probe bundle x.watchtower_age_s = .ok [] ↔
        (∀ cid last, cid ≠ py "health" → lastRequest (calls x.events) cid = some last →
          less stale_after (.float ((x.time.sub last).roundTo 1)) = .ok false) ∧
        (∃ max, limit b (orEmpty tcfg) "error_rate_max"
          (.float (Double.ofRatio false (2 ^ binary64.unit) 2)) = .ok max ∧
          less (.float max) (.int 0) = .ok false) ∧
        ∀ age, x.watchtower_age_s = some age → less stale_after (.float age) = .ok false) := by
    intro stale_after hstale
    have hreached : ¬ ((!v.truthy || decide (2 ≤ x.telemetry.consecutive_unreachable)) = true) := by
      have hzero : x.telemetry.consecutive_unreachable = 0 := hsteady.reached
      rw [hreach, hzero]
      exact Bool.false_ne_true
    have hloop : staleLoop b stale_after x.telemetry.per_command = .ok [] ↔
        ∀ cid last, cid ≠ py "health" → lastRequest (calls x.events) cid = some last →
          less stale_after (.float ((x.time.sub last).roundTo 1)) = .ok false := by
      rw [staleLoop_nil_iff]
      constructor
      · intro hall cid last hc hlast
        have hmem := hsteady.requested hc hlast
        have hentry : (cid, (telemetryAfter (calls x.events)).stats x.time cid) ∈
            x.telemetry.per_command := List.mem_map_of_mem hmem
        obtain ⟨last', hlast', hage⟩ := (hentries _ hentry).2 hc
        cases hlast.symm.trans hlast'
        exact hall cid _ _ hentry hc hage
      · intro hall cid s age hmem hc hage
        obtain ⟨-, hlast⟩ := hentries (cid, s) hmem
        obtain ⟨last, hlast, hage'⟩ := hlast hc
        cases hage'.symm.trans hage
        exact hall cid last hc hlast
    rw [telemetry_findings, hstale, ok_bind, htcfg, ok_bind, hv, ok_bind, if_neg hreached,
      reachableRules_nil_iff, hloop, watchtowerRule_nil_iff,
      errorLoop_nil_iff (fun e he => (hentries e he).1) hne]
    have hslow : slowRule b (orEmpty tcfg) x.probe = .ok [] := slowRule_prompt hlat hmax hprompt
    have hbreaker : breakerRule b x.telemetry x.probe = .ok [] :=
      breakerRule_closed hmine hsteady.breaker hclosed
    simp [hslow, hbreaker]
  constructor
  · rintro ⟨hquiet, -⟩
    cases hstale : staleAfter bundle.thresholds with
    | error e =>
      rw [telemetry_findings, hstale] at hquiet
      cases hquiet
    | ok stale_after =>
      obtain ⟨hrecent, ⟨max, hlim, hless⟩, hwatch⟩ := (hrules stale_after hstale).1 hquiet
      exact ⟨⟨stale_after, hstale, hrecent, hwatch⟩, tcfg, max, htcfg, hlim, hless⟩
  · rintro ⟨⟨stale_after, hstale, hrecent, hwatch⟩, tcfg', max, htcfg', hlim, hless⟩
    cases htcfg.symm.trans htcfg'
    refine ⟨(hrules stale_after hstale).2 ⟨hrecent, ⟨max, hlim, hless⟩, hwatch⟩, [], ?_, ?_⟩
    · have hnone : staleCommands stale_after x.telemetry.per_command = .ok [] := by
        refine staleCommands_nil fun e he => ?_
        rw [isStale]
        split
        · rfl
        · rename_i hc
          obtain ⟨last, hlast, hage⟩ := (hentries e he).2 hc
          rw [hage]
          exact hrecent e.1 last hc hlast
      rw [stale_checks, hstale, ok_bind, hnone, ok_bind, List.mergeSort_nil]
      rfl
    · exact fun cid _ => List.not_mem_nil

end Ticks

/-! ## One request -/

/-- A number of seconds. -/
def seconds (n : Int) : Double := (Double.ofInt? n).getD .zero

/-- A check each minute, and stale after two. -/
def minuteBundle : Bundle :=
  ⟨.mkObj [(py "P-01", .int 60), (py "P-15", .int 2)], .obj []⟩

/-- A successful request at a time. -/
def request (time : Double) (cid : PyStr) : Event :=
  .call (.sample time cid (.ok ([(py "status", .str (py "ok"))], .zero)))

/-- A tick at a time after some events, at which everything answers at once. -/
def tickAt (before : List Event) (time : Double) : Tick where
  before := before
  start := time
  health := []
  ms := .zero
  between := VALIDATOR_SAMPLES.map (request time)
  time := time
  watchtower_age_s := none

/-- The events with that tick. -/
def andTick (before : List Event) (time : Double) : List Event :=
  (tickAt before time).events ++ [.evaluate time none]

/-- After the first tick someone asks for the log, once. -/
def oneRequest : List Event :=
  andTick (andTick (andTick [] (seconds 0) ++ [request (seconds 5) (py "log_tail")]) (seconds 60))
    (seconds 120)

theorem float_int {b : Builtins} {z : Int} {x : Double} (h : Double.ofInt? z = some x) :
    b.float (.int z) = .ok x := by
  rw [Builtins.float, h]
  rfl

/-- Without a configuration the limits are the defaults. -/
theorem limit_default {b : Builtins} {key : String} {default : Json} :
    limit b (orEmpty .null) key default = b.float default := rfl

theorem isTick_last (before : List Event) (time : Double) :
    IsTick (andTick before time) (tickAt before time) := by
  refine ⟨⟨[], rfl⟩, fun e he => ?_, fun cid hcid => ?_⟩
  · obtain ⟨cid, -, rfl⟩ := List.mem_map.1 he
    exact ⟨_, _, _, rfl⟩
  · exact ⟨_, _, List.mem_map_of_mem hcid⟩

theorem request_healthy {time : Double} {cid : PyStr} :
    Healthy sampleBuiltins minuteBundle [request time cid] := by
  refine List.forall_mem_singleton.2 ⟨_, _, rfl, rfl, fun structured _ hs => ?_⟩
  cases hs

theorem Healthy.append {b : Builtins} {bundle : Bundle} {xs ys : List Event} (h : Healthy b bundle xs)
    (h' : Healthy b bundle ys) : Healthy b bundle (xs ++ ys) := by
  rw [Healthy, calls_append]
  exact List.forall_mem_append.2 ⟨h, h'⟩

theorem andTick_healthy {before : List Event} {time : Double}
    (h : Healthy sampleBuiltins minuteBundle before) :
    Healthy sampleBuiltins minuteBundle (andTick before time) := by
  have hlimit : (Double.ofInt? 5000).isSome = true := by decide +kernel
  obtain ⟨max, hmax⟩ := Option.isSome_iff_exists.1 hlimit
  have hless : (Double.ofInt? 5000).all fun max =>
      (less (.float max) (.float (Double.zero.roundTo 1))).toOption == some false := by decide +kernel
  rw [hmax, Option.all_some, beq_iff_eq] at hless
  have hprobe : HealthyCall sampleBuiltins minuteBundle (.probe time (.ok ([], .zero))) := by
    refine ⟨_, _, rfl, ⟨⟨.bool true, rfl, rfl⟩, .null, _, max, rfl, rfl, ?_, toOption_eq_some.1 hless⟩,
      [], rfl, rfl⟩
    rw [limit_default]
    exact float_int hmax
  have hsamples : Healthy sampleBuiltins minuteBundle (VALIDATOR_SAMPLES.map (request time)) := by
    intro c hc
    obtain ⟨e, he, hce⟩ := List.mem_filterMap.1 hc
    obtain ⟨cid, -, rfl⟩ := List.mem_map.1 he
    exact request_healthy c (List.mem_filterMap.2 ⟨_, List.mem_singleton_self _, hce⟩)
  refine (h.append ?_).append nofun
  exact List.forall_mem_cons.2 ⟨hprobe, hsamples⟩

/-- **One request goes stale.** Someone asks for the log once, everything succeeds, and three minutes
later there is an incident. -/
theorem one_request_goes_stale : ¬ ∀ (b : Builtins) (bundle : Bundle) (run : List Event),
    Healthy b bundle run → Paced b bundle run → ∀ x, IsTick run x → Quiet b bundle x := by
  intro h
  have hhealthy : Healthy sampleBuiltins minuteBundle (andTick oneRequest (seconds 180)) :=
    andTick_healthy (andTick_healthy (andTick_healthy
      ((andTick_healthy (fun _ hc => absurd hc List.not_mem_nil)).append request_healthy)))
  have hpaced : Paced sampleBuiltins minuteBundle (andTick oneRequest (seconds 180)) := by
    have hsome : (Double.ofInt? 60).isSome = true := by decide +kernel
    obtain ⟨interval, hint⟩ := Option.isSome_iff_exists.1 hsome
    have hchain : (Double.ofInt? 60).all fun interval => decide
        ((starts (andTick oneRequest (seconds 180))).IsChain fun s s' => s' = s.add interval) := by
      decide +kernel
    rw [hint, Option.all_some, decide_eq_true_iff] at hchain
    exact ⟨.int 60, interval, rfl, float_int hint, hchain⟩
  obtain ⟨hquiet, -⟩ := h _ _ _ hhealthy hpaced _ (isTick_last oneRequest (seconds 180))
  have hfound : ((telemetry_findings sampleBuiltins (tickAt oneRequest (seconds 180)).telemetry
      (tickAt oneRequest (seconds 180)).probe minuteBundle none).toOption.map List.length) = some 1 := by
    decide +kernel
  change telemetry_findings sampleBuiltins (tickAt oneRequest (seconds 180)).telemetry
    (tickAt oneRequest (seconds 180)).probe minuteBundle none = _ at hquiet
  rw [hquiet] at hfound
  cases hfound

/-- Without that request the first tick is quiet. -/
theorem first_tick_quiet : Quiet sampleBuiltins minuteBundle (tickAt [] (seconds 0)) := by
  have hhealthy : Healthy sampleBuiltins minuteBundle (andTick [] (seconds 0)) :=
    andTick_healthy fun _ hc => absurd hc List.not_mem_nil
  refine (healthy_run_quiet_iff hhealthy (isTick_last [] (seconds 0))).2 ⟨⟨.int 120, rfl, ?_, nofun⟩, ?_⟩
  · -- every request is of that time
    intro cid last _ hlast
    obtain ⟨c, hc, hcid⟩ := List.mem_filterMap.1 (List.mem_of_getLast? hlast)
    obtain ⟨e, he, hec⟩ := List.mem_filterMap.1 hc
    have hzero : last = seconds 0 := by
      rcases List.mem_cons.1 he with rfl | he
      · cases hec
        cases hcid
      · obtain ⟨cid', -, rfl⟩ := List.mem_map.1 he
        cases hec
        dsimp only at hcid
        split at hcid
        · exact (Option.some.inj hcid).symm
        · cases hcid
    rw [hzero]
    exact toOption_eq_some.1 (by decide +kernel)
  · exact ⟨.null, _, rfl, limit_default, toOption_eq_some.1 (by decide +kernel)⟩

end Valops.Sentinel.Checks
