import Valops.Brokers.Catalogue
import Valops.Py.JsonLines

/-!
# The alerts of the report broker

What the broker does with alerts beside `send_alert`: the alerts of the controller and the verifier,
acknowledgement, the tick that re-sends and escalates, and the table read back from `alerts.jsonl`.

A tick goes through the alerts as they were when it began. The sink is asked once for each alert that is
due; what it accepted is part of the tick's result.
-/

set_option autoImplicit false

namespace Valops.Brokers

open Py Store

/-! ## Alerts as dictionaries -/

/-- `{**a, **upd}`, and what `a` is after `a.update(upd)`. -/
def update (a upd : Fields) : Fields := upd.foldl (fun acc kv => Json.insertField kv.1 kv.2 acc) a

/-- `a.get(k)`. -/
def field (a : Fields) (k : String) : Json := (Json.lookup (py k) a).getD .null

/-! ## The parts of a dispatch -/

/-- The fields that `_dispatch` adds. -/
def stamps (w : ReadWorld) (ack : Json) : Fields :=
  [(py "alert_id", .str w.uuid), (py "sent_ts", .float w.sent_ts), (py "development", .bool w.development),
    (py "ack", ack), (py "acked", .bool false), (py "resent", .bool false), (py "escalated", .bool false)]

/-- The sends of the last hour. -/
def Alerts.recent (al : Alerts) (t : Double) : List Double :=
  al.sent_times.filter fun x => (t.sub x).lt (Double.ofRatio false (3600 * 2 ^ binary64.unit) 1)

/-- The cap on alerts is reached for this one. -/
def Alerts.capped (al : Alerts) (t : Double) (alert : Fields) : Prop :=
  MAX_ALERTS_PER_HOUR ≤ (al.recent t).length ∧
    Json.lookup (py "severity") alert ≠ some (.str (py "critical"))

instance (al : Alerts) (t : Double) (alert : Fields) : Decidable (al.capped t alert) :=
  inferInstanceAs (Decidable (_ ∧ _))

/-- The locked part after the send: the alert gets into the table and into the log. -/
def registerAlert (written : Except Exc Unit) (al : Alerts) (id : PyStr) (alert : Fields) :
    Except Exc Unit × Alerts :=
  let al := { al with alerts := Dict.set al.alerts id alert }
  match _log written al.log (sentEvent alert) with
  | .error e => (.error e, al)
  | .ok log => (.ok (), { al with log })

/-- **`_dispatch` is its parts, one after the other.** -/
theorem dispatch_parts {alert : Fields} (h : Json.SortedKeys alert) (w : ReadWorld) (al : Alerts) :
    _dispatch w al alert =
      if al.capped w.dispatched alert then
        (do
          let _ ← w.audit "alert"
          throw (rpcError .rate_limited (msg "alert rate cap reached")),
          { al with sent_times := al.recent w.dispatched })
      else
        let al := { al with sent_times := al.recent w.dispatched ++ [w.dispatched] }
        match w.sink with
        | .error text => (.error (rpcError .alert_failed [.text text]), al)
        | .ok ack =>
          let sent := update alert (stamps w ack)
          let r := registerAlert w.log al w.uuid sent
          (do
            r.1
            let _ ← w.audit "alert"
            pure sent, r.2) := by
  have hfields : ∀ ack, Json.mkFields (alert ++ stamps w ack) = update alert (stamps w ack) := by
    intro ack
    rw [Json.mkFields, List.foldl_append, ← Json.mkFields, Json.mkFields_sorted h]
    rfl
  unfold _dispatch
  dsimp only
  by_cases hcap : al.capped w.dispatched alert
  · refine Eq.trans (if_pos hcap) ?_
    rw [if_pos hcap]
    rfl
  · refine Eq.trans (if_neg hcap) ?_
    rw [if_neg hcap]
    cases hsink : w.sink with
    | error text => rfl
    | ok ack =>
      have hsent := hfields ack
      simp only [stamps, registerAlert] at hsent ⊢
      rw [hsent]
      generalize update alert _ = sent
      cases _log w.log al.log (sentEvent sent) with
      | error e => rfl
      | ok log => rfl

/-! ## System alerts -/

/-- `severity not in (...)`. -/
def severities : List PyStr := ["info", "warning", "high", "critical"].map py

/-- The alert that `system_alert` sends. -/
def systemAlert (cfg : BrokerConfig) (principal : PyStr) (p : Params) (severity : PyStr) : Fields :=
  let title := strOf cfg.store ((Json.lookup (py "title") p.fields).getD (.str []))
  let text := strOf cfg.store ((Json.lookup (py "text") p.fields).getD (.str []))
  let alert := Json.mkFields [(py "kind", .str (py "system")), (py "severity", .str severity),
    (py "title", .str (title.take 200)), (py "text", .str (text.take 4000)),
    (py "episode_id", p.get "episode_id"), (py "source", .str principal),
    (py "needs_ack", .bool (decide (severity ∈ [py "high", py "critical"])))]
  let dedupe := p.get "dedupe_key"
  if dedupe.truthy then update alert [(py "dedupe_key", dedupe)] else alert

/-- The alert that was sent under this key. -/
def Alerts.keyed (al : Alerts) (dedupe : Json) : Option Fields :=
  (al.alerts.map Prod.snd).find? fun a => (field a "dedupe_key").pyEq dedupe

/-- `system_alert`. -/
def system_alert (cfg : BrokerConfig) (w : ReadWorld) (al : Alerts) (principal : PyStr) (p : Params) :
    Except Exc ToolAnswer × Alerts :=
  match severities.find? fun s => (p.get "severity").eqStr s with
  | none =>
    (.error (rpcError .invalid (msg "severity must be info|warning|high|critical")), al)
  | some severity =>
    let dedupe := p.get "dedupe_key"
    match if dedupe.truthy then al.keyed dedupe else none with
    | some a =>
      (do
        let alert_id ← index (.obj a) "alert_id"
        pure (.alert alert_id .null true), al)
    | none =>
      match _dispatch w al (systemAlert cfg principal p severity) with
      | (.error e, al') => (.error e, al')
      | (.ok sent, al') =>
        (do
          let alert_id ← index (.obj sent) "alert_id"
          let ack ← index (.obj sent) "ack"
          pure (.alert alert_id ack false), al')

/-! ## Updates -/

/-- What a call meets that updates alerts: the clock, and what the write of the log and the audit do. -/
structure UpdateWorld where
  now : Double
  written : Except Exc Unit
  audited : Except Exc Unit

/-- What is logged of an update. -/
def updateEvent (alert_id : Json) (upd : Fields) : Json :=
  Json.mkObj [(py "ev", .str (py "update")), (py "alert_id", alert_id), (py "update", .obj upd)]

/-- The locked part of `_update` and of `ack`, and the audit: an alert of the table, by its id. -/
def applyUpdate (w : UpdateWorld) (al : Alerts) (id : PyStr) (a : Fields) (alert_id : Json)
    (upd : Fields) : Except Exc Unit × Alerts :=
  let al := { al with alerts := Dict.set al.alerts id (update a upd) }
  match _log w.written al.log (updateEvent alert_id upd) with
  | .error e => (.error e, al)
  | .ok log => (w.audited, { al with log })

/-- What an acknowledgement writes into an alert. -/
def ackMark (t : Double) (principal : PyStr) : Fields :=
  Json.mkFields [(py "acked", .bool true), (py "acked_ts", .float t), (py "acked_by", .str principal)]

/-- `ack`. -/
def ack (w : UpdateWorld) (al : Alerts) (principal : PyStr) (alert_id : Json) :
    Except Exc Unit × Alerts :=
  match alert_id with
  | .str id =>
    match Dict.get? al.alerts id with
    | none => (.error (rpcError .not_found (msg "no such alert")), al)
    | some a => applyUpdate w al id a alert_id (ackMark w.now principal)
  | _ =>
    (do
      hashed alert_id
      throw (rpcError .not_found (msg "no such alert")), al)

/-! ## Escalation -/

/-- The operators that the sink reaches. -/
inductive Target where
  | primary | backup
  deriving DecidableEq, Repr

/-- What a tick meets: the sink as well. -/
structure TickWorld extends UpdateWorld where
  sink : Target → Fields → Bool

/-- `t - v`. -/
def minus (t : Double) (v : Json) : Except Exc Double :=
  match v with
  | .float x => .ok (t.sub x)
  | .int z => orRaise ((Double.ofInt? z).map t.sub) (.other .overflowError)
  | .bool b => orRaise ((Double.ofInt? (if b then 1 else 0)).map t.sub) (.other .overflowError)
  | _ => .error (.other .typeError)

/-- `{**a, "title": pre + a.get("title", "")}`; `none` where the concatenation raises. -/
def retitled (pre : PyStr) (a : Fields) : Option Fields :=
  match (Json.lookup (py "title") a).getD (.str []) with
  | .str title => some (update a [(py "title", .str (pre ++ title))])
  | _ => none

/-- The alert as it is shown to an operator. -/
def shown : Target → Fields → Option Fields
  | .primary => retitled (py "RE-SENT (unacknowledged): ")
  | .backup => retitled (py "ESCALATED to backup operator: ")

/-- The update that follows an accepted send. -/
def marked : Target → Double → Fields
  | .primary, t => Json.mkFields [(py "resent", .bool true), (py "resent_ts", .float t)]
  | .backup, t => Json.mkFields [(py "escalated", .bool true), (py "escalated_ts", .float t)]

/-- The attempt to send; what the sink raises is logged and forgotten. -/
def attempt (w : TickWorld) (target : Target) (a : Fields) : Option (Target × Fields) :=
  match shown target a with
  | some b => if w.sink target b then some (target, b) else none
  | none => none

/-- What a tick does with one alert: to whom it was sent, if it was. -/
def escalateOne (window : Double) (w : TickWorld) (a : Fields) : Except Exc (Option (Target × Fields)) :=
  if !(field a "needs_ack").truthy || (field a "acked").truthy || (field a "escalated").truthy then
    pure none
  else do
    let sent_ts ← index (.obj a) "sent_ts"
    let age ← minus w.now sent_ts
    let resent ← index (.obj a) "resent"
    if !resent.truthy && window.lt age then pure (attempt w .primary a)
    else if resent.truthy then do
      let since ← minus w.now ((Json.lookup (py "resent_ts") a).getD (.float w.now))
      pure (if window.lt since then attempt w .backup a else none)
    else pure none

/-- The alerts after a tick, what the sink accepted, and whether the tick raised. -/
structure Ticked where
  alerts : Alerts
  sent : List (Target × Fields)
  result : Except Exc Unit

/-- `_update`. -/
def _update (w : UpdateWorld) (al : Alerts) (id : PyStr) (a upd : Fields) : Except Exc Unit × Alerts :=
  match index (.obj a) "alert_id" with
  | .error e => (.error e, al)
  | .ok alert_id => applyUpdate w al id a alert_id upd

/-- The loop of `escalate_tick` over the alerts that are left. -/
def tickLoop (window : Double) (w : TickWorld) : Dict PyStr Fields → Alerts → Ticked
  | [], al => ⟨al, [], .ok ()⟩
  | (id, a) :: rest, al =>
    match escalateOne window w a with
    | .error e => ⟨al, [], .error e⟩
    | .ok none => tickLoop window w rest al
    | .ok (some (target, b)) =>
      match _update w.toUpdateWorld al id a (marked target w.now) with
      | (.error e, al) => ⟨al, [(target, b)], .error e⟩
      | (.ok (), al) =>
        let next := tickLoop window w rest al
        { next with sent := (target, b) :: next.sent }

/-- `escalate_tick`. -/
def escalate_tick (window : Double) (w : TickWorld) (al : Alerts) : Ticked :=
  tickLoop window w al.alerts al

/-! ## The table from the log -/

/-- One line of the log; the ids of the alerts in it are strings. -/
def loadEvent (alerts : Dict PyStr Fields) (ev : Json) : Except Exc (Dict PyStr Fields) := do
  let kind ← index ev "ev"
  if kind.eqStr (py "sent") then
    let alert ← index ev "alert"
    let alert_id ← index alert "alert_id"
    match alert, alert_id with
    | .obj a, .str id => pure (alerts.set id a)
    | _, _ => throw (.other .typeError)
  else
    let alert_id ← index ev "alert_id"
    hashed alert_id
    match (asStr alert_id).bind fun id => (alerts.get? id).map fun a => (id, a) with
    | none => pure alerts
    | some (id, a) => do
      let upd ← index ev "update"
      match upd with
      | .obj kvs => pure (alerts.set id (update a kvs))
      | _ => throw (.other .typeError)

/-- The loop of `_load`. -/
def loadLines : Dict PyStr Fields → List PyStr → Except Exc (Dict PyStr Fields)
  | alerts, [] => .ok alerts
  | alerts, line :: rest => do
    let ev ← orRaise (loads line) (.other .valueError)
    let alerts ← loadEvent alerts ev
    loadLines alerts rest

/-- `_load`; a file that is not there is empty. -/
def _load (log : PyStr) : Except Exc (Dict PyStr Fields) := loadLines [] (splitlines log)

end Valops.Brokers
