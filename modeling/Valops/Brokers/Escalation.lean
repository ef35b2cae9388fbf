import Valops.Brokers.AlertLog
import Valops.Brokers.Net

/-!
# Escalation of unacknowledged alerts

Runs of the report broker: alerts are dispatched and acknowledged, ticks re-send and escalate, the
process is restarted between two calls. A run keeps the history of what was sent to whom and when, with
the newest event first. The table is a function of the log, because every change of it is logged, and the
flags of an alert say what its history says.

Main result: `escalated_in_order`. In a run whose alerts hold no surrogate pair written as two characters,
the log gives the table back, an alert is re-sent and escalated at most once, in time and in order
(`Orderly`), and no tick forgets one (`Prompt`).
-/

set_option autoImplicit false

namespace Valops.Brokers.Escalation

open Py Store

/-! ## Runs -/

/-- What happened to an alert, at which reading of the clock. -/
inductive Event where
  | sent (id : PyStr) (ts : Double) (needs_ack : Bool)
  | acked (id : PyStr)
  | resent (id : PyStr) (t : Double)
  | escalated (id : PyStr) (t : Double)
  deriving DecidableEq

/-- The alert that an event is about. -/
def Event.id : Event → PyStr
  | .sent id _ _ | .acked id | .resent id _ | .escalated id _ => id

/-- The broker's alerts, and what happened to them, the newest first. -/
structure Desk where
  al : Alerts
  history : List Event

inductive Act where
  | send_alert (w : ReadWorld) (cap : Capability) (args : Json) (view : Except Exc View)
  | system_alert (w : ReadWorld) (p : Params)
  | ack (w : UpdateWorld) (alert_id : Json)
  | tick (w : TickWorld)
  | restart

/-- The alert that a call has registered under its new id. -/
def registered (w : ReadWorld) (al : Alerts) : List Event :=
  match Dict.get? al.alerts w.uuid with
  | some a => [.sent w.uuid w.sent_ts (field a "needs_ack").truthy]
  | none => []

/-- The event of a send to an operator. -/
def targetEvent (id : PyStr) (t : Double) : Target → Event
  | .primary => .resent id t
  | .backup => .escalated id t

/-- The event of a send that the sink accepted during a tick. -/
def sendEvent (t : Double) (s : Target × Fields) : Event :=
  targetEvent ((asStr (field s.2 "alert_id")).getD []) t s.1

/-- The event of an acknowledgement, if it succeeded. -/
def ackEvent (alert_id : Json) : Except Exc Unit → List Event
  | .ok _ => ((asStr alert_id).map Event.acked).toList
  | .error _ => []

/-- The state after a tick. -/
def Desk.ticked (window : Double) (w : TickWorld) (s : Desk) : Desk :=
  let r := escalate_tick window w s.al
  ⟨r.alerts, r.sent.reverse.map (sendEvent w.now) ++ s.history⟩

/-- One call, or a restart; a broker whose log cannot be read does not start. -/
def Desk.act (cfg : BrokerConfig) (window : Double) (s : Desk) : Act → Option Desk
  | .send_alert w cap args view =>
    let al := (Brokers.send_alert cfg w s.al cap args view).2
    some ⟨al, registered w al ++ s.history⟩
  | .system_alert w p =>
    let al := (Brokers.system_alert cfg w s.al (py "system") p).2
    some ⟨al, registered w al ++ s.history⟩
  | .ack w alert_id =>
    let r := Brokers.ack w s.al (py "operator") alert_id
    some ⟨r.2, ackEvent alert_id r.1 ++ s.history⟩
  | .tick w => some (s.ticked window w)
  | .restart =>
    match _load s.al.log with
    | .ok alerts => some ⟨{ alerts, sent_times := [], log := s.al.log }, s.history⟩
    | .error _ => none

/-- A broker that has not sent anything yet. -/
def Desk.Fresh (s : Desk) : Prop := s.al = {} ∧ s.history = []

/-! ## What is asked of a run -/

/-- The alert that a call composes, before it is dispatched. -/
def Act.composed (cfg : BrokerConfig) : Act → Option Fields
  | .send_alert w cap args view => (composedAlert cfg w cap args view).toOption
  | .system_alert _ p => (severities.find? fun s => (p.get "severity").eqStr s).map
      (systemAlert cfg (py "system") p)
  | _ => none

/-- The new id of a dispatch is new, and its log write succeeds. -/
structure Dispatches (w : ReadWorld) (s : Desk) : Prop where
  fresh : Dict.get? s.al.alerts w.uuid = none
  uuid : Storable (.str w.uuid)
  sink : ∀ ack, w.sink = .ok ack → Storable ack
  log : w.log = .ok ()

/-- The condition on the steps: no alert holds a surrogate pair, and nothing that is written fails. -/
def Meets (cfg : BrokerConfig) (s : Desk) (a : Act) : Prop :=
  (∀ alert, a.composed cfg = some alert → Storable (.obj alert)) ∧
    match a with
    | .send_alert w _ _ _ => Dispatches w s
    | .system_alert w _ => Dispatches w s
    | .ack w _ => Succeeds w
    | .tick w => Succeeds w.toUpdateWorld
    | .restart => True

/-- More than the window after `since`, at `t`. -/
def Late (window since t : Double) : Prop := window.lt (t.sub since) = true

/-- **The history of the alerts**: what a re-send and an escalation follow. -/
def Orderly (window : Double) : List Event → Prop
  | [] => True
  | .sent id _ _ :: h => (∀ e ∈ h, e.id ≠ id) ∧ Orderly window h
  | .acked _ :: h => Orderly window h
  | .resent id t :: h => (∃ ts, .sent id ts true ∈ h ∧ Late window ts t) ∧ .acked id ∉ h ∧
      (∀ t', .resent id t' ∉ h) ∧ Orderly window h
  | .escalated id t :: h => (∃ t', .resent id t' ∈ h ∧ Late window t' t) ∧ .acked id ∉ h ∧
      (∀ t', .escalated id t' ∉ h) ∧ Orderly window h

/-- The sink accepts the alert, as it would be shown to this operator. -/
def Works (w : TickWorld) (al : Alerts) (target : Target) (id : PyStr) : Prop :=
  ∀ a b, Dict.get? al.alerts id = some a → shown target a = some b → w.sink target b = true

/-- **No alert is forgotten**: a tick re-sends and escalates whatever is due, where the sink works. -/
structure Prompt (window : Double) (s : Desk) : Prop where
  resent : ∀ w id ts, Succeeds w.toUpdateWorld → .sent id ts true ∈ s.history →
    .acked id ∉ s.history → (∀ t, .resent id t ∉ s.history) → Late window ts w.now →
    Works w s.al .primary id → .resent id w.now ∈ (s.ticked window w).history
  escalated : ∀ w id t, Succeeds w.toUpdateWorld → .resent id t ∈ s.history →
    .acked id ∉ s.history → (∀ t', .escalated id t' ∉ s.history) → Late window t w.now →
    Works w s.al .backup id → .escalated id w.now ∈ (s.ticked window w).history

/-- What holds in every state of such a run. -/
structure InOrder (window : Double) (s : Desk) : Prop where
  rebuilt : _load s.al.log = .ok s.al.alerts
  orderly : Orderly window s.history
  prompt : Prompt window s

/-! ## What a tick does with an alert -/

section One

variable {window : Double} {w : TickWorld} {a b : Fields} {target : Target} {ts r : Double} {res : Bool}

/-- Nothing is due, whatever the time. -/
def idle (a : Fields) : Bool :=
  !(field a "needs_ack").truthy || (field a "acked").truthy || (field a "escalated").truthy

theorem index_of_lookup {k : String} {v : Json} (h : Json.lookup (py k) a = some v) :
    index (.obj a) k = .ok v := by
  rw [index, h]
  rfl

/-- The tick on an alert whose times are floats. -/
theorem escalateOne_eq (hts : Json.lookup (py "sent_ts") a = some (.float ts))
    (hres : Json.lookup (py "resent") a = some (.bool res))
    (hr : res = true → Json.lookup (py "resent_ts") a = some (.float r)) :
    escalateOne window w a = .ok (if idle a = true then none
      else if res = true then (if window.lt (w.now.sub r) = true then attempt w .backup a else none)
      else if window.lt (w.now.sub ts) = true then attempt w .primary a else none) := by
  rw [escalateOne, ← idle]
  split
  · rfl
  · rw [index_of_lookup hts, ok_bind]
    show (minus w.now (.float ts) >>= _) = _
    rw [minus, ok_bind, index_of_lookup hres, ok_bind]
    cases res with
    | false =>
      cases hlate : window.lt (w.now.sub ts) with
      | false => rfl
      | true => rfl
    | true =>
      rw [hr rfl]
      show (minus w.now (.float r) >>= _) = _
      rw [minus, ok_bind]
      rfl

theorem attempt_eq_some {x : Target × Fields} : attempt w target a = some x ↔
    x.1 = target ∧ shown target a = some x.2 ∧ w.sink target x.2 = true := by
  obtain ⟨t, c⟩ := x
  unfold attempt
  split
  · rename_i b hb
    rw [hb]
    split
    · rename_i hsink
      constructor
      · rintro ⟨⟩
        exact ⟨rfl, rfl, hsink⟩
      · rintro ⟨rfl, hc, _⟩
        rw [Option.some.inj hc]
    · rename_i hsink
      refine ⟨nofun, ?_⟩
      rintro ⟨_, hc, hsink'⟩
      exact absurd ((Option.some.inj hc).symm ▸ hsink') hsink
  · rename_i hb
    rw [hb]
    exact ⟨nofun, fun h => nomatch h.2.1⟩

theorem shown_of_title {title : PyStr} (h : Json.lookup (py "title") a = some (.str title))
    (target : Target) : ∃ pre, shown target a = some (update a [(py "title", .str (pre ++ title))]) := by
  cases target with
  | primary => exact ⟨_, by rw [shown, retitled, h]; rfl⟩
  | backup => exact ⟨_, by rw [shown, retitled, h]; rfl⟩

/-- Only the title is another one. -/
theorem lookup_shown (h : shown target a = some b) {k : PyStr} (hk : k ≠ py "title") :
    Json.lookup k b = Json.lookup k a := by
  have hretitled : ∀ pre, retitled pre a = some b → Json.lookup k b = Json.lookup k a := by
    intro pre hpre
    unfold retitled at hpre
    split at hpre
    · rw [← Option.some.inj hpre, lookup_update]
      show (Json.lookup k [(py "title", _)]).or _ = _
      rw [Json.lookup, if_neg hk]
      rfl
    · cases hpre
  cases target with
  | primary => exact hretitled _ h
  | backup => exact hretitled _ h

end One

/-! ## What an alert says of its history -/

section History

variable {window : Double} {h : List Event} {e x : Event} {id id' : PyStr} {a : Fields} {t : Double}

/-- An alert of the table, after a history. -/
structure Entry (h : List Event) (id : PyStr) (a : Fields) : Prop where
  storable : Storable (.obj a)
  alert_id : Json.lookup (py "alert_id") a = some (.str id)
  title : ∃ title, Json.lookup (py "title") a = some (.str title)
  sent : ∃ ts, Json.lookup (py "sent_ts") a = some (.float ts) ∧
    ∀ ts' n, .sent id ts' n ∈ h ↔ ts' = ts ∧ n = (field a "needs_ack").truthy
  acked : (field a "acked").truthy = true ↔ .acked id ∈ h
  resent : ∃ b, Json.lookup (py "resent") a = some (.bool b) ∧ (b = true ↔ ∃ t, .resent id t ∈ h)
  resent_ts : ∀ t, .resent id t ∈ h → Json.lookup (py "resent_ts") a = some (.float t)
  escalated : (field a "escalated").truthy = true ↔ ∃ t, .escalated id t ∈ h

theorem mem_cons_other (hne : e.id ≠ x.id) : x ∈ e :: h ↔ x ∈ h :=
  List.mem_cons.trans (or_iff_right fun heq => hne (heq ▸ rfl))

/-- What happens to another alert changes nothing. -/
theorem Entry.frame (ha : Entry h id a) (hne : e.id ≠ id) : Entry (e :: h) id a := by
  refine ⟨ha.storable, ha.alert_id, ha.title, ?_, ?_, ?_, ?_, ?_⟩
  · obtain ⟨ts, hts, hsent⟩ := ha.sent
    exact ⟨ts, hts, fun ts' n => (mem_cons_other hne).trans (hsent ts' n)⟩
  · exact ha.acked.trans (mem_cons_other hne).symm
  · obtain ⟨b, hb, hresent⟩ := ha.resent
    exact ⟨b, hb, hresent.trans (exists_congr fun t => (mem_cons_other hne).symm)⟩
  · exact fun t ht => ha.resent_ts t ((mem_cons_other hne).1 ht)
  · exact ha.escalated.trans (exists_congr fun t => (mem_cons_other hne).symm)

theorem Entry.acknowledge (ha : Entry h id a) {principal : PyStr} (hp : Storable (.str principal)) :
    Entry (.acked id :: h) id (update a (ackMark t principal)) := by
  have hstored := ha.storable.update (storable_obj.1 (storable_ackMark (t := t) hp)).2
  refine ⟨hstored, ?_, ?_, ?_, ?_, ?_, ?_, ?_⟩
  · exact (lookup_update_of_none rfl).trans ha.alert_id
  · exact ha.title.imp fun title htitle => (lookup_update_of_none rfl).trans htitle
  · obtain ⟨ts, hts, hsent⟩ := ha.sent
    refine ⟨ts, (lookup_update_of_none rfl).trans hts, fun ts' n => ?_⟩
    rw [field_update_of_none rfl, ← hsent]
    simp
  · refine iff_of_true ?_ List.mem_cons_self
    rw [field, lookup_update]
    rfl
  · obtain ⟨b, hb, hresent⟩ := ha.resent
    refine ⟨b, (lookup_update_of_none rfl).trans hb, hresent.trans ?_⟩
    simp
  · intro t' ht'
    exact (lookup_update_of_none rfl).trans (ha.resent_ts t' (by simpa using ht'))
  · rw [field_update_of_none rfl, ha.escalated]
    simp

theorem Entry.resend (ha : Entry h id a) (hno : ∀ t', .resent id t' ∉ h) :
    Entry (.resent id t :: h) id (update a (marked .primary t)) := by
  have hstored := ha.storable.update (storable_obj.1 (storable_marked (t := t) .primary)).2
  refine ⟨hstored, ?_, ?_, ?_, ?_, ?_, ?_, ?_⟩
  · exact (lookup_update_of_none rfl).trans ha.alert_id
  · exact ha.title.imp fun title htitle => (lookup_update_of_none rfl).trans htitle
  · obtain ⟨ts, hts, hsent⟩ := ha.sent
    refine ⟨ts, (lookup_update_of_none rfl).trans hts, fun ts' n => ?_⟩
    rw [field_update_of_none rfl, ← hsent]
    simp
  · rw [field_update_of_none rfl, ha.acked]
    simp
  · refine ⟨true, ?_, iff_of_true rfl ⟨t, List.mem_cons_self⟩⟩
    rw [lookup_update]
    rfl
  · intro t' ht'
    rcases List.mem_cons.1 ht' with heq | hold
    · cases heq
      rw [lookup_update]
      rfl
    · exact absurd hold (hno t')
  · rw [field_update_of_none rfl, ha.escalated]
    simp

theorem Entry.escalate (ha : Entry h id a) :
    Entry (.escalated id t :: h) id (update a (marked .backup t)) := by
  have hstored := ha.storable.update (storable_obj.1 (storable_marked (t := t) .backup)).2
  refine ⟨hstored, ?_, ?_, ?_, ?_, ?_, ?_, ?_⟩
  · exact (lookup_update_of_none rfl).trans ha.alert_id
  · exact ha.title.imp fun title htitle => (lookup_update_of_none rfl).trans htitle
  · obtain ⟨ts, hts, hsent⟩ := ha.sent
    refine ⟨ts, (lookup_update_of_none rfl).trans hts, fun ts' n => ?_⟩
    rw [field_update_of_none rfl, ← hsent]
    simp
  · rw [field_update_of_none rfl, ha.acked]
    simp
  · obtain ⟨b, hb, hresent⟩ := ha.resent
    refine ⟨b, (lookup_update_of_none rfl).trans hb, hresent.trans ?_⟩
    simp
  · intro t' ht'
    exact (lookup_update_of_none rfl).trans (ha.resent_ts t' (by simpa using ht'))
  · refine iff_of_true ?_ ⟨t, List.mem_cons_self⟩
    rw [field, lookup_update]
    rfl

/-- A re-sent alert was sent and needs an acknowledgement; induction on the history. -/
theorem Orderly.sent_of_resent (ho : Orderly window h) (hr : .resent id t ∈ h) :
    ∃ ts, .sent id ts true ∈ h := by
  induction h with
  | nil => cases hr
  | cons e h ih =>
    have htail : .resent id t ∈ h → Orderly window h → ∃ ts, .sent id ts true ∈ e :: h :=
      fun hr ho => (ih ho hr).imp fun ts hts => List.mem_cons_of_mem _ hts
    cases e with
    | sent id' ts n => exact htail (by simpa using hr) ho.2
    | acked id' => exact htail (by simpa using hr) ho
    | resent id' t' =>
      rcases List.mem_cons.1 hr with heq | hr
      · cases heq
        obtain ⟨ts, hts, _⟩ := ho.1
        exact ⟨ts, List.mem_cons_of_mem _ hts⟩
      · exact htail hr ho.2.2.2
    | escalated id' t' => exact htail (by simpa using hr) ho.2.2.2

/-- An escalated alert was re-sent. -/
theorem Orderly.resent_of_escalated (ho : Orderly window h) (he : .escalated id t ∈ h) :
    ∃ t', .resent id t' ∈ h := by
  induction h with
  | nil => cases he
  | cons e h ih =>
    have htail : .escalated id t ∈ h → Orderly window h → ∃ t', .resent id t' ∈ e :: h :=
      fun he ho => (ih ho he).imp fun t' ht' => List.mem_cons_of_mem _ ht'
    cases e with
    | sent id' ts n => exact htail (by simpa using he) ho.2
    | acked id' => exact htail (by simpa using he) ho
    | resent id' t' => exact htail (by simpa using he) ho.2.2.2
    | escalated id' t' =>
      rcases List.mem_cons.1 he with heq | he
      · cases heq
        obtain ⟨t', ht', _⟩ := ho.1
        exact ⟨t', List.mem_cons_of_mem _ ht'⟩
      · exact htail he ho.2.2.2

end History

/-! ## The invariant -/

section Invariant

variable {window : Double} {s : Desk} {e : Event} {id : PyStr} {a upd : Fields}

/-- The table agrees with the history and with the log. -/
structure Kept (window : Double) (s : Desk) : Prop where
  nodup : (s.al.alerts.map Prod.fst).Nodup
  entries : ∀ id a, Dict.get? s.al.alerts id = some a → Entry s.history id a
  known : ∀ e ∈ s.history, ∃ a, Dict.get? s.al.alerts e.id = some a
  logged : ∃ evs, Logged s.al evs
  orderly : Orderly window s.history

/-- **An event of one alert, and the update that goes with it.** -/
theorem Kept.mark (h : Kept window s) (ha : Dict.get? s.al.alerts id = some a) (he : e.id = id)
    (hentry : Entry (e :: s.history) id (update a upd)) (horder : Orderly window (e :: s.history))
    (hupd : Storable (.obj upd)) : Kept window ⟨Alerts.mark s.al id a upd, e :: s.history⟩ := by
  have hid : Storable (.str id) := (h.entries id a ha).storable.lookup (h.entries id a ha).alert_id
  have hset : ∀ id', Dict.get? (Dict.set s.al.alerts id (update a upd)) id' =
      if id' = id then some (update a upd) else Dict.get? s.al.alerts id' := by
    intro id'
    split
    · rename_i heq
      rw [heq, Dict.get?_set_self]
    · rename_i hne
      rw [Dict.get?_set_of_ne _ hne]
  refine ⟨Dict.nodup_keys_set h.nodup, ?_, ?_, ?_, horder⟩
  · intro id' a' ha'
    rw [Alerts.mark, hset] at ha'
    split at ha'
    · rename_i heq
      rw [heq, ← Option.some.inj ha']
      exact hentry
    · rename_i hne
      exact (h.entries id' a' ha').frame (he ▸ Ne.symm hne)
  · intro e' he'
    rw [Alerts.mark, hset]
    split
    · exact ⟨_, rfl⟩
    · rename_i hne
      rcases List.mem_cons.1 he' with rfl | hold
      · exact absurd he hne
      · exact h.known e' hold
  · obtain ⟨evs, hlog⟩ := h.logged
    exact ⟨_, hlog.snoc (storable_updateEvent hid hupd) (loadEvent_update ha) s.al.sent_times⟩

/-- An acknowledgement. -/
theorem Kept.ack (h : Kept window s) {w : UpdateWorld} (hw : Succeeds w) (alert_id : Json) :
    Kept window ⟨(Brokers.ack w s.al (py "operator") alert_id).2,
      ackEvent alert_id (Brokers.ack w s.al (py "operator") alert_id).1 ++ s.history⟩ := by
  have hrefused (e : Exc) : Kept window ⟨s.al, ackEvent alert_id (.error e) ++ s.history⟩ := h
  unfold Brokers.ack
  split
  · rename_i id
    split
    · exact hrefused _
    · rename_i a ha
      have hentry := h.entries id a ha
      have hop : Storable (.str (py "operator")) := storable_ascii rfl
      rw [applyUpdate_ok hw s.al (hentry.storable.lookup hentry.alert_id) (storable_ackMark hop)]
      exact h.mark ha rfl (hentry.acknowledge hop) h.orderly (storable_ackMark hop)
  · cases hh : hashed alert_id with
    | error e => exact hrefused e
    | ok u => exact hrefused _

/-! ### Ticks -/

variable {w : TickWorld} {p : Target × Fields} {h : List Event}

theorem sendEvent_shown {target : Target} {b : Fields} (hb : shown target a = some b)
    (hid : Json.lookup (py "alert_id") a = some (.str id)) (t : Double) :
    sendEvent t (target, b) = targetEvent id t target := by
  have hshown : field b "alert_id" = .str id := by
    rw [field, lookup_shown hb (by decide), hid]
    rfl
  rw [sendEvent, hshown]
  rfl

/-- What a tick does with one alert, by the alert's history. -/
theorem Entry.tick (ha : Entry h id a) (w : TickWorld) (window : Double) :
    ∃ needs ts r, (.sent id ts needs ∈ h ∧ ∀ ts' n, .sent id ts' n ∈ h → ts' = ts ∧ n = needs) ∧
      (∀ t, .resent id t ∈ h → t = r) ∧ ∃ idle res : Bool,
      (idle = false ↔ needs = true ∧ .acked id ∉ h ∧ ∀ t, .escalated id t ∉ h) ∧
      (res = true ↔ ∃ t, .resent id t ∈ h) ∧
      escalateOne window w a = .ok (if idle = true then none
        else if res = true then (if window.lt (w.now.sub r) = true then attempt w .backup a else none)
        else if window.lt (w.now.sub ts) = true then attempt w .primary a else none) := by
  obtain ⟨ts, hts, hsent⟩ := ha.sent
  obtain ⟨res, hres, hresent⟩ := ha.resent
  obtain ⟨r, hr⟩ : ∃ r, ∀ t, .resent id t ∈ h → t = r := by
    by_cases hex : ∃ t, .resent id t ∈ h
    · obtain ⟨r, hmem⟩ := hex
      refine ⟨r, fun t ht => ?_⟩
      have hsame := (ha.resent_ts t ht).symm.trans (ha.resent_ts r hmem)
      exact Json.float.inj (Option.some.inj hsame)
    · exact ⟨ts, fun t ht => absurd ⟨t, ht⟩ hex⟩
  refine ⟨(field a "needs_ack").truthy, ts, r, ⟨(hsent _ _).2 ⟨rfl, rfl⟩, fun ts' n => (hsent ts' n).1⟩,
    hr, idle a, res, ?_, hresent, escalateOne_eq hts hres fun hb => ?_⟩
  · rw [idle, Bool.or_eq_false_iff, Bool.or_eq_false_iff, Bool.not_eq_false', and_assoc,
      ← Bool.not_eq_true, ha.acked, ← Bool.not_eq_true, ha.escalated, not_exists]
  · obtain ⟨t, ht⟩ := hresent.1 hb
    rw [ha.resent_ts t ht, hr t ht]

/-- The update that goes with an accepted send is in order. -/
theorem Kept.due (hk : Kept window s) (ha : Dict.get? s.al.alerts id = some a) :
    ∃ x, escalateOne window w a = .ok x ∧ ∀ p, x = some p → (sendEvent w.now p).id = id ∧
      Orderly window (sendEvent w.now p :: s.history) ∧
      Entry (sendEvent w.now p :: s.history) id (update a (marked p.1 w.now)) := by
  have hentry := hk.entries id a ha
  obtain ⟨needs, ts, r, ⟨hsent, _⟩, hr, idle, res, hidle, hres, heq⟩ := hentry.tick w window
  refine ⟨_, heq, fun p hp => ?_⟩
  split at hp
  · cases hp
  rename_i hactive
  obtain ⟨rfl, hacked, hesc⟩ := hidle.1 (Bool.not_eq_true _ ▸ hactive)
  split at hp
  · rename_i hresent
    split at hp
    · rename_i hlate
      obtain ⟨hp1, hshown, _⟩ := attempt_eq_some.1 hp
      obtain ⟨target, b⟩ := p
      cases hp1
      rw [sendEvent_shown hshown hentry.alert_id]
      obtain ⟨t, ht⟩ := hres.1 hresent
      refine ⟨rfl, ⟨⟨t, ht, ?_⟩, hacked, hesc, hk.orderly⟩, hentry.escalate⟩
      rw [Late, hr t ht]
      exact hlate
    · cases hp
  · rename_i hfirst
    split at hp
    · rename_i hlate
      obtain ⟨hp1, hshown, _⟩ := attempt_eq_some.1 hp
      obtain ⟨target, b⟩ := p
      cases hp1
      rw [sendEvent_shown hshown hentry.alert_id]
      have hno : ∀ t', .resent id t' ∉ s.history := fun t' ht' => hfirst (hres.2 ⟨t', ht'⟩)
      exact ⟨rfl, ⟨⟨ts, hsent, hlate⟩, hacked, hno, hk.orderly⟩, hentry.resend hno⟩
    · cases hp

/-- **The loop of a tick**, by induction on the alerts that are left: each is still in the table as it
was when the tick began. -/
theorem tickLoop_kept (hw : Succeeds w.toUpdateWorld) :
    ∀ (rest : Dict PyStr Fields) (al : Alerts) (h : List Event), Kept window ⟨al, h⟩ →
      (∀ q ∈ rest, Dict.get? al.alerts q.1 = some q.2) → (rest.map Prod.fst).Nodup →
      (tickLoop window w rest al).result = .ok () ∧
      Kept window ⟨(tickLoop window w rest al).alerts,
        (tickLoop window w rest al).sent.reverse.map (sendEvent w.now) ++ h⟩ ∧
      ∀ q ∈ rest, ∀ p, escalateOne window w q.2 = .ok (some p) → p ∈ (tickLoop window w rest al).sent := by
  intro rest
  induction rest with
  | nil => exact fun al h hk _ _ => ⟨rfl, hk, fun q hq => absurd hq List.not_mem_nil⟩
  | cons q rest ih =>
    obtain ⟨id, a⟩ := q
    intro al h hk hrest hnd
    obtain ⟨ha, hrest⟩ := List.forall_mem_cons.1 hrest
    rw [List.map_cons, List.nodup_cons] at hnd
    obtain ⟨x, hx, hdue⟩ := hk.due (w := w) ha
    cases x with
    | none =>
      have hstep : tickLoop window w ((id, a) :: rest) al = tickLoop window w rest al := by
        rw [tickLoop, hx]
      rw [hstep]
      obtain ⟨hok, hkept, hall⟩ := ih al h hk hrest hnd.2
      refine ⟨hok, hkept, List.forall_mem_cons.2 ⟨fun p hp => ?_, hall⟩⟩
      rw [hx] at hp
      cases hp
    | some p =>
      obtain ⟨hid, horder, hentry⟩ := hdue p rfl
      have hidStored : Storable (.str id) :=
        (hk.entries id a ha).storable.lookup (hk.entries id a ha).alert_id
      have hupdate : _update w.toUpdateWorld al id a (marked p.1 w.now) =
          (.ok (), Alerts.mark al id a (marked p.1 w.now)) := by
        rw [_update, index_of_lookup (hk.entries id a ha).alert_id]
        exact applyUpdate_ok hw al hidStored (storable_marked p.1)
      have hkept := hk.mark ha hid hentry horder (storable_marked p.1)
      have hother : ∀ q ∈ rest, Dict.get? (Alerts.mark al id a (marked p.1 w.now)).alerts q.1 = some q.2 := by
        intro q hq
        have hne : q.1 ≠ id := fun heq => hnd.1 (List.mem_map.2 ⟨q, hq, heq⟩)
        rw [Alerts.mark, Dict.get?_set_of_ne _ hne]
        exact hrest q hq
      have hstep : tickLoop window w ((id, a) :: rest) al =
          { tickLoop window w rest (Alerts.mark al id a (marked p.1 w.now)) with
            sent := p :: (tickLoop window w rest (Alerts.mark al id a (marked p.1 w.now))).sent } := by
        rw [tickLoop, hx]
        simp only [hupdate]
      obtain ⟨hok, hkept', hall⟩ := ih _ _ hkept hother hnd.2
      rw [hstep]
      refine ⟨hok, ?_, List.forall_mem_cons.2 ⟨fun p' hp' => ?_, fun q hq p' hp' => ?_⟩⟩
      · simpa using hkept'
      · rw [hx] at hp'
        cases hp'
        exact List.mem_cons_self
      · exact List.mem_cons_of_mem _ (hall q hq p' hp')

theorem Kept.ticked (hk : Kept window s) (hw : Succeeds w.toUpdateWorld) :
    Kept window (s.ticked window w) ∧ ∀ id a p, Dict.get? s.al.alerts id = some a →
      escalateOne window w a = .ok (some p) → sendEvent w.now p ∈ (s.ticked window w).history := by
  have hall : ∀ q ∈ s.al.alerts, Dict.get? s.al.alerts q.1 = some q.2 := fun q hq =>
    Dict.get?_of_mem hk.nodup hq
  obtain ⟨_, hkept, hsent⟩ := tickLoop_kept (w := w) hw s.al.alerts s.al s.history hk hall hk.nodup
  refine ⟨hkept, fun id a p ha hp => ?_⟩
  have hmem := hsent (id, a) (Dict.mem_of_get? ha) p hp
  exact List.mem_append_left _ (List.mem_map_of_mem (List.mem_reverse.2 hmem))

/-- **No alert is forgotten.** -/
theorem Kept.prompt (hk : Kept window s) : Prompt window s := by
  constructor
  · intro w id ts hw hsent hacked hresent hlate hworks
    obtain ⟨a, ha⟩ := hk.known _ hsent
    have hentry := hk.entries id a ha
    obtain ⟨needs, ts', r, ⟨_, hunique⟩, _, idle, res, hidle, hres, heq⟩ := hentry.tick w window
    obtain ⟨rfl, rfl⟩ := hunique _ _ hsent
    have hesc : ∀ t, .escalated id t ∉ s.history := fun t ht => by
      obtain ⟨t', ht'⟩ := hk.orderly.resent_of_escalated ht
      exact hresent t' ht'
    have hactive : idle = false := hidle.2 ⟨rfl, hacked, hesc⟩
    have hfirst : ¬ res = true := fun htrue => by
      obtain ⟨t, ht⟩ := hres.1 htrue
      exact hresent t ht
    obtain ⟨title, htitle⟩ := hentry.title
    obtain ⟨pre, hshown⟩ := shown_of_title htitle .primary
    have hattempt : attempt w .primary a =
        some (.primary, update a [(py "title", .str (pre ++ title))]) :=
      attempt_eq_some.2 ⟨rfl, hshown, hworks a _ ha hshown⟩
    have hlate : window.lt (w.now.sub ts) = true := hlate
    rw [hactive, if_neg Bool.false_ne_true, if_neg hfirst, if_pos hlate, hattempt] at heq
    have hmem := (hk.ticked hw).2 id a _ ha heq
    rwa [sendEvent_shown hshown hentry.alert_id] at hmem
  · intro w id t hw hresent hacked hesc hlate hworks
    obtain ⟨a, ha⟩ := hk.known _ hresent
    have hentry := hk.entries id a ha
    obtain ⟨ts, hsent⟩ := hk.orderly.sent_of_resent hresent
    obtain ⟨needs, ts', r, ⟨_, hunique⟩, hr, idle, res, hidle, hres, heq⟩ := hentry.tick w window
    obtain ⟨_, rfl⟩ := hunique _ _ hsent
    have hactive : idle = false := hidle.2 ⟨rfl, hacked, hesc⟩
    have hagain : res = true := hres.2 ⟨t, hresent⟩
    obtain ⟨title, htitle⟩ := hentry.title
    obtain ⟨pre, hshown⟩ := shown_of_title htitle .backup
    have hattempt : attempt w .backup a =
        some (.backup, update a [(py "title", .str (pre ++ title))]) :=
      attempt_eq_some.2 ⟨rfl, hshown, hworks a _ ha hshown⟩
    have hlater : window.lt (w.now.sub r) = true := hr t hresent ▸ hlate
    rw [hactive, if_neg Bool.false_ne_true, if_pos hagain, if_pos hlater, hattempt] at heq
    have hmem := (hk.ticked hw).2 id a _ ha heq
    rwa [sendEvent_shown hshown hentry.alert_id] at hmem

end Invariant

/-! ### Dispatches -/

section Dispatch

variable {cfg : BrokerConfig} {window : Double} {s : Desk} {w : ReadWorld} {alert : Fields}
  {al : Alerts}

/-- A dispatch registers the alert, or it changes neither the table nor the log. -/
theorem dispatch_cases (hd : Dispatches w s) (halert : Storable (.obj alert)) :
    ((_dispatch w s.al alert).2.alerts = s.al.alerts ∧ (_dispatch w s.al alert).2.log = s.al.log) ∨
    ∃ ack times, Storable (.obj (update alert (stamps w ack))) ∧ (_dispatch w s.al alert).2 =
      ⟨Dict.set s.al.alerts w.uuid (update alert (stamps w ack)), times,
        s.al.log ++ ((sentEvent (update alert (stamps w ack))).text .default ++ [10])⟩ := by
  rw [dispatch_parts (Json.wf_obj_iff.1 halert.wf).1]
  split
  · exact .inl ⟨rfl, rfl⟩
  cases hsink : w.sink with
  | error text => exact .inl ⟨rfl, rfl⟩
  | ok ack =>
    have hstored := storable_stamped halert hd.uuid (hd.sink ack hsink)
    have hreg := registerAlert_ok hd.log hstored
      { s.al with sent_times := s.al.recent w.dispatched ++ [w.dispatched] } w.uuid
    refine .inr ⟨ack, s.al.recent w.dispatched ++ [w.dispatched], hstored, ?_⟩
    simp only [hreg]

/-- What a call has done to the table, and its event. -/
theorem Kept.dispatched (hk : Kept window s) (hd : Dispatches w s) (halert : Storable (.obj alert))
    (htitle : ∃ title, Json.lookup (py "title") alert = some (.str title)) :
    Kept window ⟨(_dispatch w s.al alert).2, registered w (_dispatch w s.al alert).2 ++ s.history⟩ := by
  rcases dispatch_cases hd halert with ⟨hsame, hlog⟩ | ⟨ack, times, hstored, heq⟩
  · have hnone : registered w (_dispatch w s.al alert).2 = [] := by
      rw [registered, hsame, hd.fresh]
    obtain ⟨evs, hevs⟩ := hk.logged
    rw [hnone]
    refine ⟨hsame ▸ hk.nodup, fun id a ha => hk.entries id a (hsame ▸ ha), ?_, ⟨evs, ?_⟩, hk.orderly⟩
    · exact fun e he => (hk.known e he).imp fun a ha => hsame ▸ ha
    · exact ⟨hlog.trans hevs.log, hevs.storable, hsame ▸ hevs.replay⟩
  rw [heq]
  have hevent : registered w ⟨Dict.set s.al.alerts w.uuid (update alert (stamps w ack)), times,
      s.al.log ++ ((sentEvent (update alert (stamps w ack))).text .default ++ [10])⟩ =
      [.sent w.uuid w.sent_ts (field (update alert (stamps w ack)) "needs_ack").truthy] := by
    rw [registered, Dict.get?_set_self]
  rw [hevent]
  have hnew : ∀ e ∈ s.history, e.id ≠ w.uuid := by
    intro e he heq
    obtain ⟨a, ha⟩ := hk.known e he
    rw [heq, hd.fresh] at ha
    cases ha
  have hid : Json.lookup (py "alert_id") (update alert (stamps w ack)) = some (.str w.uuid) := by
    rw [lookup_update]
    rfl
  have hentry : Entry ([.sent w.uuid w.sent_ts (field (update alert (stamps w ack)) "needs_ack").truthy] ++
      s.history) w.uuid (update alert (stamps w ack)) := by
    refine ⟨hstored, hid, ?_, ?_, ?_, ?_, ?_, ?_⟩
    · exact htitle.imp fun title ht => (lookup_update_of_none rfl).trans ht
    · refine ⟨w.sent_ts, by rw [lookup_update]; rfl, fun ts' n => ?_⟩
      have hold : .sent w.uuid ts' n ∉ s.history := fun hmem => hnew _ hmem rfl
      simp [hold]
    · have hold : .acked w.uuid ∉ s.history := fun hmem => hnew _ hmem rfl
      refine iff_of_false (by rw [field, lookup_update]; exact Bool.false_ne_true) ?_
      simpa using hold
    · refine ⟨false, by rw [lookup_update]; rfl, iff_of_false Bool.false_ne_true ?_⟩
      rintro ⟨t, ht⟩
      exact hnew _ ((List.mem_cons.1 ht).resolve_left (by simp)) rfl
    · intro t ht
      exact absurd rfl (hnew _ ((List.mem_cons.1 ht).resolve_left (by simp)))
    · refine iff_of_false (by rw [field, lookup_update]; exact Bool.false_ne_true) ?_
      rintro ⟨t, ht⟩
      exact hnew _ ((List.mem_cons.1 ht).resolve_left (by simp)) rfl
  refine ⟨Dict.nodup_keys_set hk.nodup, ?_, ?_, ?_, ⟨hnew, hk.orderly⟩⟩
  · intro id a ha
    by_cases heq : id = w.uuid
    · rw [heq, Dict.get?_set_self] at ha
      rw [heq, ← Option.some.inj ha]
      exact hentry
    · rw [Dict.get?_set_of_ne _ heq] at ha
      exact (hk.entries id a ha).frame (Ne.symm heq)
  · intro e he
    by_cases heq : e.id = w.uuid
    · rw [heq, Dict.get?_set_self]
      exact ⟨_, rfl⟩
    · rw [Dict.get?_set_of_ne _ heq]
      refine hk.known e ((List.mem_cons.1 he).resolve_left ?_)
      rintro rfl
      exact heq rfl
  · obtain ⟨evs, hevs⟩ := hk.logged
    exact ⟨_, hevs.snoc (storable_sentEvent hstored) (loadEvent_sent hid) times⟩

/-- A call that dispatched nothing. -/
theorem Kept.undispatched (hk : Kept window s) (hd : Dispatches w s) :
    Kept window ⟨s.al, registered w s.al ++ s.history⟩ := by
  have hnone : registered w s.al = [] := by rw [registered, hd.fresh]
  rw [hnone]
  exact hk

theorem title_systemAlert (principal : PyStr) (p : Params) (severity : PyStr) :
    ∃ title, Json.lookup (py "title") (systemAlert cfg principal p severity) = some (.str title) := by
  unfold systemAlert
  dsimp only
  split
  · exact ⟨_, lookup_update_of_none rfl⟩
  · exact ⟨_, rfl⟩

theorem title_compose {rec : Record} {top : Option Hypothesis} {kind summary ref : PyStr}
    {fault_classes : Json} (h : compose cfg rec top kind summary ref fault_classes = .ok alert)
    (session_id : Json) : ∃ title, Json.lookup (py "title")
      (Json.mkFields (alert ++ [(py "session_id", session_id)])) = some (.str title) := by
  unfold compose at h
  obtain ⟨by_check, _, h⟩ := bind_eq_ok.1 h
  obtain ⟨check, _, h⟩ := bind_eq_ok.1 h
  obtain ⟨fc, _, h⟩ := bind_eq_ok.1 h
  obtain ⟨recommendation, _, h⟩ := bind_eq_ok.1 h
  obtain ⟨verdict, _, h⟩ := bind_eq_ok.1 h
  obtain ⟨severity, _, h⟩ := bind_eq_ok.1 h
  rw [← pure_eq_ok.1 h, mkFields_append, Json.mkFields_sorted (sortedKeys_mkFields _), lookup_update,
    mkFields_eq_update, lookup_update]
  exact ⟨_, rfl⟩

theorem title_composedAlert {cap : Capability} {args : Json} {view : Except Exc View}
    (h : composedAlert cfg w cap args view = .ok alert) :
    ∃ title, Json.lookup (py "title") alert = some (.str title) := by
  unfold composedAlert at h
  obtain ⟨v, _, h⟩ := bind_eq_ok.1 h
  obtain ⟨⟨rec, top⟩, _, h⟩ := bind_eq_ok.1 h
  obtain ⟨k, _, h⟩ := bind_eq_ok.1 h
  obtain ⟨kind, _, h⟩ := bind_eq_ok.1 h
  obtain ⟨report, _, h⟩ := bind_eq_ok.1 h
  obtain ⟨sm, _, h⟩ := bind_eq_ok.1 h
  obtain ⟨summary, _, h⟩ := bind_eq_ok.1 h
  obtain ⟨fault_classes, _, h⟩ := bind_eq_ok.1 h
  obtain ⟨composed, hcomposed, h⟩ := bind_eq_ok.1 h
  rw [← pure_eq_ok.1 h]
  exact title_compose hcomposed cap.session_id

theorem Kept.send_alert (hk : Kept window s) (hd : Dispatches w s) {cap : Capability} {args : Json}
    {view : Except Exc View}
    (halert : ∀ alert, composedAlert cfg w cap args view = .ok alert → Storable (.obj alert)) :
    Kept window ⟨(Brokers.send_alert cfg w s.al cap args view).2,
      registered w (Brokers.send_alert cfg w s.al cap args view).2 ++ s.history⟩ := by
  unfold Brokers.send_alert
  split
  · exact hk.undispatched hd
  cases hcomposed : composedAlert cfg w cap args view with
  | error e => exact hk.undispatched hd
  | ok alert =>
    have hkept := hk.dispatched hd (halert alert hcomposed) (title_composedAlert hcomposed)
    dsimp only
    split
    · rename_i heq
      rw [heq] at hkept
      exact hkept
    · rename_i heq
      rw [heq] at hkept
      exact hkept

theorem Kept.system_alert (hk : Kept window s) (hd : Dispatches w s) {p : Params}
    (halert : ∀ severity, (severities.find? fun t => (p.get "severity").eqStr t) = some severity →
      Storable (.obj (systemAlert cfg (py "system") p severity))) :
    Kept window ⟨(Brokers.system_alert cfg w s.al (py "system") p).2,
      registered w (Brokers.system_alert cfg w s.al (py "system") p).2 ++ s.history⟩ := by
  unfold Brokers.system_alert
  split
  · exact hk.undispatched hd
  · rename_i severity hseverity
    have hkept := hk.dispatched hd (halert severity hseverity) (title_systemAlert (py "system") p severity)
    dsimp only
    split
    · exact hk.undispatched hd
    · split
      · rename_i heq
        rw [heq] at hkept
        exact hkept
      · rename_i heq
        rw [heq] at hkept
        exact hkept

theorem Kept.restart (hk : Kept window s) : _load s.al.log = .ok s.al.alerts ∧
    Kept window ⟨⟨s.al.alerts, [], s.al.log⟩, s.history⟩ := by
  obtain ⟨evs, hevs⟩ := hk.logged
  exact ⟨hevs.rebuilt, hk.nodup, hk.entries, hk.known, ⟨evs, hevs.log, hevs.storable, hevs.replay⟩,
    hk.orderly⟩

/-- **One step**: a call or a restart. -/
theorem Kept.step (hk : Kept window s) {a : Act} {s' : Desk} (hok : Meets cfg s a)
    (hstep : s.act cfg window a = some s') : Kept window s' := by
  obtain ⟨halert, hok⟩ := hok
  cases a with
  | send_alert w cap args view =>
    rw [← Option.some.inj hstep]
    exact hk.send_alert hok fun alert h => halert alert (toOption_eq_some.2 h)
  | system_alert w p =>
    rw [← Option.some.inj hstep]
    refine hk.system_alert hok fun severity h => halert _ ?_
    rw [Act.composed, h]
    rfl
  | ack w alert_id =>
    rw [← Option.some.inj hstep]
    exact hk.ack hok alert_id
  | tick w =>
    rw [← Option.some.inj hstep]
    exact (hk.ticked hok).1
  | restart =>
    obtain ⟨hload, hkept⟩ := hk.restart
    rw [Desk.act, hload] at hstep
    rw [← Option.some.inj hstep]
    exact hkept

end Dispatch

/-- The runs whose steps meet the condition. -/
abbrev Reached (cfg : BrokerConfig) (window : Double) : Desk → Prop :=
  Conc.Reachable Desk.Fresh (fun s a s' => s.act cfg window a = some s') (Meets cfg)

theorem Reached.kept {cfg : BrokerConfig} {window : Double} {s : Desk} (h : Reached cfg window s) :
    Kept window s := by
  refine Conc.Reachable.inv (I := Kept window) ?_ (fun s a s' hk hok hs => hk.step hok hs) h
  rintro s ⟨hal, hhist⟩
  obtain ⟨al, history⟩ := s
  cases hal
  cases hhist
  refine ⟨List.nodup_nil, fun id a ha => ?_, fun e he => absurd he List.not_mem_nil, ⟨[], ?_⟩, trivial⟩
  · cases ha
  · exact ⟨rfl, fun ev hev => absurd hev List.not_mem_nil, rfl⟩

/-- **AW-3**: in every state of every run whose alerts hold no surrogate pair. -/
theorem escalated_in_order {cfg : BrokerConfig} {window : Double} {s : Desk}
    (h : Reached cfg window s) : InOrder window s :=
  ⟨h.kept.restart.1, h.kept.orderly, h.kept.prompt⟩

/-! ### One alert -/

/-- So many seconds. -/
def seconds (n : Nat) : Double := Double.ofRatio false (n * 2 ^ binary64.unit) 1

/-- A dispatch at time zero; everything outside succeeds. -/
def alertWorld : ReadWorld where
  toBrokerWorld := sampleBroker
  skill_file := .ok none
  section_of _ _ := none
  fault_classes := .ok (.obj [])
  sink := .ok (.str (py "ack"))
  uuid := py "a1"
  dispatched := .zero
  sent_ts := .zero
  development := false
  log := .ok ()

/-- A tick after so many seconds; everything outside succeeds. -/
def tickWorld (n : Nat) : TickWorld := ⟨⟨seconds n, .ok (), .ok ()⟩, fun _ _ => true⟩

/-- A system alert with this title. -/
def highParams (title : PyStr) : Params :=
  Params.ofFields [(py "severity", .str (py "high")), (py "title", .str title)] (by simp)

theorem alertWorld_dispatches : Dispatches alertWorld ⟨{}, []⟩ :=
  ⟨rfl, storable_ascii rfl, fun _ hack => Except.ok.inj hack ▸ storable_ascii rfl, rfl⟩

theorem tickWorld_succeeds (n : Nat) : Succeeds (tickWorld n).toUpdateWorld := ⟨rfl, rfl⟩

/-- After a dispatch. -/
def sentDesk (title : PyStr) : Desk :=
  let al := (Brokers.system_alert sampleNet alertWorld {} (py "system") (highParams title)).2
  ⟨al, registered alertWorld al⟩

/-- And after a tick and a restart. -/
def restartedDesk : Desk :=
  let s := (sentDesk (py "t")).ticked (seconds 60) (tickWorld 61)
  ⟨⟨s.al.alerts, [], s.al.log⟩, s.history⟩

theorem sentDesk_reached : Reached sampleNet (seconds 60) (sentDesk (py "t")) := by
  have halert : Storable (.obj (systemAlert sampleNet (py "system") (highParams (py "t")) (py "high"))) := by
    refine storable_mkObj (List.forall_mem_cons.2 ⟨⟨storable_ascii rfl, storable_ascii rfl⟩, ?_⟩)
    refine List.forall_mem_cons.2 ⟨⟨storable_ascii rfl, storable_ascii rfl⟩, ?_⟩
    refine List.forall_mem_cons.2 ⟨⟨storable_ascii rfl, storable_ascii rfl⟩, ?_⟩
    refine List.forall_mem_cons.2 ⟨⟨storable_ascii rfl, storable_ascii rfl⟩, ?_⟩
    refine List.forall_mem_cons.2 ⟨⟨storable_ascii rfl, .null, rfl, rfl, rfl⟩, ?_⟩
    refine List.forall_mem_cons.2 ⟨⟨storable_ascii rfl, storable_ascii rfl⟩, ?_⟩
    exact List.forall_mem_singleton.2 ⟨storable_ascii rfl, storable_bool _⟩
  have hstart : Reached sampleNet (seconds 60) ⟨{}, []⟩ := .start ⟨rfl, rfl⟩
  exact hstart.next (a := .system_alert alertWorld (highParams (py "t")))
    ⟨fun _ h => Option.some.inj h ▸ halert, alertWorld_dispatches⟩ rfl

theorem restartedDesk_reached : Reached sampleNet (seconds 60) restartedDesk := by
  have hresent : Reached sampleNet (seconds 60)
      ((sentDesk (py "t")).ticked (seconds 60) (tickWorld 61)) :=
    sentDesk_reached.next (a := .tick (tickWorld 61)) ⟨nofun, tickWorld_succeeds 61⟩ rfl
  refine hresent.next (a := .restart) ⟨nofun, trivial⟩ ?_
  rw [Desk.act, hresent.kept.restart.1]
  rfl

theorem escalated_sample : InOrder (seconds 60) restartedDesk ∧
    (restartedDesk.ticked (seconds 60) (tickWorld 130)).history =
      [.escalated (py "a1") (seconds 130), .resent (py "a1") (seconds 61), .sent (py "a1") .zero true] :=
  ⟨escalated_in_order restartedDesk_reached, by decide +kernel⟩

/-- A request's parameters with an escaped high surrogate and, in UTF-8, a low one. -/
def pairedRequest : Bytes :=
  123 :: ((py "\"severity\": \"high\", \"title\": \"\\ud83d").map UInt8.ofNat ++
    [0xED, 0xB8, 0x80, 34, 125])

/-- A title of a high and a low surrogate is read back as one character. -/
theorem paired_title : loadsBytes pairedRequest = some (.obj (highParams [0xD83D, 0xDE00]).fields) ∧
    Dispatches alertWorld ⟨{}, []⟩ ∧
    Desk.act sampleNet (seconds 60) ⟨{}, []⟩ (.system_alert alertWorld (highParams [0xD83D, 0xDE00])) =
      some (sentDesk [0xD83D, 0xDE00]) ∧
    _load (sentDesk [0xD83D, 0xDE00]).al.log ≠ .ok (sentDesk [0xD83D, 0xDE00]).al.alerts := by
  have hload : (_load (sentDesk [0xD83D, 0xDE00]).al.log).toOption ≠
      some (sentDesk [0xD83D, 0xDE00]).al.alerts := by decide +kernel
  refine ⟨by decide +kernel, alertWorld_dispatches, rfl, fun h => hload ?_⟩
  rw [h]
  rfl

end Valops.Brokers.Escalation
