import Valops.Brokers.Escalation
import Valops.Common.Satisfies
import Valops.Conc.Runs

/-!
# One alert per key

Calls that send alerts run concurrently: each looks the table up under its key, composes its alert and
passes the rate check, hands the alert to the sink, and registers it. Between the look-up and the
registration other calls go on, and the process may be restarted, which ends all calls and reads the table
back from the log.

Main result: `one_alert`. Where no call looks a key up while another call for it is between its look-up and
its registration, and the process is not restarted while an accepted alert waits to be registered, the
sink accepts at most one alert per key (`OneAlert`).
-/

set_option autoImplicit false

namespace Valops.Brokers.Duplicates

open Py Store

/-! ## Calls in parts -/

/-- A call that wants an alert sent. -/
inductive Request where
  | system (p : Params)
  | worker (cap : Capability) (args : Json)

/-- What a call looks up. -/
inductive Key where
  | dedupe (v : Json)
  | report (session_id kind : Json)

/-- The alert was sent under this key. -/
def Key.holds : Key → Fields → Bool
  | .dedupe v, a => (field a "dedupe_key").pyEq v
  | .report session_id kind, a =>
    (field a "session_id").pyEq session_id && (field a "kind").pyEq kind

/-- The key of a call, if it has one. -/
def Request.key : Request → Option Key
  | .system p => if (p.get "dedupe_key").truthy then some (.dedupe (p.get "dedupe_key")) else none
  | .worker cap args => (index args "kind").toOption.map (.report cap.session_id)

/-- The look-up under the call's key. -/
def lookUp (al : Alerts) (r : Request) : Option Fields :=
  r.key.bind fun k => (al.alerts.map Prod.snd).find? k.holds

/-- What has been checked before the look-up: the severity, and the arguments of a worker. -/
def Request.Admitted : Request → Prop
  | .system p => ∃ severity ∈ severities, p.get "severity" = .str severity
  | .worker _ args => validate CatalogueTool.send_alert.input_schema args (py "$") = none

/-- The alert of the call. -/
def Request.compose (cfg : BrokerConfig) (w : ReadWorld) (view : Except Exc View) :
    Request → Except Exc Fields
  | .system p =>
    match severities.find? fun t => (p.get "severity").eqStr t with
    | some severity => .ok (systemAlert cfg (py "system") p severity)
    | none => .error (rpcError .invalid (msg "severity must be info|warning|high|critical"))
  | .worker cap args => composedAlert cfg w cap args view

/-- How far a call is: its look-up found nothing, its alert is about to be sent, or the sink has accepted
it. -/
inductive Phase where
  | looked
  | ready (alert : Fields)
  | sent (id : PyStr) (alert : Fields)

structure Call where
  request : Request
  phase : Phase

/-- The next part of a call: the alerts after it, how far the call is then (`none` when it has returned),
and what the sink accepted. -/
def advance (cfg : BrokerConfig) (w : ReadWorld) (view : Except Exc View) (al : Alerts) (c : Call) :
    Alerts × Option Phase × List Fields :=
  match c.phase with
  | .looked =>
    match c.request.compose cfg w view with
    | .error _ => (al, none, [])
    | .ok alert =>
      if al.capped w.dispatched alert then
        ({ al with sent_times := al.recent w.dispatched }, none, [])
      else
        ({ al with sent_times := al.recent w.dispatched ++ [w.dispatched] }, some (.ready alert), [])
  | .ready alert =>
    match w.sink with
    | .error _ => (al, none, [])
    | .ok ack =>
      let sent := update alert (stamps w ack)
      (al, some (.sent w.uuid sent), [sent])
  | .sent id alert => ((registerAlert w.log al id alert).2, none, [])

theorem lookUp_system {al : Alerts} {p : Params} (h : (p.get "dedupe_key").truthy = true) :
    lookUp al (.system p) = al.keyed (p.get "dedupe_key") := by
  rw [lookUp, Request.key, if_pos h]
  rfl

theorem lookUp_worker {al : Alerts} {cap : Capability} {args : Json} :
    lookUp al (.worker cap args) =
      (index args "kind").toOption.bind fun kind => al.sentBy cap.session_id kind := by
  rw [lookUp, Request.key, Option.bind_map]
  rfl

/-- The alerts after a call that nothing comes between. -/
def complete (cfg : BrokerConfig) (w : ReadWorld) (view : Except Exc View) : Nat → Alerts → Call → Alerts
  | 0, al, _ => al
  | n + 1, al, c =>
    match advance cfg w view al c with
    | (al, some phase, _) => complete cfg w view n al ⟨c.request, phase⟩
    | (al, none, _) => al

section Parts

variable {cfg : BrokerConfig} {w : ReadWorld} {view : Except Exc View} {al : Alerts} {alert : Fields}
  {r : Request} {p : Params} {cap : Capability} {args : Json}

/-- After the look-up a call is a dispatch. -/
theorem complete_dispatch (hcompose : r.compose cfg w view = .ok alert) (h : Json.SortedKeys alert) :
    complete cfg w view 3 al ⟨r, .looked⟩ = (_dispatch w al alert).2 := by
  rw [dispatch_parts h, complete, advance]
  simp only [hcompose]
  by_cases hcap : al.capped w.dispatched alert
  · simp only [if_pos hcap]
  simp only [if_neg hcap]
  rw [complete, advance]
  dsimp only
  cases hsink : w.sink with
  | error text => rfl
  | ok ack => rfl

theorem sortedKeys_update {a upd : Fields} (h : Json.SortedKeys a) :
    Json.SortedKeys (update a upd) := by
  induction upd generalizing a with
  | nil => exact h
  | cons x upd ih => exact ih (Json.sortedKeys_insertField h)

theorem sortedKeys_systemAlert (principal severity : PyStr) :
    Json.SortedKeys (systemAlert cfg principal p severity) := by
  unfold systemAlert
  dsimp only
  split
  · exact sortedKeys_update (sortedKeys_mkFields _)
  · exact sortedKeys_mkFields _

theorem Request.Admitted.severity (h : (Request.system p).Admitted) :
    ∃ severity, (severities.find? fun t => (p.get "severity").eqStr t) = some severity := by
  obtain ⟨severity, hmem, heq⟩ := h
  refine Option.isSome_iff_exists.1 (List.find?_isSome.2 ⟨severity, hmem, ?_⟩)
  exact Json.eqStr_iff.2 heq

/-- **`system_alert` is its parts, one after the other.** -/
theorem system_alert_parts (hr : (Request.system p).Admitted) (h : lookUp al (.system p) = none) :
    (system_alert cfg w al (py "system") p).2 = complete cfg w view 3 al ⟨.system p, .looked⟩ := by
  obtain ⟨severity, hseverity⟩ := hr.severity
  have hcompose : (Request.system p).compose cfg w view =
      .ok (systemAlert cfg (py "system") p severity) := by
    rw [Request.compose, hseverity]
  have hnone : (if (p.get "dedupe_key").truthy then al.keyed (p.get "dedupe_key") else none) = none := by
    split
    · rename_i htruthy
      rw [← lookUp_system htruthy, h]
    · rfl
  rw [complete_dispatch hcompose (sortedKeys_systemAlert _ _), system_alert, hseverity]
  dsimp only
  rw [hnone]
  dsimp only
  split
  · rename_i heq
    rw [heq]
  · rename_i heq
    rw [heq]

theorem asStr_eq_some {v : Json} {t : PyStr} : asStr v = some t ↔ v = .str t := by
  cases v with
  | str u => simp [asStr]
  | null | bool | int | float | arr | obj => simp [asStr]

/-- What a worker's alert is made of. -/
theorem composedAlert_parts (h : composedAlert cfg w cap args view = .ok alert) :
    ∃ rec top kind summary ref fault_classes composed, index args "kind" = .ok (.str kind) ∧
      compose cfg rec top kind summary ref fault_classes = .ok composed ∧
      alert = Json.mkFields (composed ++ [(py "session_id", cap.session_id)]) := by
  unfold composedAlert at h
  obtain ⟨v, _, h⟩ := bind_eq_ok.1 h
  obtain ⟨⟨rec, top⟩, _, h⟩ := bind_eq_ok.1 h
  obtain ⟨k, hk, h⟩ := bind_eq_ok.1 h
  obtain ⟨kind, hkind, h⟩ := bind_eq_ok.1 h
  obtain ⟨report, _, h⟩ := bind_eq_ok.1 h
  obtain ⟨sm, _, h⟩ := bind_eq_ok.1 h
  obtain ⟨summary, _, h⟩ := bind_eq_ok.1 h
  obtain ⟨fault_classes, _, h⟩ := bind_eq_ok.1 h
  obtain ⟨composed, hcomposed, h⟩ := bind_eq_ok.1 h
  refine ⟨rec, top, kind, summary, report.ref, fault_classes, composed, ?_, hcomposed,
    (pure_eq_ok.1 h).symm⟩
  rw [hk, asStr_eq_some.1 (orRaise_eq_ok.1 hkind)]

/-- **`send_alert` is its parts, one after the other.** -/
theorem send_alert_parts (h : lookUp al (.worker cap args) = none) :
    (send_alert cfg w al cap args view).2 = complete cfg w view 3 al ⟨.worker cap args, .looked⟩ := by
  rw [send_alert, ← lookUp_worker, h]
  dsimp only
  cases hcomposed : composedAlert cfg w cap args view with
  | error e =>
    have hcompose : (Request.worker cap args).compose cfg w view = .error e := hcomposed
    rw [complete, advance]
    simp only [hcompose]
  | ok alert =>
    obtain ⟨_, _, _, _, _, _, _, _, _, heq⟩ := composedAlert_parts hcomposed
    have hsorted : Json.SortedKeys alert := heq ▸ sortedKeys_mkFields _
    rw [complete_dispatch (r := .worker cap args) hcomposed hsorted]
    dsimp only
    split
    · rename_i heq
      rw [heq]
    · rename_i heq
      rw [heq]

end Parts

/-! ## Runs -/

/-- The alerts, the calls that are under way, and what the sink accepted, the newest first. -/
structure Office where
  al : Alerts
  calls : List Call
  accepted : List Fields

inductive Act where
  | look (r : Request)
  | go (c : Call) (w : ReadWorld) (view : Except Exc View)
  | update (w : UpdateWorld) (id : PyStr) (upd : Fields)
  | restart

/-- What writes into an alert that is in the table: an acknowledgement, or a tick. -/
inductive Mark : Fields → Prop
  | ack (t : Double) : Mark (ackMark t (py "operator"))
  | tick (target : Target) (t : Double) : Mark (marked target t)

/-- One step: a look-up, the next part of a call, an update by an acknowledgement or a tick, or a
restart. -/
inductive Step (cfg : BrokerConfig) : Office → Act → Office → Prop
  | told {s : Office} {r : Request} {a : Fields} (hr : r.Admitted) (h : lookUp s.al r = some a) :
      Step cfg s (.look r) s
  | look {s : Office} {r : Request} (hr : r.Admitted) (h : lookUp s.al r = none) :
      Step cfg s (.look r) ⟨s.al, ⟨r, .looked⟩ :: s.calls, s.accepted⟩
  | go {al : Alerts} {front back : List Call} {accepted : List Fields} {c : Call} {w : ReadWorld}
      {view : Except Exc View} :
      Step cfg ⟨al, front ++ c :: back, accepted⟩ (.go c w view) ⟨(advance cfg w view al c).1,
        front ++ (((advance cfg w view al c).2.1.map (Call.mk c.request)).toList ++ back),
        (advance cfg w view al c).2.2 ++ accepted⟩
  | update {s : Office} {w : UpdateWorld} {id : PyStr} {a upd : Fields}
      (h : Dict.get? s.al.alerts id = some a) (hupd : Mark upd) :
      Step cfg s (.update w id upd) ⟨(applyUpdate w s.al id a (.str id) upd).2, s.calls, s.accepted⟩
  | restart {s : Office} {alerts : Dict PyStr Fields} (h : _load s.al.log = .ok alerts) :
      Step cfg s .restart ⟨⟨alerts, [], s.al.log⟩, [], s.accepted⟩

/-- Nothing has been sent yet. -/
def Office.Fresh (s : Office) : Prop := s.al = {} ∧ s.calls = [] ∧ s.accepted = []

/-! ## What is asked of a run -/

/-- The keys are equal, as one or the other call compares them. -/
def Key.clash : Key → Key → Bool
  | .dedupe v, .dedupe u => v.pyEq u || u.pyEq v
  | .report s k, .report s' k' => (s.pyEq s' && k.pyEq k') || (s'.pyEq s && k'.pyEq k)
  | _, _ => false

/-- The condition on the next part of a call: new ids are new, writes succeed, and no string holds a
surrogate pair. -/
def PartMeets (cfg : BrokerConfig) (w : ReadWorld) (view : Except Exc View) (s : Office) (r : Request) :
    Phase → Prop
  | .looked => ∀ alert, r.compose cfg w view = .ok alert → Storable (.obj alert)
  | .ready _ => Storable (.str w.uuid) ∧ (∀ ack, w.sink = .ok ack → Storable ack) ∧
      Dict.get? s.al.alerts w.uuid = none ∧ ∀ d ∈ s.calls, ∀ a, d.phase ≠ .sent w.uuid a
  | .sent _ _ => w.log = .ok ()

/-- The condition on the steps: no call starts under a key while another call for it is under way, and no
restart while a keyed alert that the sink has accepted is not registered. -/
def Meets (cfg : BrokerConfig) (s : Office) : Act → Prop
  | .look r => lookUp s.al r = none → ∀ k, r.key = some k → ∀ c ∈ s.calls, ∀ k',
      c.request.key = some k' → k.clash k' = false
  | .go c w view => PartMeets cfg w view s c.request c.phase
  | .update w _ _ => Succeeds w
  | .restart => ∀ c ∈ s.calls, ∀ id a, c.phase = .sent id a → c.request.key = none

/-- The later alert repeats the key of the earlier one. -/
def Repeats (older newer : Fields) : Prop :=
  ((field older "dedupe_key").truthy = true ∧
    (field older "dedupe_key").pyEq (field newer "dedupe_key") = true) ∨
  ((Json.lookup (py "session_id") older).isSome = true ∧
    (field older "session_id").pyEq (field newer "session_id") = true ∧
    (field older "kind").pyEq (field newer "kind") = true)

/-- **One alert per key**: the sink accepts no second one, is offered none, and who is told of a
duplicate is told of an alert that the sink acknowledged. -/
structure OneAlert (s : Office) : Prop where
  once : s.accepted.Pairwise fun newer older => ¬ Repeats older newer
  offered : ∀ c ∈ s.calls, ∀ alert, c.phase = .ready alert → ∀ b ∈ s.accepted, ¬ Repeats b alert
  acknowledged : ∀ r a, lookUp s.al r = some a → ∃ b ∈ s.accepted,
    field b "alert_id" = field a "alert_id" ∧ field b "ack" = field a "ack"

/-! ## Keys and alerts -/

section Keys

variable {a b : Fields} {v : Json} {k k' : Key} {o o' : Option Key} {r : Request}

theorem ne_null_of_truthy (h : v.truthy = true) : v ≠ .null := by
  rintro rfl
  cases h

/-- The kinds of reports. -/
def ReportKind (v : Json) : Prop := v = .str (py "incident") ∨ v = .str (py "closure")

theorem ReportKind.not_system (h : ReportKind v) : v ≠ .str (py "system") := by
  rcases h with rfl | rfl
  · decide
  · decide

/-- The keys that calls have. -/
def Key.Proper : Key → Prop
  | .dedupe v => v.truthy = true
  | .report _ kind => ReportKind kind

/-- The alert belongs to a call with this key, or with none. -/
def Carries : Option Key → Fields → Prop
  | some (.dedupe v), a => v.truthy = true ∧ field a "dedupe_key" = v ∧
      field a "kind" = .str (py "system") ∧ Json.lookup (py "session_id") a = none
  | some (.report session_id kind), a => ReportKind kind ∧ field a "dedupe_key" = .null ∧
      field a "session_id" = session_id ∧ field a "kind" = kind
  | none, a => field a "dedupe_key" = .null ∧ field a "kind" = .str (py "system") ∧
      Json.lookup (py "session_id") a = none

/-- The fields by which an alert is found and answered for are the same. -/
def Agree (a b : Fields) : Prop :=
  ∀ k ∈ ["alert_id", "ack", "dedupe_key", "session_id", "kind"],
    Json.lookup (py k) a = Json.lookup (py k) b

theorem Agree.field (h : Agree a b) {k : String}
    (hk : k ∈ ["alert_id", "ack", "dedupe_key", "session_id", "kind"]) : field a k = field b k := by
  rw [Brokers.field, h k hk, Brokers.field]

theorem Agree.holds (h : Agree a b) (k : Key) : k.holds a = k.holds b := by
  cases k with
  | dedupe v => rw [Key.holds, Key.holds, h.field (by simp)]
  | report session_id kind =>
    rw [Key.holds, Key.holds, h.field (k := "session_id") (by simp), h.field (k := "kind") (by simp)]

theorem clash_comm (k k' : Key) : k.clash k' = k'.clash k := by
  cases k with
  | dedupe v =>
    cases k' with
    | dedupe u => exact Bool.or_comm _ _
    | report s kind => rfl
  | report s kind =>
    cases k' with
    | dedupe u => rfl
    | report s' kind' => exact Bool.or_comm _ _

/-- An alert found under a key belongs to a call whose key clashes. -/
theorem Carries.clash (hc : Carries o a) (hk : k.Proper) (h : k.holds a = true) :
    ∃ k', o = some k' ∧ k.clash k' = true := by
  cases k with
  | dedupe v =>
    rw [Key.holds] at h
    match o, hc with
    | some (.dedupe u), ⟨_, hu, _, _⟩ =>
      rw [hu] at h
      refine ⟨_, rfl, ?_⟩
      rw [Key.clash, h, Bool.or_true]
    | some (.report s kind), ⟨_, hnull, _, _⟩ =>
      rw [hnull, Json.null_pyEq] at h
      exact absurd h (ne_null_of_truthy hk)
    | none, ⟨hnull, _, _⟩ =>
      rw [hnull, Json.null_pyEq] at h
      exact absurd h (ne_null_of_truthy hk)
  | report s kind =>
    rw [Key.holds, Bool.and_eq_true] at h
    have hsystem : field a "kind" ≠ .str (py "system") := by
      intro hsys
      rw [hsys] at h
      rcases hk with rfl | rfl
      · exact absurd h.2 (by decide)
      · exact absurd h.2 (by decide)
    match o, hc with
    | some (.dedupe u), ⟨_, _, hsys, _⟩ => exact absurd hsys hsystem
    | some (.report s' kind'), ⟨_, _, hs, hkind⟩ =>
      rw [hs, hkind] at h
      refine ⟨_, rfl, ?_⟩
      rw [Key.clash, h.1, h.2, Bool.and_true, Bool.or_true]
    | none, ⟨_, hsys, _⟩ => exact absurd hsys hsystem

/-- An alert that repeats another one belongs to a call whose key finds the other one. -/
theorem Carries.holds_of_repeats (ha : Carries o a) (hb : Carries o' b) (h : Repeats a b) :
    ∃ k, o' = some k ∧ k.holds a = true := by
  rcases h with ⟨htruthy, heq⟩ | ⟨hsession, hs, hkind⟩
  · have hnot : field b "dedupe_key" ≠ .null := by
      intro hnull
      rw [hnull, Json.pyEq_null] at heq
      exact ne_null_of_truthy htruthy heq
    match o', hb with
    | some (.dedupe u), ⟨_, hu, _, _⟩ => exact ⟨_, rfl, by rw [Key.holds, ← hu, heq]⟩
    | some (.report s kind), ⟨_, hnull, _, _⟩ => exact absurd hnull hnot
    | none, ⟨hnull, _, _⟩ => exact absurd hnull hnot
  · have hnosession : ¬ Json.lookup (py "session_id") a = none := by
      intro hnone
      rw [hnone] at hsession
      cases hsession
    have hreport : ReportKind (field a "kind") := by
      match o, ha with
      | some (.dedupe u), ⟨_, _, _, hnone⟩ => exact absurd hnone hnosession
      | some (.report s kind), ⟨hk, _, _, heq⟩ => exact heq ▸ hk
      | none, ⟨_, _, hnone⟩ => exact absurd hnone hnosession
    have hsystem : field b "kind" ≠ .str (py "system") := by
      intro hsys
      rw [hsys] at hkind
      rcases hreport with heq | heq
      · rw [heq] at hkind
        exact absurd hkind (by decide)
      · rw [heq] at hkind
        exact absurd hkind (by decide)
    match o', hb with
    | some (.dedupe u), ⟨_, _, hsys, _⟩ => exact absurd hsys hsystem
    | some (.report s' kind'), ⟨_, _, hs', hkind'⟩ =>
      refine ⟨_, rfl, ?_⟩
      rw [Key.holds, ← hs', ← hkind', hs, hkind, Bool.and_true]
    | none, ⟨_, hsys, _⟩ => exact absurd hsys hsystem

/-- **The keys of calls.** -/
theorem Request.Admitted.proper (hr : r.Admitted) (h : r.key = some k) : k.Proper := by
  cases r with
  | system p =>
    rw [Request.key] at h
    split at h
    · rename_i htruthy
      cases h
      exact htruthy
    · cases h
  | worker cap args =>
    obtain ⟨kind, hkind, rfl⟩ := Option.map_eq_some_iff.1 h
    have hvalid : validate (objectSchema ["kind", "summary"]
        [("kind", enumSchema ["incident", "closure"]), ("summary", strSchema 1500)]) args (py "$") = none := hr
    obtain ⟨kvs, rfl⟩ := obj_of_validate rfl hvalid
    obtain ⟨x, hx, hvalue⟩ := object_property (k := py "kind") (s := enumSchema ["incident", "closure"])
      (by simp) (by simp) hvalid
    have heq : kind = x := by
      rw [toOption_eq_some, index, hx] at hkind
      exact (orRaise_eq_ok.1 hkind |> Option.some.inj).symm
    obtain ⟨_, henum, _⟩ := validate_parts hvalue
    obtain ⟨v, hv, hpy⟩ := (valueProblem_eq_none.1 henum).2 _ rfl
    rw [heq]
    simp only [List.map_cons, List.map_nil, List.mem_cons, List.not_mem_nil, or_false] at hv
    rcases hv with rfl | rfl
    · exact .inl (Json.pyEq_str_iff.1 hpy)
    · exact .inr (Json.pyEq_str_iff.1 hpy)

theorem carries_systemAlert {cfg : BrokerConfig} {p : Params} {severity : PyStr} :
    Carries (Request.system p).key (systemAlert cfg (py "system") p severity) := by
  unfold systemAlert Request.key
  dsimp only
  split
  · rename_i htruthy
    refine ⟨htruthy, ?_, ?_, ?_⟩
    · rw [field, lookup_update]
      rfl
    · rw [field_update_of_none rfl]
      rfl
    · rw [lookup_update_of_none rfl]
      rfl
  · exact ⟨rfl, rfl, rfl⟩

theorem fields_compose {cfg : BrokerConfig} {rec : Record} {top : Option Hypothesis}
    {kind summary ref : PyStr} {fault_classes : Json} {composed : Fields}
    (h : compose cfg rec top kind summary ref fault_classes = .ok composed) :
    Json.SortedKeys composed ∧ field composed "kind" = .str kind ∧ field composed "dedupe_key" = .null := by
  unfold compose at h
  obtain ⟨by_check, _, h⟩ := bind_eq_ok.1 h
  obtain ⟨check, _, h⟩ := bind_eq_ok.1 h
  obtain ⟨fc, _, h⟩ := bind_eq_ok.1 h
  obtain ⟨recommendation, _, h⟩ := bind_eq_ok.1 h
  obtain ⟨verdict, _, h⟩ := bind_eq_ok.1 h
  obtain ⟨severity, _, h⟩ := bind_eq_ok.1 h
  rw [← pure_eq_ok.1 h, mkFields_eq_update]
  refine ⟨sortedKeys_mkFields _, ?_, ?_⟩
  · rw [field, lookup_update]
    rfl
  · rw [field, lookup_update]
    rfl

theorem carries_composedAlert {cfg : BrokerConfig} {w : ReadWorld} {cap : Capability} {args : Json}
    {view : Except Exc View} (hr : (Request.worker cap args).Admitted)
    (h : composedAlert cfg w cap args view = .ok a) : Carries (Request.worker cap args).key a := by
  obtain ⟨rec, top, kind, summary, ref, fault_classes, composed, hkind, hcomposed, rfl⟩ :=
    composedAlert_parts h
  obtain ⟨hsorted, hfield, hdedupe⟩ := fields_compose hcomposed
  have hkey : (Request.worker cap args).key = some (.report cap.session_id (.str kind)) := by
    rw [Request.key, hkind]
    rfl
  have hproper := hr.proper hkey
  rw [hkey, mkFields_append, Json.mkFields_sorted hsorted]
  refine ⟨hproper, ?_, ?_, ?_⟩
  · rw [field_update_of_none rfl, hdedupe]
  · rw [field, lookup_update]
    rfl
  · rw [field_update_of_none rfl, hfield]

/-- **The alert of a call belongs to it.** -/
theorem carries_compose {cfg : BrokerConfig} {w : ReadWorld} {view : Except Exc View} (hr : r.Admitted)
    (h : r.compose cfg w view = .ok a) : Carries r.key a := by
  cases r with
  | system p =>
    unfold Request.compose at h
    dsimp only at h
    split at h
    · cases h
      exact carries_systemAlert
    · cases h
  | worker cap args => exact carries_composedAlert hr h

/-- It still does with the fields that `_dispatch` adds. -/
theorem Carries.stamped (h : Carries o a) (w : ReadWorld) (ack : Json) :
    Carries o (update a (stamps w ack)) := by
  have hfield {k : String} (hk : Json.lookup (py k) (stamps w ack).reverse = none) :
      field (update a (stamps w ack)) k = field a k := field_update_of_none hk
  match o, h with
  | some (.dedupe v), ⟨hv, hdedupe, hkind, hsession⟩ =>
    exact ⟨hv, (hfield rfl).trans hdedupe, (hfield rfl).trans hkind,
      (lookup_update_of_none rfl).trans hsession⟩
  | some (.report s kind), ⟨hk, hdedupe, hsession, hkind⟩ =>
    exact ⟨hk, (hfield rfl).trans hdedupe, (hfield rfl).trans hsession, (hfield rfl).trans hkind⟩
  | none, ⟨hdedupe, hkind, hsession⟩ =>
    exact ⟨(hfield rfl).trans hdedupe, (hfield rfl).trans hkind,
      (lookup_update_of_none rfl).trans hsession⟩

/-- Updates leave the fields of a dispatch as they are. -/
theorem Mark.agree {upd : Fields} (h : Mark upd) (a : Fields) : Agree (update a upd) a := by
  intro k hk
  simp only [List.mem_cons, List.not_mem_nil, or_false] at hk
  refine lookup_update_of_none ?_
  cases h with
  | ack t => rcases hk with rfl | rfl | rfl | rfl | rfl <;> rfl
  | tick target t => cases target <;> rcases hk with rfl | rfl | rfl | rfl | rfl <;> rfl

theorem Mark.storable {upd : Fields} (h : Mark upd) : Storable (.obj upd) := by
  cases h with
  | ack t => exact storable_ackMark (storable_ascii rfl)
  | tick target t => exact storable_marked target

end Keys

/-! ## The invariant -/

section Invariant

variable {cfg : BrokerConfig} {s : Office} {al al' : Alerts} {calls rest : List Call} {c : Call}
  {accepted : List Fields} {a b alert : Fields} {id : PyStr} {k : Key} {w : ReadWorld}
  {view : Except Exc View}

/-- The id under which a call is about to register its alert. -/
def Call.sentId (c : Call) : Option PyStr :=
  match c.phase with
  | .sent id _ => some id
  | _ => none

/-- No two keys of the calls clash. -/
def Call.Apart (c d : Call) : Prop :=
  ∀ k k', c.request.key = some k → d.request.key = some k' → k.clash k' = false

/-- What a call holds. -/
structure Call.Sound (s : Office) (c : Call) : Prop where
  admitted : c.request.Admitted
  ready : ∀ a, c.phase = .ready a → Carries c.request.key a ∧ Storable (.obj a)
  sent : ∀ id a, c.phase = .sent id a → Carries c.request.key a ∧ Storable (.obj a) ∧
    Json.lookup (py "alert_id") a = some (.str id) ∧ a ∈ s.accepted ∧ Dict.get? s.al.alerts id = none
  alone : ∀ k, c.request.key = some k → ∀ id a, Dict.get? s.al.alerts id = some a → k.holds a = false

/-- An entry of the table. -/
structure Entry (accepted : List Fields) (id : PyStr) (a : Fields) : Prop where
  storable : Storable (.obj a)
  alert_id : Json.lookup (py "alert_id") a = some (.str id)
  accepted : ∃ b ∈ accepted, Agree a b

/-- Where an accepted alert is. -/
inductive Placed (s : Office) (b : Fields) : Prop
  | keyless (h : Carries none b)
  | table {k : Key} {id : PyStr} {a : Fields} (hk : Carries (some k) b)
      (ha : Dict.get? s.al.alerts id = some a) (hagree : Agree a b)
  | underWay {c : Call} {id : PyStr} (hc : c ∈ s.calls) (h : c.phase = .sent id b)

/-- The alerts that the sink has accepted are in the table or about to be registered, and no call under way
has a key that is taken. -/
structure Kept (s : Office) : Prop where
  nodup : (s.al.alerts.map Prod.fst).Nodup
  logged : ∃ evs, Logged s.al evs
  entries : ∀ id a, Dict.get? s.al.alerts id = some a → Entry s.accepted id a
  placed : ∀ b ∈ s.accepted, Placed s b
  calls : ∀ c ∈ s.calls, c.Sound s
  distinct : (s.calls.filterMap Call.sentId).Nodup
  apart : s.calls.Pairwise Call.Apart
  once : s.accepted.Pairwise fun newer older => ¬ Repeats older newer

theorem Call.Apart.symm {d : Call} (h : c.Apart d) : d.Apart c := by
  intro k k' hk hk'
  rw [clash_comm]
  exact h k' k hk' hk

/-- The order of the calls says nothing. -/
theorem Kept.perm (h : Kept ⟨al, calls, accepted⟩) (hp : calls.Perm rest) : Kept ⟨al, rest, accepted⟩ := by
  refine ⟨h.nodup, h.logged, h.entries, ?_, ?_, ?_, ?_, h.once⟩
  · intro b hb
    cases h.placed b hb with
    | keyless hk => exact .keyless hk
    | table hk ha hagree => exact .table hk ha hagree
    | underWay hc hphase => exact .underWay (hp.mem_iff.1 hc) hphase
  · intro c hc
    obtain ⟨hadm, hready, hsent, halone⟩ := h.calls c (hp.mem_iff.2 hc)
    exact ⟨hadm, hready, hsent, halone⟩
  · exact ((hp.filterMap _).nodup_iff).1 h.distinct
  · exact (hp.pairwise_iff fun h => Call.Apart.symm h).1 h.apart

/-- **No alert of a call under way repeats one that was accepted.** -/
theorem Kept.unrepeated (h : Kept ⟨al, c :: rest, accepted⟩) (hc : Carries c.request.key b)
    (hphase : c.sentId = none) (ha : a ∈ accepted) : ¬ Repeats a b := by
  intro hrep
  have hsound := h.calls c List.mem_cons_self
  have hapart := (List.pairwise_cons.1 h.apart).1
  have hfound {o : Option Key} (ho : Carries o a) :
      ∃ k k', c.request.key = some k ∧ k.holds a = true ∧ o = some k' ∧ k.clash k' = true := by
    obtain ⟨k, hk, hholds⟩ := ho.holds_of_repeats hc hrep
    obtain ⟨k', hk', hclash⟩ := ho.clash (hsound.admitted.proper hk) hholds
    exact ⟨k, k', hk, hholds, hk', hclash⟩
  cases h.placed a ha with
  | keyless hk =>
    obtain ⟨_, _, _, _, hnone, _⟩ := hfound hk
    cases hnone
  | table hk ha' hagree =>
    obtain ⟨k, _, hkey, hholds, _⟩ := hfound hk
    rw [← hagree.holds k, hsound.alone k hkey _ _ ha'] at hholds
    cases hholds
  | @underWay d id hd hsent =>
    rcases List.mem_cons.1 hd with rfl | hd
    · rw [Call.sentId, hsent] at hphase
      cases hphase
    · obtain ⟨k, k', hkey, _, hkey', hclash⟩ :=
        hfound ((h.calls d (List.mem_cons_of_mem _ hd)).sent id a hsent).1
      rw [hapart d hd k k' hkey hkey'] at hclash
      cases hclash

/-- The times of the last sends say nothing. -/
theorem Kept.times (h : Kept ⟨al, calls, accepted⟩) (times : List Double) :
    Kept ⟨{ al with sent_times := times }, calls, accepted⟩ := by
  obtain ⟨evs, hevs⟩ := h.logged
  refine ⟨h.nodup, ⟨evs, hevs.log, hevs.storable, hevs.replay⟩, h.entries, ?_, ?_, h.distinct, h.apart,
    h.once⟩
  · intro b hb
    cases h.placed b hb with
    | keyless hk => exact .keyless hk
    | table hk ha hagree => exact .table hk ha hagree
    | underWay hc hphase => exact .underWay hc hphase
  · intro c hc
    obtain ⟨hadm, hready, hsent, halone⟩ := h.calls c hc
    exact ⟨hadm, hready, hsent, halone⟩

/-- A call that returns before it has sent anything. -/
theorem Kept.drop (h : Kept ⟨al, c :: rest, accepted⟩) (hphase : c.sentId = none) :
    Kept ⟨al, rest, accepted⟩ := by
  refine ⟨h.nodup, h.logged, h.entries, ?_, ?_, ?_, (List.pairwise_cons.1 h.apart).2, h.once⟩
  · intro b hb
    cases h.placed b hb with
    | keyless hk => exact .keyless hk
    | table hk ha hagree => exact .table hk ha hagree
    | underWay hd hsent =>
      rcases List.mem_cons.1 hd with rfl | hd
      · rw [Call.sentId, hsent] at hphase
        cases hphase
      · exact .underWay hd hsent
  · intro d hd
    obtain ⟨hadm, hready, hsent, halone⟩ := h.calls d (List.mem_cons_of_mem _ hd)
    exact ⟨hadm, hready, hsent, halone⟩
  · have hdistinct := h.distinct
    rwa [List.filterMap_cons_none hphase] at hdistinct

/-- A call that starts. -/
theorem Kept.look (h : Kept s) {r : Request} (hr : r.Admitted) (hnone : lookUp s.al r = none)
    (hclear : ∀ k, r.key = some k → ∀ c ∈ s.calls, ∀ k', c.request.key = some k' → k.clash k' = false) :
    Kept ⟨s.al, ⟨r, .looked⟩ :: s.calls, s.accepted⟩ := by
  refine ⟨h.nodup, h.logged, h.entries, ?_, ?_, h.distinct, ?_, h.once⟩
  · intro b hb
    cases h.placed b hb with
    | keyless hk => exact .keyless hk
    | table hk ha hagree => exact .table hk ha hagree
    | underWay hd hsent => exact .underWay (List.mem_cons_of_mem _ hd) hsent
  · intro d hd
    rcases List.mem_cons.1 hd with rfl | hd
    · refine ⟨hr, nofun, nofun, fun k hk id a ha => ?_⟩
      rw [lookUp, hk, Option.bind_some, List.find?_eq_none] at hnone
      have hmem : a ∈ s.al.alerts.map Prod.snd := List.mem_map_of_mem (Dict.mem_of_get? ha)
      exact eq_false_of_ne_true (hnone a hmem)
    · obtain ⟨hadm, hready, hsent, halone⟩ := h.calls d hd
      exact ⟨hadm, hready, hsent, halone⟩
  · refine List.pairwise_cons.2 ⟨fun d hd k k' hk hk' => ?_, h.apart⟩
    exact hclear k hk d hd k' hk'

/-- A call that has composed its alert. -/
theorem Kept.compose (h : Kept ⟨al, c :: rest, accepted⟩) (hphase : c.phase = .looked)
    (hcompose : c.request.compose cfg w view = .ok alert) (halert : Storable (.obj alert)) :
    Kept ⟨al, ⟨c.request, .ready alert⟩ :: rest, accepted⟩ := by
  have hdrop := h.drop (by rw [Call.sentId, hphase])
  have hsound := h.calls c List.mem_cons_self
  refine ⟨h.nodup, h.logged, h.entries, ?_, ?_, hdrop.distinct, ?_, h.once⟩
  · intro b hb
    cases hdrop.placed b hb with
    | keyless hk => exact .keyless hk
    | table hk ha hagree => exact .table hk ha hagree
    | underWay hd hsent => exact .underWay (List.mem_cons_of_mem _ hd) hsent
  · intro d hd
    rcases List.mem_cons.1 hd with rfl | hd
    · refine ⟨hsound.admitted, fun a ha => ?_, nofun, hsound.alone⟩
      cases ha
      exact ⟨carries_compose hsound.admitted hcompose, halert⟩
    · obtain ⟨hadm, hready, hsent, halone⟩ := hdrop.calls d hd
      exact ⟨hadm, hready, hsent, halone⟩
  · exact List.pairwise_cons.2 ⟨(List.pairwise_cons.1 h.apart).1, hdrop.apart⟩

/-- **A call whose alert the sink has accepted.** -/
theorem Kept.send (h : Kept ⟨al, c :: rest, accepted⟩) (hphase : c.phase = .ready alert) {ack : Json}
    (hack : Storable ack) (huuid : Storable (.str w.uuid)) (hfresh : Dict.get? al.alerts w.uuid = none)
    (hother : ∀ d ∈ rest, ∀ a, d.phase ≠ .sent w.uuid a) :
    Kept ⟨al, ⟨c.request, .sent w.uuid (update alert (stamps w ack))⟩ :: rest,
      update alert (stamps w ack) :: accepted⟩ := by
  have hdrop := h.drop (by rw [Call.sentId, hphase])
  have hsound := h.calls c List.mem_cons_self
  obtain ⟨hcarries, halert⟩ := hsound.ready alert hphase
  have hstamped := hcarries.stamped w ack
  have hid : Json.lookup (py "alert_id") (update alert (stamps w ack)) = some (.str w.uuid) := by
    rw [lookup_update]
    rfl
  refine ⟨h.nodup, h.logged, fun id a ha => ?_, ?_, ?_, ?_, ?_, ?_⟩
  · obtain ⟨hstored, hid', b, hb, hagree⟩ := h.entries id a ha
    exact ⟨hstored, hid', b, List.mem_cons_of_mem _ hb, hagree⟩
  · intro b hb
    rcases List.mem_cons.1 hb with rfl | hb
    · exact .underWay List.mem_cons_self rfl
    cases hdrop.placed b hb with
    | keyless hk => exact .keyless hk
    | table hk ha hagree => exact .table hk ha hagree
    | underWay hd hsent => exact .underWay (List.mem_cons_of_mem _ hd) hsent
  · intro d hd
    rcases List.mem_cons.1 hd with rfl | hd
    · refine ⟨hsound.admitted, nofun, fun id a ha => ?_, hsound.alone⟩
      cases ha
      exact ⟨hstamped, storable_stamped halert huuid hack, hid, List.mem_cons_self, hfresh⟩
    · obtain ⟨hadm, hready, hsent, halone⟩ := hdrop.calls d hd
      refine ⟨hadm, hready, fun id a ha => ?_, halone⟩
      obtain ⟨h1, h2, h3, h4, h5⟩ := hsent id a ha
      exact ⟨h1, h2, h3, List.mem_cons_of_mem _ h4, h5⟩
  · refine List.nodup_cons.2 ⟨fun hmem => ?_, hdrop.distinct⟩
    obtain ⟨d, hd, hsent⟩ := List.mem_filterMap.1 hmem
    obtain ⟨r, p⟩ := d
    cases p with
    | looked => cases hsent
    | ready a => cases hsent
    | sent id a => exact hother _ hd a (by rw [Option.some.inj hsent])
  · exact List.pairwise_cons.2 ⟨(List.pairwise_cons.1 h.apart).1, hdrop.apart⟩
  · exact List.pairwise_cons.2 ⟨fun a ha => h.unrepeated hstamped (by rw [Call.sentId, hphase]) ha, h.once⟩

/-- A change of the table, to entries that agree with the old ones or are new. -/
theorem get?_set_cases {alerts : Dict PyStr Fields} {id' : PyStr}
    (h : Dict.get? (Dict.set alerts id alert) id' = some a) :
    id' = id ∧ a = alert ∨ id' ≠ id ∧ Dict.get? alerts id' = some a := by
  by_cases heq : id' = id
  · rw [heq, Dict.get?_set_self] at h
    exact .inl ⟨heq, (Option.some.inj h).symm⟩
  · rw [Dict.get?_set_of_ne _ heq] at h
    exact .inr ⟨heq, h⟩

/-- **A call that registers its alert.** -/
theorem Kept.register (h : Kept ⟨al, c :: rest, accepted⟩) (hphase : c.phase = .sent id alert)
    (hwritten : w.log = .ok ()) : Kept ⟨(registerAlert w.log al id alert).2, rest, accepted⟩ := by
  have hsound := h.calls c List.mem_cons_self
  obtain ⟨hcarries, hstored, hid, hmem, hfresh⟩ := hsound.sent id alert hphase
  have hapart := (List.pairwise_cons.1 h.apart).1
  have hdistinct := h.distinct
  have hsentId : c.sentId = some id := by
    rw [Call.sentId, hphase]
  rw [List.filterMap_cons_some hsentId, List.nodup_cons] at hdistinct
  rw [registerAlert_ok hwritten hstored]
  refine ⟨Dict.nodup_keys_set h.nodup, ?_, ?_, ?_, ?_, hdistinct.2, (List.pairwise_cons.1 h.apart).2, h.once⟩
  · obtain ⟨evs, hevs⟩ := h.logged
    exact ⟨_, hevs.snoc (storable_sentEvent hstored) (loadEvent_sent hid) al.sent_times⟩
  · intro id' a ha
    rcases get?_set_cases ha with ⟨rfl, rfl⟩ | ⟨_, ha⟩
    · exact ⟨hstored, hid, _, hmem, fun _ _ => rfl⟩
    · exact h.entries id' a ha
  · intro b hb
    cases h.placed b hb with
    | keyless hk => exact .keyless hk
    | @table k id' a hk ha hagree =>
      have hne : id' ≠ id := by
        rintro rfl
        rw [hfresh] at ha
        cases ha
      exact .table hk (by rw [Dict.get?_set_of_ne _ hne]; exact ha) hagree
    | @underWay d id' hd hsent =>
      rcases List.mem_cons.1 hd with rfl | hd
      · rw [hphase] at hsent
        cases hsent
        cases hkey : d.request.key with
        | none => exact .keyless (hkey ▸ hcarries)
        | some k => exact .table (hkey ▸ hcarries) (Dict.get?_set_self _) fun _ _ => rfl
      · exact .underWay hd hsent
  · intro d hd
    obtain ⟨hadm, hready, hsent, halone⟩ := h.calls d (List.mem_cons_of_mem _ hd)
    refine ⟨hadm, hready, fun id' a ha => ?_, fun k hk id' a ha => ?_⟩
    · obtain ⟨h1, h2, h3, h4, h5⟩ := hsent id' a ha
      have hne : id' ≠ id := by
        rintro rfl
        refine hdistinct.1 (List.mem_filterMap.2 ⟨d, hd, ?_⟩)
        rw [Call.sentId, ha]
      exact ⟨h1, h2, h3, h4, by rw [Dict.get?_set_of_ne _ hne]; exact h5⟩
    · rcases get?_set_cases ha with ⟨rfl, rfl⟩ | ⟨_, ha⟩
      · refine eq_false_of_ne_true fun hholds => ?_
        obtain ⟨k', hk', hclash⟩ := hcarries.clash (hadm.proper hk) hholds
        have hno := hapart d hd k' k hk' hk
        rw [clash_comm, hclash] at hno
        cases hno
      · exact halone k hk id' a ha

/-- An acknowledgement, or an update by a tick. -/
theorem Kept.update (h : Kept s) {u : UpdateWorld} (hu : Succeeds u)
    (ha : Dict.get? s.al.alerts id = some a) {upd : Fields} (hupd : Mark upd) :
    Kept ⟨(applyUpdate u s.al id a (.str id) upd).2, s.calls, s.accepted⟩ := by
  obtain ⟨hstored, hid, b, hb, hagree⟩ := h.entries id a ha
  have hnew : Agree (Brokers.update a upd) a := hupd.agree a
  rw [applyUpdate_ok hu s.al (hstored.lookup hid) hupd.storable]
  refine ⟨Dict.nodup_keys_set h.nodup, ?_, ?_, ?_, ?_, h.distinct, h.apart, h.once⟩
  · obtain ⟨evs, hevs⟩ := h.logged
    exact ⟨_, hevs.snoc (storable_updateEvent (hstored.lookup hid) hupd.storable) (loadEvent_update ha)
      s.al.sent_times⟩
  · intro id' a' ha'
    rcases get?_set_cases ha' with ⟨rfl, rfl⟩ | ⟨_, ha'⟩
    · refine ⟨hstored.update (storable_obj.1 hupd.storable).2, ?_, b, hb, ?_⟩
      · rw [hnew "alert_id" (by simp), hid]
      · exact fun k hk => (hnew k hk).trans (hagree k hk)
    · exact h.entries id' a' ha'
  · intro b' hb'
    cases h.placed b' hb' with
    | keyless hk => exact .keyless hk
    | @table k id' a' hk ha' hagree' =>
      by_cases heq : id' = id
      · rw [heq, ha] at ha'
        cases ha'
        exact .table hk (Dict.get?_set_self _) fun k hk => (hnew k hk).trans (hagree' k hk)
      · exact .table hk (by rw [Alerts.mark, Dict.get?_set_of_ne _ heq]; exact ha') hagree'
    | underWay hd hsent => exact .underWay hd hsent
  · intro d hd
    obtain ⟨hadm, hready, hsent, halone⟩ := h.calls d hd
    refine ⟨hadm, hready, fun id' a' ha' => ?_, fun k hk id' a' ha' => ?_⟩
    · obtain ⟨h1, h2, h3, h4, h5⟩ := hsent id' a' ha'
      have hne : id' ≠ id := by
        rintro rfl
        rw [h5] at ha
        cases ha
      exact ⟨h1, h2, h3, h4, by rw [Alerts.mark, Dict.get?_set_of_ne _ hne]; exact h5⟩
    · rcases get?_set_cases ha' with ⟨rfl, rfl⟩ | ⟨_, ha'⟩
      · rw [hnew.holds]
        exact halone k hk _ a ha
      · exact halone k hk id' a' ha'

/-- A restart. -/
theorem Kept.restart (h : Kept s)
    (hkeyless : ∀ c ∈ s.calls, ∀ id a, c.phase = .sent id a → c.request.key = none)
    {alerts : Dict PyStr Fields} (hload : _load s.al.log = .ok alerts) :
    Kept ⟨⟨alerts, [], s.al.log⟩, [], s.accepted⟩ := by
  obtain ⟨evs, hevs⟩ := h.logged
  rw [hevs.rebuilt] at hload
  cases hload
  refine ⟨h.nodup, ⟨evs, hevs.log, hevs.storable, hevs.replay⟩, h.entries, ?_, nofun, List.nodup_nil,
    List.Pairwise.nil, h.once⟩
  intro b hb
  cases h.placed b hb with
  | keyless hk => exact .keyless hk
  | table hk ha hagree => exact .table hk ha hagree
  | underWay hd hsent =>
    have hcarries := ((h.calls _ hd).sent _ _ hsent).1
    rw [hkeyless _ hd _ _ hsent] at hcarries
    exact .keyless hcarries

/-- The next part of a call. -/
theorem Kept.advance (h : Kept ⟨al, c :: rest, accepted⟩)
    (hok : PartMeets cfg w view ⟨al, c :: rest, accepted⟩ c.request c.phase) :
    Kept ⟨(advance cfg w view al c).1,
      ((advance cfg w view al c).2.1.map (Call.mk c.request)).toList ++ rest,
      (advance cfg w view al c).2.2 ++ accepted⟩ := by
  obtain ⟨r, phase⟩ := c
  unfold Duplicates.advance
  cases phase with
  | looked =>
    dsimp only
    cases hcompose : r.compose cfg w view with
    | error e => exact h.drop rfl
    | ok alert =>
      dsimp only
      split
      · exact (h.drop rfl).times _
      · exact (h.compose rfl hcompose (hok alert hcompose)).times _
  | ready alert =>
    obtain ⟨huuid, hsink, hfresh, hother⟩ := hok
    dsimp only
    cases hack : w.sink with
    | error text => exact h.drop rfl
    | ok ack =>
      exact h.send rfl (hsink ack hack) huuid hfresh fun d hd => hother d (List.mem_cons_of_mem _ hd)
  | sent id alert => exact h.register rfl hok

/-- **One step.** -/
theorem Kept.step (h : Kept s) {x : Act} {s' : Office} (hok : Meets cfg s x) (hstep : Step cfg s x s') :
    Kept s' := by
  cases hstep with
  | told hr hfound => exact h
  | look hr hnone => exact h.look hr hnone (hok hnone)
  | @go al front back accepted c w view =>
    have hfirst : (front ++ c :: back).Perm (c :: (front ++ back)) := List.perm_middle
    have hok' : PartMeets cfg w view ⟨al, c :: (front ++ back), accepted⟩ c.request c.phase := by
      obtain ⟨r, phase⟩ := c
      cases phase with
      | looked => exact hok
      | ready alert =>
        obtain ⟨huuid, hsink, hfresh, hother⟩ := hok
        exact ⟨huuid, hsink, hfresh, fun d hd => hother d (hfirst.mem_iff.2 hd)⟩
      | sent id alert => exact hok
    refine ((h.perm hfirst).advance hok').perm ?_
    rw [← List.append_assoc, ← List.append_assoc]
    exact List.perm_append_comm.append_right back
  | update ha hupd => exact h.update hok ha hupd
  | restart hload => exact h.restart hok hload

/-- What the invariant says of keys. -/
theorem Kept.oneAlert (h : Kept s) : OneAlert s := by
  refine ⟨h.once, ?_, ?_⟩
  · intro c hc alert hphase b hb
    obtain ⟨al, calls, accepted⟩ := s
    obtain ⟨front, back, rfl⟩ := List.append_of_mem hc
    have hfirst : Kept ⟨al, c :: (front ++ back), accepted⟩ := h.perm List.perm_middle
    have hcarries := ((h.calls c hc).ready alert hphase).1
    exact hfirst.unrepeated hcarries (by rw [Call.sentId, hphase]) hb
  · intro r a ha
    obtain ⟨k, hk, hfound⟩ := Option.bind_eq_some_iff.1 ha
    obtain ⟨⟨id, a'⟩, hmem, rfl⟩ := List.mem_map.1 (List.mem_of_find?_eq_some hfound)
    obtain ⟨_, _, b, hb, hagree⟩ := h.entries id a' (Dict.get?_of_mem h.nodup hmem)
    exact ⟨b, hb, (hagree.field (by simp)).symm, (hagree.field (by simp)).symm⟩

theorem Office.Fresh.kept (h : s.Fresh) : Kept s := by
  obtain ⟨al, calls, accepted⟩ := s
  obtain ⟨hal, hcalls, haccepted⟩ := h
  cases hal
  cases hcalls
  cases haccepted
  exact ⟨List.nodup_nil, ⟨[], rfl, nofun, rfl⟩, nofun, nofun, nofun, List.nodup_nil, List.Pairwise.nil,
    List.Pairwise.nil⟩

end Invariant

/-- The runs whose steps meet the condition. -/
abbrev Reached (cfg : BrokerConfig) : Office → Prop :=
  Conc.Reachable Office.Fresh (Step cfg) (Meets cfg)

/-- **One alert per key**, in every state of every run in which no two calls for one key overlap. -/
theorem one_alert {cfg : BrokerConfig} {s : Office} (h : Reached cfg s) : OneAlert s :=
  (Conc.Reachable.inv (I := Kept) (fun _ hfresh => hfresh.kept)
    (fun _ _ _ hk hok hstep => hk.step hok hstep) h).oneAlert

/-! ### One key -/

instance (older newer : Fields) : Decidable (Repeats older newer) :=
  inferInstanceAs (Decidable (_ ∨ _))

/-- A system alert under a key. -/
def keyedParams : Params :=
  Params.ofFields [(py "dedupe_key", .str (py "k")), (py "severity", .str (py "high")),
    (py "title", .str (py "t"))] (by simp)

/-- The alert, and as it is sent. -/
def keyedAlert : Fields := systemAlert sampleNet (py "system") keyedParams (py "high")

def keyedSent : Fields := update keyedAlert (stamps Escalation.alertWorld (.str (py "ack")))

/-- What the store would answer is not asked for. -/
def noView : Except Exc View := .error (.other .keyError)

theorem keyed_admitted : (Request.system keyedParams).Admitted := ⟨py "high", by decide, rfl⟩

theorem keyed_compose : (Request.system keyedParams).compose sampleNet Escalation.alertWorld noView =
    .ok keyedAlert := rfl

theorem storable_keyedAlert : Storable (.obj keyedAlert) := by
  refine Storable.update ?_ (List.forall_mem_singleton.2 ⟨storable_ascii rfl, storable_ascii rfl⟩)
  refine storable_mkObj (List.forall_mem_cons.2 ⟨⟨storable_ascii rfl, storable_ascii rfl⟩, ?_⟩)
  refine List.forall_mem_cons.2 ⟨⟨storable_ascii rfl, storable_ascii rfl⟩, ?_⟩
  refine List.forall_mem_cons.2 ⟨⟨storable_ascii rfl, storable_ascii rfl⟩, ?_⟩
  refine List.forall_mem_cons.2 ⟨⟨storable_ascii rfl, storable_ascii rfl⟩, ?_⟩
  refine List.forall_mem_cons.2 ⟨⟨storable_ascii rfl, .null, rfl, rfl, rfl⟩, ?_⟩
  refine List.forall_mem_cons.2 ⟨⟨storable_ascii rfl, storable_ascii rfl⟩, ?_⟩
  exact List.forall_mem_singleton.2 ⟨storable_ascii rfl, storable_bool _⟩

/-- The call that started last goes on. -/
theorem step_first (w : ReadWorld) (view : Except Exc View) (al : Alerts) (c : Call) (rest : List Call)
    (accepted : List Fields) :
    Step sampleNet ⟨al, c :: rest, accepted⟩ (.go c w view) ⟨(advance sampleNet w view al c).1,
      ((advance sampleNet w view al c).2.1.map (Call.mk c.request)).toList ++ rest,
      (advance sampleNet w view al c).2.2 ++ accepted⟩ :=
  @Step.go sampleNet al [] rest accepted c w view

section Sample

variable {ok : Office → Act → Prop} {al : Alerts} {rest : List Call} {accepted : List Fields}

/-- A call for the key composes its alert, -/
theorem keyed_composes (h : Conc.Reachable Office.Fresh (Step sampleNet) ok
      ⟨al, ⟨.system keyedParams, .looked⟩ :: rest, accepted⟩)
    (hok : ok ⟨al, ⟨.system keyedParams, .looked⟩ :: rest, accepted⟩
      (.go ⟨.system keyedParams, .looked⟩ Escalation.alertWorld noView))
    (hfew : al.sent_times.length < MAX_ALERTS_PER_HOUR) :
    Conc.Reachable Office.Fresh (Step sampleNet) ok
      ⟨{ al with sent_times := al.recent .zero ++ [.zero] }, ⟨.system keyedParams, .ready keyedAlert⟩ :: rest,
        accepted⟩ := by
  have hstep := h.next hok (step_first _ _ _ _ _ _)
  have hcap : ¬ al.capped Escalation.alertWorld.dispatched keyedAlert := fun hcap =>
    absurd (le_trans hcap.1 (List.length_filter_le _ _)) (not_le.2 hfew)
  rw [advance] at hstep
  simp only [keyed_compose, if_neg hcap] at hstep
  exact hstep

/-- the sink accepts it, -/
theorem keyed_sends (h : Conc.Reachable Office.Fresh (Step sampleNet) ok
      ⟨al, ⟨.system keyedParams, .ready keyedAlert⟩ :: rest, accepted⟩)
    (hok : ok ⟨al, ⟨.system keyedParams, .ready keyedAlert⟩ :: rest, accepted⟩
      (.go ⟨.system keyedParams, .ready keyedAlert⟩ Escalation.alertWorld noView)) :
    Conc.Reachable Office.Fresh (Step sampleNet) ok
      ⟨al, ⟨.system keyedParams, .sent (py "a1") keyedSent⟩ :: rest, keyedSent :: accepted⟩ :=
  h.next hok (step_first _ _ _ _ _ _)

/-- and it is registered. -/
theorem keyed_registers (h : Conc.Reachable Office.Fresh (Step sampleNet) ok
      ⟨al, ⟨.system keyedParams, .sent (py "a1") keyedSent⟩ :: rest, accepted⟩)
    (hok : ok ⟨al, ⟨.system keyedParams, .sent (py "a1") keyedSent⟩ :: rest, accepted⟩
      (.go ⟨.system keyedParams, .sent (py "a1") keyedSent⟩ Escalation.alertWorld noView)) :
    Conc.Reachable Office.Fresh (Step sampleNet) ok
      ⟨(registerAlert (.ok ()) al (py "a1") keyedSent).2, rest, accepted⟩ :=
  h.next hok (step_first _ _ _ _ _ _)

end Sample

/-- After one call. -/
def registeredOnce : Office :=
  ⟨(registerAlert (.ok ()) { ({} : Alerts) with sent_times := [.zero] } (py "a1") keyedSent).2, [],
    [keyedSent]⟩

theorem registeredOnce_reached : Reached sampleNet registeredOnce := by
  have hstart : Reached sampleNet ⟨{}, [], []⟩ := .start ⟨rfl, rfl, rfl⟩
  have hlooked : Reached sampleNet ⟨{}, [⟨.system keyedParams, .looked⟩], []⟩ :=
    hstart.next (a := .look (.system keyedParams)) (fun _ _ _ c hc => absurd hc List.not_mem_nil)
      (Step.look keyed_admitted rfl)
  have hready := keyed_composes hlooked (fun alert halert => ?_) (by decide)
  · have hsent := keyed_sends hready ⟨storable_ascii rfl,
      fun _ hack => Except.ok.inj hack ▸ storable_ascii rfl, rfl, fun d hd a ha => ?_⟩
    · exact keyed_registers hsent rfl
    · cases List.mem_singleton.1 hd
      cases ha
  · cases keyed_compose.symm.trans halert
    exact storable_keyedAlert

theorem one_alert_sample : OneAlert registeredOnce ∧
    (lookUp registeredOnce.al (.system keyedParams)).isSome = true :=
  ⟨one_alert registeredOnce_reached, by decide +kernel⟩

/-- **Two calls for one key that overlap**: the sink accepts both alerts. -/
theorem overlapping_repeat : ∃ s, Conc.Reachable Office.Fresh (Step sampleNet) Conc.anyAct s ∧
    ¬ OneAlert s := by
  have hstart : Conc.Reachable Office.Fresh (Step sampleNet) Conc.anyAct ⟨{}, [], []⟩ :=
    .start ⟨rfl, rfl, rfl⟩
  have hone := hstart.next trivial (Step.look keyed_admitted rfl)
  have htwo := hone.next trivial (Step.look keyed_admitted rfl)
  have hfirst := keyed_registers (keyed_sends (keyed_composes htwo trivial (by decide)) trivial) trivial
  refine ⟨_, keyed_sends (keyed_composes hfirst trivial ?_) trivial, fun h => ?_⟩
  · exact lt_of_le_of_lt (Nat.succ_le_succ (Nat.zero_le 0)) (by decide)
  · exact absurd h.once (by decide +kernel)

end Valops.Brokers.Duplicates
