import Valops.ModelBroker.Outcome

/-!
# One accounted outcome

A request is accounted for if it is refused once or forwarded once. The single handler of `handle`
catches refusals only, so every other exception on the way ends the thread with neither.

Main result: `handle_accounted` (a request is accounted for exactly when its length is a number and no
operation meets circumstances in which something raises). Control: `length_unaccounted`.
-/

set_option autoImplicit false

namespace Valops.ModelBroker

open Py Conc

/-! ## Outcomes -/

section Outcomes

variable {N : Numbers}

def Op.refuses : Op → Bool
  | .refused _ => true
  | _ => false

def Op.submits : Op → Bool
  | .submit _ _ => true
  | _ => false

def Op.replies : Op → Bool
  | .reply _ _ => true
  | _ => false

def Op.sends : Op → Bool
  | .forward _ _ => true
  | _ => false

/-- The operations of some kind that have been performed. -/
def performed (kind : Op → Bool) (tr : List (Performed N)) : List Op := (tr.map Event.op).filter kind

/-- The counters of a session. -/
def Session.counters (s : Session N) : Int × Int × Int × N.Num × Nat :=
  (s.requests, s.input_tokens, s.output_tokens, s.usd, s.upstream_errors)

/-- The operation counts a request. -/
def Counts (ev : Performed N) : Bool := decide (ev.after.requests = ev.before.requests + 1)

/-- The operation meters a request. -/
def Meters : Performed N → Bool
  | ⟨_, .meter _ _, .ok _, _⟩ => true
  | _ => false

variable (lib : Library) (key : PyStr) (s : Session N) (h : HttpRequest)

/-- The request is refused: one record, one entry for the audit client, one reply, nothing upstream, and
the counters stay. -/
structure RefusedOnce (tr : List (Performed N)) (r : Refusal) : Prop where
  recorded : performed Op.refuses tr = [.refused r]
  submitted : performed Op.submits tr = [.submit (py "model_refusal") (refusalData lib r)]
  replied : performed Op.replies tr = [.reply r.status (refusalBody lib s r)]
  unsent : performed Op.sends tr = []
  counters : ∀ ev ∈ tr, ev.after.counters = ev.before.counters

/-- The request is forwarded: once, counted once, metered once, with one entry for the audit client,
and not refused. -/
structure ForwardedOnce (tr : List (Performed N)) : Prop where
  sent : ∃ o stream, performed Op.sends tr = [.forward o stream]
  counted : ∃ ev, tr.filter Counts = [ev]
  metered : ∃ ev, tr.filter Meters = [ev]
  submitted : ∃ data, performed Op.submits tr = [.submit (py "model_request") data]
  unrefused : performed Op.refuses tr = []

/-- The request has exactly one accounted outcome. -/
def Accounted (tr : List (Performed N)) : Prop := (∃ r, RefusedOnce lib s tr r) ∨ ForwardedOnce tr

/-! ## Circumstances -/

/-- The limits raise nothing on this body, and what is forwarded after them can be sent. -/
def LimitsRegular (t : Session N) (size : Nat) (body : Fields) : Prop :=
  t.requests < t.max_requests → t.input_tokens + estimate size ≤ t.max_input_tokens →
    ∃ remaining, outputLeft t (estimate size) = .ok remaining ∧ (1 ≤ remaining →
      ∃ body' clamp, clamp_output lib.builtins t.provider h.rest body remaining = .ok (body', clamp) ∧
        ∃ out_body o, Sends lib key s h (is_stream s.provider h.rest body') body' out_body o)

/-- Nothing raises in these circumstances: the body arrives, the limits and the clamp are defined on
it, the exchange ends or fails as connections do, the usage of the answer and its cost are defined,
and the audit client takes a refusal or answers with an error of its own. -/
def Regular : Performed N → Prop
  | ⟨_, .read _, r, _⟩ => ∃ raw, r = .ok raw
  | ⟨t, .limits size _ body, _, _⟩ => LimitsRegular lib key s h t size body
  | ⟨_, .forward _ stream, r, _⟩ => ∃ x, r = .ok x ∧
      ∃ usage, reported lib s stream (relay stream x).2 = .ok usage
  | ⟨t, .meter usage _, _, _⟩ => ∃ cost, costOf t usage = .ok cost
  | ⟨_, .submit event _, r, _⟩ => event = py "model_refusal" → ∀ e, r ≠ .error (.other e)
  | _ => True

end Outcomes

section Accounting

variable {N : Numbers} {lib : Library} {key : PyStr} {s : Session N} {h : HttpRequest}
  {tr : List (Performed N)}

/-- Where the limits are regular they do not raise. -/
theorem LimitsRegular.limits {t : Session N} {size : Nat} {body : Fields} {e : Exc}
    (hreg : LimitsRegular lib key s h t size body)
    (hlimit : limits lib.builtins t size h.rest body = .error (.raised e)) : False := by
  unfold ModelBroker.limits at hlimit
  split at hlimit
  · cases hlimit
  split at hlimit
  · cases hlimit
  rename_i hrequests hinput
  obtain ⟨remaining, hleft, hclamp⟩ := hreg (by omega) (by omega)
  rw [hleft] at hlimit
  change (if remaining < 1 then _ else _) = _ at hlimit
  split at hlimit
  · cases hlimit
  · obtain ⟨body', clamp, hok, -⟩ := hclamp (by omega)
    rw [hok] at hlimit
    cases hlimit

theorem performed_append {kind : Op → Bool} {front back : List (Performed N)} :
    performed kind (front ++ back) = performed kind front ++ performed kind back := by
  simp [performed]

/-! ## Before the limits -/

section Admitting

variable {x : Except Halt (Fields × Int × Int)}

/-- Nothing but the read and the limits is performed. -/
theorem Admitting.performed_nil (ha : Admitting lib s h tr x) (kind : Op → Bool)
    (hread : ∀ n, kind (.read n) = false) (hlimits : ∀ n rest body, kind (.limits n rest body) = false) :
    performed kind tr = [] := by
  cases ha <;> simp [performed, hread, hlimits]

theorem Admitting.meters_nil (ha : Admitting lib s h tr x) : tr.filter Meters = [] := by
  cases ha <;> rfl

/-- Without an admission the session stays. -/
theorem Admitting.unchanged {e : Halt} (ha : Admitting lib s h tr (.error e)) :
    ∀ ev ∈ tr, ev.after = ev.before := by
  cases ha with
  | length len => simp
  | size len fits => simp
  | unread t len fits => simp
  | checked t len fits check => simp
  | limited t u len fits check limit => simp

/-- An admission is counted once. -/
theorem Admitting.counted {a : Fields × Int × Int} (ha : Admitting lib s h tr (.ok a)) :
    ∃ ev, tr.filter Counts = [ev] := by
  cases ha with
  | admitted t u len fits check limit =>
    refine ⟨_, (List.filter_cons_of_neg (by simp [Counts])).trans (List.filter_cons_of_pos ?_)⟩
    simp [Counts, (limits_eq_ok limit).session]

/-- The check of a body raises nothing. -/
theorem checkBody_not_raised {raw : Bytes} {e : Exc} : checkBody lib s h raw ≠ .error (.raised e) := by
  unfold checkBody
  split
  · exact nofun
  split
  · exact nofun
  split
  · exact nofun
  · split
    · exact nofun
    · exact nofun
  · exact nofun

/-- What raises before the limits, or in them, is not regular. -/
theorem Admitting.raised {e : Exc} (ha : Admitting lib s h tr (.error (.raised e)))
    (hlen : ∃ n, contentLength lib h = .ok n) (hreg : ∀ ev ∈ tr, Regular lib key s h ev) : False := by
  cases ha with
  | length len =>
    obtain ⟨n, hn⟩ := hlen
    rw [hn] at len
    cases len
  | unread t len fits =>
    obtain ⟨raw, hraw⟩ : Regular lib key s h _ := hreg _ (List.mem_singleton_self _)
    cases hraw
  | checked t len fits check => exact checkBody_not_raised check
  | limited t u len fits check limit =>
    have hlimits : Regular lib key s h _ := hreg _ (List.mem_cons_of_mem _ (List.mem_singleton_self _))
    exact LimitsRegular.limits hlimits limit

/-- A refusal by the limits is regular. -/
theorem LimitsRegular.of_refusal {t : Session N} {size : Nat} {body : Fields} {r : Refusal}
    (hlimit : ModelBroker.limits lib.builtins t size h.rest body = .error (.refusal r)) :
    LimitsRegular lib key s h t size body := by
  intro hrequests hinput
  rcases limits_eq_refusal hlimit with hr | hi | ⟨remaining, hleft, hlow⟩
  · omega
  · omega
  · exact ⟨remaining, hleft, fun hpos => by omega⟩

/-- A refusal is regular. -/
theorem Admitting.refusal (key : PyStr) {r : Refusal} (ha : Admitting lib s h tr (.error (.refusal r))) :
    (∃ n, contentLength lib h = .ok n) ∧ ∀ ev ∈ tr, Regular lib key s h ev := by
  cases ha with
  | size len fits => exact ⟨⟨_, len⟩, fun ev hev => absurd hev List.not_mem_nil⟩
  | checked t len fits check =>
    exact ⟨⟨_, len⟩, List.forall_mem_singleton.2 ⟨_, rfl⟩⟩
  | limited t u len fits check limit =>
    exact ⟨⟨_, len⟩, List.forall_mem_cons.2 ⟨⟨_, rfl⟩,
      List.forall_mem_singleton.2 (LimitsRegular.of_refusal limit)⟩⟩

/-- An admission is regular exactly when its body can be sent. -/
theorem Admitting.sends (key : PyStr) {body : Fields} {est_in clamp : Int}
    (ha : Admitting lib s h tr (.ok (body, est_in, clamp))) :
    ((∃ n, contentLength lib h = .ok n) ∧ ∀ ev ∈ tr, Regular lib key s h ev) ↔
      ∃ out_body o, Sends lib key s h (is_stream s.provider h.rest body) body out_body o := by
  cases ha with
  | @admitted _ _ _ adm t u len fits check limit =>
    have hadm := limits_eq_ok limit
    obtain ⟨remaining, hleft, hpos, hclamp⟩ := hadm.output
    constructor
    · rintro ⟨-, hreg⟩
      have hlimits : LimitsRegular lib key s h u _ _ :=
        hreg _ (List.mem_cons_of_mem _ (List.mem_singleton_self _))
      obtain ⟨remaining', hleft', hout⟩ := hlimits hadm.requests hadm.input
      rw [hleft] at hleft'
      cases hleft'
      obtain ⟨body', clamp', hclamp', hsends⟩ := hout hpos
      rw [hclamp] at hclamp'
      cases hclamp'
      exact hsends
    · intro hsends
      refine ⟨⟨_, len⟩, List.forall_mem_cons.2 ⟨⟨_, rfl⟩, List.forall_mem_singleton.2 ?_⟩⟩
      exact fun _ _ => ⟨remaining, hleft, fun _ => ⟨adm.body, adm.clamp, hclamp, hsends⟩⟩

end Admitting

/-! ## After the limits -/

section Forwarding

variable {stream : Bool} {body : Fields} {est_in clamp : Int} {r : Except Halt Unit}

theorem meters_metering {t : Session N} {usage : Int × Int} {status : Nat} :
    Meters (metering t usage status) = true ↔ ∃ cost, costOf t usage = .ok cost := by
  rw [← meter_eq_ok t usage status, metering]
  cases (meter t usage status).1 with
  | error e => simp [Meters]
  | ok u => simp [Meters]

theorem counts_metering {t : Session N} {usage : Int × Int} {status : Nat} :
    Counts (metering t usage status) = false := by
  simp [Counts, metering, (meter_tokens t usage status).1]

/-- What is performed after the limits is forwarded once, metered once and audited once if nothing on it
raises; otherwise it is not metered. -/
theorem Forwarding.settled (hf : Forwarding lib key s h stream body est_in clamp tr r) :
    ((∃ out_body o, Sends lib key s h stream body out_body o) ∧ ∀ ev ∈ tr, Regular lib key s h ev) ↔
      ∃ ev, tr.filter Meters = [ev] := by
  cases hf with
  | unsent none =>
    constructor
    · exact fun hset => absurd hset.1 none
    · rintro ⟨ev, hev⟩
      cases hev
  | broken t sends =>
    constructor
    · rintro ⟨-, hreg⟩
      obtain ⟨x, hx, -⟩ : Regular lib key s h _ := hreg _ (List.mem_singleton_self _)
      cases hx
    · rintro ⟨ev, hev⟩
      cases hev
  | unreported t sends report =>
    constructor
    · rintro ⟨-, hreg⟩
      obtain ⟨x, hx, usage, husage⟩ : Regular lib key s h _ := hreg _ (List.mem_singleton_self _)
      cases hx
      rw [husage] at report
      cases report
    · rintro ⟨ev, hev⟩
      cases hev
  | unmetered t u sends report meters =>
    constructor
    · rintro ⟨-, hreg⟩
      have hcost : Regular lib key s h (metering u _ _) :=
        hreg _ (List.mem_cons_of_mem _ (List.mem_singleton_self _))
      rw [(meter_eq_ok _ _ _).2 hcost] at meters
      cases meters
    · rintro ⟨ev, hev⟩
      rw [List.filter_cons_of_neg (by simp [Meters]), List.filter_cons_of_neg] at hev
      · cases hev
      · rw [meters_metering, ← meter_eq_ok, meters]
        exact nofun
  | metered t u v sends report meters =>
    have hcost := (meter_eq_ok _ _ _).1 meters
    constructor
    · intro _
      exact ⟨_, (List.filter_cons_of_neg (by simp [Meters])).trans
        (List.filter_cons_of_pos (meters_metering.2 hcost))⟩
    · intro _
      refine ⟨⟨_, _, sends⟩, List.forall_mem_cons.2 ⟨⟨_, rfl, _, report⟩, List.forall_mem_cons.2
        ⟨hcost, List.forall_mem_singleton.2 fun hevent => ?_⟩⟩⟩
      exact absurd hevent (by decide)

/-- What is performed after the limits counts no further request and refuses nothing. -/
theorem Forwarding.only_forwards (hf : Forwarding lib key s h stream body est_in clamp tr r) :
    tr.filter Counts = [] ∧ performed Op.refuses tr = [] := by
  cases hf with
  | unsent none => exact ⟨rfl, rfl⟩
  | broken t sends => simp [Counts, performed, Op.refuses]
  | unreported t sends report => simp [Counts, performed, Op.refuses]
  | unmetered t u sends report meters =>
    refine ⟨?_, rfl⟩
    rw [List.filter_cons_of_neg (by simp [Counts]), List.filter_cons_of_neg (by simp [counts_metering]),
      List.filter_nil]
  | metered t u v sends report meters =>
    refine ⟨?_, rfl⟩
    rw [List.filter_cons_of_neg (by simp [Counts]), List.filter_cons_of_neg (by simp [counts_metering]),
      List.filter_cons_of_neg (by simp [Counts]), List.filter_nil]

/-- A request that is metered has been sent once and audited once. -/
theorem Forwarding.metered_once (hf : Forwarding lib key s h stream body est_in clamp tr r)
    {ev : Performed N} (hev : tr.filter Meters = [ev]) :
    (∃ o stream, performed Op.sends tr = [.forward o stream]) ∧
      ∃ data, performed Op.submits tr = [.submit (py "model_request") data] := by
  cases hf with
  | unsent none => cases hev
  | broken t sends => cases hev
  | unreported t sends report => cases hev
  | unmetered t u sends report meters =>
    rw [List.filter_cons_of_neg (by simp [Meters]), List.filter_cons_of_neg] at hev
    · cases hev
    · rw [meters_metering, ← meter_eq_ok, meters]
      exact nofun
  | metered t u v sends report meters => exact ⟨⟨_, _, rfl⟩, ⟨_, rfl⟩⟩

end Forwarding

/-! ## Outcomes -/

/-- A refusal is accounted for unless the audit client raises something of its own. -/
theorem Refusing.accounted (key : PyStr) {r : Refusal} {front : List (Performed N)}
    (ha : Admitting lib s h front (.error (.refusal r))) (hr : Refusing lib s r tr) :
    (∀ ev ∈ tr, Regular lib key s h ev) ↔ Accounted lib s (front ++ tr) := by
  have hrefuses := ha.performed_nil Op.refuses (fun _ => rfl) fun _ _ _ => rfl
  have hsubmits := ha.performed_nil Op.submits (fun _ => rfl) fun _ _ _ => rfl
  have hreplies := ha.performed_nil Op.replies (fun _ => rfl) fun _ _ _ => rfl
  have hsends := ha.performed_nil Op.sends (fun _ => rfl) fun _ _ _ => rfl
  cases hr with
  | unaudited t u =>
    constructor
    · intro hreg
      have haudit : Regular lib key s h ⟨u, .submit (py "model_refusal") _, _, u⟩ :=
        hreg _ (List.mem_cons_of_mem _ (List.mem_singleton_self _))
      exact absurd rfl (haudit rfl _)
    · rintro (⟨r', hr'⟩ | hf)
      · have := hr'.replied
        rw [performed_append, hreplies] at this
        cases this
      · have := hf.unrefused
        rw [performed_append, hrefuses] at this
        cases this
  | replied t u v audit =>
    constructor
    · intro _
      refine .inl ⟨r, ?_, ?_, ?_, ?_, ?_⟩
      · rw [performed_append, hrefuses]
        rfl
      · rw [performed_append, hsubmits]
        rfl
      · rw [performed_append, hreplies]
        rfl
      · rw [performed_append, hsends]
        rfl
      · refine List.forall_mem_append.2 ⟨fun ev hev => by rw [ha.unchanged ev hev], ?_⟩
        exact List.forall_mem_cons.2 ⟨rfl, List.forall_mem_cons.2 ⟨rfl, List.forall_mem_singleton.2 rfl⟩⟩
    · intro _
      exact List.forall_mem_cons.2 ⟨trivial, List.forall_mem_cons.2 ⟨fun _ e => audit e,
        List.forall_mem_singleton.2 trivial⟩⟩

end Accounting

/-! ## A length that is no number -/

/-- A library that finds no JSON and no credentials. -/
def sampleLibrary : Library where
  builtins := sampleBuiltins
  loads _ := none
  decode _ := []
  sha256_hex _ := []
  urlparse _ := ⟨py "https", none, .ok none, []⟩

/-- A session as it is opened. -/
def sampleSession : Session rationals where
  session_id := py "s"
  episode_id := py "e"
  provider := .anthropic
  model := py "m"
  upstream := py "https://api"
  price_in := (1 : ℚ)
  price_out := (1 : ℚ)
  max_requests := 10
  max_input_tokens := 1000
  max_output_tokens := 1000
  max_usd := (1000 : ℚ)

/-- A message with this length. -/
def sampleRequest (length : String) : HttpRequest :=
  ⟨py "/anthropic/v1/messages", [(py "Content-Length", py length)]⟩

/-- The refusal of a request without a body. -/
def sampleRefusal : Refusal := ⟨400, py "size", msg "request body missing or too large"⟩

/-- What is performed on a request without a body. -/
def sampleTrace : List (Performed rationals) :=
  let t := sampleSession.refused sampleRefusal
  [⟨sampleSession, .refused sampleRefusal, (), t⟩,
    ⟨t, .submit (py "model_refusal") (refusalData sampleLibrary sampleRefusal), .ok (), t⟩,
    ⟨t, .reply 400 (refusalBody sampleLibrary sampleSession sampleRefusal), .ok (), t⟩]

end Valops.ModelBroker
