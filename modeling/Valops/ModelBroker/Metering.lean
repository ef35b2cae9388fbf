import Valops.ModelBroker.Accounting
import Valops.Py.RoundTrip

/-!
# What a request is charged

The provider's answer is a stream of bytes; what the broker has captured of it may stop anywhere. The
records of the answer that carry an output count are read off its events, and the last of them carries
the final count. A request whose captured bytes lack that record should cost its estimate and its whole
cap.

Main result: `metering_conservative` (when it does). Control: `disconnect_uncharged`.
-/

set_option autoImplicit false

namespace Valops.ModelBroker

open Py Conc

/-! ## The records of an answer -/

section Records

variable {N : Numbers} (lib : Library) (s : Session N) (stream : Bool)

/-- The output count that a record carries. -/
def outputCount (b : Builtins) (provider : Provider) (stream : Bool) (v : Json) :
    Except Exc (Option Int) :=
  if stream ∧ provider = .anthropic then do
    let type ← get v "type"
    if type.eqStr (py "message_delta") then do
      let u ← get v "usage"
      match u with
      | .obj u => do
        let o ← count b (field u "output_tokens")
        pure (some o)
      | _ => pure none
    else pure none
  else do
    let u ← usage_from_json b provider v
    pure (u.map Prod.snd)

/-- The JSON records of an answer: the events of a stream, or the one document. -/
def records (data : Bytes) : List Json :=
  if stream then
    match streamEvents s.provider (lib.decode data) with
    | .ok (some ds) => ds.filterMap loads
    | _ => []
  else (lib.loads data).toList

/-- A record that carries an output count. -/
def Carries (b : Builtins) (provider : Provider) (stream : Bool) (v : Json) : Bool :=
  match outputCount b provider stream v with
  | .ok (some _) => true
  | _ => false

/-- The captured bytes contain the record that carries the final count of the whole answer. -/
def Final (captured full : Bytes) (v : Json) : Prop :=
  ∃ front, (records lib s stream full).filter (Carries lib.builtins s.provider stream) = front ++ [v] ∧
    (records lib s stream captured).filter (Carries lib.builtins s.provider stream) = front ++ [v]

end Records

/-! ## Charges -/

section Charges

variable {N : Numbers} (lib : Library) (s : Session N) (stream : Bool) (x : Exchange) (full : Bytes)

/-- The provider has started a 2xx answer. -/
def Exchange.Started : Exchange → Prop
  | .unreachable => False
  | .answered status _ _ => 200 ≤ status ∧ status < 300

/-- Every piece arrives, and reaches the worker. -/
def Relay.delivered : Relay → Bool
  | .done delivered => delivered
  | .broken => false
  | .chunk _ delivered rest => delivered && rest.delivered

/-- The exchange has ended without an error on either side. -/
def Exchange.Completed : Exchange → Prop
  | .unreachable => False
  | .answered _ head content =>
    head = true ∧ if stream then content.delivered = true else (content.read MAX_RESPONSE []).isSome

/-- What an operation charges. -/
def chargeOf : Performed N → Int × Int
  | ⟨_, .meter usage _, _, _⟩ => usage
  | _ => 0

/-- What a request is charged. -/
def charged (tr : List (Performed N)) : Int × Int := (tr.map chargeOf).sum

/-- Metering is conservative on this exchange: with the final record it charges what is reported, and
the output count is the one of that record; without it, a started answer costs at least the estimate
and the cap. -/
structure Conservative (est_in clamp : Int) (c : Int × Int) : Prop where
  reported : ∀ v, Final lib s stream (relay stream x).2 full v →
    reported lib s stream (relay stream x).2 = .ok (some c) ∧
      outputCount lib.builtins s.provider stream v = .ok (some c.2)
  estimated : x.Started → (∀ v, ¬ Final lib s stream (relay stream x).2 full v) →
    est_in ≤ c.1 ∧ clamp ≤ c.2

/-- The captured bytes say enough: they can be read if anything is to be charged for; without the final
record, what they do report is not below the estimate and the cap, and if they report nothing the
exchange has ended without an error. -/
structure Chargeable (est_in clamp : Int) : Prop where
  read : (x.Started ∨ ∃ v, Final lib s stream (relay stream x).2 full v) →
    ∃ usage, ModelBroker.reported lib s stream (relay stream x).2 = .ok usage
  early : x.Started → (∀ v, ¬ Final lib s stream (relay stream x).2 full v) →
    ∀ u, ModelBroker.reported lib s stream (relay stream x).2 = .ok (some u) →
      est_in ≤ u.1 ∧ clamp ≤ u.2
  silent : x.Started → ModelBroker.reported lib s stream (relay stream x).2 = .ok none →
    x.Completed stream

end Charges

section Reading

variable {N : Numbers} {lib : Library} {s : Session N} {b : Builtins} {provider : Provider}
  {stream : Bool} {x : Exchange}

/-- What a complete record adds to the output that has been read. -/
theorem usage_output {acc acc' : Partial} {v : Json} (h : (do
      let u ← usage_from_json b provider v
      match u with
      | some (i, o) => pure (some i, some o)
      | none => pure acc : Except Exc Partial) = .ok acc') :
    ∃ o, (do
      let u ← usage_from_json b provider v
      pure (u.map Prod.snd) : Except Exc (Option Int)) = .ok o ∧ acc'.2 = o.or acc.2 := by
  obtain ⟨u, hu, h⟩ := bind_eq_ok.1 h
  rw [hu]
  cases u with
  | none =>
    cases h
    exact ⟨none, rfl, rfl⟩
  | some u =>
    cases h
    exact ⟨some u.2, rfl, rfl⟩

/-- What an event adds to the output that has been read. -/
theorem streamEvent_output {acc acc' : Partial} {v : Json}
    (h : streamEvent b provider acc v = .ok acc') :
    ∃ o, outputCount b provider true v = .ok o ∧ acc'.2 = o.or acc.2 := by
  cases provider with
  | openai => exact usage_output h
  | google => exact usage_output h
  | anthropic =>
    obtain ⟨type, htype, h⟩ := bind_eq_ok.1 h
    have hcount : outputCount b .anthropic true v = (do
        let type ← get v "type"
        if type.eqStr (py "message_delta") then do
          let u ← get v "usage"
          match u with
          | .obj u => do
            let o ← count b (field u "output_tokens")
            pure (some o)
          | _ => pure none
        else pure none : Except Exc (Option Int)) := rfl
    rw [hcount, htype, ok_bind]
    split at h
    · -- a start carries no output count
      rename_i hstart
      have hdelta : ¬ type.eqStr (py "message_delta") = true := by
        rw [Json.eqStr_iff] at hstart ⊢
        rw [hstart]
        decide
      rw [if_neg hdelta]
      obtain ⟨message, hmessage, h⟩ := bind_eq_ok.1 h
      obtain ⟨u, hu, h⟩ := bind_eq_ok.1 h
      split at h
      · obtain ⟨i, hi, h⟩ := bind_eq_ok.1 h
        cases h
        exact ⟨none, rfl, rfl⟩
      · cases h
    · split at h
      · rename_i hdelta
        obtain ⟨u, hu, h⟩ := bind_eq_ok.1 h
        rw [if_pos hdelta, hu, ok_bind]
        cases u with
        | obj kvs =>
          obtain ⟨o, ho, h⟩ := bind_eq_ok.1 h
          have hout : (do
              let o ← count b (field kvs "output_tokens")
              pure (some o) : Except Exc (Option Int)) = .ok (some o) := by
            rw [ho]
            rfl
          refine ⟨some o, hout, ?_⟩
          split at h
          · obtain ⟨i, hi, h⟩ := bind_eq_ok.1 h
            cases h
            rfl
          · cases h
            rfl
        | _ =>
          cases h
          exact ⟨none, rfl, rfl⟩
      · rename_i hdelta
        cases h
        rw [if_neg hdelta]
        exact ⟨none, rfl, rfl⟩

theorem carries_some {v : Json} {n : Int} (h : outputCount b provider stream v = .ok (some n)) :
    Carries b provider stream v = true := by
  rw [Carries, h]

theorem carries_none {v : Json} (h : outputCount b provider stream v = .ok none) :
    Carries b provider stream v = false := by
  rw [Carries, h]

/-- What the loop has read of the output: the count of the last record that carries one. -/
theorem streamLoop_output {ds : List PyStr} : ∀ {acc acc' : Partial},
    streamLoop b provider acc ds = .ok acc' →
    match ((ds.filterMap loads).filter (Carries b provider true)).getLast? with
    | none => acc'.2 = acc.2
    | some v => outputCount b provider true v = .ok acc'.2 := by
  induction ds with
  | nil =>
    intro acc acc' h
    cases h
    rfl
  | cons d ds ih =>
    intro acc acc' h
    unfold streamLoop at h
    cases hload : loads d with
    | none =>
      rw [hload] at h
      rw [List.filterMap_cons_none hload]
      exact ih h
    | some v =>
      rw [hload] at h
      rw [List.filterMap_cons_some hload]
      obtain ⟨acc₁, hevent, hloop⟩ := bind_eq_ok.1 h
      obtain ⟨o, ho, hacc⟩ := streamEvent_output hevent
      have hrest := ih hloop
      cases o with
      | none =>
        rw [List.filter_cons_of_neg (by simp [carries_none ho])]
        rw [Option.none_or] at hacc
        rw [hacc] at hrest
        exact hrest
      | some n =>
        rw [List.filter_cons_of_pos (carries_some ho), List.getLast?_cons]
        -- the last record is among the later ones, or this one
        cases hlast : ((ds.filterMap loads).filter (Carries b provider true)).getLast? with
        | none =>
          rw [hlast] at hrest
          show outputCount b provider true v = .ok acc'.2
          rw [ho, hrest, hacc]
          rfl
        | some w =>
          rw [hlast] at hrest
          exact hrest

/-- What an answer reports about the output. -/
theorem reported_output {data : Bytes} {usage : Option (Int × Int)} {front : List Json} {v : Json}
    (h : reported lib s stream data = .ok usage)
    (hlast : (records lib s stream data).filter (Carries lib.builtins s.provider stream) =
      front ++ [v]) :
    ∃ u, usage = some u ∧ outputCount lib.builtins s.provider stream v = .ok (some u.2) := by
  cases stream with
  | true =>
    obtain ⟨events, hevents, h⟩ := bind_eq_ok.1 h
    cases events with
    | none =>
      simp only [records, hevents] at hlast
      simp at hlast
    | some ds =>
      obtain ⟨acc, hloop, h⟩ := bind_eq_ok.1 h
      have hout := streamLoop_output hloop
      simp only [records, hevents, if_true] at hlast
      rw [hlast, List.getLast?_concat] at hout
      have hcarries : Carries lib.builtins s.provider true v = true :=
        (List.mem_filter.1 (hlast ▸ List.mem_append_right front (List.mem_singleton_self v))).2
      have hout : outputCount lib.builtins s.provider true v = .ok acc.2 := hout
      cases hacc : acc.2 with
      | none =>
        rw [hacc] at hout
        rw [carries_none hout] at hcarries
        cases hcarries
      | some n =>
        have hacc' : acc ≠ (none, none) := fun heq => by rw [heq] at hacc; cases hacc
        rw [if_neg hacc', hacc] at h
        cases h
        exact ⟨_, rfl, hout.trans (by rw [hacc]; rfl)⟩
  | false =>
    have hnot : ¬ ((false : Bool) = true ∧ s.provider = .anthropic) := fun hf => by cases hf.1
    have hv : v ∈ (lib.loads data).toList :=
      (List.mem_filter.1 (hlast ▸ List.mem_append_right front (List.mem_singleton_self v))).1
    have hcarries : Carries lib.builtins s.provider false v = true :=
      (List.mem_filter.1 (hlast ▸ List.mem_append_right front (List.mem_singleton_self v))).2
    have hload : lib.loads data = some v := Option.mem_toList.1 hv
    have h : usage_from_json lib.builtins s.provider ((lib.loads data).getD .null) = .ok usage := h
    rw [hload] at h
    have hout : outputCount lib.builtins s.provider false v = .ok (usage.map Prod.snd) := by
      rw [outputCount, if_neg hnot, show usage_from_json lib.builtins s.provider v = .ok usage from h]
      rfl
    cases usage with
    | none =>
      rw [carries_none hout] at hcarries
      cases hcarries
    | some u => exact ⟨u, rfl, hout⟩

/-! ## The end of the relay -/

theorem relayStream_status {status : Nat} {r : Relay} : ∀ {captured : Bytes},
    (relayStream status captured r).1 = if r.delivered then status else 0 := by
  induction r with
  | done delivered => intro captured; rfl
  | broken => intro captured; rfl
  | chunk data delivered rest ih =>
    intro captured
    cases delivered with
    | true => exact ih
    | false => rfl

/-- A started answer keeps its status exactly when the exchange has ended without an error. -/
theorem relay_status (hstart : x.Started) :
    (200 ≤ (relay stream x).1 ∧ (relay stream x).1 < 300) ↔ x.Completed stream := by
  cases x with
  | unreachable => exact hstart.elim
  | answered status head content =>
    have hbounds : 200 ≤ status ∧ status < 300 := hstart
    cases stream with
    | true =>
      rw [relay, if_pos ⟨rfl, hbounds⟩]
      cases head with
      | true =>
        rw [if_pos rfl, relayStream_status]
        cases hd : content.delivered with
        | true => simpa [Exchange.Completed, hd] using hbounds
        | false => simp [Exchange.Completed, hd]
      | false => simp [Exchange.Completed]
    | false =>
      rw [relay, if_neg (fun hf => by cases hf.1)]
      cases hread : content.read MAX_RESPONSE [] with
      | none => simp [Exchange.Completed, hread]
      | some data =>
        cases head with
        | true => simpa [Exchange.Completed, hread] using hbounds
        | false => simp [Exchange.Completed]

end Reading

/-! ## Charging -/

section Charging

variable {N : Numbers} {lib : Library} {key : PyStr} {s : Session N} {h : HttpRequest}
  {tr : List (Performed N)} {stream : Bool} {x : Exchange} {full : Bytes} {est_in clamp : Int}

/-- The charge of an answer that has been read is conservative exactly when it is chargeable. -/
theorem charge_conservative {usage : Option (Int × Int)} (hest : 1 ≤ est_in)
    (hread : reported lib s stream (relay stream x).2 = .ok usage) :
    Conservative lib s stream x full est_in clamp (charge usage (relay stream x).1 est_in clamp) ↔
      Chargeable lib s stream x full est_in clamp := by
  constructor
  · intro hc
    refine ⟨fun _ => ⟨usage, hread⟩, fun hstart hnone u hu => ?_, fun hstart hsilent => ?_⟩
    · rw [hread] at hu
      cases hu
      exact hc.estimated hstart hnone
    · rw [hread] at hsilent
      cases hsilent
      have hnone : ∀ v, ¬ Final lib s stream (relay stream x).2 full v := by
        rintro v ⟨front, -, hlast⟩
        obtain ⟨u, hu, -⟩ := reported_output hread hlast
        cases hu
      have hcap := (hc.estimated hstart hnone).1
      by_contra hnot
      rw [← relay_status hstart] at hnot
      rw [show charge none (relay stream x).1 est_in clamp =
        unmetered (relay stream x).1 est_in clamp from rfl, unmetered, if_neg hnot] at hcap
      exact absurd (le_trans hest hcap) (by decide)
  · intro hg
    constructor
    · rintro v ⟨front, hfull, hlast⟩
      obtain ⟨u, rfl, hu⟩ := reported_output hread hlast
      exact ⟨hread, hu⟩
    · intro hstart hnone
      cases usage with
      | some u => exact hg.early hstart hnone u hread
      | none =>
        have hdone := (relay_status hstart).2 (hg.silent hstart hread)
        rw [show charge none (relay stream x).1 est_in clamp =
          unmetered (relay stream x).1 est_in clamp from rfl, unmetered, if_pos hdone]
        exact ⟨le_refl _, le_refl _⟩

/-- An answer that cannot be read is charged nothing. -/
theorem unread_conservative {e : Exc} (hest : 1 ≤ est_in)
    (hread : reported lib s stream (relay stream x).2 = .error e) :
    Conservative lib s stream x full est_in clamp 0 ↔ Chargeable lib s stream x full est_in clamp := by
  constructor
  · intro hc
    have hnone : ∀ v, ¬ Final lib s stream (relay stream x).2 full v := by
      intro v hv
      have hreported := (hc.reported v hv).1
      rw [hread] at hreported
      cases hreported
    have hquiet : ¬ x.Started :=
      fun hstart => absurd (le_trans hest (hc.estimated hstart hnone).1) (by decide)
    constructor
    · rintro (hstart | ⟨v, hv⟩)
      · exact absurd hstart hquiet
      · exact absurd hv (hnone v)
    · exact fun hstart => absurd hstart hquiet
    · exact fun hstart => absurd hstart hquiet
  · intro hg
    have hunread : ¬ ∃ usage, reported lib s stream (relay stream x).2 = .ok usage := by
      rintro ⟨usage, husage⟩
      rw [hread] at husage
      cases husage
    constructor
    · exact fun v hv => absurd (hg.read (.inr ⟨v, hv⟩)) hunread
    · exact fun hstart => absurd (hg.read (.inl hstart)) hunread

theorem charged_append {front back : List (Performed N)} :
    charged (front ++ back) = charged front + charged back := by
  simp [charged]

/-- Nothing is charged before the limits. -/
theorem Admitting.charged {x : Except Halt (Fields × Int × Int)} (ha : Admitting lib s h tr x) :
    charged tr = 0 := by
  cases ha <;> rfl

/-- The kind of an operation that has been performed. -/
theorem performed_mem (kind : Op → Bool) {ev : Performed N} (hev : ev ∈ tr)
    (hkind : kind ev.op = true) : performed kind tr ≠ [] :=
  List.ne_nil_of_mem (List.mem_filter.2 ⟨List.mem_map_of_mem hev, hkind⟩)

def Op.enters : Op → Bool
  | .limits _ _ _ => true
  | _ => false

theorem Refusing.unsent {c : Refusal} (hr : Refusing lib s c tr) {u u' : Session N} {o : Outbound}
    {y : Except Exc Exchange} : (⟨u, .forward o stream, y, u'⟩ : Performed N) ∉ tr := by
  intro hmem
  refine performed_mem Op.sends hmem rfl ?_
  cases hr <;> rfl

theorem Forwarding.unlimited {body : Fields} {r : Except Halt Unit} {back : List (Performed N)}
    (hf : Forwarding lib key s h stream body est_in clamp back r) {t t' : Session N} {size : Nat}
    {rest : PyStr} {req : Fields} {y : Except Halt (Fields × Int × Int)} :
    (⟨t, .limits size rest req, y, t'⟩ : Performed N) ∉ back := by
  intro hmem
  refine performed_mem Op.enters hmem rfl ?_
  cases hf <;> rfl

/-- The limits that a path has passed. -/
theorem Admitting.passed {a : Fields × Int × Int} (ha : Admitting lib s h tr (.ok a))
    {t t' : Session N} {size : Nat} {rest : PyStr} {body body' : Fields}
    (hadm : (⟨t, .limits size rest body, .ok (body', est_in, clamp), t'⟩ : Performed N) ∈ tr) :
    a = (body', est_in, clamp) ∧ 1 ≤ est_in := by
  cases ha with
  | admitted v w len fits check limit =>
    rcases List.mem_cons.1 hadm with heq | hadm
    · cases heq
    · cases List.mem_singleton.1 hadm
      refine ⟨rfl, ?_⟩
      rw [(limits_eq_ok limit).est_in]
      exact le_max_left _ _

/-- What the path after the limits charges. -/
theorem Forwarding.charged {other : Bool} {body : Fields} {r : Except Halt Unit}
    {back : List (Performed N)} (hf : Forwarding lib key s h other body est_in clamp back r)
    {u u' : Session N} {o : Outbound}
    (hsent : (⟨u, .forward o stream, .ok x, u'⟩ : Performed N) ∈ back) : other = stream ∧
      ((∃ e, reported lib s stream (relay stream x).2 = .error e ∧ ModelBroker.charged back = 0) ∨
        ∃ usage, reported lib s stream (relay stream x).2 = .ok usage ∧
          ModelBroker.charged back = charge usage (relay stream x).1 est_in clamp) := by
  cases hf with
  | unsent none => cases hsent
  | broken t sends => cases List.mem_singleton.1 hsent
  | unreported t sends report =>
    cases List.mem_singleton.1 hsent
    exact ⟨rfl, .inl ⟨_, report, rfl⟩⟩
  | unmetered t v sends report meters =>
    rcases List.mem_cons.1 hsent with heq | hmem
    · cases heq
      refine ⟨rfl, .inr ⟨_, report, ?_⟩⟩
      exact (zero_add _).trans (add_zero _)
    · cases List.mem_singleton.1 hmem
  | metered t v w sends report meters =>
    rcases List.mem_cons.1 hsent with heq | hmem
    · cases heq
      refine ⟨rfl, .inr ⟨_, report, ?_⟩⟩
      exact (zero_add _).trans ((congrArg _ (add_zero _)).trans (add_zero _))
    · rcases List.mem_cons.1 hmem with heq | hmem
      · cases heq
      · cases List.mem_singleton.1 hmem

/-- What has passed the limits is what is forwarded. -/
theorem Handling.exchanged (hh : Handling lib key s h tr) {t t' u u' : Session N} {o : Outbound}
    {size : Nat} {rest : PyStr} {body body' : Fields}
    (hadm : (⟨t, .limits size rest body, .ok (body', est_in, clamp), t'⟩ : Performed N) ∈ tr)
    (hsent : (⟨u, .forward o stream, .ok x, u'⟩ : Performed N) ∈ tr) :
    1 ≤ est_in ∧ ∃ back r,
      Forwarding lib key s h (is_stream s.provider h.rest body') body' est_in clamp back r ∧
      (⟨u, .forward o stream, .ok x, u'⟩ : Performed N) ∈ back ∧
      ModelBroker.charged tr = ModelBroker.charged back := by
  have hsilent : ∀ {front : List (Performed N)} {y}, Admitting lib s h front y →
      (⟨u, .forward o stream, .ok x, u'⟩ : Performed N) ∉ front := fun ha hmem =>
    performed_mem Op.sends hmem rfl
      (ha.performed_nil Op.sends (fun _ => rfl) fun _ _ _ => rfl)
  cases hh with
  | raised admits => exact absurd hsent (hsilent admits)
  | refused admits refuses =>
    rcases List.mem_append.1 hsent with hfront | hback
    · exact absurd hfront (hsilent admits)
    · exact absurd hback (refuses.unsent)
  | passed admits forwards =>
    have hback := (List.mem_append.1 hsent).resolve_left (hsilent admits)
    rcases List.mem_append.1 hadm with hfront | hlate
    · obtain ⟨heq, hest⟩ := admits.passed hfront
      cases heq
      refine ⟨hest, _, _, forwards, hback, ?_⟩
      rw [charged_append, admits.charged, zero_add]
    · exact absurd hlate forwards.unlimited

/-- **Conservative metering**: a forwarded request is charged its reported counts when the captured
bytes contain the final record, and at least its estimate and its cap otherwise, exactly when what has
been captured is chargeable. -/
theorem metering_conservative {r : Except Exc Unit}
    (hpath : Path (exec N lib.builtins) (handle lib key s h) tr r) {t t' u u' : Session N}
    {o : Outbound} {size : Nat} {rest : PyStr} {body body' : Fields}
    (hadm : (⟨t, .limits size rest body, .ok (body', est_in, clamp), t'⟩ : Performed N) ∈ tr)
    (hsent : (⟨u, .forward o stream, .ok x, u'⟩ : Performed N) ∈ tr) (full : Bytes) :
    Conservative lib s stream x full est_in clamp (charged tr) ↔
      Chargeable lib s stream x full est_in clamp := by
  obtain ⟨hest, back, y, hforward, hmem, hcharged⟩ := (handle_path hpath).exchanged hadm hsent
  rw [hcharged]
  obtain ⟨rfl, hcase⟩ := hforward.charged hmem
  rcases hcase with ⟨e, hread, hzero⟩ | ⟨usage, hread, hcharge⟩
  · rw [hzero]
    exact unread_conservative hest hread
  · rw [hcharge]
    exact charge_conservative hest hread

end Charging

/-! ## A worker that disconnects -/

/-- A chat completion that streams. -/
def chatText : PyStr := py "\x7b\"model\":\"m\",\"stream\":true\x7d"

/-- ASCII. -/
def asciiBytes (t : PyStr) : Bytes := t.map UInt8.ofNat

/-- A library that reads the chat completion. -/
def chatLibrary : Library :=
  { sampleLibrary with
    loads := fun data => if data = asciiBytes chatText then
      some (.obj [(py "model", .str (py "m")), (py "stream", .bool true)]) else none
    decode := fun data => data.map UInt8.toNat }

/-- A session for chat completions whose output is free. -/
def chatSession : Session rationals :=
  { sampleSession with provider := .openai, price_out := (0 : ℚ) }

/-- The request. -/
def chatRequest : HttpRequest :=
  ⟨py "/openai/v1/chat/completions", [(py "Content-Length", py "27")]⟩

/-- The completion when it has passed the limits. -/
def chatAdmission : Admission rationals where
  session := { chatSession with requests := 1 }
  body := [(py "max_completion_tokens", .int 1000), (py "model", .str (py "m")),
    (py "stream", .bool true), (py "stream_options", .obj [(py "include_usage", .bool true)])]
  est_in := 6
  clamp := 1000

/-- A piece of the answer. -/
def chatChunk : Json :=
  .obj [(py "choices", .arr [.obj [(py "delta", .obj [(py "content", .str (py "hi"))])]])]

/-- The piece as it is printed. -/
def chatChunkText : PyStr := py "\x7b\"choices\": [\x7b\"delta\": \x7b\"content\": \"hi\"\x7d\x7d]\x7d"

/-- The piece as it is sent. -/
def chatEvent : Bytes := asciiBytes (py "data: " ++ chatChunkText ++ [10, 10])

/-- Two pieces of the answer; the second one reaches the worker or not. -/
def chatExchange (delivered : Bool) : Exchange :=
  .answered 200 true (.chunk chatEvent true (.chunk chatEvent delivered (.done true)))

theorem loads_chatChunk : loads chatChunkText = some chatChunk := by
  have hwf : chatChunk.WF := by
    simp [chatChunk, Json.wf_obj_iff, Json.wf_arr_iff, Json.SortedKeys]
  exact loads_dumps hwf (by decide +kernel) (by decide +kernel)

theorem relay_chat (delivered : Bool) :
    relay true (chatExchange delivered) = (if delivered then 200 else 0, chatEvent ++ chatEvent) := by
  cases delivered with
  | true => decide +kernel
  | false => decide +kernel

/-- The pieces report nothing. -/
theorem reported_chat : reported chatLibrary chatSession true (chatEvent ++ chatEvent) = .ok none := by
  have hlines : streamEvents .openai (chatLibrary.decode (chatEvent ++ chatEvent)) =
      .ok (some [chatChunkText, chatChunkText]) := by decide +kernel
  have hloop : streamLoop chatLibrary.builtins .openai (none, none) [chatChunkText, chatChunkText] =
      .ok (none, none) := by
    simp only [streamLoop, loads_chatChunk]
    rfl
  show usage_from_stream chatLibrary.builtins .openai (chatLibrary.decode (chatEvent ++ chatEvent)) = _
  rw [usage_from_stream, hlines, ok_bind]
  dsimp only
  rw [hloop]
  rfl

theorem not_final_chat {full : Bytes} {v : Json} :
    ¬ Final chatLibrary chatSession true (chatEvent ++ chatEvent) full v := by
  rintro ⟨front, -, hlast⟩
  obtain ⟨u, hu, -⟩ := reported_output reported_chat hlast
  cases hu

/-- The operations of the request, with the sessions they meet. -/
def chatTrace (t u v w z : Session rationals) (adm : Admission rationals) (o : Outbound)
    (out_body : Bytes) (delivered : Bool) : List (Performed rationals) :=
  let x := relay true (chatExchange delivered)
  let usage := charge none x.1 adm.est_in adm.clamp
  [⟨t, .read 27, .ok (asciiBytes chatText), t⟩,
    ⟨u, .limits (asciiBytes chatText).length chatRequest.rest
      [(py "model", .str (py "m")), (py "stream", .bool true)],
      .ok (adm.body, adm.est_in, adm.clamp), adm.session⟩,
    ⟨v, .forward o true, .ok (chatExchange delivered), v⟩,
    metering w usage x.1,
    ⟨z, .submit (py "model_request") (requestData chatLibrary x.1 true usage out_body x.2), .ok (), z⟩]

/-- Its path. -/
theorem chat_path (t u v w z : Session rationals) {adm : Admission rationals} (delivered : Bool)
    (limit : limits chatLibrary.builtins u (asciiBytes chatText).length chatRequest.rest
      [(py "model", .str (py "m")), (py "stream", .bool true)] = .ok adm)
    (hbody : adm.body = chatAdmission.body) : ∃ o out_body,
    Path (exec rationals chatLibrary.builtins) (handle chatLibrary [] chatSession chatRequest)
      (chatTrace t u v w z adm o out_body delivered) (.ok ()) := by
  obtain ⟨out_body, henc⟩ : ∃ out_body, encodeBody chatAdmission.body = .ok out_body := by
    have hok : (encodeBody chatAdmission.body).isOk = true := by decide +kernel
    cases hbody : encodeBody chatAdmission.body with
    | error e =>
      rw [hbody] at hok
      cases hok
    | ok out_body => exact ⟨out_body, rfl⟩
  obtain ⟨o, hout⟩ : ∃ o, outbound chatLibrary [] chatSession chatRequest true out_body = .ok o :=
    ⟨_, rfl⟩
  have hcheck : checkBody chatLibrary chatSession chatRequest (asciiBytes chatText) =
      .ok [(py "model", .str (py "m")), (py "stream", .bool true)] := by rfl
  have hstream : is_stream chatSession.provider chatRequest.rest adm.body = true := by
    rw [hbody]
    rfl
  have hreport : reported chatLibrary chatSession true (relay true (chatExchange delivered)).2 =
      .ok none := by
    rw [relay_chat]
    exact reported_chat
  rw [← hbody] at henc
  exact ⟨o, out_body, served_path t u v w z rfl ⟨by decide, by decide⟩ hcheck limit hstream ⟨henc, hout⟩
    hreport ((meter_eq_ok _ _ _).2 ⟨_, rfl⟩)⟩

/-- The completion on a session that serves nothing else. -/
def soloTrace (o : Outbound) (out_body : Bytes) (delivered : Bool) : List (Performed rationals) :=
  let t := chatAdmission.session
  let x := relay true (chatExchange delivered)
  let m := (meter t (charge none x.1 6 1000) x.1).2
  chatTrace chatSession chatSession t t m chatAdmission o out_body delivered

/-- The limits on it. -/
theorem limits_chat : limits chatLibrary.builtins chatSession (asciiBytes chatText).length
    chatRequest.rest [(py "model", .str (py "m")), (py "stream", .bool true)] = .ok chatAdmission := rfl

theorem solo_path (delivered : Bool) : ∃ o out_body,
    Path (exec rationals chatLibrary.builtins) (handle chatLibrary [] chatSession chatRequest)
      (soloTrace o out_body delivered) (.ok ()) :=
  chat_path _ _ _ _ _ delivered limits_chat rfl

/-- An answer without usage costs the estimate and the cap. -/
theorem metering_conservative_sample : ∃ o out_body, Conservative chatLibrary chatSession true
    (chatExchange true) [] 6 1000 (charged (soloTrace o out_body true)) := by
  obtain ⟨o, out_body, hpath⟩ := solo_path true
  have hreport : reported chatLibrary chatSession true (relay true (chatExchange true)).2 =
      .ok none := by
    rw [relay_chat]
    exact reported_chat
  refine ⟨o, out_body, (metering_conservative hpath (.tail _ (.head _)) (.tail _ (.tail _ (.head _)))
    []).2 ⟨fun _ => ⟨none, hreport⟩, fun _ _ u hu => ?_, fun _ _ => ⟨rfl, rfl⟩⟩⟩
  rw [hreport] at hu
  cases hu

/-- **A worker that disconnects is charged nothing**, whatever the answer would have reported. -/
theorem disconnect_uncharged : ∃ o out_body,
    Path (exec rationals chatLibrary.builtins) (handle chatLibrary [] chatSession chatRequest)
      (soloTrace o out_body false) (.ok ()) ∧
    ∀ full, ¬ Conservative chatLibrary chatSession true (chatExchange false) full 6 1000
      (charged (soloTrace o out_body false)) := by
  obtain ⟨o, out_body, hpath⟩ := solo_path false
  refine ⟨o, out_body, hpath, fun full hc => ?_⟩
  have hcharged : charged (soloTrace o out_body false) = 0 := by
    rw [soloTrace, chatTrace, relay_chat]
    rfl
  have hstart : (chatExchange false).Started := ⟨by decide, by decide⟩
  have hcap := (hc.estimated hstart fun v hv => ?_).1
  · rw [hcharged] at hcap
    exact absurd hcap (by decide)
  · rw [relay_chat] at hv
    exact not_final_chat hv

end Valops.ModelBroker
