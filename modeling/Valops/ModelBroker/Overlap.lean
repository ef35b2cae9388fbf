import Valops.ModelBroker.Metering
import Valops.ModelBroker.Service

/-!
# Limits under overlapping requests

The section that checks the limits counts a request at once, but its tokens are counted when the
provider has answered. Requests that overlap pass the limits with the same tokens left.

Main result: `limits_cut_off` (the number of requests is cut off in every run; the output is cut off if
each request that passes the limits leaves room for the caps of those that have not been metered).
Control: `overlap_exceeds`.
-/

set_option autoImplicit false

namespace Valops.ModelBroker

open Py Conc

section Overlap

variable {N : Numbers} {lib : Library} {key : PyStr} {s : Session N} {c c' : Label} {p q : Phase}
  {x x' : Service N} {κ : Known N} {o : Op} {r : Res o}

/-- The caps of the requests that have passed the limits and not been metered. -/
def reserved (x : Service N) : Int := ((x.admitted ++ x.sent).map fun c => max 0 (x.cap c)).sum

/-- The condition on an operation: a request that passes the limits leaves room for the caps of the
others, and an answer reports no more output than the cap it was asked with. -/
def Roomy (lib : Library) (s : Session N) (c : Label) (x : Service N) :
    (o : ServiceOp N) → ServiceRes N o → Prop
  | .inl (.limits size rest body), _ => ∀ adm,
      limits lib.builtins x.session size rest body = .ok adm →
      x.session.output_tokens + reserved x + max 0 adm.clamp ≤ x.session.max_output_tokens
  | .inl (.forward _ stream), .ok y => HonestAnswer lib s stream y (x.cap c)
  | _, _ => True

/-- The limits of the session as it was opened. -/
structure Opened (s : Session N) (x : Service N) : Prop where
  max_requests : x.session.max_requests = s.max_requests
  max_output_tokens : x.session.max_output_tokens = s.max_output_tokens

theorem Moves.opened (hm : Moves lib s c p x o r q x') (hx : Opened s x) : Opened s x' := by
  cases hm with
  | admits was limit =>
    have hsession := (limits_eq_ok limit).session
    refine ⟨?_, ?_⟩
    · simp only [hsession]
      exact hx.max_requests
    · simp only [hsession]
      exact hx.max_output_tokens
  | @meters clamp stream y usage status r was bound =>
    obtain ⟨hrequests, houtput⟩ := meter_max x.session usage status
    exact ⟨hrequests.trans hx.max_requests, houtput.trans hx.max_output_tokens⟩
  | forwards was => exact ⟨hx.max_requests, hx.max_output_tokens⟩
  | fails was => exact ⟨hx.max_requests, hx.max_output_tokens⟩
  | refuses r => exact ⟨hx.max_requests, hx.max_output_tokens⟩
  | stays => exact hx

theorem learns_socket {o : SocketOp N} {r : SocketRes o} :
    (learns κ (.inr o) r).phase = κ.phase := by
  cases o with
  | unlink => cases r <;> rfl
  | pop => cases r <;> rfl
  | _ => rfl

/-- What holds in every run. -/
structure Tallied (s : Session N) (x : Service N) : Prop where
  counted : Counted x
  opened : Opened s x

/-- The record is kept by every operation. -/
theorem tallied_step {o : ServiceOp N} {r : ServiceRes N o} (hx : Tallied s x)
    (ht : Tracks c κ.phase x) (hpre : demands lib s κ o) (h : serviceExec lib.builtins c x o r x') :
    Kept (Tallied s) (fun c (κ : Known N) x => Tracks c κ.phase x) c (learns κ o r) x x' := by
  cases o with
  | inl o =>
    have hm := request_moves hpre h
    obtain ⟨hcounted, htracks⟩ := hm.counted hx.counted ht
    exact ⟨⟨hcounted, hm.opened hx.opened⟩, htracks, fun c' κ' hne => hm.others hne⟩
  | inr o =>
    obtain ⟨hsession, hadmitted, hsent, hcap, hmetered, hforwarded⟩ := socket_leaves h
    have htracks : ∀ {c' p'}, Tracks c' p' x → Tracks c' p' x' := by
      intro c' p' ht
      cases p' <;> simpa only [Tracks, hadmitted, hsent, hcap] using ht
    have hc := hx.counted
    refine ⟨⟨?_, ?_⟩, ?_, fun c' κ' _ => htracks⟩
    · constructor
      · rw [hadmitted]
        exact hc.admitted_nodup
      · rw [hsent]
        exact hc.sent_nodup
      · rw [hsession, hadmitted, hsent, hmetered]
        exact hc.requests
      · rw [hforwarded, hsent, hmetered]
        exact hc.forwarded
      · rw [hsession, hmetered]
        exact hc.input_tokens
      · rw [hsession, hmetered]
        exact hc.output_tokens
      · rw [hsession]
        exact hc.limit
    · exact ⟨by rw [hsession]; exact hx.opened.max_requests,
        by rw [hsession]; exact hx.opened.max_output_tokens⟩
    · show Tracks c (learns κ (.inr o) r).phase x'
      rw [learns_socket]
      exact htracks ht

/-- A session that has served nothing. -/
structure Unused (s : Session N) : Prop where
  requests : s.requests = 0
  input_tokens : s.input_tokens = 0
  output_tokens : s.output_tokens = 0
  max_requests : 0 ≤ s.max_requests
  max_output_tokens : 0 ≤ s.max_output_tokens

theorem Unused.tallied (hs : Unused s) : Tallied s { session := s } := by
  refine ⟨⟨.nil, .nil, hs.requests, rfl, hs.input_tokens, hs.output_tokens, ?_⟩, rfl, rfl⟩
  rw [hs.requests]
  exact hs.max_requests

/-- A pool of the threads of a session. -/
abbrev ServicePool (N : Numbers) :=
  Pool (Service N) Label (ServiceOp N) (ServiceRes N) (Except Exc (Option (Meter N)))

/-- The record agrees with the session in every interleaving. -/
theorem reach_tallied (hs : Unused s) {P : ServicePool N}
    (h : Pool.Reach (serviceExec lib.builtins) (body lib key s) { session := s } P) :
    Tallied s P.state :=
  (Pool.local_sound_from (fun _ => knowledge lib s)
    (fun _ _ _ _ _ _ hx hκ hpre hexec => tallied_step hx hκ hpre hexec)
    local_body (fun _ => ⟨List.not_mem_nil, List.not_mem_nil⟩) hs.tallied h).1

/-! ## Room for the caps -/

/-- The output that has been metered, with the caps that are reserved, is within the limit. -/
def WithinCaps (x : Service N) : Prop :=
  x.session.output_tokens + reserved x ≤ x.session.max_output_tokens

/-- What a thread knows: where its request is, and that the answer is within the cap. -/
def KnowsAnswer (lib : Library) (s : Session N) (c : Label) (κ : Known N) (x : Service N) : Prop :=
  Tracks c κ.phase x ∧
    ∀ clamp stream y, κ.phase = .sent clamp stream y → HonestAnswer lib s stream y clamp

theorem reserved_cons (l : List Label) (f : Label → Int) (c : Label) (n : Int) (hc : c ∉ l) :
    ((c :: l).map fun c' => max 0 (Function.update f c n c')).sum =
      max 0 n + (l.map fun c' => max 0 (f c')).sum := by
  have hrest : (l.map fun c' => max 0 (Function.update f c n c')) = l.map fun c' => max 0 (f c') := by
    refine List.map_congr_left fun c' hc' => ?_
    rw [Function.update_of_ne (fun heq : c' = c => hc (heq ▸ hc'))]
  rw [List.map_cons, List.sum_cons, hrest, Function.update_self]

theorem reserved_erase {l : List Label} (f : Label → Int) {c : Label} (hc : c ∈ l) :
    max 0 (f c) + ((l.erase c).map fun c' => max 0 (f c')).sum =
      (l.map fun c' => max 0 (f c')).sum :=
  List.sum_map_erase (fun c' => max 0 (f c')) hc

/-- Forwarding reserves nothing more. -/
theorem reserved_forward (hc : c ∈ x.admitted) : reserved { x with
      admitted := x.admitted.erase c
      sent := c :: x.sent
      forwarded := x.forwarded + 1 } = reserved x := by
  have herase := reserved_erase x.cap hc
  simp only [reserved, List.map_append, List.map_cons, List.sum_append, List.sum_cons]
  omega

/-- An operation of a request that leaves room keeps the output within the limit. -/
theorem Moves.withinCaps (hm : Moves lib s c p x o r q x') (hx : WithinCaps x) (ht : Tracks c p x)
    (hroom : Roomy lib s c x (.inl o) r)
    (honest : ∀ clamp stream y, p = .sent clamp stream y → HonestAnswer lib s stream y clamp) :
    WithinCaps x' := by
  cases hm with
  | @admits size rest req adm was limit =>
    subst was
    have hsession := (limits_eq_ok limit).session
    have hfits := hroom adm limit
    have hnew : c ∉ x.admitted ++ x.sent := fun hmem =>
      (List.mem_append.1 hmem).elim ht.1 ht.2
    have hreserved : reserved { x with
        session := adm.session
        admitted := c :: x.admitted
        cap := Function.update x.cap c adm.clamp } = max 0 adm.clamp + reserved x :=
      reserved_cons (x.admitted ++ x.sent) x.cap c adm.clamp hnew
    unfold WithinCaps
    rw [hreserved]
    simp only [hsession]
    omega
  | forwards was =>
    subst was
    unfold WithinCaps
    rw [reserved_forward ht.1]
    exact hx
  | fails was =>
    subst was
    unfold WithinCaps
    rw [reserved_forward ht.1]
    exact hx
  | @meters clamp stream y usage status r was bound =>
    subst was
    obtain ⟨hadmitted, hsent, hcap⟩ := ht
    have hbound := bound (honest clamp stream y rfl)
    have herase := reserved_erase x.cap hsent
    rw [hcap] at herase
    have hmeter := (meter_tokens x.session usage status).2.2
    have hmax := (meter_max x.session usage status).2
    simp only [WithinCaps, reserved, List.map_append, List.sum_append, hmeter, hmax] at hx ⊢
    omega
  | refuses e => exact hx
  | stays => exact hx

/-- The answer that a thread has got is within the cap. -/
theorem Moves.honest (hm : Moves lib s c p x o r q x') (ht : Tracks c p x)
    (hroom : Roomy lib s c x (.inl o) r)
    (honest : ∀ clamp stream y, p = .sent clamp stream y → HonestAnswer lib s stream y clamp) :
    ∀ clamp stream y, q = .sent clamp stream y → HonestAnswer lib s stream y clamp := by
  cases hm with
  | admits was limit => exact nofun
  | @forwards out stream y clamp was =>
    subst was
    rintro clamp' stream' y' heq
    cases heq
    have hcap : x.cap c = clamp := ht.2.2
    rw [← hcap]
    exact hroom
  | fails was => exact nofun
  | meters was bound => exact nofun
  | refuses e => exact honest
  | stays => exact honest

/-- What holds in a run with room for the caps. -/
structure Roomed (s : Session N) (x : Service N) : Prop extends Tallied s x where
  within : WithinCaps x

theorem roomed_step {o : ServiceOp N} {r : ServiceRes N o} (hx : Roomed s x)
    (hκ : KnowsAnswer lib s c κ x) (hpre : demands lib s κ o)
    (h : limited (serviceExec lib.builtins) (Roomy lib s) c x o r x') :
    Kept (Roomed s) (KnowsAnswer lib s) c (learns κ o r) x x' := by
  obtain ⟨hroom, hexec⟩ := h
  obtain ⟨htracks, honest⟩ := hκ
  obtain ⟨htallied, htracks', hothers⟩ := tallied_step hx.toTallied htracks hpre hexec
  cases o with
  | inl o =>
    have hm := request_moves hpre hexec
    exact ⟨⟨htallied, hm.withinCaps hx.within htracks hroom honest⟩,
      ⟨htracks', hm.honest htracks hroom honest⟩,
      fun c' κ' hne hκ' => ⟨hothers c' κ' hne hκ'.1, hκ'.2⟩⟩
  | inr o =>
    obtain ⟨hsession, hadmitted, hsent, hcap, -, -⟩ := socket_leaves hexec
    refine ⟨⟨htallied, ?_⟩, ⟨htracks', ?_⟩, fun c' κ' hne hκ' => ⟨hothers c' κ' hne hκ'.1, hκ'.2⟩⟩
    · have hwithin := hx.within
      unfold WithinCaps reserved at hwithin ⊢
      rw [hsession, hadmitted, hsent, hcap]
      exact hwithin
    · rw [learns_socket]
      exact honest

theorem reserved_nonneg : 0 ≤ reserved x := by
  refine List.sum_nonneg fun n hn => ?_
  obtain ⟨c, -, rfl⟩ := List.mem_map.1 hn
  exact le_max_left _ _

/-- **The limits of a session**: the number of forwarded requests is within its limit in every run. The
output is within its limit in every run in which a request that passes the limits leaves room for the
caps of the others. -/
theorem limits_cut_off (hs : Unused s) :
    (∀ P, Pool.Reach (serviceExec lib.builtins) (body lib key s) { session := s } P →
      (P.state.forwarded : Int) ≤ s.max_requests) ∧
    ∀ P, Pool.Reach (limited (serviceExec lib.builtins) (Roomy lib s)) (body lib key s)
      { session := s } P → P.state.session.output_tokens ≤ s.max_output_tokens := by
  constructor
  · intro P h
    obtain ⟨hcounted, hopened⟩ := reach_tallied hs h
    have hrequests := hcounted.requests
    have hforwarded := hcounted.forwarded
    have hlimit := hcounted.limit
    rw [hopened.max_requests] at hlimit
    omega
  · intro P h
    have hempty : Roomed s ({ session := s } : Service N) := by
      refine ⟨hs.tallied, ?_⟩
      show s.output_tokens + 0 ≤ s.max_output_tokens
      rw [hs.output_tokens]
      exact hs.max_output_tokens
    have hroomed := (Pool.local_sound_from (fun _ => knowledge lib s)
      (fun _ _ _ _ _ _ hx hκ hpre hexec => roomed_step hx hκ hpre hexec) local_body
      (fun _ => ⟨⟨List.not_mem_nil, List.not_mem_nil⟩, nofun⟩) hempty h).1
    have hwithin : WithinCaps P.state := hroomed.within
    have hmax := hroomed.opened.max_output_tokens
    have hnonneg : 0 ≤ reserved P.state := reserved_nonneg
    unfold WithinCaps at hwithin
    omega

end Overlap

/-! ## Two requests at once -/

/-- A connection with one completion. -/
def chatLabel (n : Nat) : Label := ⟨n, .connection [chatRequest]⟩

/-- What the connection goes on with when it has been accepted. -/
def chatServing : ServiceProg rationals :=
  (serve chatLibrary [] chatSession [chatRequest]).left.bind fun r => .ret (r.map fun _ => none)

/-- What it goes on with when the completion has been handled. -/
def chatRest : Except Exc Unit → Prog Op Res (Except Exc Unit)
  | .ok _ => serve chatLibrary [] chatSession []
  | .error e => .ret (.error e)

/-- The second of two requests when it has passed the limits. -/
def secondAdmission : Admission rationals :=
  { chatAdmission with session := { chatSession with requests := 2 } }

/-- The charge of an answer that is relayed, and its status. -/
def chatCharge : (Int × Int) × Nat :=
  (charge none (relay true (chatExchange true)).1 6 1000, (relay true (chatExchange true)).1)

/-- The session when the second request has been metered, and when both have. -/
def meteredOnce : Session rationals := (meter secondAdmission.session chatCharge.1 chatCharge.2).2

def meteredTwice : Session rationals := (meter meteredOnce chatCharge.1 chatCharge.2).2

theorem chatCharge_eq : chatCharge = ((6, 1000), 200) := by
  rw [chatCharge, relay_chat]
  rfl

theorem chatSession_unused : Unused chatSession := ⟨rfl, rfl, rfl, by decide, by decide⟩

/-- The limits of the chat session. -/
theorem limits_cut_off_sample :
    (∀ P, Pool.Reach (serviceExec chatLibrary.builtins) (body chatLibrary [] chatSession)
      { session := chatSession } P → (P.state.forwarded : Int) ≤ 10) ∧
    ∀ P, Pool.Reach (limited (serviceExec chatLibrary.builtins) (Roomy chatLibrary chatSession))
      (body chatLibrary [] chatSession) { session := chatSession } P →
      P.state.session.output_tokens ≤ 1000 :=
  limits_cut_off chatSession_unused

/-- Runs of the chat session. -/
abbrev ChatRun : ServicePool rationals → ServicePool rationals → Prop :=
  Relation.ReflTransGen (Pool.Step (serviceExec chatLibrary.builtins) (body chatLibrary [] chatSession))

/-- A connection of the completion is accepted and starts. -/
theorem chat_accepted (x : Service rationals) (hx : x.listening = true)
    (ts : List (Thread Label (ServiceOp rationals) (ServiceRes rationals)
      (Except Exc (Option (Meter rationals))))) (n : Nat) (fresh : ∀ t ∈ ts, t.tag ≠ chatLabel n) :
    ChatRun ⟨x, ts⟩ ⟨x, ts ++ [⟨chatLabel n, chatServing⟩]⟩ :=
  .head (.spawn x ts (chatLabel n) fresh)
    (.single (.run x x ts [] (chatLabel n) (.inr .accept) _ () ⟨hx, rfl⟩))

/-- **Two requests at once** pass the limits with the same tokens left: two thousand are metered where
one thousand were allowed. -/
theorem overlap_exceeds : ∃ P, Pool.Reach (serviceExec chatLibrary.builtins)
    (body chatLibrary [] chatSession) { session := chatSession } P ∧
    P.state.session.output_tokens = 2000 ∧ chatSession.max_output_tokens = 1000 := by
  have hlimit : limits chatLibrary.builtins chatAdmission.session (asciiBytes chatText).length
      chatRequest.rest [(py "model", .str (py "m")), (py "stream", .bool true)] =
      .ok secondAdmission := rfl
  obtain ⟨o₀, out₀, hpath₀⟩ := chat_path chatSession chatSession meteredOnce meteredOnce meteredTwice
    true limits_chat rfl
  obtain ⟨o₁, out₁, hpath₁⟩ := chat_path chatAdmission.session chatAdmission.session
    secondAdmission.session secondAdmission.session meteredOnce true hlimit rfl
  let f : Except Exc Unit → ServiceProg rationals := fun r => .ret (r.map fun _ => none)
  -- the first request passes the limits, the second one is served, the first one goes on
  obtain ⟨m, hfront, hback⟩ := (hpath₀.segment.bind chatRest).split 2
  let c₀ := chatLabel 0
  let c₁ := chatLabel 1
  let x₀ : Service rationals := { session := chatSession }
  let tr₀ := chatTrace chatSession chatSession meteredOnce meteredOnce meteredTwice chatAdmission
    o₀ out₀ true
  let tr₁ := chatTrace chatAdmission.session chatAdmission.session secondAdmission.session
    secondAdmission.session meteredOnce secondAdmission o₁ out₁ true
  let x₁ := x₀.afterAll c₀ (tr₀.take 2)
  let x₂ := x₁.afterAll c₁ tr₁
  have hstart : ChatRun ⟨x₀, []⟩ ⟨x₀, [⟨c₀, chatServing⟩, ⟨c₁, chatServing⟩]⟩ :=
    (chat_accepted x₀ rfl [] 0 (by simp)).trans
      (chat_accepted x₀ rfl [⟨c₀, chatServing⟩] 1 (List.forall_mem_singleton.2 (by decide)))
  have hchecked : ChatRun ⟨x₀, [] ++ ⟨c₀, chatServing⟩ :: [⟨c₁, chatServing⟩]⟩
      ⟨x₁, [] ++ ⟨c₀, m.left.bind f⟩ :: [⟨c₁, chatServing⟩]⟩ :=
    request_runs hfront (t := chatAdmission.session) ⟨rfl, rfl, rfl⟩ f
  have hserve : ChatRun ⟨x₁, [⟨c₀, m.left.bind f⟩] ++ ⟨c₁, chatServing⟩ :: []⟩
      ⟨x₂, [⟨c₀, m.left.bind f⟩] ++ ⟨c₁, f (.ok ())⟩ :: []⟩ :=
    request_runs (hpath₁.segment.bind chatRest) (t := meteredOnce) ⟨rfl, rfl, rfl, rfl, rfl, rfl⟩ f
  have hrest : ChatRun ⟨x₂, [] ++ ⟨c₀, m.left.bind f⟩ :: [⟨c₁, f (.ok ())⟩]⟩
      ⟨x₂.afterAll c₀ (tr₀.drop 2), [] ++ ⟨c₀, f (.ok ())⟩ :: [⟨c₁, f (.ok ())⟩]⟩ :=
    request_runs hback (t := meteredTwice) ⟨rfl, rfl, rfl, rfl⟩ f
  refine ⟨_, hstart.trans (hchecked.trans (hserve.trans hrest)), ?_, rfl⟩
  show meteredTwice.output_tokens = 2000
  rw [meteredTwice, (meter_tokens _ _ _).2.2, meteredOnce, (meter_tokens _ _ _).2.2, chatCharge_eq]
  rfl

end Valops.ModelBroker
