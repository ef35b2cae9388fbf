import Valops.Brokers.Workers
import Valops.Store.Repeat

/-!
# The store behind its brokers

Workers reach the store only through the brokers: a handler checks the token at the broker, and the
call of the store that it makes is handled at some later moment, or never. The store has a gate of
its own, which knows of no revoked session.

Main results: `prepare_eq` and `inflight_authorised` (what a handler lets through), `new_row` (what a
step of the store appends).
-/

set_option autoImplicit false

namespace Valops.Brokers

open Py Store

/-! ## The system -/

/-- The store, the brokers, and the calls that are on their way. -/
structure Net where
  sys : System := {}
  brokers : BrokerName → Broker := fun _ => {}
  inflight : List Request := []

/-- What can happen. -/
inductive NetAct where
  | store (a : Act)
  | prepare (w : BrokerWorld) (t : Tool) (p : Params)
  | deliver (w : World) (r : Request) (p : Params)
  | lose (r : Request)
  | revoke (b : BrokerName) (p : Params)

/-- The sockets that are not the brokers'. -/
def Endpoint.direct (ep : Endpoint) : Prop := ep = .control ∨ ep = .verify

/-- An act of the store that no broker has a part in. -/
def DirectAct : Act → Prop
  | .call c => Endpoint.direct c.endpoint
  | _ => True

/-- The call of the store that a request makes; `p` is what the decoder makes of its arguments. -/
def Request.call (r : Request) (w : World) (p : Params) : Call :=
  ⟨w, r.tool.endpoint, r.tool.method, p⟩

/-- The brokers after one of them has changed. -/
def Net.setBroker (x : Net) (n : BrokerName) (b : Broker) : BrokerName → Broker :=
  Function.update x.brokers n b

/-- One step. -/
inductive NetMoves (cfg : BrokerConfig) : Net → NetAct → Net → Prop
  | store {x : Net} {a : Act} {s : System} (direct : DirectAct a)
      (step : Moves cfg.store x.sys a s) : NetMoves cfg x (.store a) { x with sys := s }
  | prepared {x : Net} {w : BrokerWorld} {t : Tool} {p : Params} {r : Request} {b : Broker}
      (ok : prepare cfg w (x.brokers t.broker) t p = (.ok r, b)) :
      NetMoves cfg x (.prepare w t p)
        { x with brokers := x.setBroker t.broker b, inflight := r :: x.inflight }
  | refused {x : Net} {w : BrokerWorld} {t : Tool} {p : Params} {e : Exc} {b : Broker}
      (bad : prepare cfg w (x.brokers t.broker) t p = (.error e, b)) :
      NetMoves cfg x (.prepare w t p) { x with brokers := x.setBroker t.broker b }
  | deliver {x : Net} {w : World} {r : Request} {p : Params} {s : System}
      {front back : List Request} (inflight : x.inflight = front ++ r :: back)
      (sent : p.fields = r.fields) (step : Moves cfg.store x.sys (.call (r.call w p)) s) :
      NetMoves cfg x (.deliver w r p) { x with sys := s, inflight := front ++ back }
  | lose {x : Net} {r : Request} {front back : List Request}
      (inflight : x.inflight = front ++ r :: back) :
      NetMoves cfg x (.lose r) { x with inflight := front ++ back }
  | revoke {x : Net} {n : BrokerName} {p : Params} {v : Json} {b : Broker}
      (ok : (x.brokers n).revoke p = .ok (v, b)) :
      NetMoves cfg x (.revoke n p) { x with brokers := x.setBroker n b }

/-- Nothing has happened. -/
def NetInitial (x : Net) : Prop := x = {}

/-- The act of the store that is part of an act. -/
def NetAct.act? : NetAct → Option Act
  | .store a => some a
  | .deliver w r p => some (.call (r.call w p))
  | _ => none

section Runs

variable {cfg : BrokerConfig} {x y : Net} {a : NetAct} {ok : Net → NetAct → Prop} {r : Request}

/-- The store of a run is the store of a run of its own. -/
theorem reachable_sys (h : Conc.Reachable NetInitial (NetMoves cfg) ok x) :
    Conc.Reachable Initial (Moves cfg.store) Conc.anyAct x.sys := by
  refine h.inv (I := fun x => Conc.Reachable Initial (Moves cfg.store) Conc.anyAct x.sys) ?_ ?_
  · rintro _ rfl
    exact .start rfl
  · intro x a y hinv _ hstep
    cases hstep with
    | store direct step => exact hinv.next trivial step
    | deliver inflight sent step => exact hinv.next trivial step
    | prepared ok => exact hinv
    | refused bad => exact hinv
    | lose inflight => exact hinv
    | revoke ok => exact hinv

/-! ## Requests -/

/-- A broker let the token of a request through, and the request has its arguments. -/
structure Authorised (g : TokenGate) (now : Double) (id : Json) (r : Request) : Prop where
  checked : Checked g now r.token id r.cap
  args : ∀ kv ∈ r.args, kv.1 ∉ given

/-- What a broker puts between the session and the part of the key that depends on the call. -/
def BrokerName.separator : BrokerName → PyStr
  | .episode => py ":"
  | .observer => py ":obs:"
  | .report => py ":report:"

/-- The key of a request is built from its session, its broker and a part. -/
def Keyed (cfg : BrokerConfig) (r : Request) : Prop :=
  ∃ part, r.idem_key = strOf cfg.store r.cap.session_id ++ (r.tool.broker.separator ++ part)

theorem authorize_eq_ok {w : BrokerWorld} {b : Broker} {p : Params} {t : Tool} {cap : Capability}
    {args : Json} (h : authorize cfg w b p t = .ok (cap, args)) :
    Checked (b.gate cfg w) w.now (p.get "token") (p.get "episode_id") cap := by
  unfold authorize at h
  obtain ⟨c, hc, h⟩ := bind_eq_ok.1 h
  obtain ⟨allowed, _, h⟩ := bind_eq_ok.1 h
  split at h
  · obtain ⟨_, _, h⟩ := bind_eq_ok.1 h
    cases h
  · dsimp only at h
    split at h
    · obtain ⟨_, _, h⟩ := bind_eq_ok.1 h
      cases h
    · cases pure_eq_ok.1 h
      exact (check_eq_ok hc).1

/-- What a handler did before it took its quota, and what it did then. -/
theorem charged_eq {w : BrokerWorld} {b b' : Broker} {p : Params} {t : Tool} {name : PyStr}
    {limit : Except Exc Int} {rest : Capability → Json → Except Exc Request} {res : Except Exc Request}
    (h : charged cfg w b p t name limit rest = (res, b')) : b'.revoked = b.revoked ∧
      ∀ r, res = .ok r → ∃ cap args, authorize cfg w b p t = .ok (cap, args) ∧
        rest cap args = .ok r := by
  unfold charged at h
  dsimp only at h
  split at h
  · cases h
    exact ⟨rfl, fun r hr => by cases hr⟩
  · rename_i cap args q htaken
    cases h
    obtain ⟨⟨cap', args'⟩, hauth, htaken⟩ := bind_eq_ok.1 htaken
    obtain ⟨_, _, htaken⟩ := bind_eq_ok.1 htaken
    obtain ⟨_, _, htaken⟩ := bind_eq_ok.1 htaken
    cases pure_eq_ok.1 htaken
    exact ⟨rfl, fun r hr => ⟨cap', args', hauth, hr⟩⟩

/-- A request is for the worker's tool, token and session, and a handler revokes nothing. -/
theorem prepare_eq {w : BrokerWorld} {b b' : Broker} {t : Tool} {p : Params}
    {res : Except Exc Request} (h : prepare cfg w b t p = (res, b')) : b'.revoked = b.revoked ∧
      ∀ r, res = .ok r → r.tool = t ∧ Authorised (b.gate cfg w) w.now (p.get "episode_id") r ∧
        Keyed cfg r := by
  unfold prepare at h
  split at h
  · rename_i hbroker
    obtain ⟨hrev, hres⟩ := charged_eq h
    refine ⟨hrev, ?_⟩
    intro r hr
    obtain ⟨cap, args, hauth, hrest⟩ := hres r hr
    obtain ⟨idem, _, hrest⟩ := bind_eq_ok.1 hrest
    obtain ⟨_, _, hrest⟩ := bind_eq_ok.1 hrest
    obtain ⟨_, _, hrest⟩ := bind_eq_ok.1 hrest
    obtain ⟨built, _, hrest⟩ := bind_eq_ok.1 hrest
    obtain ⟨_, hgiven, hrest⟩ := bind_eq_ok.1 hrest
    cases pure_eq_ok.1 hrest
    have hgiven := List.all_eq_true.1 (require_eq_ok.1 hgiven)
    refine ⟨rfl, ⟨authorize_eq_ok hauth, fun kv hkv => of_decide_eq_true (hgiven kv hkv)⟩, idem, ?_⟩
    rw [hbroker]
    exact List.append_assoc _ _ _
  · rename_i hbroker
    obtain ⟨hrev, hres⟩ := charged_eq h
    refine ⟨hrev, ?_⟩
    intro r hr
    obtain ⟨cap, args, hauth, hrest⟩ := hres r hr
    obtain ⟨res, _, hrest⟩ := bind_eq_ok.1 hrest
    obtain ⟨_, _, hrest⟩ := bind_eq_ok.1 hrest
    obtain ⟨_, _, hrest⟩ := bind_eq_ok.1 hrest
    obtain ⟨ref, _, hrest⟩ := bind_eq_ok.1 hrest
    cases pure_eq_ok.1 hrest
    refine ⟨rfl, ⟨authorize_eq_ok hauth, fun kv hkv => ?_⟩,
      strOf cfg.store (observationPart w p), ?_⟩
    · cases List.mem_singleton.1 hkv
      show py "snapshot" ∉ given
      decide
    · rw [hbroker]
      exact List.append_assoc _ _ _
  · rename_i hbroker
    have ht : t = .write_incident_report := by cases t <;> first | rfl | cases hbroker
    obtain ⟨hrev, hres⟩ := charged_eq h
    refine ⟨hrev, ?_⟩
    intro r hr
    obtain ⟨cap, args, hauth, hrest⟩ := hres r hr
    obtain ⟨_, _, hrest⟩ := bind_eq_ok.1 hrest
    obtain ⟨markdown, _, hrest⟩ := bind_eq_ok.1 hrest
    obtain ⟨body, _, hrest⟩ := bind_eq_ok.1 hrest
    obtain ⟨_, _, hrest⟩ := bind_eq_ok.1 hrest
    obtain ⟨kind, _, hrest⟩ := bind_eq_ok.1 hrest
    cases pure_eq_ok.1 hrest
    refine ⟨ht.symm, ⟨authorize_eq_ok hauth, fun kv hkv => ?_⟩,
      strOf cfg.store kind ++ (py ":" ++ (cfg.sha256_hex body).take 16), ?_⟩
    · rcases List.mem_cons.1 hkv with rfl | hkv
      · show py "kind" ∉ given
        decide
      · cases List.mem_singleton.1 hkv
        show py "ref" ∉ given
        decide
    · show strOf cfg.store cap.session_id ++ py ":report:" ++ strOf cfg.store kind ++ py ":" ++ _ = _
      simp only [List.append_assoc]
      rfl

theorem mem_inflight {front back : List Request} {r r' : Request}
    (h : x.inflight = front ++ r :: back) (hr : r' ∈ front ++ back) : r' ∈ x.inflight := by
  rw [h]
  exact ((List.sublist_cons_self r back).append_left front).subset hr

/-- What is on its way was authorised by the broker of its tool. -/
theorem inflight_authorised (h : Conc.Reachable NetInitial (NetMoves cfg) ok x) :
    ∀ r ∈ x.inflight, ∃ g now id, g.verify = cfg.store.verify ∧ Authorised g now id r := by
  refine h.inv (I := fun x => ∀ r ∈ x.inflight,
    ∃ g now id, g.verify = cfg.store.verify ∧ Authorised g now id r) ?_ ?_
  · rintro _ rfl r hr
    cases hr
  · intro x a y hinv _ hstep
    cases hstep with
    | store direct step => exact hinv
    | deliver inflight sent step => exact fun r hr => hinv r (mem_inflight inflight hr)
    | lose inflight => exact fun r hr => hinv r (mem_inflight inflight hr)
    | refused bad => exact hinv
    | revoke ok => exact hinv
    | prepared ok =>
      intro r hr
      rcases List.mem_cons.1 hr with rfl | hr
      · obtain ⟨_, hauth, _⟩ := (prepare_eq ok).2 _ rfl
        exact ⟨_, _, _, rfl, hauth⟩
      · exact hinv r hr

/-- What the store reads of a request. -/
theorem Request.get_given {p : Params} {g : TokenGate} {now : Double} {id : Json}
    (hauth : Authorised g now id r) (hsent : p.fields = r.fields) :
    p.get "token" = r.token ∧ p.get "episode_id" = r.cap.episode_id ∧
      p.get "idem_key" = .str r.idem_key := by
  have hargs : ∀ k ∈ given, ∀ kv ∈ r.args, kv.1 ≠ k := by
    rintro k hk kv hkv rfl
    exact hauth.args kv hkv hk
  have hget : ∀ {k : String} {v : Json} {front back : Fields}, py k ∈ given →
      [(py "token", r.token), (py "episode_id", r.cap.episode_id), (py "idem_key", .str r.idem_key)] =
        front ++ (py k, v) :: back → (∀ kv ∈ back, kv.1 ≠ py k) → p.get k = v := by
    intro k v front back hk heq hback
    rw [Params.get, hsent, Request.fields, heq, List.append_assoc, List.cons_append,
      Json.lookup_mkFields]
    · rfl
    · intro kv hkv
      rcases List.mem_append.1 hkv with hkv | hkv
      · exact hback kv hkv
      · exact hargs _ hk kv hkv
  refine ⟨hget (by decide) (List.nil_append _).symm ?_, hget (by decide) (List.singleton_append).symm ?_,
    hget (by decide) (show _ = [_, _] ++ _ from rfl) ?_⟩
  · simp only [List.mem_cons, List.not_mem_nil, or_false, forall_eq_or_imp, forall_eq]
    decide
  · simp only [List.mem_singleton, forall_eq]
    decide
  · simp

/-- What a step of the store appends: nothing, or the row of a draft that was let through. -/
theorem new_row {c : StoreConfig} {s s' : System} {act : Act} (h : Moves c s act s') :
    s'.store.rows = s.store.rows ∨ ∃ call d row, act.section? = some call ∧
      s'.store.rows = s.store.rows ++ [row] ∧ Written c call.world s.store d row ∧
      row.kind = d.body.kind ∧ (Drafted c call.world s.store call.endpoint call.method call.params d ∨
        call.method = .open_episode ∧ row.kind = .opened) := by
  rcases h.effect with ⟨call, st, hsec, hchange, _, hstore, _, _⟩ | ⟨_, hup, _, _⟩ |
    ⟨_, hstore, _, _⟩
  · rw [hstore]
    rcases hchange.rows with ⟨hrows, _⟩ | ⟨d, row, os, hrow, hdraft, rfl⟩
    · exact .inl hrows
    · have hwritten := newRow_eq_ok (hdraft.elim (fun h => h.wf) (fun h => h.wf)) hrow
      refine .inr ⟨call, d, row, hsec, rfl, hwritten, newRow_kind hrow, ?_⟩
      rcases hdraft with hdraft | hopened
      · exact .inl hdraft
      · obtain ⟨_, _, _, rfl⟩ := hopened.decided
        exact .inr ⟨hopened.method, newRow_kind hrow⟩
  · exact .inl (restart_rows hup).1
  · rw [hstore]
    exact .inl rfl

end Runs

/-! ## Running the net -/

instance : ∀ a, Decidable (DirectAct a)
  | .call c => inferInstanceAs (Decidable (c.endpoint = .control ∨ c.endpoint = .verify))
  | .check _ | .verify _ _ | .restart | .mint _ => .isTrue trivial

/-- The system after an act, if it can happen. -/
def Net.act (cfg : BrokerConfig) (x : Net) : NetAct → Option Net
  | .store a =>
    if DirectAct a then (x.sys.act cfg.store a).map fun s => { x with sys := s } else none
  | .prepare w t p =>
    match prepare cfg w (x.brokers t.broker) t p with
    | (.ok r, b) =>
      some { x with brokers := x.setBroker t.broker b, inflight := r :: x.inflight }
    | (.error _, b) => some { x with brokers := x.setBroker t.broker b }
  | .deliver w r p =>
    if p.fields = r.fields ∧ r ∈ x.inflight then
      (x.sys.act cfg.store (.call (r.call w p))).map fun s =>
        { x with sys := s, inflight := x.inflight.erase r }
    else none
  | .lose r => if r ∈ x.inflight then some { x with inflight := x.inflight.erase r } else none
  | .revoke n p =>
    match (x.brokers n).revoke p with
    | .ok (_, b) => some { x with brokers := x.setBroker n b }
    | .error _ => none

theorem Net.act_moves {cfg : BrokerConfig} (x : Net) (a : NetAct) (y : Net)
    (h : x.act cfg a = some y) : NetMoves cfg x a y := by
  cases a with
  | store a =>
    simp only [Net.act] at h
    split at h
    · rename_i hdirect
      obtain ⟨s, hs, rfl⟩ := Option.map_eq_some_iff.1 h
      exact .store hdirect (System.act_moves hs)
    · cases h
  | prepare w t p =>
    simp only [Net.act] at h
    split at h
    · rename_i hprep
      cases h
      exact .prepared hprep
    · rename_i hprep
      cases h
      exact .refused hprep
  | deliver w r p =>
    simp only [Net.act] at h
    split at h
    · rename_i hc
      obtain ⟨s, hs, rfl⟩ := Option.map_eq_some_iff.1 h
      obtain ⟨front, back, _, heq, herase⟩ := List.exists_erase_eq hc.2
      rw [herase]
      exact .deliver heq hc.1 (System.act_moves hs)
    · cases h
  | lose r =>
    simp only [Net.act] at h
    split at h
    · rename_i hc
      cases h
      obtain ⟨front, back, _, heq, herase⟩ := List.exists_erase_eq hc
      rw [herase]
      exact .lose heq
    · cases h
  | revoke n p =>
    simp only [Net.act] at h
    split at h
    · rename_i hrev
      cases h
      exact .revoke hrev
    · cases h

/-! ## A small installation -/

/-- A broker's handler that nothing goes wrong in. -/
def sampleBroker : BrokerWorld where
  now := Double.zero
  registry := ⟨[], fun _ => .ok none⟩
  limit := .ok 100
  commands _ := true
  audit _ := .ok (py "-")
  sample := .ok [(py "command_id", .str (py "catchup")), (py "status", .str (py "ok"))]
  time_ns := 0
  disk := .ok ()

/-- The installation of the samples, with tokens. -/
def sampleNet : BrokerConfig where
  store := tokenConfig
  sha256_hex _ := List.replicate 64 97

/-- The diagnostician of the episode. -/
def diagnostician : Grant := sampleGrant .diagnostician "S"

/-- The worker's call of `add_hypothesis`. -/
def hypothesisParams (idem : String) : Params :=
  agentParams diagnostician idem [(py "args", Json.mkObj sampleHypothesis)] (by
    simpa using sampleHypothesis_wf)

/-- The broker's call of the store. -/
def hypothesisRequest (idem : String) : Request :=
  ⟨.add_hypothesis, sampleToken diagnostician, diagnostician.capability, py "S:" ++ py idem,
    [(py "hypothesis", Json.mkObj sampleHypothesis)], []⟩

/-- What the store receives. -/
def deliveredParams (idem : String) : Params :=
  agentParams diagnostician ("S:" ++ idem) [(py "hypothesis", Json.mkObj sampleHypothesis)]
    hypothesisField_wf

/-- The call arrives. -/
def deliverHypothesis (idem : String) : NetAct :=
  .deliver (sampleWorld "-") (hypothesisRequest idem) (deliveredParams idem)

/-- An episode that is being diagnosed. -/
def diagnosed : List NetAct :=
  [.store (.mint diagnostician), .store (.call (openCall "e" "k1" "slots" "v")),
    .store (.call (stateCall .control "e" "diagnosing" 1))]

/-- The diagnostician calls `add_hypothesis`. -/
def askHypothesis (idem : String) : NetAct :=
  .prepare sampleBroker .add_hypothesis (hypothesisParams idem)

end Valops.Brokers
