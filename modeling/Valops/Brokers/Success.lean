import Valops.Brokers.Net

/-!
# What a success says

A worker chooses the key of its call. The observer and the report broker put a word of their own in
front of it, the episode broker does not, and the store looks a key up without regard to the kind of
entry. So a worker can be told of an entry that was never written: `false_success`.

Main result: `success_witnessed`.
-/

set_option autoImplicit false

namespace Valops.Brokers

open Py Store

/-- What the worker is told is made of the result of an entry that its tool writes, under the key
of its call. -/
def Witnessed (y : Net) (r : Request) (w : BrokerWorld) (reply : Json) : Prop :=
  ∃ row ∈ y.sys.store.rows, .str row.episode_id = r.cap.episode_id ∧ row.idem_key = r.idem_key ∧
    r.tool.method.kind = some row.kind ∧
    ∃ v, loads row.result = some v ∧ r.answer w (.ok v) = .ok reply

/-- No entry of the episode that another operation wrote has the key of the call. -/
def KeyFree (x : Net) (r : Request) : Prop :=
  ∀ row ∈ x.sys.store.rows, .str row.episode_id = r.cap.episode_id → row.idem_key = r.idem_key →
    r.tool.method.kind = some row.kind

instance (x : Net) (r : Request) : Decidable (KeyFree x r) :=
  inferInstanceAs (Decidable (∀ row ∈ x.sys.store.rows, _))

section Success

variable {cfg : BrokerConfig} {x y : Net} {ok : Net → NetAct → Prop} {r : Request}

theorem received_eq_ok {res : Except Exc Reply} {v : Json} (h : received res = .ok v) :
    res = .ok (.json v) := by
  unfold received at h
  split at h
  · cases h
    rfl
  · cases h
  · cases h
  · cases h

/-- The worker is told of a success only if the store's call succeeded. -/
theorem answer_eq_ok {w : BrokerWorld} {res : Except Exc Json} {reply : Json}
    (h : r.answer w res = .ok reply) : ∃ v, res = .ok v := by
  cases res with
  | ok v => exact ⟨v, rfl⟩
  | error e =>
    unfold Request.answer at h
    split at h
    · cases e with
      | rpc code text data =>
        obtain ⟨_, _, h⟩ := bind_eq_ok.1 h
        cases h
      | other err => cases h
    · cases e <;> cases h
    · cases h

theorem Tool.method_kind (t : Tool) : t.method.kind.isSome = true ∧ t.method ≠ .open_episode ∧
    ∀ c p, t.method.idemKey c p = p.get "idem_key" := by
  cases t <;> exact ⟨rfl, by decide, fun _ _ => rfl⟩

/-- Two brokers' operations of a session, of different kinds, have one key only if one of them is the
episode broker's. -/
theorem Keyed.collision {r' : Request} (h : Keyed cfg r) (h' : Keyed cfg r')
    (hsession : r.cap.session_id = r'.cap.session_id) (hkey : r.idem_key = r'.idem_key)
    (hkind : r.tool.method.kind ≠ r'.tool.method.kind) :
    r.tool.broker = .episode ∨ r'.tool.broker = .episode := by
  obtain ⟨part, hpart⟩ := h
  obtain ⟨part', hpart'⟩ := h'
  rw [hpart, hpart', hsession] at hkey
  have hrest := List.append_cancel_left hkey
  have hobserver : ∀ t : Tool, t.broker = .observer → t.method.kind = some .signal := by
    intro t
    cases t <;> decide
  have hreport : ∀ t : Tool, t.broker = .report → t.method.kind = some .report := by
    intro t
    cases t <;> decide
  cases hb : r.tool.broker with
  | episode => exact .inl rfl
  | observer =>
    cases hb' : r'.tool.broker with
    | episode => exact .inr rfl
    | observer => exact absurd ((hobserver _ hb).trans (hobserver _ hb').symm) hkind
    | report =>
      rw [hb, hb'] at hrest
      cases (List.cons.inj hrest).2
  | report =>
    cases hb' : r'.tool.broker with
    | episode => exact .inr rfl
    | observer =>
      rw [hb, hb'] at hrest
      cases (List.cons.inj hrest).2
    | report => exact absurd ((hreport _ hb).trans (hreport _ hb').symm) hkind

theorem keyText_str {k key : PyStr} (h : keyText (.str k) = .ok key) : key = k := by
  simp only [keyText] at h
  split at h
  · cases h
  · exact bindStr_eq_ok h

/-- **A success tells of an entry of the tool's kind** exactly when no other operation has written
under the same key. -/
theorem success_witnessed {w : World} {w' : BrokerWorld} {p : Params} {reply : Json}
    (hx : Conc.Reachable NetInitial (NetMoves cfg) ok x) (hstep : NetMoves cfg x (.deliver w r p) y)
    (hreply : r.answer w' (received
      (handle cfg.store w x.sys.store r.tool.endpoint r.tool.method p).1) = .ok reply) :
    Witnessed y r w' reply ↔ KeyFree x r := by
  obtain ⟨v, hv⟩ := answer_eq_ok hreply
  have hres := received_eq_ok hv
  rw [hv] at hreply
  have hsys := reachable_sys hx
  cases hstep with
  | @deliver _ _ _ s front back inflight sent step =>
    have hr : r ∈ x.inflight := by
      rw [inflight]
      exact List.mem_append_right _ List.mem_cons_self
    obtain ⟨g, now, id, _, hauth⟩ := inflight_authorised hx r hr
    obtain ⟨_, hepisode, hidem⟩ := r.get_given hauth sent
    obtain ⟨hwrites, hopen, hidemKey⟩ := r.tool.method_kind
    have hm := method_of_ok hres
    have hstore := step.store_section (c := r.call w p) rfl
    have hfront := step.rows_grow
    have hs : Conc.Reachable Initial (Moves cfg.store) Conc.anyAct s := hsys.next trivial step
    rw [handle_eq_runEntry hm hwrites hopen] at hres
    have hlx : Ledger cfg.store False x.sys := ledger False.elim hsys
    obtain ⟨dec, e, rec, key, v', hdec, hid, hrec, hkey, hval, row, hfind, hload⟩ :=
      runEntry_holds hm (fun e rec h => hlx.consistent.episode_id h) hres
    cases hval
    rw [hidemKey, hidem] at hkey
    cases keyText_str hkey
    rw [hid] at hepisode
    have hstore' : s.store = (runEntry cfg.store w x.sys.store r.tool.endpoint r.tool.method p).2 := by
      rw [← handle_eq_runEntry hm hwrites hopen]
      exact hstore
    rw [← hstore'] at hfind
    have hmem := List.mem_of_find?_eq_some hfind
    have hfound := List.find?_some hfind
    rw [decide_eq_true_iff] at hfound
    obtain ⟨hrow_e, hrow_k⟩ := hfound
    constructor
    · rintro ⟨row', hrow', he, hk, hkind, _⟩ row₀ hrow₀ he₀ hk₀
      have he' : Json.str row₀.episode_id = .str row'.episode_id := he₀.trans he.symm
      cases row_of_key hs (hfront.subset hrow₀) hrow' (Json.str.inj he') (hk₀.trans hk.symm)
      exact hkind
    · intro hfree
      have hrow_e' : Json.str row.episode_id = r.cap.episode_id := by rw [hrow_e, hepisode]
      refine ⟨row, hmem, hrow_e', hrow_k, ?_, v, hload, hreply⟩
      rcases new_row step with hrows | ⟨call, d, new, hsec, hrows, _, hkind, hdraft⟩
      · rw [hrows] at hmem
        exact hfree row hmem hrow_e' hrow_k
      · rw [hrows] at hmem
        rcases List.mem_append.1 hmem with hold | hnew
        · exact hfree row hold hrow_e' hrow_k
        · cases List.mem_singleton.1 hnew
          cases hsec
          rcases hdraft with hdraft | ⟨hbad, _⟩
          · rw [hkind]
            exact hdraft.kind
          · exact absurd hbad hopen

end Success

/-- A hypothesis is on its way. -/
def askedNet : Net := Conc.after (Net.act sampleNet) {} (diagnosed ++ [askHypothesis "12345678"])

theorem success_witnessed_sample :
    Witnessed (Conc.after (Net.act sampleNet) askedNet [deliverHypothesis "12345678"])
      (hypothesisRequest "12345678") sampleBroker
      (Json.mkObj [(py "hypothesis_id", .str (py "h1"))]) := by
  have hx : Conc.Reachable NetInitial (NetMoves sampleNet) Conc.anyAct askedNet :=
    .after Net.act_moves (.start rfl) (by decide +kernel)
  have hstep : NetMoves sampleNet askedNet (deliverHypothesis "12345678")
      (Conc.after (Net.act sampleNet) askedNet [deliverHypothesis "12345678"]) :=
    Conc.step_after Net.act_moves (by decide +kernel)
  exact (success_witnessed hx hstep (by decide +kernel)).2 (by decide +kernel)

theorem noArgs_wf : ∀ kv ∈ [(py "args", Json.obj [])], kv.2.WF := by
  simp [Json.wf_obj_iff, Json.SortedKeys]

/-- The diagnostician samples the catch-up. -/
def askObservation (idem : String) : NetAct :=
  .prepare sampleBroker .get_catchup (agentParams diagnostician idem [(py "args", .obj [])] noArgs_wf)

/-- What the sample is recorded as. -/
def sampleSnapshot : Json :=
  Json.mkObj [(py "audit_ref", .str (py "-")), (py "command_id", .str (py "catchup")),
    (py "status", .str (py "ok"))]

theorem sampleSnapshot_wf : sampleSnapshot.WF := Json.wf_mkObj (by simp)

theorem snapshotField_wf : ∀ kv ∈ [(py "snapshot", sampleSnapshot)], kv.2.WF := by
  simpa using sampleSnapshot_wf

/-- The observer broker's call of the store arrives. -/
def deliverObservation (idem : String) : NetAct :=
  .deliver (sampleWorld "-")
    ⟨.get_catchup, sampleToken diagnostician, diagnostician.capability, py "S:obs:" ++ py idem,
      [(py "snapshot", sampleSnapshot)],
      [(py "command_id", .str (py "catchup")), (py "status", .str (py "ok"))]⟩
    (agentParams diagnostician ("S:obs:" ++ idem) [(py "snapshot", sampleSnapshot)]
      snapshotField_wf)

/-- A hypothesis is on its way under the key of an observation. -/
def collidingNet : Net := Conc.after (Net.act sampleNet) {} (diagnosed ++
  [askObservation "12345678", deliverObservation "12345678", askHypothesis "obs:12345678"])

/-- A hypothesis that was never recorded is reported as recorded. -/
theorem false_success : ∃ x y w r w' p reply,
    Conc.Reachable NetInitial (NetMoves sampleNet) Conc.anyAct x ∧
    NetMoves sampleNet x (.deliver w r p) y ∧
    r.answer w' (received
      (handle sampleNet.store w x.sys.store r.tool.endpoint r.tool.method p).1) = .ok reply ∧
    ¬ Witnessed y r w' reply := by
  refine ⟨collidingNet,
    Conc.after (Net.act sampleNet) collidingNet [deliverHypothesis "obs:12345678"], sampleWorld "-",
    hypothesisRequest "obs:12345678", sampleBroker, deliveredParams "obs:12345678",
    Json.mkObj [(py "signal_id", .str (py "s1"))],
    .after Net.act_moves (.start rfl) (by decide +kernel),
    Conc.step_after (a := deliverHypothesis "obs:12345678") Net.act_moves (by decide +kernel),
    by decide +kernel, ?_⟩
  rintro ⟨row, hrow, _, hk, hkind, _⟩
  have hnone : ∀ row ∈ (Conc.after (Net.act sampleNet) collidingNet
      [deliverHypothesis "obs:12345678"]).sys.store.rows,
      row.idem_key = (hypothesisRequest "obs:12345678").idem_key →
      (hypothesisRequest "obs:12345678").tool.method.kind ≠ some row.kind := by decide +kernel
  exact hnone row hrow hk hkind
end Valops.Brokers
