import Valops.Store.Opening
import Valops.Store.Terminal

/-!
# Repeated calls

A call whose key is known is answered from the row of the key. The agents' operations and
`append_verification` look at the state of the episode before they look for the key, so that a call
that was answered once is refused when it is repeated in another state: `refused_run`.

Main result: `repeated_key`.
-/

set_option autoImplicit false

namespace Valops.Store

open Py

/-! ## How far a call gets -/

/-- The operation of a method that passes the gate of the agent endpoints. -/
def Method.agentOp? : Method → Option AgentOp
  | .append_hypothesis => some .append_hypothesis
  | .append_hypothesis_status => some .append_hypothesis_status
  | .append_recommendation => some .append_recommendation
  | .append_no_action => some .append_no_action
  | .append_verdict => some .append_verdict
  | .append_report => some .append_report
  | _ => none

/-- The state of an episode. -/
def EpisodeStore.stateOf (s : EpisodeStore) (episode_id : Json) : Option EpisodeState :=
  match episode_id with
  | .str e => (s.records.get? e).bind Record.state
  | _ => none

/-- The checks of the state that come before the key let a call through. -/
def KeyReached (s : EpisodeStore) (m : Method) (p : Params) : Prop :=
  (∀ op ∈ m.agentOp?, ∃ st ∈ op.tool.states, s.stateOf (p.get "episode_id") = some st) ∧
  (m = .append_verification → ∀ st ∈ TERMINAL, s.stateOf (p.get "episode_id") ≠ some st)

instance (s : EpisodeStore) (m : Method) (p : Params) : Decidable (KeyReached s m p) :=
  inferInstanceAs (Decidable (_ ∧ _))

/-- The token of a call that needs one passes the gate. -/
def TokenValid (cfg : StoreConfig) (w : World) (m : Method) (p : Params) : Prop :=
  m.agentOp?.isSome ∨ m = .append_observation →
    ∃ cap, (tokenGate cfg w).check w.now (p.get "token") (p.get "episode_id") .null = .ok cap

/-- A call that starts at one system and ends at another returns this and appends nothing. The two
are different for `append_verification` only, which has two sections. -/
structure Answers (cfg : StoreConfig) (x x' : System) (c : Call) (r : Reply) : Prop where
  checked : c.method = .append_verification → verification_check x.store c.params = .ok ()
  reply : handle cfg c.world x'.store c.endpoint c.method c.params = (.ok r, x'.store)

section Lookup

variable {cfg : StoreConfig} {w w' : World} {s s' : EpisodeStore} {ep : Endpoint} {m : Method}
  {p : Params} {e : PyStr} {rec rec' : Record} {dec : Decision} {op : AgentOp} {cap cap' : Capability}

/-- The gate of the agents lets a call through again while the state is one of the tool's. -/
theorem _agent_gate_again (h : _agent_gate cfg w s ep (some op) p = .ok (cap, rec))
    (hcheck : (tokenGate cfg w').check w'.now (p.get "token") (p.get "episode_id") .null = .ok cap')
    (hid : p.get "episode_id" = .str e) (hrec' : s'.records.get? e = some rec')
    (hbundle : rec'.bundle_id = rec.bundle_id) (hstate : ∃ st ∈ op.tool.states, rec'.state = some st) :
    _agent_gate cfg w' s' ep (some op) p = .ok (cap, rec') := by
  unfold _agent_gate at h ⊢
  obtain ⟨_, hbroker, h⟩ := bind_eq_ok.1 h
  obtain ⟨c, hc, h⟩ := bind_eq_ok.1 h
  obtain ⟨r, _, h⟩ := bind_eq_ok.1 h
  obtain ⟨_, hb, h⟩ := bind_eq_ok.1 h
  obtain ⟨_, htool, h⟩ := bind_eq_ok.1 h
  cases pure_eq_ok.1 h
  have hcap : cap' = cap := (check_eq_ok hcheck).1.unique (check_eq_ok hc).1 rfl
  have hb' : rec'.bundle = rec.bundle := by
    unfold Record.bundle
    rw [hbundle]
  have htool' : checkTool cap rec' op = .ok () := by
    unfold checkTool at htool ⊢
    obtain ⟨_, hrole, _⟩ := bind_eq_ok.1 htool
    exact bind_eq_ok.2 ⟨_, hrole, require_eq_ok.2 (decide_eq_true hstate)⟩
  have hfound : _record s' (p.get "episode_id") = .ok rec' := by
    rw [hid]
    exact _record_str hrec'
  rw [← hb'] at hb
  exact bind_eq_ok.2 ⟨_, hbroker, bind_eq_ok.2 ⟨cap, hcap ▸ hcheck, bind_eq_ok.2 ⟨rec', hfound,
    bind_eq_ok.2 ⟨_, hb, bind_eq_ok.2 ⟨_, htool', rfl⟩⟩⟩⟩⟩

theorem _simple_eq {b : Body} (hid : p.get "episode_id" = .str e)
    (hrec : s.records.get? e = some rec) :
    _simple s ep p b = onFresh s rec (p.get "idem_key") (simpleDraft ep rec p b) := by
  rw [_simple, hid, _record_str hrec]
  rfl

theorem append_signal_eq {principal : PyStr} {session_id : Json} (hid : p.get "episode_id" = .str e)
    (hrec : s.records.get? e = some rec) : append_signal s principal session_id p =
      onFresh s rec (p.get "idem_key") (signalDraft principal session_id rec p) := by
  rw [append_signal, hid, _record_str hrec]
  rfl

theorem set_state_eq (hid : p.get "episode_id" = .str e) (hrec : s.records.get? e = some rec) :
    set_state cfg s ep p = onFresh s rec (stateKey cfg p) (stateDraft ep rec p) := by
  rw [set_state, hid, _record_str hrec]
  rfl

/-- A tool call that passed its gate passes it again. -/
theorem agentCall_again (draft draft' : Capability → Record → PyStr → Except Exc Draft)
    (h : (do
      let (cap, rec) ← _agent_gate cfg w s ep (some op) p
      onFresh s rec (p.get "idem_key") (draft cap rec)) = .ok dec)
    (hcheck : ∃ cap, (tokenGate cfg w').check w'.now (p.get "token") (p.get "episode_id") .null = .ok cap)
    (hid : p.get "episode_id" = .str e) (hrec : s.records.get? e = some rec)
    (hrec' : s'.records.get? e = some rec') (hbundle : rec'.bundle_id = rec.bundle_id)
    (hstate : ∃ st ∈ op.tool.states, rec'.state = some st) :
    ∃ d, (do
      let (cap, rec) ← _agent_gate cfg w' s' ep (some op) p
      onFresh s' rec (p.get "idem_key") (draft' cap rec)) = onFresh s' rec' (p.get "idem_key") d := by
  obtain ⟨⟨cap, r⟩, hgate, _⟩ := bind_eq_ok.1 h
  obtain ⟨_, e', hid', hr⟩ := _agent_gate_eq_ok hgate
  cases hid.symm.trans hid'
  cases hrec.symm.trans hr
  obtain ⟨cap', hcheck⟩ := hcheck
  refine ⟨draft' cap rec', ?_⟩
  rw [_agent_gate_again hgate hcheck hid hrec' hbundle hstate]
  rfl

/-- A call that was let through to its key is let through again, under the conditions on the token
and on the state. -/
theorem decideEntry_again (h : decideEntry cfg w s ep m p = .ok dec)
    (hid : p.get "episode_id" = .str e) (hrec : s.records.get? e = some rec)
    (hrec' : s'.records.get? e = some rec') (hbundle : rec'.bundle_id = rec.bundle_id)
    (htok : TokenValid cfg w' m p)
    (hstate : ∀ op ∈ m.agentOp?, ∃ st ∈ op.tool.states, rec'.state = some st) :
    ∃ draft, decideEntry cfg w' s' ep m p = onFresh s' rec' (m.idemKey cfg p) draft := by
  have htoken : ∀ {op : AgentOp}, m.agentOp? = some op → ∃ cap,
      (tokenGate cfg w').check w'.now (p.get "token") (p.get "episode_id") .null = .ok cap :=
    fun hop => htok (.inl (by rw [hop]; rfl))
  have hsimple : ∀ b : Body, decideEntry cfg w' s' ep m p = _simple s' ep p b →
      ∃ d, decideEntry cfg w' s' ep m p = onFresh s' rec' (p.get "idem_key") d :=
    fun b hb => ⟨_, hb.trans (_simple_eq hid hrec')⟩
  cases m with
  | append_hypothesis =>
    let draft := fun cap rec => hypothesisDraft cfg cap rec p
    exact agentCall_again draft draft h (htoken rfl) hid hrec hrec' hbundle (hstate _ rfl)
  | append_hypothesis_status =>
    let draft := fun cap rec => hypothesisStatusDraft cfg cap rec p
    exact agentCall_again draft draft h (htoken rfl) hid hrec hrec' hbundle (hstate _ rfl)
  | append_recommendation =>
    let draft := fun w cap rec => recommendationDraft cfg w cap rec p
    exact agentCall_again (draft w) (draft w') h (htoken rfl) hid hrec hrec' hbundle (hstate _ rfl)
  | append_no_action =>
    let draft := fun cap rec => noActionDraft cfg cap rec p
    exact agentCall_again draft draft h (htoken rfl) hid hrec hrec' hbundle (hstate _ rfl)
  | append_verdict =>
    let draft := fun cap rec => verdictDraft cfg cap rec p
    exact agentCall_again draft draft h (htoken rfl) hid hrec hrec' hbundle (hstate _ rfl)
  | append_report =>
    let draft := fun cap rec => reportDraft cfg cap rec p
    obtain ⟨_, hreport, h⟩ := bind_eq_ok.1 h
    obtain ⟨d, hd⟩ := agentCall_again draft draft h (htoken rfl) hid hrec hrec' hbundle (hstate _ rfl)
    refine ⟨d, ?_⟩
    show (require _ _ >>= _) = _
    rw [hreport]
    exact hd
  | set_state =>
    refine ⟨stateDraft ep rec' p, ?_⟩
    show (if ep = .verify then _verifier_set_state cfg s' ep p else set_state cfg s' ep p) = _
    unfold decideEntry at h
    simp only at h
    split at h
    · rename_i hep
      obtain ⟨_, hreq, _⟩ := bind_eq_ok.1 h
      rw [if_pos hep, _verifier_set_state, hreq]
      exact set_state_eq hid hrec'
    · rename_i hep
      rw [if_neg hep]
      exact set_state_eq hid hrec'
  | append_signal => exact ⟨_, append_signal_eq hid hrec'⟩
  | append_cost =>
    obtain ⟨role, hrole, h⟩ := bind_eq_ok.1 h
    obtain ⟨_, hnum, h⟩ := bind_eq_ok.1 h
    refine hsimple (.cost ⟨role, p.get "usd", p.get "turns", p.get "session_id",
      p.get "configuration", p.get "tokens"⟩) ?_
    rw [decideEntry, append_cost, hrole]
    show (require _ _ >>= _) = _
    rw [hnum]
    rfl
  | append_step =>
    obtain ⟨outcome, houtcome, h⟩ := bind_eq_ok.1 h
    obtain ⟨role, hrole, h⟩ := bind_eq_ok.1 h
    refine hsimple (.step ⟨role, p.get "session_id", outcome, p.get "reason", p.get "state",
      p.get "configuration"⟩) ?_
    rw [decideEntry, append_step, houtcome]
    show (knownRole _ _ >>= _) = _
    rw [hrole]
    rfl
  | annotate =>
    obtain ⟨note, hnote, h⟩ := bind_eq_ok.1 h
    refine hsimple ( Body.annotation ⟨p.get "kind", note⟩) ?_
    rw [decideEntry, annotate, hnote]
    rfl
  | append_verification =>
    obtain ⟨b, hb, h⟩ := bind_eq_ok.1 h
    refine hsimple b ?_
    rw [decideEntry, append_verification, hb]
    rfl
  | append_recovery_observation =>
    obtain ⟨rule, hrule, h⟩ := bind_eq_ok.1 h
    refine hsimple (.recovery_observation ⟨rule, p.get "note"⟩) ?_
    rw [decideEntry, append_recovery_observation, hrule]
    rfl
  | append_observation =>
    obtain ⟨cap, hcap, h⟩ := bind_eq_ok.1 h
    obtain ⟨r, hr, h⟩ := bind_eq_ok.1 h
    obtain ⟨_, hb, h⟩ := bind_eq_ok.1 h
    obtain ⟨cap', hcheck⟩ := htok (.inr rfl)
    have hcap' : cap' = cap := (check_eq_ok hcheck).1.unique (check_eq_ok hcap).1 rfl
    obtain ⟨e', hcid, hget⟩ := _record_eq_ok hr
    -- the token is bound to the episode of the call
    have he : e' = e := by
      have hdiffers := (check_eq_ok hcap).1.episode
      rw [hid, hcid] at hdiffers
      have hsame : (Json.str e).pyEq (.str e') = true := by simpa [differs] using hdiffers
      exact of_decide_eq_true hsame
    subst he
    cases hrec.symm.trans hget
    have hb' : rec'.bundle = rec.bundle := by
      unfold Record.bundle
      rw [hbundle]
    refine ⟨signalDraft (py "observer_broker/agent:" ++ strOf cfg cap.role) cap.session_id rec' p, ?_⟩
    rw [decideEntry, append_observation, hcheck, hcap']
    show (_record s' cap.episode_id >>= _) = _
    rw [hcid, _record_str hrec']
    show (require (cap.bundle_id.pyEq rec'.bundle) _ >>= _) = _
    rw [hb', hb]
    exact append_signal_eq hid hrec'
  | read_episode => cases h
  | open_episode => cases h
  | list_episodes => cases h

/-- What a tool call that is decided says about the record it is about. -/
theorem agentCall_lookup (draft : Capability → Record → PyStr → Except Exc Draft)
    (h : (do
      let (cap, rec) ← _agent_gate cfg w s ep (some op) p
      onFresh s rec (p.get "idem_key") (draft cap rec)) = .ok dec) :
    ∃ e rec d, p.get "episode_id" = .str e ∧ s.records.get? e = some rec ∧
      onFresh s rec (p.get "idem_key") d = .ok dec ∧ ∃ st ∈ op.tool.states, rec.state = some st := by
  obtain ⟨⟨cap, rec⟩, hgate, h⟩ := bind_eq_ok.1 h
  obtain ⟨auth, e, hid, hrec⟩ := _agent_gate_eq_ok hgate
  exact ⟨e, rec, draft cap rec, hid, hrec, h, auth.state⟩

/-- What a decision says about the record it is about. -/
theorem decideEntry_lookup (h : decideEntry cfg w s ep m p = .ok dec) :
    ∃ e rec draft, p.get "episode_id" = .str e ∧ s.records.get? e = some rec ∧
      onFresh s rec (m.idemKey cfg p) draft = .ok dec ∧
      ∀ op ∈ m.agentOp?, ∃ st ∈ op.tool.states, rec.state = some st := by
  have hagent : ∀ {op : AgentOp}, m.agentOp? = some op → m.idemKey cfg p = p.get "idem_key" →
      (∃ e rec d, p.get "episode_id" = .str e ∧ s.records.get? e = some rec ∧
        onFresh s rec (p.get "idem_key") d = .ok dec ∧
        ∃ st ∈ op.tool.states, rec.state = some st) →
      ∃ e rec draft, p.get "episode_id" = .str e ∧ s.records.get? e = some rec ∧
        onFresh s rec (m.idemKey cfg p) draft = .ok dec ∧
        ∀ op ∈ m.agentOp?, ∃ st ∈ op.tool.states, rec.state = some st := by
    rintro op hop hkey ⟨e, rec, d, hid, hrec, h, hstate⟩
    refine ⟨e, rec, d, hid, hrec, by rw [hkey]; exact h, ?_⟩
    rintro op' hop'
    cases hop.symm.trans hop'
    exact hstate
  have hplain : m.agentOp? = none → ∀ {v : Json} {f : Record → Except Exc Decision},
      v = p.get "episode_id" → (_record s v >>= f) = .ok dec →
      (∀ rec, ∃ draft, f rec = onFresh s rec (m.idemKey cfg p) draft) →
      ∃ e rec draft, p.get "episode_id" = .str e ∧ s.records.get? e = some rec ∧
        onFresh s rec (m.idemKey cfg p) draft = .ok dec ∧
        ∀ op ∈ m.agentOp?, ∃ st ∈ op.tool.states, rec.state = some st := by
    rintro hop v f rfl h hf
    obtain ⟨rec, hrec, h⟩ := bind_eq_ok.1 h
    obtain ⟨e, hid, hget⟩ := _record_eq_ok hrec
    obtain ⟨draft, hdraft⟩ := hf rec
    refine ⟨e, rec, draft, hid, hget, by rw [← hdraft]; exact h, ?_⟩
    rw [hop]
    exact fun op hop => absurd hop (Option.not_mem_none op)
  cases m with
  | append_hypothesis =>
    exact hagent rfl rfl (agentCall_lookup (fun cap rec => hypothesisDraft cfg cap rec p) h)
  | append_hypothesis_status =>
    exact hagent rfl rfl (agentCall_lookup (fun cap rec => hypothesisStatusDraft cfg cap rec p) h)
  | append_recommendation =>
    exact hagent rfl rfl (agentCall_lookup (fun cap rec => recommendationDraft cfg w cap rec p) h)
  | append_no_action =>
    exact hagent rfl rfl (agentCall_lookup (fun cap rec => noActionDraft cfg cap rec p) h)
  | append_verdict =>
    exact hagent rfl rfl (agentCall_lookup (fun cap rec => verdictDraft cfg cap rec p) h)
  | append_report =>
    obtain ⟨_, _, h⟩ := bind_eq_ok.1 h
    exact hagent rfl rfl (agentCall_lookup (fun cap rec => reportDraft cfg cap rec p) h)
  | set_state =>
    have hset : set_state cfg s ep p = .ok dec := by
      unfold decideEntry at h
      simp only at h
      split at h
      · obtain ⟨_, _, h⟩ := bind_eq_ok.1 h
        exact h
      · exact h
    exact hplain rfl rfl hset fun rec => ⟨_, rfl⟩
  | append_signal => exact hplain rfl rfl h fun rec => ⟨_, rfl⟩
  | append_cost =>
    obtain ⟨_, _, h⟩ := bind_eq_ok.1 h
    obtain ⟨_, _, h⟩ := bind_eq_ok.1 h
    exact hplain rfl rfl h fun rec => ⟨_, rfl⟩
  | append_step =>
    obtain ⟨_, _, h⟩ := bind_eq_ok.1 h
    obtain ⟨_, _, h⟩ := bind_eq_ok.1 h
    exact hplain rfl rfl h fun rec => ⟨_, rfl⟩
  | annotate =>
    obtain ⟨_, _, h⟩ := bind_eq_ok.1 h
    exact hplain rfl rfl h fun rec => ⟨_, rfl⟩
  | append_verification =>
    obtain ⟨_, _, h⟩ := bind_eq_ok.1 h
    exact hplain rfl rfl h fun rec => ⟨_, rfl⟩
  | append_recovery_observation =>
    obtain ⟨_, _, h⟩ := bind_eq_ok.1 h
    exact hplain rfl rfl h fun rec => ⟨_, rfl⟩
  | append_observation =>
    obtain ⟨_, _, h⟩ := bind_eq_ok.1 h
    obtain ⟨_, _, h⟩ := bind_eq_ok.1 h
    obtain ⟨_, _, h⟩ := bind_eq_ok.1 h
    exact hplain rfl rfl h fun rec => ⟨_, rfl⟩
  | read_episode => cases h
  | open_episode => cases h
  | list_episodes => cases h

/-! ## The row that answers -/

/-- The row of a key in an episode holds this result. -/
def Holds (s : EpisodeStore) (e key : PyStr) (v : Json) : Prop :=
  ∃ row, s.rows.find? (fun r => decide (r.episode_id = e ∧ r.idem_key = key)) = some row ∧
    loads row.result = some v

theorem Holds.mono {key : PyStr} {v : Json} (h : Holds s e key v) (hrows : s.rows <+: s'.rows) :
    Holds s' e key v := by
  obtain ⟨row, hfind, hload⟩ := h
  obtain ⟨rest, heq⟩ := hrows
  refine ⟨row, ?_, hload⟩
  rw [← heq, List.find?_append, hfind]
  rfl

theorem onFresh_holds {idem : Json} {key : PyStr} {v : Json} {draft : PyStr → Except Exc Draft}
    (h : Holds s rec.episode_id key v) (hkey : keyText idem = .ok key) :
    onFresh s rec idem draft = .ok (.reply v) := by
  obtain ⟨row, hfind, hload⟩ := h
  rw [onFresh, _idem, hkey, ok_bind, hfind]
  dsimp only
  rw [hload]
  rfl

/-- A section that returns leaves the row that holds its result. -/
theorem runEntry_holds {r : Reply} (hm : m ∈ ep.methods)
    (hids : ∀ e rec, s.records.get? e = some rec → rec.episode_id = e)
    (h : (runEntry cfg w s ep m p).1 = .ok r) :
    ∃ dec e rec key v, decideEntry cfg w s ep m p = .ok dec ∧ p.get "episode_id" = .str e ∧
      s.records.get? e = some rec ∧ keyText (m.idemKey cfg p) = .ok key ∧ r = .json v ∧
      Holds (runEntry cfg w s ep m p).2 e key v := by
  unfold runEntry at h ⊢
  cases hdec : decideEntry cfg w s ep m p with
  | error x =>
    rw [hdec] at h
    cases h
  | ok dec =>
    rw [hdec] at h
    obtain ⟨e, rec, draft, hid, hrec, hon, _⟩ := decideEntry_lookup hdec
    have hone := hon
    unfold onFresh at hone
    obtain ⟨idem, hidem, hone⟩ := bind_eq_ok.1 hone
    have hprior := hidem
    unfold _idem at hprior
    obtain ⟨key, hkey, hprior⟩ := bind_eq_ok.1 hprior
    have he := hids e rec hrec
    cases idem with
    | prior v =>
      cases pure_eq_ok.1 hone
      cases h
      refine ⟨_, e, rec, key, v, rfl, hid, hrec, hkey, rfl, ?_⟩
      split at hprior
      · rename_i row hfind
        obtain ⟨v', hv', hprior⟩ := bind_eq_ok.1 hprior
        cases pure_eq_ok.1 hprior
        exact ⟨row, he ▸ hfind, orRaise_eq_ok.1 hv'⟩
      · cases pure_eq_ok.1 hprior
    | fresh key' =>
      obtain ⟨d, hd, hone⟩ := bind_eq_ok.1 hone
      cases pure_eq_ok.1 hone
      have hdrafted := decideEntry_append hm hdec
      dsimp only at h ⊢
      cases hrow : newRow cfg w s d with
      | error x =>
        rw [_append_error hrow] at h
        cases h
      | ok row =>
        have hw := newRow_eq_ok hdrafted.wf hrow
        have hstore : (_append cfg w s d).2 = s.wrote cfg d row := _append_ok hrow
        obtain ⟨e', hid', hget⟩ := hdrafted.found
        cases hid.symm.trans hid'
        have hrow_e : row.episode_id = e := hw.episode.trans (hids e _ hget)
        have hnone : s.rows.find? (fun r => decide (r.episode_id = e ∧ r.idem_key = d.idem_key)) =
            none := by
          refine List.find?_eq_none.2 fun r hr hmatch => ?_
          obtain ⟨hre, hrk⟩ := of_decide_eq_true hmatch
          exact hdrafted.fresh r hr (hre.trans (hids e _ hget).symm) hrk
        split at h
        · rename_i v s' happ
          cases h
          rw [happ] at hstore
          have hv : d.result = v := by
            rw [_append, hrow] at happ
            dsimp only at happ
            split at happ <;> cases happ
            rfl
          refine ⟨_, e, rec, d.idem_key, v, rfl, hid, hrec, hdrafted.key, rfl, row, ?_, ?_⟩
          · show s'.rows.find? _ = _
            rw [show s' = s.wrote cfg d row from hstore]
            show (s.rows ++ [row]).find? _ = _
            rw [List.find?_append, hnone]
            simp [hrow_e, hw.key]
          · rw [← hv]
            exact hdrafted.result.loads hw.result
        · cases h

end Lookup

/-! ## Runs -/

section Runs

variable {cfg : StoreConfig} {x y z : System} {a : Act} {e : PyStr} {rec rec' : Record}
  {ok ok' : System → Act → Prop}

/-- Rows are only added. -/
theorem Moves.rows_grow (hstep : Moves cfg x a y) : x.store.rows <+: y.store.rows := by
  rcases hstep.effect with ⟨c, s, _, hchange, _, hstore, _, _⟩ | ⟨_, hup, _, _⟩ | ⟨_, hstore, _, _⟩
  · rw [hstore]
    rcases hchange.rows with ⟨hrows, _⟩ | ⟨d, row, os, _, _, rfl⟩
    · rw [hrows]
    · exact List.prefix_append _ _
  · rw [(restart_rows hup).1]
  · rw [hstore]

theorem reachable_rows_grow (h : Conc.Reachable (· = x) (Moves cfg) ok y) :
    x.store.rows <+: y.store.rows :=
  h.inv (I := fun y => x.store.rows <+: y.store.rows)
    (fun _ hy => hy ▸ List.prefix_refl _) fun _ _ _ hinv _ hstep => hinv.trans hstep.rows_grow

/-- Two rows of an episode have different keys. -/
def KeysApart (r r' : Row) : Prop := r.episode_id = r'.episode_id → r.idem_key ≠ r'.idem_key

instance : Std.Symm KeysApart := ⟨fun _ _ h he hk => h he.symm hk.symm⟩

theorem rows_apart (h : Conc.Reachable Initial (Moves cfg) ok x) :
    x.store.rows.Pairwise KeysApart := by
  refine h.inv (I := fun x => x.store.rows.Pairwise KeysApart) ?_ ?_
  · rintro _ rfl
    exact .nil
  · intro x a y hinv _ hstep
    rcases hstep.effect with ⟨c, s, _, hchange, _, hstore, _, _⟩ | ⟨_, hup, _, _⟩ | ⟨_, hstore, _, _⟩
    · rw [hstore]
      rcases hchange.rows with ⟨hrows, _⟩ | ⟨d, row, os, hrow, hdraft, rfl⟩
      · rw [hrows]
        exact hinv
      · have hw := newRow_eq_ok (hdraft.elim (fun h => h.wf) (fun h => h.wf)) hrow
        refine List.pairwise_append.2 ⟨hinv, List.pairwise_singleton _ _, fun r hr r' hr' he => ?_⟩
        cases List.mem_singleton.1 hr'
        exact (hw.unique r hr he).2
    · rw [(restart_rows hup).1]
      exact hinv
    · rw [hstore]
      exact hinv

/-- There is one row for each key of an episode. -/
theorem row_of_key {r r' : Row} (h : Conc.Reachable Initial (Moves cfg) ok x) (hr : r ∈ x.store.rows)
    (hr' : r' ∈ x.store.rows) (he : r.episode_id = r'.episode_id) (hk : r.idem_key = r'.idem_key) :
    r = r' := by
  by_contra hne
  exact (rows_apart h).forall hr hr' hne he hk

/-- An episode stays, with its bundle. -/
theorem record_later (hx : Conc.Reachable Initial (Moves cfg) ok x)
    (hz : Conc.Reachable (· = x) (Moves cfg) ok' z) (hrec : x.store.records.get? e = some rec) :
    ∃ rec', z.store.records.get? e = some rec' ∧ rec'.episode_id = e ∧
      rec'.bundle_id = rec.bundle_id := by
  have hlx : Ledger cfg False x := ledger False.elim hx
  have hlz : Ledger cfg False z := ledger False.elim (hx.trans hz)
  have hfront := reachable_rows_grow hz
  obtain ⟨row, hrow, heq⟩ := (hlx.consistent.known e).1 ⟨rec, hrec⟩
  obtain ⟨rec', hrec'⟩ := (hlz.consistent.known e).2 ⟨row, hfront.subset hrow, heq⟩
  refine ⟨rec', hrec', hlz.consistent.episode_id hrec', ?_⟩
  obtain ⟨first, rest, b, hlog, hb, has⟩ := hlx.openedAs (hlx.entries_ne_nil hrec)
  obtain ⟨first', rest', b', hlog', hb', has'⟩ := hlz.openedAs (hlz.entries_ne_nil hrec')
  have hentries : x.store.entries e <+: z.store.entries e :=
    (hfront.filter fun r : Row => decide (r.episode_id = e)).filterMap Row.entry
  rw [hlog, hlog'] at hentries
  cases (List.cons_prefix_cons.1 hentries).1
  cases hb.symm.trans hb'
  rw [hlx.consistent.field hrec Record.bundle_id fun _ => rfl,
    hlz.consistent.field hrec' Record.bundle_id fun _ => rfl, has.bundle, has'.bundle]

theorem handle_eq_runEntry {w : World} {s : EpisodeStore} {ep : Endpoint} {m : Method} {p : Params}
    (hm : m ∈ ep.methods) (hkind : m.kind.isSome) (hopen : m ≠ .open_episode) :
    handle cfg w s ep m p = runEntry cfg w s ep m p := by
  unfold handle
  rw [if_neg (not_not.2 hm)]
  cases m <;> first | rfl | exact absurd rfl hopen | cases hkind

theorem method_of_ok {w : World} {s : EpisodeStore} {ep : Endpoint} {m : Method} {p : Params}
    {r : Reply} (h : (handle cfg w s ep m p).1 = .ok r) : m ∈ ep.methods := by
  by_contra hm
  unfold handle at h
  rw [if_pos hm] at h
  cases h

/-- A key that has been answered is answered from its row. -/
theorem openDecision_known {w w' : World} {s s' : EpisodeStore} {p : Params} {idem : PyStr}
    {o : OpenRow} {r : Reply} {v : Json} (h : (open_episode cfg w s .control p).1 = .ok r)
    (hidem : p.get "idem_key" = .str idem)
    (hfind : s'.opens.find? (fun r => decide (r.idem_key = idem)) = some o)
    (hload : loads o.result = some v) : openDecision cfg w' s' p = .ok (.reply v) := by
  cases hdec : openDecision cfg w s p with
  | error x =>
    rw [open_episode, hdec] at h
    cases h
  | ok dec =>
    unfold openDecision at hdec ⊢
    obtain ⟨key, hkey, hdec⟩ := bind_eq_ok.1 hdec
    obtain ⟨key', hkey', _⟩ := bind_eq_ok.1 hdec
    cases hidem.symm.trans (openKey_eq_ok hkey hkey').1
    refine bind_eq_ok.2 ⟨key, hkey, bind_eq_ok.2 ⟨idem, hkey', ?_⟩⟩
    rw [hfind]
    dsimp only
    rw [hload]
    rfl

/-- The store after a section. -/
theorem Moves.store_section {c : Call} (h : Moves cfg x a y) (hsec : a.section? = some c) :
    y.store = (handle cfg c.world x.store c.endpoint c.method c.params).2 := by
  cases h with
  | call whole fresh =>
    cases hsec
    rfl
  | verify pending fresh =>
    cases hsec
    rfl
  | check passed => cases hsec
  | restart up => cases hsec
  | mint => cases hsec

/-- **A repeated key returns the original result** exactly when the checks of the state that come
before the key let the call through. -/
theorem repeated_key {c : Call} {r : Reply} {w : World} {z' : System} {ok'' : System → Act → Prop}
    (hx : Conc.Reachable Initial (Moves cfg) ok x) (hstep : Moves cfg x a y)
    (hsec : a.section? = some c) (hwrites : c.method.kind.isSome)
    (hret : (handle cfg c.world x.store c.endpoint c.method c.params).1 = .ok r)
    (hz : Conc.Reachable (· = y) (Moves cfg) ok' z) (hz' : Conc.Reachable (· = z) (Moves cfg) ok'' z')
    (hone : c.method ≠ .append_verification → z' = z) (htok : TokenValid cfg w c.method c.params) :
    Answers cfg z z' { c with world := w } r ↔ KeyReached z.store c.method c.params := by
  have hm := method_of_ok hret
  have hy : Conc.Reachable Initial (Moves cfg) Conc.anyAct y :=
    (hx.mono fun _ _ _ => trivial).next trivial hstep
  have hxy : Conc.Reachable (· = x) (Moves cfg) Conc.anyAct y := .next (.start rfl) trivial hstep
  have hxz : Conc.Reachable (· = x) (Moves cfg) Conc.anyAct z := hxy.trans hz
  have hxz' := hxz.trans hz'
  have hystore := hstep.store_section hsec
  by_cases hopen : c.method = .open_episode
  · have hep : c.endpoint = .control := by
      rw [hopen] at hm
      revert hm
      cases c.endpoint <;> decide
    have hhandle : ∀ w s, handle cfg w s c.endpoint c.method c.params =
        open_episode cfg w s .control c.params := by
      intro w s
      rw [hep, hopen]
      rfl
    rw [hhandle] at hret hystore
    obtain ⟨idem, o, dedup, hidem, hfind, _, rfl, hdumps⟩ := open_episode_reply (opens_good hx) hret
    rw [← hystore] at hfind
    have hfind' := find?_of_earlier (reachable_opens_grow (hz.trans hz')) hfind
    obtain ⟨hutf8, _⟩ := opens_good (hx.trans hxz') o (List.mem_of_find?_eq_some hfind')
    refine ⟨fun _ => ⟨?_, ?_⟩, fun _ => ⟨?_, ?_⟩⟩
    · rw [hopen]
      exact fun op hop => absurd hop (Option.not_mem_none op)
    · rw [hopen]
      exact fun h => by cases h
    · show c.method = _ → _
      rw [hopen]
      exact fun h => by cases h
    · show handle cfg w z'.store c.endpoint c.method c.params = _
      rw [hhandle, open_episode, openDecision_known hret hidem hfind'
        ((plain_openResult hutf8).loads hdumps)]
  · rw [handle_eq_runEntry hm hwrites hopen] at hret hystore
    have hlx : Ledger cfg False x := ledger False.elim hx
    obtain ⟨dec, e, rec, key, v, hdec, hid, hrec, hkey, rfl, hholds⟩ :=
      runEntry_holds hm (fun e rec h => hlx.consistent.episode_id h) hret
    rw [← hystore] at hholds
    obtain ⟨rec₁, hrec₁, hid₁, hbundle₁⟩ := record_later hx hxz hrec
    obtain ⟨rec₂, hrec₂, hid₂, hbundle₂⟩ := record_later hx hxz' hrec
    have hstate : z.store.stateOf (c.params.get "episode_id") = rec₁.state := by
      rw [hid, EpisodeStore.stateOf, hrec₁, Option.bind_some]
    constructor
    · rintro ⟨hchecked, hreply⟩
      rw [KeyReached, hstate]
      constructor
      · intro op hop
        have hne : c.method ≠ .append_verification := by
          intro hv
          rw [hv] at hop
          cases hop
        rw [hone hne] at hreply hrec₂
        have hreply' := congrArg Prod.fst hreply
        rw [handle_eq_runEntry hm hwrites hopen] at hreply'
        cases hdec' : decideEntry cfg w z.store c.endpoint c.method c.params with
        | error x =>
          rw [runEntry, hdec'] at hreply'
          cases hreply'
        | ok dec' =>
          obtain ⟨e', rec', _, hid', hrec', _, hlegal⟩ := decideEntry_lookup hdec'
          cases hid.symm.trans hid'
          cases hrec₁.symm.trans hrec'
          exact hlegal op hop
      · intro hv
        obtain ⟨_, _, hcheck⟩ := bind_eq_ok.1 (hchecked hv)
        obtain ⟨rec', hrec', hlive⟩ := bind_eq_ok.1 hcheck
        obtain ⟨e', hid', hget⟩ := _record_eq_ok hrec'
        cases hid.symm.trans hid'
        cases hrec₁.symm.trans hget
        exact of_decide_eq_true (require_eq_ok.1 hlive)
    · rintro ⟨hlegal, hlive⟩
      rw [hstate] at hlegal hlive
      refine ⟨?_, ?_⟩
      · intro hv
        have hv : c.method = .append_verification := hv
        rw [hv] at hdec
        obtain ⟨b, hb, _⟩ := bind_eq_ok.1 hdec
        have hfound : _record z.store (c.params.get "episode_id") = .ok rec₁ := by
          rw [hid]
          exact _record_str hrec₁
        exact bind_eq_ok.2 ⟨b, hb, bind_eq_ok.2 ⟨rec₁, hfound,
          require_eq_ok.2 (decide_eq_true (hlive hv))⟩⟩
      · have hlegal' : ∀ op ∈ c.method.agentOp?, ∃ st ∈ op.tool.states, rec₂.state = some st := by
          intro op hop
          have hne : c.method ≠ .append_verification := by
            intro hv
            rw [hv] at hop
            cases hop
          rw [hone hne, hrec₁] at hrec₂
          cases hrec₂
          exact hlegal op hop
        obtain ⟨draft, hagain⟩ :=
          decideEntry_again hdec hid hrec hrec₂ hbundle₂ htok hlegal'
        have hholds' : Holds z'.store rec₂.episode_id key v := by
          rw [hid₂]
          exact hholds.mono (reachable_rows_grow (hz.trans hz'))
        show handle cfg w z'.store c.endpoint c.method c.params = _
        rw [handle_eq_runEntry hm hwrites hopen, runEntry, hagain, onFresh_holds hholds' hkey]

end Runs

/-- A verification that has passed its check. -/
def checkedRun : System := System.run sampleConfig
  [.call (openCall "e" "k1" "slots" "v"), .check verificationParams]

/-- The verification is written. -/
def writeVerification : Act := .verify (sampleWorld "-") verificationParams

def verifiedRun : System := checkedRun.next sampleConfig writeVerification

/-- What the verification returned. -/
def verificationReply : Reply :=
  .json (Json.mkObj [(py "ok", .bool true), (py "revision", .int 2)])

theorem repeated_key_sample : Answers sampleConfig (verifiedRun.next sampleConfig .restart)
    (verifiedRun.next sampleConfig .restart) (verifyCall (sampleWorld "-") verificationParams)
    verificationReply := by
  have hx : Conc.Reachable Initial (Moves sampleConfig) Conc.anyAct checkedRun :=
    System.run_reachable (by decide +kernel) System.allowed_any
  have hstep : Moves sampleConfig checkedRun writeVerification verifiedRun :=
    System.next_moves (by decide +kernel)
  have hz : Conc.Reachable (· = verifiedRun) (Moves sampleConfig) Conc.anyAct
      (verifiedRun.next sampleConfig .restart) :=
    .next (.start rfl) trivial (System.next_moves (by decide +kernel))
  have hz' : Conc.Reachable (· = verifiedRun.next sampleConfig .restart) (Moves sampleConfig)
      Conc.anyAct (verifiedRun.next sampleConfig .restart) := .start rfl
  refine (repeated_key (w := sampleWorld "-") hx hstep rfl rfl (by decide +kernel) hz hz'
    (fun _ => rfl) ?_).2 (by decide +kernel)
  rintro (h | h) <;> cases h

/-- The controller hands the episode off after the verification. -/
def handOff : Act := .call (stateCall .control "e" "handed_off" 2)

/-- A repeated call does not always return the original result. -/
theorem refused_run : ¬ ∀ (x y z : System) (a : Act) (c : Call) (r : Reply) (w : World),
    Conc.Reachable Initial (Moves sampleConfig) Conc.anyAct x → Moves sampleConfig x a y →
    a.section? = some c → c.method.kind.isSome →
    (handle sampleConfig c.world x.store c.endpoint c.method c.params).1 = .ok r →
    Conc.Reachable (· = y) (Moves sampleConfig) Conc.anyAct z →
    TokenValid sampleConfig w c.method c.params →
    Answers sampleConfig z z { c with world := w } r := by
  intro hall
  have hanswers := hall checkedRun verifiedRun (verifiedRun.next sampleConfig handOff)
    writeVerification (verifyCall (sampleWorld "-") verificationParams) verificationReply
    (sampleWorld "-") (System.run_reachable (by decide +kernel) System.allowed_any)
    (System.next_moves (by decide +kernel)) rfl rfl (by decide +kernel)
    (.next (.start rfl) trivial (System.next_moves (by decide +kernel)))
    (by rintro (h | h) <;> cases h)
  have hrefused : verification_check (verifiedRun.next sampleConfig handOff).store
      verificationParams ≠ .ok () := by decide +kernel
  exact hrefused (hanswers.checked rfl)

end Valops.Store
