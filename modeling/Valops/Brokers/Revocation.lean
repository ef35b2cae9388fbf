import Valops.Brokers.Net

/-!
# Revoked sessions

The controller ends a session by revoking it at the three brokers. A broker looks at its list once,
before it calls the store; a call that was on its way by then is still written: `late_write`.

Main result: `revocation_barrier`.
-/

set_option autoImplicit false

namespace Valops.Brokers

open Py Store

/-- The kinds of entry that workers write. -/
def workerKinds : List Kind :=
  [.hypothesis, .hypothesis_status, .recommendation, .no_action, .verdict, .report, .signal]

/-- A session is revoked at every broker. -/
def Net.Revoked (x : Net) (S : PyStr) : Prop := ∀ n, S ∈ (x.brokers n).revoked

/-- When a session is revoked at a broker, no call of that broker is on its way for it. -/
def Drained (x : Net) : NetAct → Prop
  | .revoke n p => ∀ r ∈ x.inflight, r.tool.broker = n → r.cap.session_id ≠ p.get "session_id"
  | _ => True

/-- The tokens that reach the store are minted ones, if their signatures verify. -/
def SignedAct (cfg : BrokerConfig) (x : Net) (a : NetAct) : Prop :=
  ∀ act ∈ a.act?, Authentic cfg.store x.sys act

/-- The condition for revocation to be a barrier. -/
def Orderly (cfg : BrokerConfig) (x : Net) (a : NetAct) : Prop := Drained x a ∧ SignedAct cfg x a

instance (x : Net) : ∀ a, Decidable (Drained x a)
  | .revoke n p => inferInstanceAs (Decidable (∀ r ∈ x.inflight, r.tool.broker = n →
      r.cap.session_id ≠ p.get "session_id"))
  | .store _ | .prepare _ _ _ | .deliver _ _ _ | .lose _ => .isTrue trivial

instance (cfg : BrokerConfig) (x : Net) (a : NetAct) : Decidable (SignedAct cfg x a) :=
  inferInstanceAs (Decidable (∀ act ∈ a.act?, Authentic cfg.store x.sys act))

instance (cfg : BrokerConfig) (x : Net) (a : NetAct) : Decidable (Orderly cfg x a) :=
  inferInstanceAs (Decidable (Drained x a ∧ SignedAct cfg x a))

section Barrier

variable {cfg : BrokerConfig} {x y : Net} {a : NetAct} {ok : Net → NetAct → Prop} {S : PyStr}

theorem revoke_eq_ok {b b' : Broker} {p : Params} {v : Json} (h : b.revoke p = .ok (v, b')) :
    ∃ sid, p.get "session_id" = .str sid ∧ b'.revoked = sid :: b.revoked := by
  unfold Broker.revoke at h
  obtain ⟨sid, hsid, h⟩ := bind_eq_ok.1 h
  obtain ⟨_, _, h⟩ := bind_eq_ok.1 h
  cases pure_eq_ok.1 h
  refine ⟨sid, ?_, rfl⟩
  have hstr := orRaise_eq_ok.1 hsid
  cases hv : p.get "session_id" with
  | str s =>
    rw [hv] at hstr
    cases hstr
    rfl
  | _ =>
    rw [hv] at hstr
    cases hstr

/-- A broker's revoked sessions after one broker has changed. -/
theorem revoked_setBroker {n m : BrokerName} {b : Broker} (h : b.revoked = (x.brokers n).revoked) :
    (x.setBroker n b m).revoked = (x.brokers m).revoked := by
  by_cases hm : m = n
  · subst hm
    rw [Net.setBroker, Function.update_self, h]
  · rw [Net.setBroker, Function.update_of_ne hm]

/-- What a broker knows of revocations after a step. -/
theorem NetMoves.revoked (h : NetMoves cfg x a y) (n : BrokerName) :
    (y.brokers n).revoked = (x.brokers n).revoked ∨
      ∃ p sid, a = .revoke n p ∧ p.get "session_id" = .str sid ∧
        (y.brokers n).revoked = sid :: (x.brokers n).revoked := by
  cases h with
  | store direct step => exact .inl rfl
  | deliver inflight sent step => exact .inl rfl
  | lose inflight => exact .inl rfl
  | prepared ok => exact .inl (revoked_setBroker (prepare_eq ok).1)
  | refused bad => exact .inl (revoked_setBroker (prepare_eq bad).1)
  | @revoke m p v b ok =>
    obtain ⟨sid, hsid, hrev⟩ := revoke_eq_ok ok
    by_cases hm : n = m
    · subst hm
      refine .inr ⟨p, sid, rfl, hsid, ?_⟩
      show (x.setBroker n b n).revoked = _
      rw [Net.setBroker, Function.update_self, hrev]
    · refine .inl ?_
      show (x.setBroker m b n).revoked = _
      rw [Net.setBroker, Function.update_of_ne hm]

theorem Net.Revoked.step (h : x.Revoked S) (hstep : NetMoves cfg x a y) : y.Revoked S := by
  intro n
  rcases hstep.revoked n with hsame | ⟨_, _, _, _, hrev⟩
  · rw [hsame]
    exact h n
  · rw [hrev]
    exact List.mem_cons_of_mem _ (h n)

/-- No call on its way is for a session that its broker has revoked. -/
def Unrevoked (x : Net) : Prop :=
  ∀ r ∈ x.inflight, ∀ S, r.cap.session_id = .str S → S ∉ (x.brokers r.tool.broker).revoked

theorem Unrevoked.step (h : Unrevoked x) (hok : Drained x a) (hstep : NetMoves cfg x a y) :
    Unrevoked y := by
  have hold : ∀ r ∈ x.inflight, ∀ S, r.cap.session_id = .str S →
      S ∉ (y.brokers r.tool.broker).revoked := by
    intro r hr S hS
    rcases hstep.revoked r.tool.broker with hsame | ⟨p, sid, ha, hsid, hrev⟩
    · rw [hsame]
      exact h r hr S hS
    · rw [hrev]
      rw [ha] at hok
      intro hmem
      rcases List.mem_cons.1 hmem with rfl | hmem
      · exact hok r hr rfl (hS.trans hsid.symm)
      · exact h r hr S hS hmem
  cases hstep with
  | store direct step => exact hold
  | refused bad => exact hold
  | revoke ok => exact hold
  | deliver inflight sent step => exact fun r hr => hold r (mem_inflight inflight hr)
  | lose inflight => exact fun r hr => hold r (mem_inflight inflight hr)
  | prepared ok =>
    intro r hr S hS
    rcases List.mem_cons.1 hr with rfl | hr
    · obtain ⟨hrev, hreq⟩ := prepare_eq ok
      obtain ⟨htool, hauth, _⟩ := hreq _ rfl
      show S ∉ (x.setBroker _ _ _).revoked
      rw [revoked_setBroker hrev, htool]
      intro hmem
      exact hauth.checked.unrevoked S hmem hS
    · exact hold r hr S hS

/-- Whose session an entry of a worker's kind has. -/
theorem admitted_worker {c : StoreConfig} {w : World} {ep : Endpoint} {p : Params} {rec : Record}
    {body : Body} {principal : PyStr} {session : Json}
    (h : Admitted c w ep p rec body principal session) (hkind : body.kind ∈ workerKinds) :
    session = .null ∨ ¬ Endpoint.direct ep ∧ ∃ cap,
      Checked (tokenGate c w) w.now (p.get "token") (p.get "episode_id") cap ∧
      session = cap.session_id := by
  have hagent : ∀ {op : AgentOp} {cap : Capability}, Authority c w ep op p cap rec →
      ¬ Endpoint.direct ep ∧ ∃ cap',
        Checked (tokenGate c w) w.now (p.get "token") (p.get "episode_id") cap' ∧
        cap.session_id = cap'.session_id := by
    intro op cap auth
    refine ⟨?_, cap, auth.checked, rfl⟩
    rintro (hd | hd) <;> rcases auth.broker with hb | hb <;> cases hd.symm.trans hb
  cases h with
  | hypothesis auth => exact .inr (hagent auth)
  | hypothesis_status auth => exact .inr (hagent auth)
  | recommendation auth => exact .inr (hagent auth)
  | no_action auth => exact .inr (hagent auth)
  | verdict auth => exact .inr (hagent auth)
  | report auth => exact .inr (hagent auth)
  | observation endpoint checked =>
    refine .inr ⟨?_, _, checked, rfl⟩
    rintro (hd | hd) <;> cases hd.symm.trans endpoint
  | signal => exact .inl rfl
  | state => exact .inl rfl
  | cost => exact absurd hkind (by show Kind.cost ∉ workerKinds; decide)
  | step => exact absurd hkind (by show Kind.step ∉ workerKinds; decide)
  | annotation => exact absurd hkind (by show Kind.annotation ∉ workerKinds; decide)
  | verification => exact absurd hkind (by show Kind.verification ∉ workerKinds; decide)
  | recovery_observation =>
    exact absurd hkind (by show Kind.recovery_observation ∉ workerKinds; decide)

theorem unrevoked (h : Conc.Reachable NetInitial (NetMoves cfg) (Orderly cfg) x) : Unrevoked x := by
  refine h.inv (I := Unrevoked) ?_ fun _ _ _ hinv hok hstep => hinv.step hok.1 hstep
  rintro _ rfl r hr
  cases hr

/-- A row that is not a worker's entry of a session. -/
def NotOf (S : PyStr) (row : Row) : Prop := row.session_id = .str S → row.kind ∉ workerKinds

/-- While a session is revoked everywhere, a step appends no worker's entry of it. -/
theorem barrier_step (hx : Conc.Reachable NetInitial (NetMoves cfg) (Orderly cfg) x)
    (hrev : x.Revoked S) (hok : Orderly cfg x a) (hstep : NetMoves cfg x a y) :
    ∃ new, y.sys.store.rows = x.sys.store.rows ++ new ∧ ∀ row ∈ new, NotOf S row := by
  have hsame : y.sys = x.sys → ∃ new, y.sys.store.rows = x.sys.store.rows ++ new ∧
      ∀ row ∈ new, NotOf S row := by
    intro h
    exact ⟨[], by rw [h, List.append_nil], fun row hrow => absurd hrow List.not_mem_nil⟩
  -- the row of a call: whose session it has
  have hnew : ∀ {act : Act} {s : System}, Moves cfg.store x.sys act s →
      (∀ call cap, act.section? = some call → ¬ Endpoint.direct call.endpoint →
        Checked (tokenGate cfg.store call.world) call.world.now (call.params.get "token")
          (call.params.get "episode_id") cap →
        ∀ v, bindText cfg.store cap.session_id = .ok v → v ≠ .str S) →
      ∃ new, s.store.rows = x.sys.store.rows ++ new ∧ ∀ row ∈ new, NotOf S row := by
    intro act s hmove hsession
    rcases new_row hmove with hrows | ⟨call, d, row, hsec, hrows, hwritten, hkind, hdraft⟩
    · exact ⟨[], by rw [hrows, List.append_nil], fun row hrow => absurd hrow List.not_mem_nil⟩
    · refine ⟨[row], hrows, fun r hr => ?_⟩
      cases List.mem_singleton.1 hr
      intro hS hworker
      rcases hdraft with hdraft | ⟨_, hopened⟩
      · rw [hkind] at hworker
        have hbind := hwritten.session
        rcases admitted_worker hdraft.admitted hworker with hnull | ⟨hep, cap, hchecked, hcap⟩
        · rw [hnull] at hbind
          cases (bindText_null hbind).symm.trans hS
        · rw [hcap] at hbind
          exact hsession call cap hsec hep hchecked _ hbind hS
      · rw [hopened] at hworker
        revert hworker
        decide
  cases hstep with
  | prepared ok => exact hsame rfl
  | refused bad => exact hsame rfl
  | lose inflight => exact hsame rfl
  | revoke ok => exact hsame rfl
  | store direct step =>
    refine hnew step fun call cap hsec hep _ => absurd ?_ hep
    cases step with
    | call whole fresh =>
      cases hsec
      exact direct
    | verify pending fresh =>
      cases hsec
      exact .inr rfl
    | check passed => cases hsec
    | restart up => cases hsec
    | mint => cases hsec
  | @deliver w r p s front back inflight sent step =>
    refine hnew step ?_
    rintro call cap hsec _ hchecked v hv hS
    cases hsec
    have hr : r ∈ x.inflight := by
      rw [inflight]
      exact List.mem_append_right _ List.mem_cons_self
    obtain ⟨g, now, id, hkey, hauth⟩ := inflight_authorised hx r hr
    obtain ⟨htoken, _, _⟩ := r.get_given hauth sent
    have hchecked' : Checked (tokenGate cfg.store w) w.now r.token (p.get "episode_id") cap :=
      htoken ▸ hchecked
    have hcap : cap = r.cap := hchecked'.unique hauth.checked hkey.symm
    obtain ⟨gr, _, hgr⟩ := hchecked.grant (hok.2 _ rfl _ rfl)
    have hstr : r.cap.session_id = .str gr.session_id := by
      rw [← hcap, hgr]
      rfl
    rw [hcap, hstr] at hv
    cases (bindText_str hv).symm.trans hS
    exact unrevoked hx r hr _ hstr (hrev r.tool.broker)

/-- **Revocation is a barrier**, in the runs in which the calls of a session have arrived when it is
revoked: once a session is revoked at the three brokers, nothing is appended for it. -/
theorem revocation_barrier (hx : Conc.Reachable NetInitial (NetMoves cfg) (Orderly cfg) x)
    (hrev : x.Revoked S) (hy : Conc.Reachable (· = x) (NetMoves cfg) (Orderly cfg) y) :
    ∃ new, y.sys.store.rows = x.sys.store.rows ++ new ∧ ∀ row ∈ new, NotOf S row := by
  refine (hy.inv (I := fun y => Conc.Reachable NetInitial (NetMoves cfg) (Orderly cfg) y ∧
    y.Revoked S ∧ ∃ new, y.sys.store.rows = x.sys.store.rows ++ new ∧ ∀ row ∈ new, NotOf S row)
    ?_ ?_).2.2
  · rintro _ rfl
    exact ⟨hx, hrev, [], (List.append_nil _).symm, fun row hrow => absurd hrow List.not_mem_nil⟩
  · rintro y a z ⟨hreach, hrevoked, new, hrows, hnew⟩ hok hstep
    obtain ⟨more, hmore, hfree⟩ := barrier_step hreach hrevoked hok hstep
    refine ⟨hreach.next hok hstep, hrevoked.step hstep, new ++ more, ?_, ?_⟩
    · rw [hmore, hrows, List.append_assoc]
    · intro row hrow
      rcases List.mem_append.1 hrow with hrow | hrow
      · exact hnew row hrow
      · exact hfree row hrow

end Barrier

/-- The controller ends the session. -/
def endSession : List NetAct :=
  [BrokerName.episode, .observer, .report].map fun n =>
    .revoke n (Params.ofFields [(py "session_id", .str (py "S"))] (by simp))

/-- The session has written a hypothesis and is ended. -/
def endedNet : Net := Conc.after (Net.act sampleNet) {}
  (diagnosed ++ [askHypothesis "12345678", deliverHypothesis "12345678"] ++ endSession)

/-- The worker calls again, and the controller goes on. -/
def afterwards : List NetAct :=
  [askHypothesis "87654321", .store (.call (stateCall .control "e" "handed_off" 3))]

theorem revocation_barrier_sample : ∃ new,
    (Conc.after (Net.act sampleNet) endedNet afterwards).sys.store.rows =
      endedNet.sys.store.rows ++ new ∧ ∀ row ∈ new, NotOf (py "S") row := by
  have hx : Conc.Reachable NetInitial (NetMoves sampleNet) (Orderly sampleNet) endedNet :=
    .after Net.act_moves (.start rfl) (by decide +kernel)
  have hy : Conc.Reachable (· = endedNet) (NetMoves sampleNet) (Orderly sampleNet)
      (Conc.after (Net.act sampleNet) endedNet afterwards) :=
    .after Net.act_moves (.start rfl) (by decide +kernel)
  exact revocation_barrier hx (fun n => by cases n <;> decide +kernel) hy

/-- The session is ended while a hypothesis is on its way. -/
def raceNet : Net := Conc.after (Net.act sampleNet) {}
  (diagnosed ++ [askHypothesis "12345678"] ++ endSession)

/-- A call that was authorised before the session was revoked is still written afterwards. -/
theorem late_write : ∃ x y,
    Conc.Reachable NetInitial (NetMoves sampleNet) (SignedAct sampleNet) x ∧ x.Revoked (py "S") ∧
    Conc.Reachable (· = x) (NetMoves sampleNet) (SignedAct sampleNet) y ∧
    ¬ ∃ new, y.sys.store.rows = x.sys.store.rows ++ new ∧ ∀ row ∈ new, NotOf (py "S") row := by
  refine ⟨raceNet, Conc.after (Net.act sampleNet) raceNet [deliverHypothesis "12345678"],
    .after Net.act_moves (.start rfl) (by decide +kernel), ?_,
    .after Net.act_moves (.start rfl) (by decide +kernel), ?_⟩
  · intro n
    cases n <;> decide +kernel
  · rintro ⟨new, hrows, hnew⟩
    have hlate : ∃ row ∈ (Conc.after (Net.act sampleNet) raceNet
        [deliverHypothesis "12345678"]).sys.store.rows.drop raceNet.sys.store.rows.length,
        row.session_id = .str (py "S") ∧ row.kind ∈ workerKinds := by decide +kernel
    rw [hrows, List.drop_left] at hlate
    obtain ⟨row, hrow, hsession, hkind⟩ := hlate
    exact hnew row hrow hsession hkind

end Valops.Brokers
