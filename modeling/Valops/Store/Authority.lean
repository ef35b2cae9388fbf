import Valops.Store.Contracts

/-!
# What agents may do

Every entry of an agent goes back to a token that was minted for it before. The token has not
expired at the reading of the clock that the gate takes; the entry gets a later reading of its own,
and may be written after the token's time: `late_entry`.

The sockets of the workers change nothing of a record that belongs to the controller and the
verifier.

Main result: `agent_authority`.
-/

set_option autoImplicit false

namespace Valops.Store

open Py

/-! ## Tokens behind entries -/

/-- The operation that writes an agent's body. -/
def Body.agentOp? : Body → Option AgentOp
  | .hypothesis _ => some .append_hypothesis
  | .hypothesis_status _ => some .append_hypothesis_status
  | .recommendation _ => some .append_recommendation
  | .no_action _ => some .append_no_action
  | .verdict _ => some .append_verdict
  | .report _ => some .append_report
  | _ => none

/-- The time is not after that of the grant: `not exp < time`. -/
def Grant.Unexpired (g : Grant) (time : Double) : Prop :=
  (Json.float g.exp).pyLt (.float time) = some false

/-- A grant covers an entry of an operation that goes to a record, at a reading of the clock. -/
structure Covers (g : Grant) (op : AgentOp) (rec : Record) (x : Entry) (now : Double) : Prop where
  episode : g.episode_id = x.episode_id
  session : x.session_id = .str g.session_id
  bundle : rec.bundle_id = some g.bundle_id
  role : g.role ∈ op.tool.roles
  state : ∃ st ∈ op.tool.states, rec.state = some st
  report : ∀ b : ReportBody, x.body = .report b → rec.state = some b.kind.need
  unexpired : Grant.Unexpired g now

/-- The entry of a row is covered by a grant minted before its call. -/
def Granted (cfg : StoreConfig) (front : List Row) (row : Row) (o : Origin) (now : Double) : Prop :=
  ∀ x op, row.entry = some x → x.body.agentOp? = some op → ∃ g ∈ o.minted, Covers g op
    (replay cfg.rfc3339 (empty_record row.episode_id) (entriesOf front row.episode_id)) x now

section Granted

variable {cfg : StoreConfig} {w : World} {ep : Endpoint} {p : Params} {rec : Record}
  {signed : Grant → Prop} {x : Entry} {cap : Capability} {op : AgentOp}

/-- What the gate checked, said of the grant. -/
theorem Authority.covers (h : Authority cfg w ep op p cap rec)
    (htoken : Unforged cfg.verify signed (p.get "token")) (hid : p.get "episode_id" = .str x.episode_id)
    (hv : bindText cfg cap.session_id = .ok x.session_id)
    (hreport : ∀ b : ReportBody, x.body = .report b → rec.state = some b.kind.need) :
    ∃ g, signed g ∧ Covers g op rec x w.now := by
  obtain ⟨g, hg, rfl⟩ := h.checked.grant htoken
  refine ⟨g, hg, ?_, bindText_str hv, ?_, ?_, h.state, hreport, ?_⟩
  · have hsame := h.checked.episode
    rw [hid] at hsame
    by_contra hne
    have hdiff : differs (.str x.episode_id) (.str g.episode_id) = true := by
      rw [differs, Bool.and_eq_true, Bool.not_eq_true', decide_eq_true_iff]
      refine ⟨nofun, ?_⟩
      rw [Bool.eq_false_iff, Json.pyEq]
      exact fun heq => hne (Json.str.inj (Json.eqStr_iff.1 heq))
    exact absurd (hsame.symm.trans hdiff) Bool.false_ne_true
  · have hsame := h.bundle
    rw [Record.bundle] at hsame
    split at hsame
    · rename_i b hb
      rw [hb]
      have heq : (Json.str g.bundle_id).pyEq (.str b) = true := hsame
      rw [Json.pyEq] at heq
      rw [Json.str.inj (Json.eqStr_iff.1 heq)]
    · cases hsame
  · obtain ⟨r, hr, hrole⟩ := h.role
    rwa [Role.text_injective (Json.str.inj hrole)]
  · exact h.checked.fresh

theorem Accounted.granted {front : List Row} {row : Row} {o : Origin}
    (h : Accounted cfg True front row o x) : Granted cfg front row o o.call.world.now := by
  rintro y op hy hop
  cases h.entry.symm.trans hy
  rw [← entry_episode h.entry]
  have hjust := h.justified
  rw [← entry_episode h.entry] at hjust
  cases hjust with
  | opened first endpoint body principal =>
    rw [body] at hop
    cases hop
  | admitted started kind named before exact admitted session =>
    rw [exact trivial] at admitted
    have hcovers : ∀ {cap : Capability} {op : AgentOp}, Authority cfg o.call.world o.call.endpoint op
        o.call.params cap (replay cfg.rfc3339 (empty_record x.episode_id)
          (entriesOf front x.episode_id)) →
        bindText cfg cap.session_id = .ok x.session_id → (∀ b : ReportBody, x.body = .report b →
          (replay cfg.rfc3339 (empty_record x.episode_id)
            (entriesOf front x.episode_id)).state = some b.kind.need) →
        ∃ g ∈ o.minted, Covers g op (replay cfg.rfc3339 (empty_record x.episode_id)
          (entriesOf front x.episode_id)) x o.call.world.now :=
      fun auth hv hreport => auth.covers (h.authentic trivial) named hv hreport
    generalize hbody : x.body = body at admitted hop hcovers
    generalize x.principal = principal at admitted
    cases admitted with
    | hypothesis auth => cases hop; exact hcovers auth session nofun
    | hypothesis_status auth => cases hop; exact hcovers auth session nofun
    | recommendation auth => cases hop; exact hcovers auth session nofun
    | no_action auth => cases hop; exact hcovers auth session nofun
    | verdict auth => cases hop; exact hcovers auth session nofun
    | report auth broker need =>
      cases hop
      refine hcovers auth session fun b hb => ?_
      cases hb
      exact need
    | _ => cases hop

end Granted

/-! ## The workers' sockets -/

/-- The sockets of the brokers. -/
def Endpoint.worker (ep : Endpoint) : Prop := ep = .agent ∨ ep = .agent_report ∨ ep = .observe

/-- A call on a worker's socket. -/
def WorkerAct (_ : System) : Act → Prop
  | .call c => c.endpoint.worker
  | _ => False

/-- What agents have no part in: the record without the lists they write to and its number. -/
def Record.control (rec : Record) : Record :=
  { rec with
    revision := 0, signals := [], hypotheses := [], recommendations := [], no_action := []
    verdicts := [], reports := [] }

section Frame

variable {cfg : StoreConfig} {x y : System} {a : Act} {ok : System → Act → Prop} {w : World}
  {ep : Endpoint} {p : Params} {rec : Record} {body : Body} {principal : PyStr} {session : Json}

/-- An entry from a worker's socket leaves what belongs to the controller. -/
theorem Admitted.control (h : Admitted cfg w ep p rec body principal session) (hep : ep.worker)
    {r : Record} {e : Entry} (he : e.body = body) :
    (apply cfg.rfc3339 r e).1.control = r.control := by
  have hcontrol : ep ≠ .control := by
    rintro rfl
    rcases hep with h | h | h <;> cases h
  have hverify : ep ≠ .verify := by
    rintro rfl
    rcases hep with h | h | h <;> cases h
  rw [apply, he]
  cases h with
  | hypothesis | hypothesis_status | recommendation | no_action | verdict | report => rfl
  | observation => rfl
  | state endpoint => exact (endpoint.elim hcontrol hverify).elim
  | signal endpoint => exact absurd endpoint hcontrol
  | cost endpoint => exact absurd endpoint hcontrol
  | step endpoint => exact absurd endpoint hcontrol
  | annotation endpoint => exact absurd endpoint hcontrol
  | verification endpoint => exact absurd endpoint hverify
  | recovery_observation endpoint => exact absurd endpoint hverify

/-- One call on a worker's socket. -/
theorem frame_step (hx : Ledger cfg False x) (hok : WorkerAct x a) (hstep : Moves cfg x a y)
    (e : PyStr) : (y.store.records.get? e).map Record.control =
      (x.store.records.get? e).map Record.control := by
  rcases hstep.effect with ⟨c, s, hsec, hchange, _, hstore, _, _⟩ | ⟨rfl, _⟩ | ⟨_, hstore, _, _⟩
  · have hworker : c.endpoint.worker := by
      cases a with
      | call c' =>
        cases hsec
        exact hok
      | _ => exact hok.elim
    rw [hstore]
    cases hchange with
    | same => rfl
    | opens => rfl
    | @entry d row drafted written =>
      obtain ⟨e', hid, hrec⟩ := drafted.found
      have he' := hx.consistent.episode_id hrec
      show ((x.store.records.set d.record.episode_id _).get? e).map _ = _
      by_cases he : e = e'
      · subst he
        rw [he', Dict.get?_set_self, hrec, Option.map_some, Option.map_some,
          drafted.admitted.control hworker rfl]
      · rw [he', Dict.get?_set_of_ne _ he]
    | opened opened =>
      rw [opened.endpoint] at hworker
      rcases hworker with h | h | h <;> cases h
  · exact hok.elim
  · rw [hstore]

/-- **Calls on the workers' sockets leave what belongs to the controller.** -/
theorem frame (hx : Conc.Reachable Initial (Moves cfg) ok x)
    (hy : Conc.Reachable (· = x) (Moves cfg) WorkerAct y) (e : PyStr) :
    (y.store.records.get? e).map Record.control = (x.store.records.get? e).map Record.control := by
  have hinv := hy.inv (I := fun y => Conc.Reachable Initial (Moves cfg) Conc.anyAct y ∧
    (y.store.records.get? e).map Record.control = (x.store.records.get? e).map Record.control) ?_ ?_
  · exact hinv.2
  · rintro _ rfl
    exact ⟨hx.mono fun _ _ _ => trivial, rfl⟩
  · rintro y a z ⟨hreach, hsame⟩ hok hstep
    refine ⟨hreach.next trivial hstep, ?_⟩
    rw [frame_step (ledger False.elim hreach) hok hstep, hsame]

end Frame

/-! ## The claim for every run -/

/-- What holds of agents in a state of the system. -/
structure AgentAuthority (cfg : StoreConfig) (s : System) : Prop where
  decodes : ∀ row ∈ s.store.rows, ∃ x, row.entry = some x
  originate : s.origins.length = s.store.rows.length
  granted : ∀ (i : Nat) (row : Row) (o : Origin), s.store.rows[i]? = some row →
    s.origins[i]? = some o → Granted cfg (s.store.rows.take i) row o o.call.world.now
  framed : ∀ s', Conc.Reachable (· = s) (Moves cfg) WorkerAct s' → ∀ e,
    (s'.store.records.get? e).map Record.control = (s.store.records.get? e).map Record.control

/-- **Agents have the authority that was minted for them, and no other.** -/
theorem agent_authority {cfg : StoreConfig} {s : System}
    (h : Conc.Reachable Initial (Moves cfg) (Authentic cfg) s) : AgentAuthority cfg s := by
  have hled : Ledger cfg True s := ledger (fun _ _ _ hok => hok) h
  refine ⟨hled.consistent.decodes, hled.length, fun i row o hrow ho => ?_,
    fun s' hs' e => frame h hs' e⟩
  obtain ⟨o', x, ho', hacc⟩ := hled.accounted i row hrow
  cases ho.symm.trans ho'
  exact hacc.granted

/-- A hypothesis whose token has the time `0`, at two readings of the clock. -/
def hypothesisAt (now ts : Double) : Act :=
  .call ⟨{ sampleWorld "-" with now, ts }, .agent, .append_hypothesis,
    agentParams (sampleGrant .diagnostician "D") "D:1" [(py "hypothesis", Json.mkObj sampleHypothesis)]
      hypothesisField_wf⟩

/-- The token is minted, the episode is diagnosed, and a hypothesis is recorded. -/
def hypothesisRun (now ts : Double) : List Act :=
  [.mint (sampleGrant .diagnostician "D"), .call (openCall "e" "k1" "slots" "v"),
    .call (stateCall .control "e" "diagnosing" 1), hypothesisAt now ts]

theorem agent_authority_sample :
    AgentAuthority tokenConfig (System.run tokenConfig (hypothesisRun .zero .zero)) ∧
    (System.run tokenConfig (hypothesisRun .zero .zero)).store.rows.map Row.kind =
      [.opened, .state, .hypothesis] :=
  ⟨agent_authority (System.run_reachable (by decide +kernel) (by decide +kernel)), by decide +kernel⟩

/-- The time one second later. -/
def oneSecond : Double := Double.ofRatio false (2 ^ binary64.unit) 1

/-- An agent's entry, written when no token that was minted before is unexpired. -/
def writtenLate (row : Option Row) (o : Option Origin) : Bool :=
  match row, o with
  | some row, some o =>
    (match row.entry with
      | some x => decide (x.body.agentOp? = some .append_hypothesis)
      | none => false) &&
    o.minted.all fun g => decide ((Json.float g.exp).pyLt (.float row.ts) ≠ some false)
  | _, _ => false

/-- The gate is passed in time, and the entry is written a second later, when no token that was ever
minted is unexpired. -/
theorem late_entry : ∃ s, Conc.Reachable Initial (Moves tokenConfig) (Authentic tokenConfig) s ∧
    ¬ ∀ (i : Nat) (row : Row) (o : Origin), s.store.rows[i]? = some row →
      s.origins[i]? = some o → Granted tokenConfig (s.store.rows.take i) row o row.ts := by
  refine ⟨System.run tokenConfig (hypothesisRun .zero oneSecond),
    System.run_reachable (by decide +kernel) (by decide +kernel), fun hall => ?_⟩
  have hlate : writtenLate (System.run tokenConfig (hypothesisRun .zero oneSecond)).store.rows[2]?
      (System.run tokenConfig (hypothesisRun .zero oneSecond)).origins[2]? = true := by
    decide +kernel
  unfold writtenLate at hlate
  split at hlate
  · rename_i row o hrow ho
    obtain ⟨hop, hminted⟩ := Bool.and_eq_true_iff.1 hlate
    split at hop
    · rename_i x hx
      obtain ⟨g, hg, hcovers⟩ := hall 2 row o hrow ho x _ hx (of_decide_eq_true hop)
      exact of_decide_eq_true (List.all_eq_true.1 hminted g hg) hcovers.unexpired
    · cases hop
  · cases hlate

end Valops.Store
