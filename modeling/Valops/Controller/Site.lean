import Valops.Controller.Reasons

/-!
# The runner's site

The store, with what matters of the runner beside it: the requests that may still reach the store, and the
session of the current step. A request of the runner is served at once, or its sender is told an error and
it may be served at any later time, any number of times. Others call the store at any time; only the runner
mints tokens, changes states on its socket and records steps.

Main result: `Regular.moves`. Requests that were in order when they were sent leave logs in which every
transition is earned, whenever they are served.
-/

set_option autoImplicit false

namespace Valops.Controller

open Py Store Conc

/-! ## Sites -/

/-- What only the runner calls. -/
def Owned (m : Method) : Prop := m = .set_state ∨ m = .append_step

instance : DecidablePred Owned := fun m => inferInstanceAs (Decidable (m = .set_state ∨ m = .append_step))

/-- The store, what the runner has asked of it, and the session it has taken last. -/
structure Site where
  system : System := {}
  sent : List (Method × Params) := []
  session : Option PyStr := none

/-- The log of an episode. -/
def Site.log (σ : Site) (e : PyStr) : List Entry := σ.system.store.entries e

/-- A request has left the runner. -/
def Site.sending (σ : Site) (m : Method) (p : Params) : Site :=
  if Owned m then { σ with sent := (m, p) :: σ.sent } else σ

/-- The key of the step of a session. -/
def stepKey (session : PyStr) : PyStr := py "step:" ++ session

/-- Nothing has been minted or sent for the session. -/
structure Unused (cfg : StoreConfig) (σ : Site) (session : PyStr) : Prop where
  minted : ∀ g ∈ σ.system.minted, g.session_id ≠ session
  sent : ∀ m p, (m, p) ∈ σ.sent → m.idemKey cfg p ≠ .str (stepKey session)

/-- One operation of the runner. Of what is not a call of the store, a session, a token or the bundle,
nothing is demanded. -/
def Performs (I : Installation) (_ : Unit) (σ : Site) : (o : Op) → Res o → Site → Prop
  | .store m p, r, σ' =>
    (σ' = σ.sending m p ∧ ∃ x, r = (.error x : Except Exc Reply)) ∨
      ∃ w, m ≠ .append_verification ∧ FreshId w σ.system.store ∧
        r = (handle I.store w σ.system.store .control m p).1 ∧
        σ' = { σ.sending m p with system := σ.system.ran I.store ⟨w, .control, m, p⟩ }
  | .uuid4, session, σ' => Unused I.store σ session ∧ σ' = { σ with session := some session }
  | .mint e role session bundle_id _, r, σ' =>
    (σ' = σ ∧ ∃ x, r = (.error x : Except Exc PyStr)) ∨
      ∃ exp nonce iat, σ' = { σ with system := { σ.system with
        minted := ⟨e, role, session, bundle_id, exp, nonce, iat⟩ :: σ.system.minted } }
  | .load v, r, σ' => σ' = σ ∧ ∀ bundle : Bundle, r = (.ok bundle : Except Exc Bundle) →
    ∀ th, bundle.thresholds = .ok th → ∃ id, v = .str id ∧ th = I.thresholds id
  | _, _, σ' => σ' = σ

/-- The request is the runner's alone, by its method or by the key of a step. -/
def Reserved (cfg : StoreConfig) (c : Call) : Prop :=
  c.endpoint = .control ∧ Owned c.method ∨
    ∃ session, c.method.idemKey cfg c.params = .str (stepKey session)

/-- What the others may do, and when a request of the runner is served late. Tokens come from the runner;
if sessions are tidy, from its current session. -/
structure Others (I : Installation) (σ : Site) (a : Act) : Prop where
  mints : ∀ g, a ≠ .mint g
  served : ∀ c, a.section? = some c → Reserved I.store c → (c.method, c.params) ∈ σ.sent
  authentic : ∀ c, a.section? = some c → Unforged I.store.verify
    (fun g => g ∈ σ.system.minted ∧ (I.tidy → σ.session = some g.session_id)) (c.params.get "token")

/-- One step of the others. -/
def Environment (I : Installation) (σ σ' : Site) : Prop :=
  ∃ a y, Others I σ a ∧ Moves I.store σ.system a y ∧ σ' = { σ with system := y }

/-! ## The invariant -/

/-- A request that may be served at any time: a change of state is earned at the revision it names, and
what is recorded as ok has its artefact. -/
structure Request (I : Installation) (log : PyStr → List Entry) (m : Method) (p : Params) : Prop where
  state : m = .set_state → ∀ e, p.get "episode_id" = .str e → ∃ n dst, n ≤ (log e).length ∧
    p.get "expected_revision" = .int n ∧ p.get "state" = .str (EpisodeState.text dst) ∧
    Earned I e ((log e).take n) dst
  step : m = .append_step → p.get "outcome" = .str (Outcome.text .ok) → ∀ e role,
    p.get "episode_id" = .str e → p.get "role" = .str (Role.text role) →
      ∃ session, p.get "session_id" = .str session ∧ ∃ y ∈ log e, Writes role session y

/-- The invariant. -/
structure Regular (I : Installation) (σ : Site) : Prop where
  ledger : Ledger I.store True σ.system
  governed : ∀ e, Governed I e (σ.log e)
  requests : ∀ m p, (m, p) ∈ σ.sent → Request I σ.log m p
  stated : ∀ e front x back b, σ.log e = front ++ x :: back → x.body = .state b →
    x.principal = py "controller" → ∃ p, (.set_state, p) ∈ σ.sent ∧ p.get "episode_id" = .str e ∧
      p.get "expected_revision" = .int front.length
  sessions : ∀ e, ∀ x ∈ σ.log e, byAgent x → ∃ g ∈ σ.system.minted, x.session_id = .str g.session_id
  keys : ∀ row ∈ σ.system.store.rows, ∀ session, row.idem_key = stepKey session →
    ∃ m p, (m, p) ∈ σ.sent ∧ m.idemKey I.store p = .str (stepKey session)

/-- What the others change: logs grow; if sessions are tidy, by entries of the current session. -/
structure Grows (I : Installation) (σ σ' : Site) : Prop where
  sent : σ'.sent = σ.sent
  session : σ'.session = σ.session
  minted : σ'.system.minted = σ.system.minted
  log : ∀ e, ∃ new, σ'.log e = σ.log e ++ new ∧
    (I.tidy → ∀ x ∈ new, byAgent x → ∃ s, σ.session = some s ∧ x.session_id = .str s)

section Lemmas

variable {I : Installation} {cfg : StoreConfig} {σ τ υ : Site} {e : PyStr} {es front back : List Entry}
  {x y : Entry} {m : Method} {p : Params}

theorem Grows.refl (σ : Site) : Grows I σ σ :=
  ⟨rfl, rfl, rfl, fun _ => ⟨[], (List.append_nil _).symm, fun _ _ h => absurd h List.not_mem_nil⟩⟩

theorem Grows.trans (h : Grows I σ τ) (h' : Grows I τ υ) : Grows I σ υ := by
  refine ⟨h'.sent.trans h.sent, h'.session.trans h.session, h'.minted.trans h.minted, fun e => ?_⟩
  obtain ⟨new, hlog, hnew⟩ := h.log e
  obtain ⟨new', hlog', hnew'⟩ := h'.log e
  refine ⟨new ++ new', by rw [hlog', hlog, List.append_assoc], fun ht x hx hagent => ?_⟩
  rcases List.mem_append.1 hx with hx | hx
  · exact hnew ht x hx hagent
  · rw [← h.session]
    exact hnew' ht x hx hagent

theorem Grows.prefix_ (h : Grows I σ τ) (e : PyStr) : σ.log e <+: τ.log e := by
  obtain ⟨new, hlog, -⟩ := h.log e
  exact ⟨new, hlog.symm⟩

/-- What has been read of a log stays. -/
theorem Grows.take (h : Grows I σ τ) {n : Nat} (hn : n ≤ (σ.log e).length) :
    (τ.log e).take n = (σ.log e).take n := by
  obtain ⟨new, hlog, -⟩ := h.log e
  rw [hlog, List.take_append_of_le_length hn]

theorem Grows.length_le (h : Grows I σ τ) (e : PyStr) : (σ.log e).length ≤ (τ.log e).length :=
  (h.prefix_ e).length_le

/-- A request stays in order while the logs grow. -/
theorem Request.mono {log log' : PyStr → List Entry} (h : Request I log m p)
    (hlog : ∀ e, log e <+: log' e) : Request I log' m p where
  state hm e he := by
    obtain ⟨n, dst, hn, hrev, hstate, hearned⟩ := h.state hm e he
    obtain ⟨new, hnew⟩ := hlog e
    refine ⟨n, dst, hn.trans (hlog e).length_le, hrev, hstate, ?_⟩
    rw [← hnew, List.take_append_of_le_length hn]
    exact hearned
  step hm hok e role he hrole := by
    obtain ⟨session, hsession, y, hy, hwrites⟩ := h.step hm hok e role he hrole
    exact ⟨session, hsession, y, (hlog e).subset hy, hwrites⟩

/-- The last place of a log, or an earlier one. -/
theorem split_concat (h : es ++ [x] = front ++ y :: back) :
    (front = es ∧ y = x ∧ back = []) ∨ ∃ back', es = front ++ y :: back' := by
  rcases List.eq_nil_or_concat back with rfl | ⟨back, z, rfl⟩
  · obtain ⟨rfl, hlast⟩ := List.append_inj' h rfl
    cases hlast
    exact .inl ⟨rfl, rfl, rfl⟩
  · rw [List.concat_eq_append, ← List.cons_append, ← List.append_assoc] at h
    exact .inr ⟨back, (List.append_inj' h rfl).1⟩

/-- One more entry of a log whose transitions are earned. -/
theorem Governed.snoc (h : Governed I e es) (hfollowed : Followed I.store e (es ++ [x]))
    (hvetted : Vetted I.store e es x)
    (hearned : ∀ b, x.body = .state b → x.principal = py "controller" → Earned I e es b.dst)
    (hbacked : ∀ b, x.body = .step b → b.outcome = .ok →
      ∃ session, b.session_id = .str session ∧ ∃ y ∈ es, Writes b.role session y) :
    Governed I e (es ++ [x]) where
  followed := hfollowed
  vetted front y back hsplit := by
    rcases split_concat hsplit with ⟨rfl, rfl, -⟩ | ⟨back', hes⟩
    · exact hvetted
    · exact h.vetted front y back' hes
  earned front y back b hsplit hb := by
    rcases split_concat hsplit with ⟨rfl, rfl, -⟩ | ⟨back', hes⟩
    · exact hearned b hb
    · exact h.earned front y back' b hes hb
  backed front y back b hsplit hb := by
    rcases split_concat hsplit with ⟨rfl, rfl, -⟩ | ⟨back', hes⟩
    · exact hbacked b hb
    · exact h.backed front y back' b hes hb

/-- An agent's entry has the session of a token. -/
theorem agent_session {w : World} {ep : Endpoint} {rec : Record} {body : Body} {principal : PyStr}
    {session v : Json} {signed : Grant → Prop} (h : Admitted cfg w ep p rec body principal session)
    (hagent : body.agentOp?.isSome = true) (htoken : Unforged cfg.verify signed (p.get "token"))
    (hv : bindText cfg session = .ok v) : ∃ g, signed g ∧ v = .str g.session_id := by
  have hcap : ∀ {cap : Capability} {op : AgentOp}, Authority cfg w ep op p cap rec →
      bindText cfg cap.session_id = .ok v → ∃ g, signed g ∧ v = .str g.session_id := by
    intro cap op auth hv
    obtain ⟨g, hg, rfl⟩ := auth.checked.grant htoken
    exact ⟨g, hg, bindText_str hv⟩
  cases h with
  | hypothesis auth => exact hcap auth hv
  | hypothesis_status auth => exact hcap auth hv
  | recommendation auth => exact hcap auth hv
  | no_action auth => exact hcap auth hv
  | verdict auth => exact hcap auth hv
  | report auth => exact hcap auth hv
  | _ => cases hagent

theorem state_text_injective {s s' : EpisodeState} (h : s.text = s'.text) : s = s' := by
  have hs := EpisodeState.ofJson_text s
  rw [h, EpisodeState.ofJson_text] at hs
  exact (Option.some.inj hs).symm

/-- The key of a row that a section has written is the key of its request. -/
theorem request_key {w : World} {s : EpisodeStore} {ep : Endpoint} {d : Draft} {row : Row}
    (hdraft : Drafted cfg w s ep m p d ∨ Store.Opened cfg w s ep m p d) (hw : Written cfg w s d row) :
    m.idemKey cfg p = .str row.idem_key := by
  rw [hw.key]
  rcases hdraft with hdraft | hopened
  · have hkey := hdraft.key
    unfold keyText at hkey
    split at hkey
    · rename_i k hk
      split at hkey
      · cases hkey
      · rw [hk, bindStr_eq_ok hkey]
    · cases hkey
  · obtain ⟨idem, b, hdec, rfl⟩ := hopened.decided
    have hm := hopened.method
    subst hm
    exact (openDecision_fresh hdec).key

end Lemmas

/-! ## One step of the others -/

section Moves

variable {I : Installation} {σ : Site} {a : Act} {y : System} {c : Call} {e : PyStr} {x : Entry}

/-- What an entry that a section adds rests on. -/
structure Appended (I : Installation) (σ : Site) (e : PyStr) (x : Entry) : Prop where
  state : ∀ b, x.body = .state b → x.principal = py "controller" → Earned I e (σ.log e) b.dst ∧
    ∃ p, (.set_state, p) ∈ σ.sent ∧ p.get "episode_id" = .str e ∧
      p.get "expected_revision" = .int (σ.log e).length
  step : ∀ b, x.body = .step b → b.outcome = .ok →
    ∃ session, b.session_id = .str session ∧ ∃ y ∈ σ.log e, Writes b.role session y
  session : byAgent x → ∃ g ∈ σ.system.minted, (I.tidy → σ.session = some g.session_id) ∧
    x.session_id = .str g.session_id

theorem Regular.appended (h : Regular I σ) (ho : Others I σ a) (hsec : a.section? = some c)
    (hnew : NewEntry I.store σ.system c e x) : Appended I σ e x := by
  obtain ⟨d, row, hdraft, hw, hrow, -, hbody, he⟩ := hnew.draft
  cases hw.entry.symm.trans hrow
  rcases hdraft with hdraft | hopened
  · obtain ⟨e', hid, hrec⟩ := hdraft.found
    have he' : e' = e := (h.ledger.consistent.episode_id hrec).symm.trans he
    subst he'
    have hrev : d.record.revision = (σ.log e').length := h.ledger.consistent.revision hrec
    have hkind := hdraft.kind
    have hadm := hdraft.admitted
    refine ⟨fun b hb hp => ?_, fun b hb hok => ?_, fun hagent => ?_⟩
    · have hb : d.body = .state b := hb
      have hp : d.principal = py "controller" := hp
      generalize d.principal = principal at hadm hp
      generalize d.session_id = session at hadm
      rw [hb] at hadm hkind
      cases hadm with
      | state endpoint frm step requested expected =>
        have hep : c.endpoint = .control := by
          rcases endpoint with hep | hep
          · exact hep
          · rw [hep] at hp
            exact absurd hp (by decide)
        have hm : c.method = .set_state := by
          revert hkind
          cases c.method <;> first | (intro; rfl) | nofun
        have hsent := ho.served c hsec (.inl ⟨hep, .inl hm⟩)
        obtain ⟨n, dst, hn, hexpected, hdst, hearned⟩ := (h.requests _ _ hsent).state hm e' hid
        have hn' : n = (σ.log e').length := by
          rw [hexpected, hrev, Json.eqInt, decide_eq_true_eq] at expected
          exact Int.ofNat_inj.1 expected
        have hdst' : dst = b.dst := state_text_injective (Json.str.inj (hdst.symm.trans requested))
        rw [hn', List.take_length, hdst'] at hearned
        rw [hn'] at hexpected
        exact ⟨hearned, c.params, hm ▸ hsent, hid, hexpected⟩
    · have hb : d.body = .step b := hb
      generalize d.principal = principal at hadm
      generalize d.session_id = session at hadm
      rw [hb] at hadm hkind
      cases hadm with
      | step endpoint role session outcome =>
        have hm : c.method = .append_step := by
          revert hkind
          cases c.method <;> first | (intro; rfl) | nofun
        have hsent := ho.served c hsec (.inl ⟨endpoint, .inr hm⟩)
        rw [hok] at outcome
        rw [session]
        exact (h.requests _ _ hsent).step hm outcome e' b.role hid role
    · obtain ⟨g, ⟨hg, htidy⟩, hsession⟩ :=
        agent_session hadm hagent (ho.authentic c hsec) hw.session
      exact ⟨g, hg, htidy, hsession⟩
  · obtain ⟨idem, b, -, rfl⟩ := hopened.decided
    exact ⟨nofun, nofun, nofun⟩

theorem Others.minted_eq (ho : Others I σ a) (hm : Moves I.store σ.system a y) :
    y.minted = σ.system.minted := by
  cases hm with
  | mint => exact absurd rfl (ho.mints _)
  | _ => rfl

theorem unforged_mono {verify : VerifyKey} {signed signed' : Grant → Prop} {token : Json}
    (h : Unforged verify signed token) (hs : ∀ g, signed g → signed' g) :
    Unforged verify signed' token := by
  intro bundle_ok revoked body hbody
  obtain ⟨g, hg, heq⟩ := h bundle_ok revoked body hbody
  exact ⟨g, hs g hg, heq⟩

theorem Regular.keyed (h : Regular I σ) (ho : Others I σ a) (hm : Moves I.store σ.system a y) :
    ∀ row ∈ y.store.rows, ∀ session, row.idem_key = stepKey session →
      ∃ m p, (m, p) ∈ σ.sent ∧ m.idemKey I.store p = .str (stepKey session) := by
  intro row hrow session hkey
  rcases hm.effect with ⟨c, s, hsec, hchange, -, hstore, -, -⟩ | ⟨-, hup, -, -⟩ | ⟨-, hstore, -, -⟩
  · rw [hstore] at hrow
    rcases hchange.rows with ⟨hrows, -⟩ | ⟨d, row', os, hnew, hdraft, rfl⟩
    · exact h.keys row (hrows ▸ hrow) session hkey
    · rcases List.mem_append.1 hrow with hrow | hrow
      · exact h.keys row hrow session hkey
      · cases List.mem_singleton.1 hrow
        have hw := newRow_eq_ok (hdraft.elim (fun h => h.wf) (fun h => h.wf)) hnew
        have hreq := request_key hdraft hw
        rw [hkey] at hreq
        exact ⟨c.method, c.params, ho.served c hsec (.inr ⟨session, hreq⟩), hreq⟩
  · rw [(restart_rows hup).1] at hrow
    exact h.keys row hrow session hkey
  · exact h.keys row (hstore ▸ hrow) session hkey

/-- A step of the others lets the logs grow. -/
theorem Regular.growth (h : Regular I σ) (ho : Others I σ a) (hm : Moves I.store σ.system a y) :
    Grows I σ { σ with system := y } := by
  refine ⟨rfl, rfl, ho.minted_eq hm, fun e => ?_⟩
  rcases hm.entries e with hsame | ⟨c, x, hsec, hlog, hnew⟩
  · exact ⟨[], by rw [List.append_nil]; exact hsame, fun _ _ hx => absurd hx List.not_mem_nil⟩
  · refine ⟨[x], hlog, fun ht z hz hagent => ?_⟩
    cases List.mem_singleton.1 hz
    obtain ⟨g, -, htidy, hsession⟩ := (h.appended ho hsec hnew).session hagent
    exact ⟨_, htidy ht, hsession⟩

/-- **A step of the others keeps the invariant.** -/
theorem Regular.moves (h : Regular I σ) (ho : Others I σ a) (hm : Moves I.store σ.system a y) :
    Regular I { σ with system := y } := by
  have hgrows := h.growth ho hm
  have hled : Ledger I.store True y :=
    h.ledger.step (fun _ c hc => unforged_mono (ho.authentic c hc) fun _ hg => hg.1) hm
  refine ⟨hled, fun e => ?_, fun m p hmp => (h.requests m p hmp).mono hgrows.prefix_, ?_, ?_,
    h.keyed ho hm⟩
  · rcases hm.entries e with hsame | ⟨c, x, hsec, hlog, hnew⟩
    · show Governed I e (y.store.entries e)
      rw [hsame]
      exact h.governed e
    · have happ := h.appended ho hsec hnew
      show Governed I e (y.store.entries e)
      have hfollowed := hled.followed e
      rw [hlog] at hfollowed ⊢
      exact (h.governed e).snoc hfollowed (hled.vetted hlog) (fun b hb hp => (happ.state b hb hp).1)
        happ.step
  · intro e front x back b hsplit hb hp
    rcases hm.entries e with hsame | ⟨c, z, hsec, hlog, hnew⟩
    · exact h.stated e front x back b (hsame.symm.trans hsplit) hb hp
    · rcases split_concat (hlog.symm.trans hsplit) with ⟨rfl, rfl, -⟩ | ⟨back', hes⟩
      · exact ((h.appended ho hsec hnew).state b hb hp).2
      · exact h.stated e front x back' b hes hb hp
  · intro e x hx hagent
    show ∃ g ∈ y.minted, _
    rw [ho.minted_eq hm]
    rcases hm.entries e with hsame | ⟨c, z, hsec, hlog, hnew⟩
    · have hx : x ∈ y.store.entries e := hx
      rw [hsame] at hx
      exact h.sessions e x hx hagent
    · rcases List.mem_append.1 (hlog ▸ hx : x ∈ σ.log e ++ [z]) with hx | hx
      · exact h.sessions e x hx hagent
      · cases List.mem_singleton.1 hx
        obtain ⟨g, hg, -, hsession⟩ := (h.appended ho hsec hnew).session hagent
        exact ⟨g, hg, hsession⟩

/-- A request in order may be sent. -/
theorem Regular.sending (h : Regular I σ) {m : Method} {p : Params}
    (hreq : Owned m → Request I σ.log m p) : Regular I (σ.sending m p) := by
  unfold Site.sending
  split
  · rename_i hm
    refine ⟨h.ledger, h.governed, fun m' p' hmem => ?_, fun e front x back b hsplit hb hp => ?_, h.sessions,
      fun row hrow session hkey => ?_⟩
    · rcases List.mem_cons.1 hmem with heq | hmem
      · cases heq
        exact hreq hm
      · exact h.requests m' p' hmem
    · obtain ⟨p', hp', hrest⟩ := h.stated e front x back b hsplit hb hp
      exact ⟨p', List.mem_cons_of_mem _ hp', hrest⟩
    · obtain ⟨m', p', hmem, hrest⟩ := h.keys row hrow session hkey
      exact ⟨m', p', List.mem_cons_of_mem _ hmem, hrest⟩
  · exact h

theorem Regular.initial : Regular I {} where
  ledger := Ledger.initial rfl
  governed _ := Governed.nil
  requests _ _ h := absurd h List.not_mem_nil
  stated e front x back b h := by
    cases front <;> cases h
  sessions _ _ h := absurd h List.not_mem_nil
  keys _ h := absurd h List.not_mem_nil

end Moves

/-! ## Running a site -/

section Running

variable {I : Installation} {cfg : StoreConfig} {σ τ : Site} {c : Call}

/-- The key is that of a step. -/
def stepKeyed : Json → Bool
  | .str t => (py "step:").isPrefixOf t
  | _ => false

/-- A call that the others may make while sessions are tidy. -/
def Lawful (cfg : StoreConfig) (σ : Site) (c : Call) : Prop :=
  ¬ (c.endpoint = .control ∧ Owned c.method) ∧ stepKeyed (c.method.idemKey cfg c.params) = false ∧
    Unforged cfg.verify (· ∈ σ.system.minted.filter fun g => σ.session = some g.session_id)
      (c.params.get "token")

instance : Decidable (Lawful cfg σ c) :=
  inferInstanceAs (Decidable (_ ∧ _ ∧ Unforged cfg.verify (· ∈ σ.system.minted.filter _) _))

/-- The site after a call of the others, if they may make it. -/
def Site.served (cfg : StoreConfig) (σ : Site) (c : Call) : Option Site :=
  if Lawful cfg σ c ∧ c.method ≠ .append_verification ∧ FreshId c.world σ.system.store then
    some { σ with system := σ.system.ran cfg c }
  else none

theorem served_environment (h : σ.served I.store c = some τ) : Environment I σ τ := by
  unfold Site.served at h
  split at h
  · rename_i hc
    obtain ⟨⟨howned, hkey, htoken⟩, hwhole, hfresh⟩ := hc
    cases h
    refine ⟨.call c, _, ⟨fun g => nofun, ?_, ?_⟩, .call hwhole hfresh, rfl⟩
    · rintro _ ⟨⟩ (hboth | ⟨session, hsession⟩)
      · exact absurd hboth howned
      · rw [hsession] at hkey
        exact absurd hkey (by simp [stepKeyed, stepKey, List.isPrefixOf_iff_prefix])
    · rintro _ ⟨⟩
      refine unforged_mono htoken fun g hg => ?_
      obtain ⟨hg, hsession⟩ := List.mem_filter.1 hg
      exact ⟨hg, fun _ => of_decide_eq_true hsession⟩
  · cases h

/-- The site after some calls of the others. -/
def Site.servedAll (cfg : StoreConfig) (σ : Site) : List Call → Option Site
  | [] => some σ
  | c :: rest => (σ.served cfg c).bind fun τ => τ.servedAll cfg rest

theorem servedAll_environment : ∀ {cs : List Call} {σ : Site}, σ.servedAll I.store cs = some τ →
    Relation.ReflTransGen (Environment I) σ τ
  | [], _, h => by
    cases h
    exact .refl
  | _ :: _, _, h => by
    obtain ⟨υ, hc, hrest⟩ := Option.bind_eq_some_iff.1 h
    exact .head (served_environment hc) (servedAll_environment hrest)

instance (cfg : StoreConfig) (σ : Site) (session : PyStr) : Decidable (Unused cfg σ session) :=
  decidable_of_iff ((∀ g ∈ σ.system.minted, g.session_id ≠ session) ∧
      ∀ x ∈ σ.sent, x.1.idemKey cfg x.2 ≠ .str (stepKey session))
    ⟨fun h => ⟨h.1, fun m p hmp => h.2 (m, p) hmp⟩, fun h => ⟨h.minted, fun x hx => h.sent x.1 x.2 hx⟩⟩

/-- The site after an operation of the runner, where a call of the store is served at once and
everything else returns what `reply` says. -/
def Site.answered (cfg : StoreConfig) (w : World) (reply : Site → (o : Op) → Res o) (σ : Site) :
    (o : Op) → Option (Res o × Site)
  | .store m p =>
    if m ≠ .append_verification ∧ FreshId w σ.system.store then
      some ((handle cfg w σ.system.store .control m p).1,
        { σ.sending m p with system := σ.system.ran cfg ⟨w, .control, m, p⟩ })
    else none
  | .uuid4 =>
    let session : PyStr := reply σ .uuid4
    if Unused cfg σ session then some (session, { σ with session := some session }) else none
  | .mint e role session bundle_id ttl =>
    some (reply σ (.mint e role session bundle_id ttl), { σ with system := { σ.system with
      minted := ⟨e, role, session, bundle_id, .zero, py "n", .zero⟩ :: σ.system.minted } })
  | o => some (reply σ o, σ)

/-- The bundles that are loaded have the thresholds of the installation. -/
def Loads (I : Installation) (reply : Site → (o : Op) → Res o) : Prop :=
  ∀ (σ : Site) (v : Json) (bundle : Bundle), reply σ (.load v) = (.ok bundle : Except Exc Bundle) →
    ∀ th, bundle.thresholds = .ok th → ∃ id, v = .str id ∧ th = I.thresholds id

theorem answered_performs {w : World} {reply : Site → (o : Op) → Res o} (hload : Loads I reply) {o : Op}
    {x : Res o × Site} (h : σ.answered I.store w reply o = some x) : Performs I () σ o x.1 x.2 := by
  cases o with
  | store m p =>
    simp only [Site.answered] at h
    split at h
    · rename_i hm
      cases h
      exact .inr ⟨w, hm.1, hm.2, rfl, rfl⟩
    · cases h
  | uuid4 =>
    simp only [Site.answered] at h
    split at h
    · rename_i hunused
      cases h
      exact ⟨hunused, rfl⟩
    · cases h
  | mint e role session bundle_id ttl =>
    cases h
    exact .inr ⟨_, _, _, rfl⟩
  | load v =>
    cases h
    exact ⟨rfl, hload σ v⟩
  | _ =>
    cases h
    rfl

end Running

end Valops.Controller
