import Valops.Controller.Writing

/-!
# The runner among the others

The runner reads a record, starts a step under a session that is new, and asks for a change of state only
where the step has been recorded as ok and what it wrote has been read. So whatever the workers, the
verifier and the sentinel do, whatever is lost or served late, and wherever the controller is started anew,
every transition that the runner takes is earned.

Main results: `run_step_post`, `work_post`, `round_post`, and `governed_run` for every run.
-/

set_option autoImplicit false

namespace Valops.Controller

open Py Store Conc

variable (b : Builtins) {I : Installation} {σ : Site} {rec : Record} {role : Role} {bundle : Bundle}
  {kind : ReportKind} {m : Minted} {session : PyStr} {n : Nat}

/-! ## What is known while a step runs -/

/-- The record has been read, and no change of state has been asked for since. -/
structure Seen (I : Installation) (rec : Record) (σ : Site) : Prop where
  within : rec.revision ≤ (σ.log rec.episode_id).length
  read : recordAt I.store rec.episode_id ((σ.log rec.episode_id).take rec.revision) = rec
  sent : ∀ p, (.set_state, p) ∈ σ.sent → p.get "episode_id" = .str rec.episode_id →
    ∃ k : Nat, k ≤ rec.revision ∧ p.get "expected_revision" = .int k

/-- A session has been taken for a step on the record, at a place of the log. -/
structure Started (I : Installation) (rec : Record) (session : PyStr) (n : Nat) (σ : Site) : Prop where
  seen : Seen I rec σ
  after : rec.revision ≤ n
  place : n ≤ (σ.log rec.episode_id).length
  foreign : ∀ x ∈ (σ.log rec.episode_id).take n, byAgent x → x.session_id ≠ .str session
  current : σ.session = some session
  alone : I.tidy → ∀ x ∈ (σ.log rec.episode_id).drop n, byAgent x → x.session_id = .str session
  unsent : ∀ m p, (m, p) ∈ σ.sent → m.idemKey I.store p ≠ .str (stepKey session)

/-- The step has written its artefact. -/
def Wrote (rec : Record) (role : Role) (session : PyStr) (n : Nat) (σ : Site) : Prop :=
  ∃ x ∈ (σ.log rec.episode_id).drop n, Writes role session x

/-- The step has been recorded as ok. -/
structure Stepped (I : Installation) (rec : Record) (role : Role) (σ : Site) : Prop where
  seen : Seen I rec σ
  did : ∃ session n, rec.revision ≤ n ∧ n ≤ (σ.log rec.episode_id).length ∧
    σ.session = some session ∧ Did I.tidy (σ.log rec.episode_id) n role session

section Stability

variable {σ' : Site} {e : PyStr} {P : Entry → Prop}

theorem mem_drop_of_grows (h : Grows I σ σ') (hx : ∃ x ∈ (σ.log e).drop n, P x) :
    ∃ x ∈ (σ'.log e).drop n, P x := by
  obtain ⟨x, hx, hP⟩ := hx
  obtain ⟨new, hlog, -⟩ := h.log e
  refine ⟨x, ?_, hP⟩
  rw [hlog, List.drop_append]
  exact List.mem_append_left _ hx

/-- Who writes alone goes on alone. -/
theorem alone_of_grows (h : Grows I σ σ') (hn : n ≤ (σ.log e).length) (hsession : σ.session = some session)
    (halone : I.tidy → ∀ x ∈ (σ.log e).drop n, byAgent x → x.session_id = .str session) :
    I.tidy → ∀ x ∈ (σ'.log e).drop n, byAgent x → x.session_id = .str session := by
  intro ht x hx hagent
  obtain ⟨new, hlog, hnew⟩ := h.log e
  rw [hlog, List.drop_append_of_le_length hn] at hx
  rcases List.mem_append.1 hx with hx | hx
  · exact halone ht x hx hagent
  · obtain ⟨s, hs, hxs⟩ := hnew ht x hx hagent
    rw [hsession] at hs
    cases hs
    exact hxs

theorem seen_stable : Stable (siteDiscipline I) (Seen I rec) := by
  intro σ σ' h hgrows
  refine ⟨h.within.trans (hgrows.length_le _), ?_, fun p hp => ?_⟩
  · rw [hgrows.take h.within]
    exact h.read
  · rw [hgrows.sent] at hp
    exact h.sent p hp

theorem started_stable : Stable (siteDiscipline I) (Started I rec session n) := by
  intro σ σ' h hgrows
  refine ⟨seen_stable σ σ' h.seen hgrows, h.after, h.place.trans (hgrows.length_le _), ?_,
    hgrows.session.trans h.current, alone_of_grows hgrows h.place h.current h.alone, fun m p hp => ?_⟩
  · rw [hgrows.take h.place]
    exact h.foreign
  · rw [hgrows.sent] at hp
    exact h.unsent m p hp

theorem wrote_stable : Stable (siteDiscipline I) (Wrote rec role session n) :=
  fun _ _ h hgrows => mem_drop_of_grows hgrows h

theorem stepped_stable : Stable (siteDiscipline I) (Stepped I rec role) := by
  intro σ σ' h hgrows
  obtain ⟨session, n, hafter, hplace, hsession, hdid⟩ := h.did
  exact ⟨seen_stable σ σ' h.seen hgrows, session, n, hafter, hplace.trans (hgrows.length_le _),
    hgrows.session.trans hsession, mem_drop_of_grows hgrows hdid.recorded,
    mem_drop_of_grows hgrows hdid.wrote, alone_of_grows hgrows hplace hsession hdid.alone⟩

end Stability

/-- What has been sent names no later revision than the one that is read. -/
theorem Regular.seen (h : Regular I σ) (hrev : rec.revision = (σ.log rec.episode_id).length)
    (hread : rec = recordAt I.store rec.episode_id (σ.log rec.episode_id)) : Seen I rec σ where
  within := hrev.le
  read := by
    rw [hrev, List.take_length]
    exact hread.symm
  sent p hp he := by
    obtain ⟨k, dst, hk, hexpected, -, -⟩ := (h.requests _ p hp).state rfl _ he
    exact ⟨k, hk.trans hrev.ge, hexpected⟩

/-! ## Calm parts of a step -/

section Parts

theorem calm_input_view : IssuesE (Calm I) (input_view rec role) := by
  unfold input_view
  split
  · refine issuesE_bind (calm_call (calm_ask calm_read)) fun r => ?_
    exact issuesE_bind calm_compute fun v => issuesE_bind trivial fun _ => trivial
  · exact issuesE_bind (calm_call (calm_ask calm_read)) fun r => calm_compute

theorem calm_prepare : IssuesE (Calm I) (prepare b rec role bundle kind m) := by
  refine issuesE_bind (issuesE_bind calm_input_view fun view => ?_) fun home => ?_
  · refine issuesE_bind calm_compute fun inlined => issuesE_bind calm_compute fun spec => ?_
    exact issuesE_bind (calm_call (calm_ask trivial)) fun prompt => trivial
  · exact calm_call (calm_ask trivial)

theorem calm_launch {ms : Json} : IssuesE (Calm I) (launch b rec role bundle m ms) := by
  refine issuesE_bind calm_compute fun socket_path => issuesE_bind calm_compute fun adapter => ?_
  refine issuesE_bind calm_compute fun timeout_s => ?_
  refine issuesE_bind (calm_call (calm_ask trivial)) fun launched => ?_
  cases launched with
  | unavailable why => trivial
  | result res => exact issuesE_bind calm_audit fun _ => trivial

theorem calm_tryBlock : Issues (Calm I) (tryBlock b rec role bundle kind m) := by
  refine issues_bind (calm_ask trivial) fun r => ?_
  match r with
  | .error (.rpc _ _ _) => trivial
  | .error (.other _) => trivial
  | .ok ms =>
    refine issues_bind (calm_prepare b) fun r => ?_
    cases r with
    | error e => trivial
    | ok u => exact issues_bind (calm_launch b) fun r => trivial

/-- A step that ends early has failed. -/
theorem tryBlock_yields : Yields (fun left : Left => ∀ early, left.early = some early → early.ok = false)
    (tryBlock b rec role bundle kind m) := by
  have hlaunch : ∀ ms, YieldsE (fun r => ∀ early, r = .error early → early.ok = false)
      (launch b rec role bundle m ms) := by
    intro ms
    refine yieldsE_bind fun socket_path => yieldsE_bind fun adapter => yieldsE_bind fun timeout_s => ?_
    refine yieldsE_bind fun launched => ?_
    cases launched with
    | unavailable why =>
      refine yieldsE_pure fun early h => ?_
      cases h
      rfl
    | result res => exact yieldsE_bind fun _ => yieldsE_pure nofun
  intro r
  match r with
  | .error (.rpc _ _ _) =>
    intro early h
    cases h
    rfl
  | .error (.other _) =>
    intro early h
    cases h
  | .ok ms =>
    show Yields _ ((prepare b rec role bundle kind m).run.bind _)
    refine yields_bind (yields_any _) fun r _ => ?_
    cases r with
    | error e =>
      intro early h
      cases h
    | ok u =>
      refine yields_bind (hlaunch ms) fun r hr => ?_
      rcases r with e | early | res
      · exact nofun
      · intro early' h
        cases h
        exact hr _ rfl _ rfl
      · exact nofun

theorem calm_revokes {admins : List PyStr} : IssuesE (Calm I) (revokes session admins) := by
  induction admins with
  | nil => trivial
  | cons name rest ih =>
    exact issuesE_bind (calm_orRpc (calm_call (calm_ask trivial)) fun _ _ => trivial) fun _ => ih

theorem calm_closing {ms : Option (Option Json)} : IssuesE (Calm I) (closing session ms) := by
  match ms with
  | none => trivial
  | some none => trivial
  | some (some v) =>
    rw [closing]
    split
    · exact calm_orRpc (calm_call (calm_ask trivial)) fun _ _ => trivial
    · trivial

theorem calm_cost {e : PyStr} {meter : Decoded} {p : Params} (h : costParams b e role m meter = .ok p) :
    Calm I (.store .append_cost p) := by
  obtain ⟨usd, -, h⟩ := bind_eq_ok.1 h
  obtain ⟨usd', -, h⟩ := bind_eq_ok.1 h
  obtain ⟨turns, -, h⟩ := bind_eq_ok.1 h
  obtain ⟨turns', -, h⟩ := bind_eq_ok.1 h
  obtain ⟨input, -, h⟩ := bind_eq_ok.1 h
  obtain ⟨output, -, h⟩ := bind_eq_ok.1 h
  cases pure_eq_ok.1 h
  have howned : ¬ Owned .append_cost := by
    rintro (h | h) <;> cases h
  refine ⟨howned, rfl, fun session hkey => ?_⟩
  have hkey : (py "cost:" ++ m.session : PyStr) = stepKey session := Json.str.inj hkey
  have hhead : (99 : Nat) = 115 := congrArg (fun k : PyStr => k.headD 0) hkey
  exact absurd hhead (by decide)

theorem calm_cleanUp {admins : List PyStr} {e : PyStr} {left : Left} :
    IssuesE (Calm I) (cleanUp b admins e role m left) := by
  refine issuesE_bind calm_revokes fun _ => issuesE_bind calm_closing fun meter => ?_
  refine issuesE_bind calm_audit fun _ => issuesE_bind ?_ fun _ => ?_
  · unfold charging
    split
    · refine calm_computed fun p hp => calm_orRpc (calm_call ?_) fun _ _ => trivial
      exact issues_bind (calm_ask (calm_cost b hp)) fun _ => trivial
    · trivial
  · refine issuesE_bind ?_ fun _ => trivial
    unfold removing
    split
    · exact calm_call (calm_ask trivial)
    · trivial

end Parts

/-! ## One step -/

section Step

variable {admins : List PyStr}

/-- **A session is taken**: no agent has written under it, and no step has been sent for it. -/
theorem session_post (h : Seen I rec σ) : wpE (siteDiscipline I) () (reading (ask .uuid4) : Calls PyStr)
    (Post fun session σ' => ∃ n, Started I rec session n σ') σ := by
  refine post_op .uuid4 (fun r => .ok r) ?_
  rintro σ₁ session σ₂ h₁ hi ⟨hunused, rfl⟩
  refine ⟨hi.session _, ?_⟩
  rintro a ha σ₃ h₃ -
  cases ha
  have hseen := seen_stable σ σ₁ h h₁
  have hstarted : Started I rec session (σ₁.log rec.episode_id).length { σ₁ with session := some session } := by
    refine ⟨⟨hseen.within, hseen.read, hseen.sent⟩, hseen.within, le_rfl, ?_, rfl, ?_, hunused.sent⟩
    · intro x hx hagent hsession
      obtain ⟨g, hg, hgx⟩ := hi.sessions _ x (List.mem_of_mem_take hx) hagent
      exact hunused.minted g hg (Json.str.inj (hgx.symm.trans hsession))
    · intro _ x hx
      change x ∈ (σ₁.log rec.episode_id).drop (σ₁.log rec.episode_id).length at hx
      rw [List.drop_length] at hx
      exact absurd hx List.not_mem_nil
  exact ⟨_, started_stable _ _ hstarted h₃⟩

theorem begin_step_post (h : Started I rec session n σ) : wpE (siteDiscipline I) ()
    (begin_step b rec role bundle session)
    (Post fun m σ' => m.session = session ∧ Started I rec session n σ') σ := by
  refine post_bind (R := fun _ σ' => Started I rec session n σ')
    (post_compute fun _ _ σ' h₁ _ => started_stable σ σ' h h₁) fun conf σ₁ h₁ => ?_
  obtain ⟨conf_name, conf⟩ := conf
  refine post_bind (R := fun _ σ' => Started I rec session n σ')
    (post_compute fun _ _ σ' h₂ _ => started_stable σ₁ σ' h₁ h₂) fun ttl σ₂ h₂ => ?_
  refine post_bind (R := fun _ σ' => Started I rec session n σ') ?_ fun token σ₃ h₃ => ?_
  · refine post_op (.mint _ _ _ _ _) (fun r => raising (r : Except Exc PyStr)) ?_
    intro τ r τ' hτ hi hr
    have hbefore := started_stable σ₂ τ h₂ hτ
    rcases hr with ⟨rfl, -⟩ | ⟨exp, nonce, iat, rfl⟩
    · exact ⟨hi, fun _ _ τ'' h' _ => started_stable _ _ hbefore h'⟩
    · refine ⟨hi.mint _, fun _ _ τ'' h' _ => started_stable _ _ ?_ h'⟩
      exact ⟨⟨hbefore.seen.within, hbefore.seen.read, hbefore.seen.sent⟩, hbefore.after, hbefore.place,
        hbefore.foreign, hbefore.current, hbefore.alone, hbefore.unsent⟩
  · refine post_bind (R := fun _ σ' => Grows I σ₃ σ')
      (post_calm calming calm_audit fun _ σ' hgrows _ => hgrows) fun _ σ₄ h₄ => ?_
    exact post_pure fun σ' hgrows _ => ⟨rfl, started_stable _ _ h₃ (h₄.trans hgrows)⟩

/-- **What passes validation has been written** since the session was taken. -/
theorem validate_post {structured : Option Json} (h : Started I rec session n σ) :
    wpE (siteDiscipline I) () (validate b role rec.episode_id session kind structured)
      (Post fun out σ' => Started I rec session n σ' ∧ (out.ok = true → Wrote rec role session n σ')) σ := by
  refine post_bind (R := fun rec' σ' => Started I rec session n σ' ∧
    (Passes rec' role session kind → Wrote rec role session n σ')) ?_ fun rec' σ₁ h₁ => ?_
  · refine post_record ?_ ?_
    · exact fun rec' σ₁ σ₂ hR hgrows => ⟨started_stable _ _ hR.1 hgrows,
        fun hpass => wrote_stable _ _ (hR.2 hpass) hgrows⟩
    · intro σ₁ h₁ hi rec' _ _ hread
      have hstarted := started_stable σ σ₁ h h₁
      refine ⟨hstarted, fun hpass => ?_⟩
      rw [hread] at hpass
      have hsessions : ∀ x ∈ σ₁.log rec.episode_id, ∀ b, x.body = .hypothesis b →
          b.step_session = x.session_id := by
        intro x hx b hb
        obtain ⟨front, hvetted⟩ := (hi.governed _).vetted_of_mem hx
        exact hypothesis_session hvetted hb
      obtain ⟨x, hx, hwrites⟩ := written_of_validated hsessions hpass
      refine ⟨x, ?_, hwrites⟩
      rw [← List.take_append_drop n (σ₁.log rec.episode_id)] at hx
      rcases List.mem_append.1 hx with hx | hx
      · exact absurd hwrites.owner (hstarted.foreign x hx (byAgent_of_authors hwrites.author))
      · exact hx
  · refine post_bind (R := fun v σ' => Started I rec session n σ' ∧
      (v.1.ok = true → Wrote rec role session n σ')) ?_ fun v σ₂ h₂ => ?_
    · have hkeep : ∀ {v : Validation × Stored} {σ'}, Grows I σ₁ σ' →
          (v.1.ok = true → Passes rec' role session kind) → Started I rec session n σ' ∧
            (v.1.ok = true → Wrote rec role session n σ') := fun hgrows hv =>
        ⟨started_stable _ _ h₁.1 hgrows, fun hok => wrote_stable _ _ (h₁.2 (hv hok)) hgrows⟩
      cases role with
      | diagnostician => exact post_pure fun σ' hgrows _ => hkeep hgrows id
      | change_planner => exact post_pure fun σ' hgrows _ => hkeep hgrows id
      | proposal_judge => exact post_pure fun σ' hgrows _ => hkeep hgrows id
      | reporter =>
        refine post_bind (R := fun _ σ' => Grows I σ₁ σ') ?_ fun alerts σ₂ h₂ => ?_
        · exact post_calm calming (calm_call (calm_ask trivial)) fun _ σ' hgrows _ => hgrows
        · exact post_pure fun σ' hgrows _ => hkeep (h₂.trans hgrows) fun hok => ⟨alerts, hok⟩
    · split
      · refine post_pure fun σ' hgrows _ => ⟨started_stable _ _ h₂.1 hgrows, nofun⟩
      · rename_i hok
        have hok : v.1.ok = true := by simpa using hok
        refine post_bind (R := fun _ σ' => Grows I σ₂ σ') (post_compute fun _ _ σ' hgrows _ => hgrows)
          fun c σ₃ h₃ => ?_
        exact post_pure fun σ' hgrows _ => ⟨started_stable _ _ h₂.1 (h₃.trans hgrows),
          fun _ => wrote_stable _ _ (h₂.2 hok) (h₃.trans hgrows)⟩

/-- The variables that the `try` block leaves: a step that ended early has failed. -/
def Left.Sound (left : Left) : Prop := ∀ early, left.early = some early → early.ok = false

theorem stepOutcome_post {left : Left} (hleft : left.Sound) (hm : m.session = session)
    (h : Started I rec session n σ) : wpE (siteDiscipline I) () (stepOutcome b rec role bundle kind m left)
      (Post fun out σ' => Started I rec session n σ' ∧ (out.ok = true → Wrote rec role session n σ')) σ := by
  have hfailed : ∀ {out : StepOutcome} {σ'}, Grows I σ σ' → out.ok = false → Started I rec session n σ' ∧
      (out.ok = true → Wrote rec role session n σ') := fun hgrows hfail =>
    ⟨started_stable _ _ h hgrows, fun hok => absurd (hfail.symm.trans hok) Bool.false_ne_true⟩
  unfold stepOutcome
  split
  · rename_i early _ hearly
    exact post_pure fun σ' hgrows _ => hfailed hgrows (hleft _ hearly)
  · split
    · refine post_bind (R := fun _ σ' => Grows I σ σ') (post_compute fun _ _ σ' hgrows _ => hgrows)
        fun limit σ₁ h₁ => ?_
      exact post_pure fun σ' hgrows _ => hfailed (h₁.trans hgrows) rfl
    · rw [hm]
      exact validate_post b h
  · exact post_throw

theorem limited_ok (out : StepOutcome) (hit : Bool) : (out.limited hit).ok = out.ok := by
  unfold StepOutcome.limited
  split <;> rfl

theorem step_request {out : StepOutcome} (hm : m.session = session)
    (hwrote : out.ok = true → Wrote rec role session n σ) :
    Request I σ.log .append_step (stepParams rec role m out) where
  state hm := nomatch hm
  step _ hok e r he hr := by
    cases he
    cases Role.text_injective (Json.str.inj hr)
    have hout : out.ok = true := by
      by_contra hfail
      rw [Bool.not_eq_true] at hfail
      have htext : (if out.ok then Outcome.ok else Outcome.failed).text = Outcome.text .ok :=
        Json.str.inj hok
      rw [hfail] at htext
      exact absurd htext (by decide)
    obtain ⟨x, hx, hwrites⟩ := hwrote hout
    exact ⟨m.session, rfl, x, List.mem_of_mem_drop hx, hm.symm ▸ hwrites⟩

theorem log_ran {w : World} {method : Method} {p : Params} {e : PyStr} {cfg : StoreConfig} :
    Site.log { σ.sending method p with system := σ.system.ran cfg ⟨w, .control, method, p⟩ } e =
      (handle cfg w σ.system.store .control method p).2.entries e := rfl

theorem mem_drop_snoc {es : List Entry} {x : Entry} (hn : n ≤ es.length) : x ∈ (es ++ [x]).drop n := by
  rw [List.drop_append_of_le_length hn]
  exact List.mem_append_right _ (List.mem_singleton_self x)

/-- **A step that is answered is in the log**, after the place where its session was taken. -/
theorem storing_post {out : StepOutcome} (hm : m.session = session) (h : Started I rec session n σ)
    (hwrote : out.ok = true → Wrote rec role session n σ) : wpE (siteDiscipline I) ()
      (call (storing .append_step (stepParams rec role m out)))
      (Post fun _ σ' => out.ok = true → Stepped I rec role σ') σ := by
  refine post_op (.store .append_step (stepParams rec role m out))
    (fun r => raising (Except.map (fun _ => ()) r)) ?_
  intro σ₁ r σ₂ h₁ hi hp
  have hstarted := started_stable σ σ₁ h h₁
  have hwrote₁ : out.ok = true → Wrote rec role session n σ₁ := fun hok => wrote_stable σ σ₁ (hwrote hok) h₁
  obtain ⟨hi₂, h₂⟩ := hi.stored hp rfl (fun hno => absurd (.inr rfl) hno) fun _ => step_request hm hwrote₁
  refine ⟨hi₂, fun u hr σ₃ h₃ _ hok => stepped_stable σ₂ σ₃ ?_ h₃⟩
  have hsent : ∀ p, (.set_state, p) ∈ (σ₁.sending .append_step (stepParams rec role m out)).sent →
      (.set_state, p) ∈ σ₁.sent := by
    intro p hp
    rcases List.mem_cons.1 hp with heq | hp
    · cases heq
    · exact hp
  have hseen : Seen I rec (σ₁.sending .append_step (stepParams rec role m out)) :=
    ⟨hstarted.seen.within, hstarted.seen.read, fun p hp => hstarted.seen.sent p (hsent p hp)⟩
  have hsession₂ : σ₂.session = some session := h₂.session.trans hstarted.current
  have halone := alone_of_grows (n := n) (e := rec.episode_id) h₂ hstarted.place hstarted.current
    hstarted.alone
  refine ⟨seen_stable _ σ₂ hseen h₂, session, n, hstarted.after, hstarted.place.trans (h₂.length_le _),
    hsession₂, ?_, mem_drop_of_grows h₂ (hwrote₁ hok), halone⟩
  -- the request was served, since it was answered
  rcases hp with ⟨-, x, hx⟩ | ⟨w, -, hfresh, hres, rfl⟩
  · rw [hx] at hr
    cases hr
  have hreply : ∃ reply, (handle I.store w σ₁.system.store .control .append_step
      (stepParams rec role m out)).1 = .ok reply := by
    rw [hres] at hr
    cases hh : (handle I.store w σ₁.system.store .control .append_step (stepParams rec role m out)).1 with
    | ok reply => exact ⟨reply, rfl⟩
    | error x =>
      rw [hh] at hr
      cases hr
  obtain ⟨reply, hreply⟩ := hreply
  have hnew : ∀ row ∈ σ₁.system.store.rows, row.idem_key ≠ stepKey m.session := by
    intro row hrow hkey
    obtain ⟨m', p', hmem, hidem⟩ := hi.keys row hrow _ hkey
    exact hstarted.unsent m' p' hmem (hm ▸ hidem)
  have hepisode : (stepParams rec role m out).get "episode_id" = .str rec.episode_id := rfl
  obtain ⟨x, body, hentries, hbody, hrole, hsession, houtcome⟩ :=
    step_recorded hi.ledger.consistent hfresh hreply hepisode rfl hnew
  refine ⟨x, ?_, body, hbody, ?_, ?_, ?_⟩
  · rw [log_ran, hentries]
    exact mem_drop_snoc hstarted.place
  · exact (Role.text_injective (Json.str.inj hrole)).symm
  · have hget : (stepParams rec role m out).get "session_id" = .str m.session := rfl
    rw [hsession, hget, hm]
  · have htext : (if out.ok then Outcome.ok else Outcome.failed).text = body.outcome.text :=
      Json.str.inj houtcome
    rw [hok] at htext
    cases hb : body.outcome with
    | ok => rfl
    | failed =>
      rw [hb] at htext
      exact absurd htext (by decide)

/-- **A step that is ok** has been recorded, and has written its artefact. -/
theorem run_step_post (h : Seen I rec σ) : wpE (siteDiscipline I) () (run_step b admins rec role bundle kind)
    (Post fun out σ' => out.ok = true → Stepped I rec role σ') σ := by
  refine post_bind (session_post h) fun session σ₁ ⟨n, h₁⟩ => ?_
  refine post_bind (begin_step_post b h₁) fun m σ₂ ⟨hm, h₂⟩ => ?_
  refine post_bind (R := fun left σ' => left.Sound ∧ Started I rec session n σ') ?_
    fun left σ₃ ⟨hleft, h₃⟩ => ?_
  · refine wp_bind (wp_yields calming (calm_tryBlock b) (tryBlock_yields b) fun left σ' hleft hgrows _ => ?_)
    exact fun σ'' hgrows' _ => ⟨hleft, started_stable _ _ h₂ (hgrows.trans hgrows')⟩
  refine post_bind (R := fun _ σ' => Started I rec session n σ')
    (post_calm calming (calm_cleanUp b) fun _ σ' hgrows _ => started_stable _ _ h₃ hgrows) fun meter σ₄ h₄ => ?_
  refine post_bind (R := fun _ σ' => Started I rec session n σ') ?_ fun _ σ₅ h₅ => ?_
  · cases left.raised with
    | none => exact fun σ' hgrows _ => started_stable _ _ h₄ hgrows
    | some e => exact fun _ _ _ => trivial
  refine post_bind (R := fun _ σ' => Started I rec session n σ')
    (post_compute fun _ _ σ' hgrows _ => started_stable _ _ h₅ hgrows) fun hit σ₆ h₆ => ?_
  refine post_bind (stepOutcome_post b hleft hm h₆) fun out σ₇ ⟨h₇, hwrote⟩ => ?_
  refine post_bind (storing_post hm h₇ fun hok => hwrote (limited_ok out hit ▸ hok)) fun _ σ₈ h₈ => ?_
  exact post_pure fun σ' hgrows _ hok => stepped_stable σ₈ σ' (h₈ hok) hgrows

end Step

/-! ## One episode -/

section Episode

variable {admins : List PyStr} {e reason : PyStr} {state : EpisodeState} {pf : Preflight}

/-- What is read is known. -/
theorem seen_post : wpE (siteDiscipline I) () (record e) (Post fun rec σ' => Seen I rec σ') σ :=
  post_record (fun _ => seen_stable) fun σ₁ _ hi rec he hrev hread => by
    subst he
    exact hi.seen hrev hread

/-- An episode may be handed off after it has been read. -/
theorem recorded_hand_off_post {severity : Severity} {text : Record → PyStr} :
    wpE (siteDiscipline I) () (record e >>= fun rec => hand_off b rec (text rec) severity)
      (Post fun _ _ => True) σ :=
  post_bind seen_post fun _ _ hseen => post_hand_off b hseen.within

theorem after_failure_post {out : StepOutcome} :
    wpE (siteDiscipline I) () (_after_failure b rec role out bundle) (Post fun _ _ => True) σ := by
  refine post_bind seen_post fun rec' σ₁ h₁ => ?_
  split
  · exact post_hand_off b h₁.within
  · refine post_bind (R := fun _ σ' => Seen I rec' σ')
      (post_compute fun _ _ σ' hgrows _ => seen_stable _ _ h₁ hgrows) fun fails σ₂ h₂ => ?_
    refine post_bind (R := fun _ σ' => Seen I rec' σ')
      (post_compute fun _ _ σ' hgrows _ => seen_stable _ _ h₂ hgrows) fun limit σ₃ h₃ => ?_
    split
    · exact post_hand_off b h₃.within
    · exact post_pure fun _ _ _ => trivial

/-- The thresholds of the bundle are those of the record's bundle. -/
def Bound (I : Installation) (rec : Record) (bundle : Bundle) : Prop :=
  ∀ th, bundle.thresholds = .ok th → ∃ id, rec.bundle = .str id ∧ th = I.thresholds id

theorem load_post (h : Seen I rec σ) : wpE (siteDiscipline I) () (call (ask (.load rec.bundle)))
    (Post fun bundle σ' => Bound I rec bundle ∧ Seen I rec σ') σ := by
  refine post_op (.load rec.bundle) (fun r => raising (r : Except Exc Bundle)) ?_
  rintro σ₁ r σ₂ h₁ hi ⟨rfl, hbound⟩
  exact ⟨hi, fun bundle hr σ₃ h₃ _ => ⟨hbound bundle (ok_of_raising hr), seen_stable _ _ h (h₁.trans h₃)⟩⟩

/-- Either the episode has been handed off, or its bundle has no problem and it has not been touched. -/
theorem bundle_problem_post (h : Seen I rec σ) : wpE (siteDiscipline I) () (_bundle_problem b rec)
    (Post fun problem σ' => problem = false → Seen I rec σ') σ := by
  have hkeep : ∀ {τ τ' : Site}, Seen I rec τ → Grows I τ τ' → Seen I rec τ' :=
    fun hs hgrows => seen_stable _ _ hs hgrows
  refine post_bind (R := fun _ σ' => Seen I rec σ') ?_ fun problem σ₁ h₁ => ?_
  · exact post_calm calming (calm_call (calm_ask trivial)) fun _ σ' hgrows _ => hkeep h hgrows
  cases problem with
  | some text =>
    dsimp only
    split
    · refine post_bind (post_hand_off b h₁.within) fun _ _ _ => ?_
      exact post_pure fun _ _ _ hno => nomatch hno
    · refine post_bind (R := fun _ _ => True) (post_compute fun _ _ _ _ _ => trivial) fun id _ _ => ?_
      refine post_bind (R := fun _ _ => True) ?_ fun _ _ _ => ?_
      · exact post_calm calming (calm_call (calm_ask trivial)) fun _ _ _ _ => trivial
      refine post_bind (R := fun _ _ => True) (post_calm calming calm_alert fun _ _ _ _ => trivial)
        fun _ _ _ => ?_
      exact post_pure fun _ _ _ hno => nomatch hno
  | none =>
    refine post_bind (R := fun _ σ' => Seen I rec σ') ?_ fun sup σ₂ h₂ => ?_
    · exact post_calm calming (calm_call (calm_ask trivial)) fun _ σ' hgrows _ => hkeep h₁ hgrows
    split
    · refine post_bind (R := fun _ σ' => Seen I rec σ') ?_ fun bundle σ₃ h₃ => ?_
      · exact post_calm calming (calm_call (calm_ask trivial)) fun _ σ' hgrows _ => hkeep h₂ hgrows
      refine post_bind (R := fun _ σ' => Seen I rec σ') ?_ fun t σ₄ h₄ => ?_
      · exact post_calm calming (issues_bind (calm_ask trivial) fun _ => trivial)
          fun _ σ' hgrows _ => hkeep h₃ hgrows
      refine post_bind (R := fun _ σ' => Seen I rec σ')
        (post_compute fun _ _ σ' hgrows _ => hkeep h₄ hgrows) fun since σ₅ h₅ => ?_
      refine post_bind (R := fun _ σ' => Seen I rec σ')
        (post_compute fun _ _ σ' hgrows _ => hkeep h₅ hgrows) fun drain σ₆ h₆ => ?_
      -- the product is not to be evaluated
      generalize hours drain = product
      refine post_bind (R := fun _ σ' => Seen I rec σ')
        (post_compute fun _ _ σ' hgrows _ => hkeep h₆ hgrows) fun limit σ₇ h₇ => ?_
      split
      · refine post_bind (post_hand_off b h₇.within) fun _ _ _ => ?_
        exact post_pure fun _ _ _ hno => nomatch hno
      · exact post_pure fun σ' hgrows _ _ => hkeep h₇ hgrows
    · exact post_pure fun σ' hgrows _ _ => hkeep h₂ hgrows

/-- **What the runner decides after a step is earned** by what it has read. -/
theorem decided {rec' : Record} {dst : EpisodeState} (hi : Regular I σ) (h : Stepped I rec role σ)
    (hstate : rec.state = some state) (hrole : roleOf state = some role) (hbound : Bound I rec bundle)
    (hread : rec' = recordAt I.store rec.episode_id (σ.log rec.episode_id))
    (hroute : route I.builtins bundle state rec' = .ok (.go dst reason)) :
    Earned I rec.episode_id (σ.log rec.episode_id) dst := by
  obtain ⟨session, n, hafter, -, -, hdid⟩ := h.did
  rw [hread] at hroute
  refine earned_of_route (hi.governed _).followed hafter ?_ hrole ?_ hdid ?_ hroute
  · rw [h.seen.read]
    exact hstate
  · intro front x back body hsplit hbody hp
    obtain ⟨p, hsent, hid, hexpected⟩ := hi.stated _ front x back body hsplit hbody hp
    obtain ⟨k, hk, hexpected'⟩ := h.seen.sent p hsent hid
    rw [hexpected] at hexpected'
    exact (Int.ofNat_inj.1 (Json.int.inj hexpected')).le.trans hk
  · rw [h.seen.read]
    exact hbound

/-- **A step and where it leads.** -/
theorem work_post (h : Seen I rec σ) (hstate : rec.state = some state) (hbound : Bound I rec bundle) :
    wpE (siteDiscipline I) () (work I.builtins admins rec bundle state) (Post fun _ _ => True) σ := by
  refine post_bind (R := fun role σ' => roleOf state = some role ∧ Seen I rec σ')
    (post_compute fun role hrole σ' hgrows _ => ⟨orRaise_eq_ok.1 hrole, seen_stable _ _ h hgrows⟩)
    fun role σ₁ ⟨hrole, h₁⟩ => ?_
  refine post_bind (R := fun out σ' => ∀ o, out = some o → o.ok = true → Stepped I rec role σ') ?_
    fun out σ₂ h₂ => ?_
  · refine post_tryCatch ?_ ?_ fun e σ' => ?_
    · refine post_bind (run_step_post I.builtins h₁) fun out σ₂ h₂ => post_pure fun σ' hgrows _ o ho hok => ?_
      cases ho
      exact stepped_stable σ₂ σ' (h₂ hok) hgrows
    · exact fun out σ σ' hR hgrows o ho hok => stepped_stable σ σ' (hR o ho hok) hgrows
    · match e with
      | .isolation text =>
        exact post_bind seen_post fun _ _ hs => post_bind (post_hand_off _ hs.within) fun _ _ _ =>
          post_pure fun _ _ _ => nofun
      | .exc (.rpc _ _ _) => exact post_throw
      | .exc (.other x) =>
        cases x with
        | assertionError =>
          exact post_bind seen_post fun _ _ hs => post_bind (post_hand_off _ hs.within) fun _ _ _ =>
            post_pure fun _ _ _ => nofun
        | _ => exact post_throw
  cases out with
  | none => exact post_pure fun _ _ _ => trivial
  | some out =>
    dsimp only
    split
    · exact after_failure_post I.builtins
    · rename_i hok
      have hstepped := h₂ out rfl (by simpa using hok)
      refine post_bind (R := fun rec' σ' => Seen I rec' σ' ∧ ∀ dst reason,
        route I.builtins bundle state rec' = .ok (.go dst reason) →
          Earned I rec'.episode_id ((σ'.log rec'.episode_id).take rec'.revision) dst) ?_ fun rec' σ₃ h₃ => ?_
      · refine post_record ?_ ?_
        · intro rec' τ τ' hR hgrows
          refine ⟨seen_stable _ _ hR.1 hgrows, fun dst reason hroute => ?_⟩
          rw [hgrows.take hR.1.within]
          exact hR.2 dst reason hroute
        · intro τ hτ hi rec' he hrev hread
          rw [← he] at hrev
          refine ⟨hi.seen hrev (he ▸ hread), fun dst reason hroute => ?_⟩
          rw [hrev, List.take_length, he]
          exact decided hi (stepped_stable _ _ hstepped hτ) hstate hrole hbound hread hroute
      · refine post_bind (R := fun r σ' => Seen I rec' σ' ∧ ∀ dst reason, r = .go dst reason →
          Earned I rec'.episode_id ((σ'.log rec'.episode_id).take rec'.revision) dst) ?_ fun r σ₄ h₄ => ?_
        · refine post_compute fun r hr σ' hgrows _ => ⟨seen_stable _ _ h₃.1 hgrows, ?_⟩
          rintro dst reason rfl
          rw [hgrows.take h₃.1.within]
          exact h₃.2 dst reason hr
        · cases r with
          | go dst reason =>
            exact post_bind (post_transition h₄.1.within (h₄.2 dst reason rfl)) fun _ _ _ =>
              post_pure fun _ _ _ => trivial
          | handOff reason => exact post_hand_off _ h₄.1.within

theorem closure_post (h : Seen I rec σ) : wpE (siteDiscipline I) () (_closure b admins rec bundle pf)
    (Post fun _ _ => True) σ := by
  unfold _closure
  split
  · exact post_pure fun _ _ _ => trivial
  · refine post_bind (R := fun _ σ' => Seen I rec σ')
      (post_compute fun _ _ σ' hgrows _ => seen_stable _ _ h hgrows) fun limit σ₁ h₁ => ?_
    split
    · exact post_calm calming calm_alert fun _ _ _ _ => trivial
    · split
      · exact post_pure fun _ _ _ => trivial
      · exact post_bind (run_step_post b h₁) fun _ _ _ => post_pure fun _ _ _ => trivial

theorem earned_of_open {log : List Entry} {dst : EpisodeState} (h : (recordAt I.store e log).state = some .open) :
    Earned I e log dst := by
  intro frm hfrm _ _ hopen
  exact absurd (Option.some.inj (hfrm.symm.trans h)) hopen

/-- **One episode.** -/
theorem advance_post : wpE (siteDiscipline I) () (advance I.builtins admins e pf) (Post fun _ _ => True) σ := by
  refine post_bind seen_post fun rec σ₁ h₁ => ?_
  split
  · exact post_pure fun _ _ _ => trivial
  refine post_bind (bundle_problem_post I.builtins h₁) fun problem σ₂ h₂ => ?_
  split
  · exact post_pure fun _ _ _ => trivial
  rename_i hproblem
  refine post_bind (load_post (h₂ (by simpa using hproblem))) fun bundle σ₃ ⟨hbound, h₃⟩ => ?_
  split
  · exact closure_post I.builtins h₃
  split
  · exact post_pure fun _ _ _ => trivial
  split
  · rename_i hopen
    refine post_bind (post_transition h₃.within (earned_of_open ?_)) fun _ _ _ => post_pure fun _ _ _ => trivial
    rw [h₃.read]
    exact hopen
  · rename_i hstate
    exact work_post h₃ hstate hbound
  · exact post_throw

end Episode

/-! ## The pre-flight -/

section Preflight

variable {admins alerted rest : List PyStr} {every : Double}

theorem calm_brokerReasons : IssuesE (Calm I) (brokerReasons admins) := by
  induction admins with
  | nil => trivial
  | cons name rest ih =>
    refine issuesE_bind (calm_orRpc (issuesE_bind ?_ fun _ => trivial) fun _ _ => trivial) fun _ => ?_
    · exact calm_call (calm_ask trivial)
    · exact issuesE_bind ih fun _ => trivial

theorem calm_run {interval lag : Json} : IssuesE (Calm I) (run b admins interval lag) := by
  refine issuesE_bind (issuesE_bind (calm_call (calm_ask trivial)) fun _ => trivial) fun _ => ?_
  refine issuesE_bind (issuesE_bind (calm_call (calm_ask trivial)) fun active => ?_) fun _ => ?_
  · cases active with
    | none => trivial
    | some a =>
      refine issuesE_bind (calm_call (calm_ask trivial)) fun r => ?_
      cases r <;> trivial
  refine issuesE_bind (calm_orRpc ?_ fun _ _ => trivial) fun _ => ?_
  · exact issuesE_bind (calm_call (calm_ask trivial)) fun _ => calm_compute
  refine issuesE_bind calm_brokerReasons fun _ => issuesE_bind ?_ fun _ => trivial
  refine issuesE_bind (calm_call (calm_ask trivial)) fun why => ?_
  cases why <;> trivial

theorem calm_activeThresholds : IssuesE (Calm I) activeThresholds := by
  refine issuesE_bind (calm_call (calm_ask trivial)) fun active => ?_
  cases active with
  | none => trivial
  | some a =>
    refine issuesE_bind (calm_call (calm_ask trivial)) fun problem => ?_
    cases problem with
    | some r => trivial
    | none =>
      refine issuesE_bind (calm_call (calm_ask trivial)) fun bundle => ?_
      exact issuesE_bind calm_compute fun _ => trivial

theorem calm_latchReasons : IssuesE (Calm I) (latchReasons rest) := by
  induction rest with
  | nil => trivial
  | cons r rest ih =>
    rw [latchReasons]
    split
    · exact issuesE_bind (calm_call (calm_ask trivial)) fun _ => ih
    · exact ih

theorem calm_alertReasons {severity : PyStr → Severity} :
    ∀ {alerted : List PyStr}, IssuesE (Calm I) (alertReasons severity rest alerted) := by
  induction rest with
  | nil => exact fun {_} => trivial
  | cons r rest ih =>
    intro alerted
    rw [alertReasons]
    split
    · exact ih
    · exact issuesE_bind calm_alert fun _ => ih

theorem calm_alertWarnings : ∀ {alerted : List PyStr}, IssuesE (Calm I) (alertWarnings rest alerted) := by
  induction rest with
  | nil => exact fun {_} => trivial
  | cons r rest ih =>
    intro alerted
    rw [alertWarnings]
    split
    · exact ih
    · exact issuesE_bind calm_alert fun _ => ih

theorem calm_preflight : IssuesE (Calm I) (preflight b admins alerted) := by
  refine issuesE_bind calm_activeThresholds fun th => issuesE_bind calm_compute fun interval => ?_
  refine issuesE_bind calm_compute fun lag => issuesE_bind (calm_run b) fun pf => ?_
  refine issuesE_bind calm_latchReasons fun _ => issuesE_bind calm_alertReasons fun alerted => ?_
  exact issuesE_bind calm_alertWarnings fun _ => trivial

theorem calm_verify_chain_now : IssuesE (Calm I) verify_chain_now := by
  refine issuesE_bind (calm_call (calm_ask trivial)) fun report => ?_
  cases report with
  | none => trivial
  | some report =>
    dsimp only
    split
    · trivial
    · exact issuesE_bind (calm_call (calm_ask trivial)) fun _ => calm_alert

end Preflight

/-! ## The loop -/

section Tick

variable {admins alerted : List PyStr} {e reason : PyStr} {pf : Preflight} {every : Double} {mem : Memory}

theorem giveUp_post : wpE (siteDiscipline I) () (giveUp b e reason) (Post fun _ _ => True) σ := by
  refine post_tryCatch (recorded_hand_off_post b) (fun _ _ _ _ _ => trivial) fun x σ' => ?_
  match x with
  | .exc (.rpc _ _ _) => exact post_pure fun _ _ _ => trivial
  | .exc (.other _) => exact post_throw
  | .isolation _ => exact post_throw

theorem tickEpisode_post {ep : EpisodeSummary} :
    wpE (siteDiscipline I) () (tickEpisode I.builtins admins pf ep) (Post fun _ _ => True) σ := by
  unfold tickEpisode
  split
  · exact post_pure fun _ _ _ => trivial
  · refine post_tryCatch advance_post (fun _ _ _ _ _ => trivial) fun x σ' => ?_
    match x with
    | .exc (.rpc code _ _) =>
      dsimp only
      split
      · exact post_pure fun _ _ _ => trivial
      · exact giveUp_post _
    | .exc (.other _) => exact giveUp_post _
    | .isolation _ => exact giveUp_post _

theorem tickEpisodes_post : ∀ {eps : List EpisodeSummary} {σ : Site}, wpE (siteDiscipline I) ()
    (tickEpisodes I.builtins admins pf eps) (Post fun _ _ => True) σ
  | [], _ => post_pure fun _ _ _ => trivial
  | _ :: _, _ => post_bind tickEpisode_post fun _ _ _ => tickEpisodes_post

theorem calm_list : Calm I (.store .list_episodes listParams) := by
  refine ⟨?_, rfl, fun _ => nofun⟩
  rintro (h | h) <;> cases h

theorem tickAll_post : wpE (siteDiscipline I) () (tickAll I.builtins admins pf) (Post fun _ _ => True) σ := by
  refine post_bind (R := fun _ _ => True) (post_calm calming (calm_orRpc ?_ fun code text => ?_)
    fun _ _ _ _ => trivial) fun eps σ' _ => ?_
  · refine issuesE_bind (calm_call (calm_ask calm_list)) fun r => ?_
    exact issuesE_bind calm_compute fun _ => trivial
  · exact issuesE_bind calm_alert fun _ => trivial
  · cases eps with
    | none => exact post_pure fun _ _ _ => trivial
    | some eps => exact tickEpisodes_post

/-- **One tick**, from wherever the last one left. -/
theorem tick_post : wpE (siteDiscipline I) () (tick I.builtins admins alerted) (Post fun _ _ => True) σ := by
  refine post_bind (R := fun _ _ => True) (post_calm calming (calm_preflight _) fun _ _ _ _ => trivial)
    fun pf σ₁ _ => ?_
  exact post_bind tickAll_post fun _ _ _ => post_pure fun _ _ _ => trivial

theorem calm_now : IssuesE (Calm I) (reading (ask .now) : Calls Double) :=
  issues_bind (calm_ask trivial) fun _ => trivial

/-- **One round of the loop.** -/
theorem round_post : wpE (siteDiscipline I) () (round I.builtins admins every mem) (Post fun _ _ => True) σ := by
  have htick : ∀ (last : Double) (σ : Site), wpE (siteDiscipline I) () (do
      let alerted ← tick I.builtins admins mem.alerted
      pure (⟨last, alerted⟩ : Memory)) (Post fun _ _ => True) σ :=
    fun last σ => post_bind tick_post fun _ _ _ => post_pure fun _ _ _ => trivial
  refine post_bind (R := fun _ _ => True) (post_calm calming calm_now fun _ _ _ _ => trivial) fun t σ₁ _ => ?_
  dsimp only
  split
  · refine post_bind (R := fun _ _ => True) (post_calm calming ?_ fun _ _ _ _ => trivial) fun _ σ₂ _ => ?_
    · exact issuesE_tryCatch calm_verify_chain_now fun _ => trivial
    · exact post_bind (R := fun _ _ => True) (post_calm calming calm_now fun _ _ _ _ => trivial)
        fun last σ₃ _ => htick last σ₃
  · exact post_bind (R := fun _ _ => True) (post_pure fun _ _ _ => trivial) fun last σ₂ _ => htick last σ₂

end Tick

/-! ## Every run -/

/-- The sites that a run reaches: the loop of the controller at a new store, among the others, with
restarts of the controller at any point. -/
def Reaches (I : Installation) (admins : List PyStr) (every : Double) (σ : Site) : Prop :=
  ∃ p, Loop.Reach (Performs I ()) (Environment I) (goOn I.builtins admins every)
    (round I.builtins admins every {}).run (fun _ => True) (· = {}) (p, σ)

/-- **In every run the runner is governed.** -/
theorem governed_run {admins : List PyStr} {every : Double} (h : Reaches I admins every σ) : Regular I σ := by
  obtain ⟨p, h⟩ := h
  refine (Loop.sound (siteDiscipline I) (Q := fun _ _ => True) ?_ ?_ ?_ ?_ h).1
  · rintro σ _ hi ⟨a, y, ho, hm, rfl⟩
    exact ⟨hi.moves ho hm, hi.growth ho hm⟩
  · intro r p σ _ _ hp
    cases r with
    | ok mem =>
      cases hp
      exact wp_conseq (fun _ _ _ => trivial) round_post
    | error e => cases hp
  · exact fun σ _ _ => wp_conseq (fun _ _ _ => trivial) round_post
  · rintro σ rfl
    exact ⟨Regular.initial, wp_conseq (fun _ _ _ => trivial) round_post⟩

end Valops.Controller
