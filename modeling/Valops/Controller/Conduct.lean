import Valops.Controller.Governance

/-!
# How the runner conducts an episode

What a governed run means for the episodes: why each transition was taken, how often the judge sends an
episode back and how long it gets, what stands behind what is reported, and what a diagnosis rests on.

Main results: `transitions_earned`, `judge_loop`, `reported_was_judged`, `top_of_last_step`, `diagnosis`.
-/

set_option autoImplicit false

namespace Valops.Controller

open Py Store Conc Retries

variable {I : Installation} {admins : List PyStr} {every : Double} {σ : Site} {e : PyStr} {rec : Record}
  {front back es : List Entry} {x : Entry} {b : StateBody}

/-! ## Records -/

/-- What is stored of an episode is what its log says. -/
theorem record_of_reaches (h : Reaches I admins every σ) (hrec : σ.system.store.records.get? e = some rec) :
    rec = recordAt I.store e (σ.log e) :=
  (governed_run h).ledger.consistent.exact trivial e rec hrec

/-- The diagnostician's steps that are recorded as ok. -/
def diagnoses (rec : Record) : List Store.Step :=
  rec.steps.filter fun s => s.role = .diagnostician ∧ s.outcome = .ok

/-! ## A run -/

/-- The thresholds of the only bundle. -/
def runThresholds : Json :=
  .obj [(py "P-05", .obj [(Role.text .diagnostician, .int 1)]),
    (py "P-06", .obj [(Role.text .diagnostician, .int 1)]), (py "P-08", .int 1), (py "P-09", .int 1),
    (py "P-10", .int 60), (py "P-11", .int 60), (py "P-12", .int 1), (py "P-18", .int 1),
    (py "P-19", .int 2)]

/-- The bundle; one configuration is for the diagnostician. -/
def runBundle (id : PyStr) : Bundle where
  id := id
  thresholds := .ok runThresholds
  deployment := .ok (.obj [])
  providers := .ok (.obj [(py "configurations", .obj [(py "c", .obj [(py "adapter", .str (py "native"))])]),
    (py "roles", .obj [(Role.text .diagnostician, .str (py "c"))])])

/-- An installation with that bundle, whose sessions are tidy. -/
def runInstallation : Installation where
  store := tokenConfig
  builtins := sampleBuiltins
  thresholds _ := runThresholds
  tidy := True

/-- What is not a call of the store goes well. A session is one letter. -/
def runReply (σ : Site) : (o : Op) → Res o
  | .store _ _ => .ok (.json .null)
  | .system_alert _ => .ok ()
  | .alerts_for _ _ => .ok []
  | .submit _ _ _ => .ok ()
  | .audit_status => .ok (.obj [(py "anchor_lag_s", .int 0)])
  | .ping _ => .ok ()
  | .revoke_session _ _ => .ok ()
  | .open_session _ _ _ _ => .ok (.obj [(py "socket_path", .str (py "s"))])
  | .close_session _ => .ok noMeter
  | .active => .ok (some sampleBundle)
  | .verify _ => .ok none
  | .load v => match v with
    | .str id => .ok (runBundle id)
    | _ => .error (.other .typeError)
  | .superseded_at _ => .ok .null
  | .flag_get => .ok .null
  | .flag_set _ => .ok ()
  | .launcher_preflight => .ok none
  | .launch _ _ _ _ => .ok (.result ⟨some 0, false, none⟩)
  | .read_prompt _ _ _ => .ok []
  | .build_home _ _ => .ok ()
  | .remove_home _ => .ok ()
  | .now => .zero
  | .uuid4 => [97 + σ.system.minted.length]
  | .mint e role session bundle_id _ => mint sampleSign ⟨e, role, session, bundle_id, .zero, py "n", .zero⟩
  | .verify_chain => .ok none

theorem runReply_loads : Loads runInstallation runReply := by
  intro σ v bundle h th hth
  cases v with
  | str id =>
    cases h
    cases hth
    exact ⟨id, rfl, rfl⟩
  | _ => cases h

/-- What the others do before an operation of the runner: the sentinel opens an episode, the worker
writes a hypothesis, and the verifier sees a recovery before the worker's home is removed. -/
def runCalls (σ : Site) : Op → List Call
  | .now => if σ.system.store.rows.isEmpty then [openCall "e" "k1" "slots" "v"] else []
  | .launch _ _ _ _ => σ.system.minted.map fun g =>
    ⟨sampleWorld "-", .agent, .append_hypothesis, agentParams g "D:1"
      [(py "hypothesis", Json.mkObj sampleHypothesis)] hypothesisField_wf⟩
  | .remove_home _ => [⟨sampleWorld "-", .verify, .append_recovery_observation, Params.ofFields
      [(py "episode_id", .str (py "e")), (py "idem_key", .str (py "rec")), (py "rule", .str (py "lag"))]
      (by simp)⟩]
  | _ => []

/-- How an operation of the runner is answered. -/
def runAnswer (σ : Site) (o : Op) : Option (Res o × Site) :=
  (σ.servedAll tokenConfig (runCalls σ o)).bind fun τ =>
    τ.answered tokenConfig (sampleWorld "-") runReply o

/-- The brokers. -/
def runAdmins : List PyStr := [py "episode_broker", py "observer_broker", py "report_broker"]

/-- Two rounds of the loop. -/
def twoRounds : Option (Except Raised Memory × Site) :=
  playOn runAnswer (goOn sampleBuiltins runAdmins .zero) 1 (round sampleBuiltins runAdmins .zero {}).run {}

/-- The episode is reported after its diagnosis. -/
structure Concluded (σ : Site) (rec : Record) (front : List Entry) (x : Entry) (b : StateBody) : Prop where
  found : σ.system.store.records.get? (py "e") = some rec
  state : rec.state = some .reporting
  last : σ.log (py "e") = front ++ [x]
  body : x.body = .state b
  principal : x.principal = py "controller"
  frm : b.frm = .diagnosing
  dst : b.dst = .reporting
  diagnosed : ∃ s, (diagnoses rec).getLast? = some s

/-- Whether it is. -/
def concluded (σ : Site) : Bool :=
  match σ.system.store.records.get? (py "e"), (σ.log (py "e")).getLast? with
  | some rec, some x =>
    match x.body with
    | .state b => decide (rec.state = some .reporting ∧ x.principal = py "controller" ∧
        b.frm = .diagnosing ∧ b.dst = .reporting ∧ (diagnoses rec).getLast?.isSome = true)
    | _ => false
  | _, _ => false

theorem concluded_reaches : ∃ σ rec front x b, Reaches runInstallation runAdmins .zero σ ∧
    Concluded σ rec front x b := by
  have hrun : twoRounds.map (fun y => concluded y.2) = some true := by decide +kernel
  obtain ⟨⟨a, σ⟩, hplay, hconcluded⟩ := Option.map_eq_some_iff.1 hrun
  have hreach : Reaches runInstallation runAdmins .zero σ := by
    refine ⟨.ret a, Loop.Reach.playOn (fun τ o y hy => ?_) ⟨{}, rfl, .refl⟩ hplay⟩
    obtain ⟨υ, hserved, hy⟩ := Option.bind_eq_some_iff.1 hy
    exact ⟨υ, servedAll_environment hserved, answered_performs runReply_loads hy⟩
  unfold concluded at hconcluded
  split at hconcluded
  · rename_i rec x hrec hlast
    obtain ⟨front, hfront⟩ := List.getLast?_eq_some_iff.1 hlast
    split at hconcluded
    · rename_i b hb
      obtain ⟨hst, hp, hfrm, hdst, hsome⟩ := of_decide_eq_true hconcluded
      exact ⟨σ, rec, front, x, b, hreach, hrec, hst, hfront, hb, hp, hfrm, hdst,
        Option.isSome_iff_exists.1 hsome⟩
    · cases hconcluded
  · cases hconcluded

/-! ## Transitions -/

/-- **Every transition of the runner is earned.** But for starting an episode and handing it off, a step of
the state's role has been recorded as ok since the state was entered, under a session that has written its
artefact since, and the record gives the reason for the way that is taken. -/
theorem transitions_earned (h : Reaches I admins every σ) (hsplit : σ.log e = front ++ x :: back)
    (hx : x.body = .state b) (hp : x.principal = py "controller") (hoff : b.dst ≠ .handed_off)
    (hopen : b.frm ≠ .open) : ∃ role session, roleOf b.frm = some role ∧
      Worked I.tidy front role session ∧
      Grounds (I.retries (recordAt I.store e front)) (recordAt I.store e front) b.frm b.dst := by
  have hgov := (governed_run h).governed e
  obtain ⟨hfrm, hstep⟩ := (hgov.followed front x back hsplit).state b hx
  rw [hp] at hstep
  exact hgov.earned front x back b hsplit hx hp b.frm hfrm hstep hoff hopen

theorem transitions_earned_sample : ∃ σ front, ∃ x : Entry, ∃ b : StateBody, Reaches runInstallation runAdmins .zero σ ∧
    σ.log (py "e") = front ++ [x] ∧ x.body = .state b ∧ b.frm = .diagnosing ∧ b.dst = .reporting ∧
    ∃ role session, roleOf b.frm = some role ∧ Worked True front role session ∧
      Grounds (runInstallation.retries (recordAt tokenConfig (py "e") front))
        (recordAt tokenConfig (py "e") front) b.frm b.dst := by
  obtain ⟨σ, rec, front, x, b, h, hc⟩ := concluded_reaches
  refine ⟨σ, front, x, b, h, hc.last, hc.body, hc.frm, hc.dst, ?_⟩
  exact transitions_earned h hc.last hc.body hc.principal (by rw [hc.dst]; decide) (by rw [hc.frm]; decide)

/-! ## The judge -/

/-- After as many returns as P-09 allows the judge only lets an episode pass. -/
theorem Governed.judge_out (h : Governed I e (front ++ [x])) (hx : x.body = .state b)
    (hfrm : b.frm = .judging)
    (hspent : ((I.retries (recordAt I.store e front)).getD 0).toNat ≤ returned front) :
    b.dst = .handed_off ∨ b.dst = .reporting ∧
      ∃ v, (recordAt I.store e front).verdicts.getLast? = some v ∧ v.result = .PASS := by
  obtain ⟨hstate, hstep, hearned⟩ := h.step hx
  by_cases hoff : b.dst = .handed_off
  · exact .inl hoff
  have hresolved : b.dst ≠ .resolved := by
    intro hdst
    rw [hdst] at hstep
    exact absurd (hfrm.symm.trans (table_resolved hstep).2) nofun
  have hopen : b.frm ≠ .open := by
    rw [hfrm]
    nofun
  obtain ⟨role, session, -, -, hgrounds⟩ := hearned hresolved hoff hopen
  rw [hfrm] at hgrounds
  generalize hdst : b.dst = dst at hgrounds
  cases hgrounds with
  | pass last result => exact .inr ⟨rfl, _, last, result⟩
  | fail last result limit within =>
    -- one more return would be one too many
    have hne : front ≠ [] := ne_nil_of_state hstate
    have hle := h.returned_le
    have hback : sentBack ⟨x.principal, b.frm, b.dst⟩ = true := decide_eq_true ⟨hfrm, hdst⟩
    rw [retries_snoc h.followed hne, returned, transitions_snoc, Entry.transition?, hx, Option.toList_some,
      List.countP_append, List.countP_singleton, if_pos hback] at hle
    change returned front + 1 ≤ _ at hle
    omega

/-- **The judge loop ends.** The judge sends an episode back at most P-09 times; after that it only passes
the episode, or the episode is handed off. An episode has at most six transitions and two more for each
retry. -/
theorem judge_loop (h : Reaches I admins every σ) (hrec : σ.system.store.records.get? e = some rec) :
    returned (σ.log e) ≤ ((I.retries rec).getD 0).toNat ∧
      (transitions (σ.log e)).length ≤ 2 * ((I.retries rec).getD 0).toNat + 6 ∧
      ∀ front x back b, σ.log e = front ++ x :: back → x.body = .state b → b.frm = .judging →
        ((I.retries rec).getD 0).toNat ≤ returned front → b.dst = .handed_off ∨ b.dst = .reporting ∧
          ∃ v, (recordAt I.store e front).verdicts.getLast? = some v ∧ v.result = .PASS := by
  have hgov := (governed_run h).governed e
  rw [record_of_reaches h hrec]
  refine ⟨hgov.returned_le, hgov.transitions_le, fun front x back b hsplit hx hfrm hspent => ?_⟩
  have hsplit' : σ.log e = front ++ [x] ++ back := by rw [hsplit, List.append_assoc, List.singleton_append]
  have hlast : Governed I e (front ++ [x]) := (hsplit' ▸ hgov).of_append
  refine hlast.judge_out hx hfrm ?_
  have hfront : Followed I.store e (front ++ x :: back) := hsplit ▸ hgov.followed
  have hbundle := bundle_later hfront (ne_nil_of_state (hlast.step hx).1)
  rw [hsplit, Installation.retries, hbundle] at hspent
  exact hspent

theorem judge_loop_sample : ∃ σ rec, Reaches runInstallation runAdmins .zero σ ∧
    rec.state = some .reporting ∧
    returned (σ.log (py "e")) ≤ ((runInstallation.retries rec).getD 0).toNat ∧
    (transitions (σ.log (py "e"))).length ≤ 2 * ((runInstallation.retries rec).getD 0).toNat + 6 := by
  obtain ⟨σ, rec, front, x, b, h, hc⟩ := concluded_reaches
  obtain ⟨hreturned, hlength, -⟩ := judge_loop h hc.found
  exact ⟨σ, rec, h, hc.state, hreturned, hlength⟩

/-! ## The report -/

/-- **What is reported has been judged.** An episode that is reported has no proposal and no verdict, or its
last verdict is PASS and is on the artefact under judgement; if sessions are tidy, both were written by
sessions whose steps have been recorded as ok. -/
theorem reported_was_judged (h : Reaches I admins every σ)
    (hrec : σ.system.store.records.get? e = some rec)
    (hstate : ∃ st ∈ [EpisodeState.reporting, .awaiting_operator, .resolved], rec.state = some st) :
    (artefacts rec = [] ∧ rec.verdicts = []) ∨ ∃ v a, rec.verdicts.getLast? = some v ∧ v.result = .PASS ∧
      under_judgement rec = some a ∧ v.target_id = a.id ∧
      (I.tidy → Listed rec .proposal_judge v.session_id ∧ Listed rec .change_planner a.session_id) := by
  have hstanding := ((governed_run h).governed e).standing
  obtain ⟨st, hmem, hst⟩ := hstate
  rw [record_of_reaches h hrec] at hst ⊢
  refine hstanding.reported st hst ?_ ?_
  · rintro rfl
    exact absurd hmem (by decide)
  · revert hmem
    cases st <;> decide

theorem reported_was_judged_sample : ∃ σ rec, Reaches runInstallation runAdmins .zero σ ∧
    rec.state = some .reporting ∧
    ((artefacts rec = [] ∧ rec.verdicts = []) ∨ ∃ v a, rec.verdicts.getLast? = some v ∧ v.result = .PASS ∧
      under_judgement rec = some a ∧ v.target_id = a.id ∧
      (True → Listed rec .proposal_judge v.session_id ∧ Listed rec .change_planner a.session_id)) := by
  obtain ⟨σ, rec, front, x, b, h, hc⟩ := concluded_reaches
  exact ⟨σ, rec, h, hc.state, reported_was_judged h hc.found ⟨.reporting, List.mem_cons_self, hc.state⟩⟩

/-! ## The diagnosis -/

/-- What an entry says of a hypothesis stays in the record. -/
theorem hypothesis_listed {y : HypothesisBody} (h : ∃ x ∈ es, x.body = .hypothesis y) :
    ∃ hy ∈ (recordAt I.store e es).hypotheses, hy.toHypothesisBody = y := by
  induction es using List.reverseRecOn with
  | nil =>
    obtain ⟨x, hx, -⟩ := h
    exact absurd hx List.not_mem_nil
  | append_singleton es z ih =>
    rw [recordAt_snoc]
    obtain ⟨x, hx, hbody⟩ := h
    rcases List.mem_append.1 hx with hx | hx
    · obtain ⟨hy, hmem, rfl⟩ := ih ⟨x, hx, hbody⟩
      unfold apply
      cases z.body with
      | hypothesis b' => exact ⟨hy, List.mem_append_left _ hmem, rfl⟩
      | hypothesis_status b' =>
        refine ⟨_, List.mem_map_of_mem hmem, ?_⟩
        unfold applyStatus
        split <;> rfl
      | _ => exact ⟨hy, hmem, rfl⟩
    · cases List.mem_singleton.1 hx
      unfold apply
      rw [hbody]
      exact ⟨⟨y, .open, [], [], _⟩, List.mem_append_right _ (List.mem_singleton_self _), rfl⟩

/-- A listed step is that of an entry. -/
theorem mem_steps {s : Store.Step} (hs : s ∈ (recordAt I.store e es).steps) :
    ∃ x ∈ es, x.body = .step s.toStepBody := by
  refine mem_replay (fun r => r.steps) (fun x s => x.body = .step s.toStepBody) rfl ?_ hs
  intro r x s hmem
  unfold apply at hmem
  cases hx : x.body with
  | step b =>
    rw [hx] at hmem
    rcases List.mem_append.1 hmem with hold | hnew
    · exact .inr ⟨s, hold, fun _ => id⟩
    · cases List.mem_singleton.1 hnew
      exact .inl rfl
  | _ =>
    rw [hx] at hmem
    exact .inr ⟨s, hmem, fun _ => id⟩

/-- The hypothesis is the one of rank one of a session. -/
structure Top (rec : Record) (session : Json) (hy : Hypothesis) : Prop where
  mem : hy ∈ rec.hypotheses
  owner : hy.step_session = session
  rank : hy.rank = 1
  only : ∀ hy' ∈ rec.hypotheses, hy'.step_session = session → hy'.rank = 1 → hy' = hy

/-- Two hypotheses of a session have different ranks. -/
def RanksApart (hy hy' : Hypothesis) : Prop := hy.step_session = hy'.step_session → hy.rank ≠ hy'.rank

instance : Std.Symm RanksApart := ⟨fun _ _ h howner hrank => h howner.symm hrank.symm⟩

/-- **The latest diagnosis has a top hypothesis**, and one only. -/
theorem Governed.top (h : Governed I e es) {s : Store.Step}
    (hs : (diagnoses (recordAt I.store e es)).getLast? = some s) :
    ∃ hy, top_hypothesis (recordAt I.store e es) = some hy ∧ Top (recordAt I.store e es) s.session_id hy := by
  have hcontracts := contracts_of_vetted h.vetted
  obtain ⟨hmem, hdiagnosis⟩ := List.mem_filter.1 (List.mem_of_getLast? hs)
  obtain ⟨hrole, hok⟩ := of_decide_eq_true hdiagnosis
  obtain ⟨x, hx, hbody⟩ := mem_steps hmem
  obtain ⟨front, back, rfl⟩ := List.append_of_mem hx
  obtain ⟨session, hsession, y, hy, hwrites⟩ := h.backed front x back _ rfl hbody hok
  have hauthor := hwrites.author
  rw [hrole] at hauthor
  have hhyp : ∃ b, y.body = .hypothesis b := by
    unfold authors at hauthor
    cases hb : y.body with
    | hypothesis b => exact ⟨b, rfl⟩
    | _ =>
      rw [hb] at hauthor
      simp at hauthor
  obtain ⟨hb, hhb⟩ := hhyp
  obtain ⟨howner, hrank⟩ := hwrites.top hb hhb
  obtain ⟨hy₀, hmem₀, hbody₀⟩ := hypothesis_listed (I := I) (e := e)
    ⟨y, List.mem_append_left (x :: back) hy, hhb⟩
  have hp₀ : (hy₀.step_session.pyEq s.session_id && decide (hy₀.rank = 1)) = true := by
    rw [hbody₀, howner, hrank, hsession]
    simp [Json.pyEq_str_iff]
  cases hfind : (recordAt I.store e (front ++ x :: back)).hypotheses.find? fun hy =>
      hy.step_session.pyEq s.session_id && decide (hy.rank = 1) with
  | none => exact absurd hp₀ (List.find?_eq_none.1 hfind hy₀ hmem₀)
  | some hy₁ =>
    have hp₁ := List.find?_some hfind
    rw [hsession, Bool.and_eq_true, Json.pyEq_str_iff, decide_eq_true_iff] at hp₁
    refine ⟨hy₁, ?_, List.mem_of_find?_eq_some hfind, hp₁.1.trans hsession.symm, hp₁.2, ?_⟩
    · rw [top_hypothesis]
      change (diagnoses _).getLast?.bind _ = _
      rw [hs]
      exact hfind
    · intro hy' hmem' howner' hrank'
      by_contra hne
      have hapart : (recordAt I.store e (front ++ x :: back)).hypotheses.Pairwise RanksApart := hcontracts.ranks
      exact hapart.forall hmem' (List.mem_of_find?_eq_some hfind) hne
        (howner'.trans (hsession.trans hp₁.1.symm)) (hrank'.trans hp₁.2.symm)

/-- **The top hypothesis is that of the latest diagnosis.** Once a diagnostician's step is recorded as ok,
`top_hypothesis` is the one hypothesis of rank one of the latest such step; as long as that step is the
latest, what it says stays. -/
theorem top_of_last_step (h : Reaches I admins every σ) (hrec : σ.system.store.records.get? e = some rec)
    {s : Store.Step} (hs : (diagnoses rec).getLast? = some s) :
    ∃ hy, top_hypothesis rec = some hy ∧ Top rec s.session_id hy ∧
      ∀ front back, σ.log e = front ++ back → ∀ s' hy', (diagnoses (recordAt I.store e front)).getLast? = some s' →
        s'.session_id = s.session_id → top_hypothesis (recordAt I.store e front) = some hy' →
          hy'.toHypothesisBody = hy.toHypothesisBody := by
  have hgov := (governed_run h).governed e
  have hread := record_of_reaches h hrec
  rw [hread] at hs
  obtain ⟨hy, htop, hall⟩ := hgov.top hs
  rw [hread]
  refine ⟨hy, htop, hall, fun front back hsplit s' hy' hs' hsession htop' => ?_⟩
  obtain ⟨hy₁, htop₁, hall₁⟩ := ((hsplit ▸ hgov).of_append : Governed I e front).top hs'
  cases htop₁.symm.trans htop'
  obtain ⟨x, hx, hbody⟩ := mem_hypotheses hall₁.mem
  obtain ⟨hy₂, hmem₂, hbody₂⟩ : ∃ hy ∈ (recordAt I.store e (σ.log e)).hypotheses, hy.toHypothesisBody = _ :=
    hypothesis_listed ⟨x, hsplit ▸ List.mem_append_left _ hx, hbody⟩
  have howner : hy₂.step_session = s.session_id := by
    rw [hbody₂, hall₁.owner, hsession]
  have hrank : hy₂.rank = 1 := by rw [hbody₂, hall₁.rank]
  rw [← hbody₂, hall.only hy₂ hmem₂ howner hrank]

theorem top_of_last_step_sample : ∃ σ rec s hy, Reaches runInstallation runAdmins .zero σ ∧
    (diagnoses rec).getLast? = some s ∧ top_hypothesis rec = some hy ∧ Top rec s.session_id hy := by
  obtain ⟨σ, rec, front, x, b, h, hc⟩ := concluded_reaches
  obtain ⟨s, hs⟩ := hc.diagnosed
  obtain ⟨hy, htop, hall, -⟩ := top_of_last_step h hc.found hs
  exact ⟨σ, rec, s, hy, h, hs, htop, hall⟩

theorem diagnosed_of_worked {tidy : Prop} {session : PyStr} (h : Worked tidy es .diagnostician session) :
    ∃ s, (diagnoses (recordAt I.store e es)).getLast? = some s := by
  obtain ⟨x, hx, hrecords⟩ := h.recorded
  obtain ⟨s, hs, hrole, hok, -⟩ : Listed (recordAt I.store e es) .diagnostician (.str session) :=
    listed_of_records ⟨x, mem_of_mem_visit hx, hrecords⟩
  have hmem : s ∈ diagnoses (recordAt I.store e es) := List.mem_filter.2 ⟨hs, decide_eq_true ⟨hrole, hok⟩⟩
  cases hlast : (diagnoses (recordAt I.store e es)).getLast? with
  | none => exact absurd (List.getLast?_eq_none_iff.1 hlast) (List.ne_nil_of_mem hmem)
  | some s => exact ⟨s, rfl⟩

/-- All hypotheses of a session are refuted. -/
def AllRefuted (rec : Record) (session : Json) : Prop :=
  ∀ hy ∈ rec.hypotheses, hy.step_session = session → hy.status = .refuted

theorem refutedAll_iff {session : PyStr} {hy : Hypothesis} (htop : top_hypothesis rec = some hy)
    (howner : hy.step_session = .str session) : refutedAll rec = true ↔ AllRefuted rec (.str session) := by
  unfold refutedAll AllRefuted
  rw [htop, Option.map_some, Option.getD_some, howner, List.all_eq_true]
  refine forall_congr' fun y => forall_congr' fun _ => ?_
  rw [Bool.or_eq_true, Bool.not_eq_true', decide_eq_true_iff, ← Bool.not_eq_true, Json.pyEq_str_iff]
  tauto

/-- **What a diagnosis rests on.** Where the runner leaves `diagnosing` there is a top hypothesis. It
recommends where nothing has recovered and some hypothesis of that step is not refuted; it reports where
something has recovered, or where every hypothesis of the step, the top one among them, is refuted. -/
theorem diagnosis (h : Reaches I admins every σ) (hsplit : σ.log e = front ++ x :: back)
    (hx : x.body = .state b) (hp : x.principal = py "controller") (hfrm : b.frm = .diagnosing)
    (hoff : b.dst ≠ .handed_off) : ∃ s hy, (diagnoses (recordAt I.store e front)).getLast? = some s ∧
      top_hypothesis (recordAt I.store e front) = some hy ∧ Top (recordAt I.store e front) s.session_id hy ∧
      (b.dst = .recommending ∧ (recordAt I.store e front).recovery_observations = [] ∧
          ¬ AllRefuted (recordAt I.store e front) s.session_id ∨
        b.dst = .reporting ∧ ((recordAt I.store e front).recovery_observations ≠ [] ∨
          AllRefuted (recordAt I.store e front) s.session_id)) := by
  have hgov := (governed_run h).governed e
  obtain ⟨role, session, hrole, hworked, hgrounds⟩ := transitions_earned h hsplit hx hp hoff
    (by rw [hfrm]; decide)
  rw [hfrm] at hrole hgrounds
  cases hrole
  have hfront : Governed I e front := (hsplit ▸ hgov : Governed I e (front ++ x :: back)).of_append
  obtain ⟨s, hs⟩ := diagnosed_of_worked (I := I) (e := e) hworked
  obtain ⟨hy, htop, hall⟩ := hfront.top hs
  obtain ⟨S, hS⟩ : ∃ S, s.session_id = .str S := by
    obtain ⟨hmem, hdiagnosis⟩ := List.mem_filter.1 (List.mem_of_getLast? hs)
    obtain ⟨z, hz, hbody⟩ := mem_steps hmem
    obtain ⟨fr, bk, rfl⟩ := List.append_of_mem hz
    obtain ⟨S, hS, -⟩ := hfront.backed fr z bk _ rfl hbody (of_decide_eq_true hdiagnosis).2
    exact ⟨S, hS⟩
  have hiff := refutedAll_iff htop (hall.owner.trans hS)
  rw [← hS] at hiff
  refine ⟨s, hy, hs, htop, hall, ?_⟩
  generalize b.dst = dst at hgrounds
  cases hgrounds with
  | hypotheses calm open_ =>
    refine .inl ⟨rfl, calm, fun hrefuted => ?_⟩
    exact Bool.false_ne_true (open_.symm.trans (hiff.2 hrefuted))
  | recovery seen => exact .inr ⟨rfl, .inl seen⟩
  | refuted all => exact .inr ⟨rfl, .inr (hiff.1 all)⟩

theorem diagnosis_sample : ∃ σ front, ∃ x : Entry, ∃ b : StateBody, ∃ s hy, Reaches runInstallation runAdmins .zero σ ∧
    σ.log (py "e") = front ++ [x] ∧ x.body = .state b ∧ b.frm = .diagnosing ∧
    (diagnoses (recordAt tokenConfig (py "e") front)).getLast? = some s ∧
    top_hypothesis (recordAt tokenConfig (py "e") front) = some hy ∧
    b.dst = .reporting ∧ ((recordAt tokenConfig (py "e") front).recovery_observations ≠ [] ∨
      AllRefuted (recordAt tokenConfig (py "e") front) s.session_id) := by
  obtain ⟨σ, rec, front, x, b, h, hc⟩ := concluded_reaches
  obtain ⟨s, hy, hs, htop, -, ⟨hdst, -⟩ | ⟨hdst, hreason⟩⟩ :=
    diagnosis h hc.last hc.body hc.principal hc.frm (by rw [hc.dst]; decide)
  · exact absurd (hc.dst.symm.trans hdst) (by decide)
  · exact ⟨σ, front, x, b, s, hy, h, hc.last, hc.body, hc.frm, hs, htop, hdst, hreason⟩

end Valops.Controller
