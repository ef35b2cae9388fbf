import Valops.Controller.Visits

/-!
# What the runner's transitions rest on

`Earned` says what must hold of a log when the runner moves its episode on: in the current visit a step
of the state's role has been recorded as ok, in a session that has written an artefact of the role, and
the record gives the reason for the way that is taken. What a log then looks like in which every
transition of the runner is earned is said here, of the log alone.

`tidy` adds that the last artefact of the role in the visit is that session's. It can be had where
sessions that have ended write nothing.

Main results: `last_verdict` and `last_artefact` (what a record ends with is what its log ends with),
`proposing` and `judging` (in which state a proposal and a verdict are written).
-/

set_option autoImplicit false

namespace Valops.Controller

open Py Store Retries

/-! ## Transitions -/

/-- What an installation is made of: the store's configuration, Python's conversions, the thresholds
of the bundles, and whether only the current session writes. -/
structure Installation where
  store : StoreConfig
  builtins : Builtins
  thresholds : PyStr → Json
  tidy : Prop

/-- P-09 of the bundle of a record, if it is a number. -/
def Installation.retries (I : Installation) (rec : Record) : Option Int := do
  let id ← rec.bundle_id
  let limit ← (index (I.thresholds id) "P-09").toOption
  (I.builtins.int limit).toOption

/-- Why an episode may be moved from one state to another. -/
inductive Grounds (retries : Option Int) (rec : Record) : EpisodeState → EpisodeState → Prop
  | hypotheses (calm : rec.recovery_observations = []) (open_ : refutedAll rec = false) :
      Grounds retries rec .diagnosing .recommending
  | recovery (seen : rec.recovery_observations ≠ []) : Grounds retries rec .diagnosing .reporting
  | refuted (all : refutedAll rec = true) : Grounds retries rec .diagnosing .reporting
  | artefact : Grounds retries rec .recommending .judging
  | pass {v : Verdict} (last : rec.verdicts.getLast? = some v) (result : v.result = .PASS) :
      Grounds retries rec .judging .reporting
  | fail {v : Verdict} {n : Int} (last : rec.verdicts.getLast? = some v) (result : v.result = .FAIL)
      (limit : retries = some n) (within : (failVerdicts rec).length ≤ n) :
      Grounds retries rec .judging .recommending
  | report : Grounds retries rec .reporting .awaiting_operator

/-- A step of the role has been recorded as ok in the current visit, and has written its artefact in
it; if sessions are tidy, the last such artefact. -/
structure Worked (tidy : Prop) (es : List Entry) (role : Role) (session : PyStr) : Prop where
  recorded : ∃ x ∈ visit es, Records role session x
  wrote : ∃ x ∈ visit es, Writes role session x
  last : tidy → ∀ x, ((visit es).filter (authors role)).getLast? = some x → x.session_id = .str session

/-- The runner may move an episode with this log to a state. Handing off and starting need nothing. -/
def Earned (I : Installation) (e : PyStr) (front : List Entry) (dst : EpisodeState) : Prop :=
  ∀ frm, (recordAt I.store e front).state = some frm → (frm, dst) ∈ CONTROLLER → dst ≠ .handed_off →
    frm ≠ .open → ∃ role session, roleOf frm = some role ∧ Worked I.tidy front role session ∧
      Grounds (I.retries (recordAt I.store e front)) (recordAt I.store e front) frm dst

/-- A log in which every transition of the runner is earned, and every step that is recorded as ok has
written its artefact. -/
structure Governed (I : Installation) (e : PyStr) (es : List Entry) : Prop where
  followed : Followed I.store e es
  vetted : ∀ front x back, es = front ++ x :: back → Vetted I.store e front x
  earned : ∀ front x back b, es = front ++ x :: back → x.body = .state b →
    x.principal = py "controller" → Earned I e front b.dst
  backed : ∀ front x back b, es = front ++ x :: back → x.body = .step b → b.outcome = .ok →
    ∃ session, b.session_id = .str session ∧ ∃ y ∈ front, Writes b.role session y

section Governed

variable {I : Installation} {e : PyStr} {es es' front back : List Entry} {x : Entry}

theorem Governed.nil : Governed I e [] := by
  refine ⟨?_, ?_, ?_, ?_⟩
  · intro front x back h
    cases front <;> cases h
  · intro front x back h
    cases front <;> cases h
  · intro front x back b h
    cases front <;> cases h
  · intro front x back b h
    cases front <;> cases h

theorem split_append (h : es = front ++ x :: back) : es ++ es' = front ++ x :: (back ++ es') := by
  rw [h, List.append_assoc, List.cons_append]

theorem Governed.of_append (h : Governed I e (es ++ es')) : Governed I e es where
  followed := h.followed.of_append
  vetted front x _ hsplit := h.vetted front x _ (split_append hsplit)
  earned front x _ b hsplit := h.earned front x _ b (split_append hsplit)
  backed front x _ b hsplit := h.backed front x _ b (split_append hsplit)

/-- Every entry has passed its checks after those before it. -/
theorem Governed.vetted_of_mem (h : Governed I e es) (hx : x ∈ es) :
    ∃ front, Vetted I.store e front x := by
  obtain ⟨front, back, rfl⟩ := List.append_of_mem hx
  exact ⟨front, h.vetted front x back rfl⟩

end Governed

/-! ## The last artefacts -/

section Last

variable {cfg : StoreConfig} {e : PyStr} {es front : List Entry} {x y : Entry} {r : Record}
  {p : Entry → Bool}

/-- What is in the visit comes last. -/
theorem last_of_visit (h : ∃ x ∈ visit es, p x = true) :
    (es.filter p).getLast? = ((visit es).filter p).getLast? := by
  obtain ⟨front, hfront⟩ : visit es <:+ es := visit_suffix
  obtain ⟨x, hx, hpx⟩ := h
  have hne : (visit es).filter p ≠ [] := List.ne_nil_of_mem (List.mem_filter.2 ⟨hx, hpx⟩)
  conv_lhs => rw [← hfront]
  rw [List.filter_append, List.getLast?_append]
  cases hlast : ((visit es).filter p).getLast? with
  | none => exact absurd (List.getLast?_eq_none_iff.1 hlast) hne
  | some z => rfl

theorem exists_last (h : ∃ x ∈ es, p x = true) : ∃ x ∈ es, p x = true ∧ (es.filter p).getLast? = some x := by
  obtain ⟨x, hx, hpx⟩ := h
  cases hlast : (es.filter p).getLast? with
  | none => exact absurd (List.getLast?_eq_none_iff.1 hlast) (List.ne_nil_of_mem (List.mem_filter.2 ⟨hx, hpx⟩))
  | some z =>
    obtain ⟨hz, hpz⟩ := List.mem_filter.1 (List.mem_of_getLast? hlast)
    exact ⟨z, hz, hpz, rfl⟩

theorem artefacts_apply (h : authors .change_planner x = false) :
    artefacts (apply cfg.rfc3339 r x).1 = artefacts r := by
  unfold apply
  unfold authors at h
  cases hx : x.body with
  | recommendation b =>
    rw [hx] at h
    cases h
  | no_action b =>
    rw [hx] at h
    cases h
  | _ => rfl

theorem verdicts_apply (h : authors .proposal_judge x = false) :
    (apply cfg.rfc3339 r x).1.verdicts = r.verdicts := by
  unfold apply
  unfold authors at h
  cases hx : x.body with
  | verdict b =>
    rw [hx] at h
    cases h
  | _ => rfl

theorem authors_judge (h : authors .proposal_judge x = true) : ∃ b, x.body = .verdict b := by
  unfold authors at h
  cases hx : x.body with
  | verdict b => exact ⟨b, rfl⟩
  | _ =>
    rw [hx] at h
    cases h

/-- The last verdict of a record is that of the last such entry. -/
theorem last_verdict (h : (es.filter (authors .proposal_judge)).getLast? = some x) :
    ∃ v, (recordAt cfg e es).verdicts.getLast? = some v ∧ x.body = .verdict v.toVerdictBody ∧
      v.session_id = x.session_id := by
  induction es using List.reverseRecOn with
  | nil => cases h
  | append_singleton es y ih =>
    rw [recordAt_snoc]
    rw [List.filter_append] at h
    cases hy : authors .proposal_judge y with
    | false =>
      rw [List.filter_cons_of_neg (by simp [hy]), List.filter_nil, List.append_nil] at h
      rw [verdicts_apply hy]
      exact ih h
    | true =>
      rw [List.filter_cons_of_pos hy, List.filter_nil, List.getLast?_concat] at h
      cases h
      obtain ⟨b, hb⟩ := authors_judge hy
      refine ⟨⟨b, x.session_id, cfg.rfc3339 x.ts⟩, ?_, hb, rfl⟩
      unfold apply
      rw [hb]
      exact List.getLast?_concat ..

/-- A proposal with a number above the others is the artefact under judgement. -/
theorem under_judgement_apply (hrev : ∀ a ∈ artefacts r, a.rev < x.rev)
    (h : authors .change_planner x = true) :
    ∃ a, under_judgement (apply cfg.rfc3339 r x).1 = some a ∧ a.session_id = x.session_id := by
  unfold authors at h
  cases hx : x.body with
  | recommendation b =>
    refine ⟨.recommendation ⟨b, x.session_id, cfg.rfc3339 x.ts, x.rev⟩, argmax_of_lt ?_ ?_, rfl⟩
    · simp [apply, hx, artefacts]
    · intro a ha
      simp only [apply, hx, artefacts, List.map_append, List.mem_append, List.map_cons,
        List.map_nil, List.mem_singleton] at ha
      rcases ha with (ha | ha) | ha
      · exact .inr (hrev a (List.mem_append_left _ ha))
      · exact .inl ha
      · exact .inr (hrev a (List.mem_append_right _ ha))
  | no_action b =>
    refine ⟨.no_action ⟨b, x.session_id, cfg.rfc3339 x.ts, x.rev⟩, argmax_of_lt ?_ ?_, rfl⟩
    · simp [apply, hx, artefacts]
    · intro a ha
      simp only [apply, hx, artefacts, List.map_append, List.mem_append, List.map_cons,
        List.map_nil, List.mem_singleton] at ha
      rcases ha with ha | ha | ha
      · exact .inr (hrev a (List.mem_append_left _ ha))
      · exact .inr (hrev a (List.mem_append_right _ ha))
      · exact .inl ha
  | _ =>
    rw [hx] at h
    cases h

theorem artefact_rev_lt (hlater : ∀ y ∈ es, y.rev < x.rev) :
    ∀ a ∈ artefacts (recordAt cfg e es), a.rev < x.rev := by
  intro a ha
  obtain ⟨y, hy, -, -, hrev⟩ := mem_artefacts ha
  exact hrev ▸ hlater y hy

/-- The artefact under judgement is that of the last such entry. -/
theorem last_artefact (hvet : ∀ front x back, es = front ++ x :: back → Vetted cfg e front x)
    (h : (es.filter (authors .change_planner)).getLast? = some x) :
    ∃ a, under_judgement (recordAt cfg e es) = some a ∧ a.session_id = x.session_id := by
  induction es using List.reverseRecOn with
  | nil => cases h
  | append_singleton es y ih =>
    rw [recordAt_snoc]
    rw [List.filter_append] at h
    cases hy : authors .change_planner y with
    | false =>
      rw [List.filter_cons_of_neg (by simp [hy]), List.filter_nil, List.append_nil] at h
      rw [under_judgement, artefacts_apply hy]
      refine ih (fun front x back hsplit => hvet front x (back ++ [y]) ?_) h
      rw [hsplit, List.append_assoc, List.cons_append]
    | true =>
      rw [List.filter_cons_of_pos hy, List.filter_nil, List.getLast?_concat] at h
      cases h
      exact under_judgement_apply (artefact_rev_lt (hvet es x [] rfl).later) hy

theorem artefacts_eq_nil (h : ∀ x ∈ es, authors .change_planner x = false) :
    artefacts (recordAt cfg e es) = [] := by
  refine List.eq_nil_iff_forall_not_mem.2 fun a ha => ?_
  obtain ⟨x, hx, hauthor, -⟩ := mem_artefacts ha
  exact Bool.false_ne_true ((h x hx).symm.trans hauthor)

theorem verdicts_eq_nil (h : ∀ x ∈ es, authors .proposal_judge x = false) :
    (recordAt cfg e es).verdicts = [] := by
  refine List.eq_nil_iff_forall_not_mem.2 fun v hv => ?_
  obtain ⟨x, hx, hbody, -⟩ := mem_verdicts hv
  have hauthor := h x hx
  rw [authors, hbody] at hauthor
  cases hauthor

end Last

/-! ## Where artefacts are written -/

section Written

variable {cfg : StoreConfig} {e : PyStr} {front : List Entry} {x : Entry} {b : VerdictBody}

/-- Proposals are written while the state is `recommending`. -/
theorem proposing (h : Vetted cfg e front x) (hx : authors .change_planner x = true) :
    (recordAt cfg e front).state = some .recommending := by
  have hbody : (∃ b, x.body = .recommendation b) ∨ ∃ b, x.body = .no_action b := by
    unfold authors at hx
    cases hb : x.body with
    | recommendation b => exact .inl ⟨b, rfl⟩
    | no_action b => exact .inr ⟨b, rfl⟩
    | _ =>
      rw [hb] at hx
      cases hx
  rcases h.how with ⟨-, b, hb⟩ | ⟨w, ep, p, session, signed, hadm, -, -⟩
  · rcases hbody with ⟨b', hb'⟩ | ⟨b', hb'⟩ <;> cases hb.symm.trans hb'
  · generalize x.principal = principal at hadm
    rcases hbody with ⟨b', hb'⟩ | ⟨b', hb'⟩
    · rw [hb'] at hadm
      cases hadm with
      | recommendation auth =>
        obtain ⟨st, hst, hstate⟩ := auth.state
        rw [hstate, List.mem_singleton.1 hst]
    · rw [hb'] at hadm
      cases hadm with
      | no_action auth =>
        obtain ⟨st, hst, hstate⟩ := auth.state
        rw [hstate, List.mem_singleton.1 hst]

/-- Verdicts are written while the state is `judging`, on the artefact under judgement. -/
theorem judging (h : Vetted cfg e front x) (hx : x.body = .verdict b) :
    (recordAt cfg e front).state = some .judging ∧
      ∃ a, under_judgement (recordAt cfg e front) = some a ∧ b.target_id = a.id := by
  rcases h.how with ⟨-, b', hb⟩ | ⟨w, ep, p, session, signed, hadm, -, -⟩
  · cases hb.symm.trans hx
  · generalize x.principal = principal at hadm
    rw [hx] at hadm
    cases hadm with
    | verdict auth fresh judged target_id checks =>
      obtain ⟨st, hst, hstate⟩ := auth.state
      exact ⟨by rw [hstate, List.mem_singleton.1 hst], _, judged, target_id⟩

/-- A hypothesis has the session of its entry. -/
theorem hypothesis_session {b : HypothesisBody} (h : Vetted cfg e front x) (hx : x.body = .hypothesis b) :
    b.step_session = x.session_id := by
  rcases h.how with ⟨-, b', hb⟩ | ⟨w, ep, p, session, signed, hadm, htoken, hv⟩
  · cases hb.symm.trans hx
  · generalize x.principal = principal at hadm
    rw [hx] at hadm
    cases hadm with
    | hypothesis auth => exact (auth.session htoken hv).1.symm

/-- An entry that enters no state leaves it. -/
theorem state_of_stays (h : entersState x = false) :
    (recordAt cfg e (front ++ [x])).state = (recordAt cfg e front).state := by
  rw [recordAt_snoc, apply_state]
  unfold entersState at h
  cases hx : x.body with
  | opened b =>
    rw [hx] at h
    cases h
  | state b =>
    rw [hx] at h
    cases h
  | _ => rfl

end Written

end Valops.Controller
