import Valops.Controller.Earned

/-!
# Logs with earned transitions

What follows for a log from its transitions being earned. The judge sends an episode back on a new
verdict FAIL each time, so P-09 bounds how often it does, and with it the length of the episode. What
is reported has been judged, because proposals and verdicts are only written in states that an episode
leaves on a verdict. A diagnosis rests on a hypothesis.

Main results: `Governed.returned_le`, `Governed.transitions_le`, `Governed.standing`.
-/

set_option autoImplicit false

namespace Valops.Controller

open Py Store Retries

variable {I : Installation} {cfg : StoreConfig} {e : PyStr} {es : List Entry} {x : Entry}

/-! ## Sent back by the judge -/

/-- The entry is a verdict FAIL. -/
def failing (x : Entry) : Bool :=
  match x.body with
  | .verdict b => decide (b.result = .FAIL)
  | _ => false

/-- The transition sends an episode back from the judge. -/
def sentBack (t : Transition) : Bool := decide (t.frm = .judging ∧ t.dst = .recommending)

/-- How often an episode has been sent back. -/
def returned (es : List Entry) : Nat := (transitions es).countP sentBack

theorem failVerdicts_length : (failVerdicts (recordAt cfg e es)).length = es.countP failing := by
  induction es using List.reverseRecOn with
  | nil => rfl
  | append_singleton es x ih =>
    rw [List.countP_append, ← ih, recordAt_snoc, List.countP_singleton]
    unfold failVerdicts apply failing
    cases x.body with
    | verdict b =>
      dsimp only
      rw [List.filter_append, List.length_append]
      congr 1
      by_cases hb : b.result = .FAIL <;> simp [hb]
    | _ => simp

theorem transitions_snoc : transitions (es ++ [x]) = transitions es ++ x.transition?.toList := by
  rw [transitions, List.filterMap_append]
  cases hx : x.transition? <;> simp [transitions, hx]

/-- Only the runner takes the steps that do not resolve an episode. -/
theorem controller_of_table {principal : PyStr} {frm dst : EpisodeState}
    (h : (frm, dst) ∈ table principal) (hdst : dst ≠ .resolved) :
    principal = py "controller" ∧ (frm, dst) ∈ CONTROLLER := by
  unfold table at h
  split at h
  · rename_i hp
    exact ⟨hp, h⟩
  split at h
  · cases List.mem_singleton.1 h
    exact absurd rfl hdst
  · cases h

/-- What an earned transition rests on. -/
theorem Governed.step (h : Governed I e (es ++ [x])) {b : StateBody} (hx : x.body = .state b) :
    (recordAt I.store e es).state = some b.frm ∧ (b.frm, b.dst) ∈ table x.principal ∧
      (b.dst ≠ .resolved → b.dst ≠ .handed_off → b.frm ≠ .open →
        ∃ role session, roleOf b.frm = some role ∧ Worked I.tidy es role session ∧
          Grounds (I.retries (recordAt I.store e es)) (recordAt I.store e es) b.frm b.dst) := by
  obtain ⟨hfrm, hstep⟩ := h.followed.last.state b hx
  refine ⟨hfrm, hstep, fun hresolved hoff hopen => ?_⟩
  obtain ⟨hprincipal, htable⟩ := controller_of_table hstep hresolved
  exact h.earned es x [] b rfl hx hprincipal b.frm hfrm htable hoff hopen

/-- The visit in which the judge sends an episode back has a verdict FAIL. -/
theorem failed_in_visit {tidy : Prop} {session : PyStr} {v : Verdict}
    (hworked : Worked tidy es .proposal_judge session)
    (hlast : (recordAt cfg e es).verdicts.getLast? = some v) (hv : v.result = .FAIL) :
    ∃ y ∈ visit es, failing y = true := by
  obtain ⟨y, hy, hwrites⟩ := hworked.wrote
  obtain ⟨z, hz, -, hzlast⟩ := exists_last ⟨y, hy, hwrites.author⟩
  have hz' := (last_of_visit ⟨y, hy, hwrites.author⟩).trans hzlast
  obtain ⟨v', hv', hbody, -⟩ : ∃ v, (recordAt cfg e es).verdicts.getLast? = some v ∧ _ := last_verdict hz'
  cases hlast.symm.trans hv'
  refine ⟨z, hz, ?_⟩
  rw [failing, hbody]
  exact decide_eq_true hv

/-- An episode is sent back from a visit with a verdict FAIL, and there are at most P-09 of them. -/
theorem Governed.sent_back (h : Governed I e (es ++ [x])) {b : StateBody} (hx : x.body = .state b)
    (hback : sentBack ⟨x.principal, b.frm, b.dst⟩ = true) : (∃ y ∈ visit es, failing y = true) ∧
      es.countP failing ≤ ((I.retries (recordAt I.store e es)).getD 0).toNat := by
  obtain ⟨hfrm, hdst⟩ := of_decide_eq_true hback
  dsimp only at hfrm hdst
  obtain ⟨-, -, hearned⟩ := h.step hx
  rw [hfrm, hdst] at hearned
  obtain ⟨role, session, hrole, hworked, hgrounds⟩ := hearned (by decide) (by decide) (by decide)
  cases hrole
  cases hgrounds with
  | fail last result limit within =>
    refine ⟨failed_in_visit hworked last result, ?_⟩
    rw [failVerdicts_length] at within
    rw [limit, Option.getD_some]
    omega

theorem failing_of_snoc (hfail : failing x = false) (h : ∃ y ∈ visit es ++ [x], failing y = true) :
    ∃ y ∈ visit es, failing y = true := by
  obtain ⟨y, hy, hyfail⟩ := h
  rcases List.mem_append.1 hy with hy | hy
  · exact ⟨y, hy, hyfail⟩
  · cases List.mem_singleton.1 hy
    exact absurd (hfail.symm.trans hyfail) Bool.false_ne_true

/-- Every time an episode is sent back there is a new verdict FAIL. -/
theorem Governed.returned_fails (h : Governed I e es) : returned es ≤ es.countP failing ∧
    ((∃ y ∈ visit es, failing y = true) → returned es < es.countP failing) := by
  induction es using List.reverseRecOn with
  | nil =>
    refine ⟨le_rfl, ?_⟩
    rintro ⟨y, hy, -⟩
    exact absurd (mem_of_mem_visit hy) List.not_mem_nil
  | append_singleton es x ih =>
    obtain ⟨hle, hlt⟩ := ih h.of_append
    rw [returned, transitions_snoc, List.countP_append, List.countP_append, List.countP_singleton]
    change returned es + _ ≤ _ ∧ (_ → returned es + _ < _)
    cases hx : x.body with
    | state b =>
      have hfail : failing x = false := by rw [failing, hx]
      have hvisit : visit (es ++ [x]) = [] := visit_entered (by rw [entersState, hx])
      have htrans : x.transition? = some ⟨x.principal, b.frm, b.dst⟩ := by rw [Entry.transition?, hx]
      rw [hfail, hvisit, htrans, Option.toList_some, List.countP_singleton]
      refine ⟨?_, ?_⟩
      case refine_2 =>
        rintro ⟨y, hy, -⟩
        exact absurd hy List.not_mem_nil
      split
      · rename_i hback
        exact hlt (h.sent_back hx hback).1
      · exact hle
    | verdict b =>
      have htrans : x.transition? = none := by rw [Entry.transition?, hx]
      have hvisit : visit (es ++ [x]) = visit es ++ [x] := visit_snoc (by rw [entersState, hx])
      rw [htrans, hvisit]
      simp only [Option.toList_none, List.countP_nil, Nat.add_zero]
      cases hfail : failing x with
      | true => exact ⟨by simpa using Nat.le_succ_of_le hle, fun _ => by simpa using Nat.lt_succ_of_le hle⟩
      | false => exact ⟨by simpa using hle, fun hvisited => by simpa using hlt (failing_of_snoc hfail hvisited)⟩
    | opened b =>
      have hnil := h.followed.last.opened.1 ⟨b, hx⟩
      subst hnil
      have hfail : failing x = false := by rw [failing, hx]
      have hvisit : visit ([] ++ [x]) = [] := visit_entered (by rw [entersState, hx])
      rw [hfail, hvisit, Entry.transition?, hx]
      refine ⟨le_rfl, ?_⟩
      rintro ⟨y, hy, -⟩
      exact absurd hy List.not_mem_nil
    | _ =>
      have hfail : failing x = false := by rw [failing, hx]
      have hvisit : visit (es ++ [x]) = visit es ++ [x] := visit_snoc (by rw [entersState, hx])
      rw [hfail, hvisit, Entry.transition?, hx]
      exact ⟨by simpa using hle, fun hvisited => by simpa using hlt (failing_of_snoc hfail hvisited)⟩

/-- P-09 does not change once an episode is open. -/
theorem retries_snoc (h : Followed I.store e (es ++ [x])) (hne : es ≠ []) :
    I.retries (recordAt I.store e (es ++ [x])) = I.retries (recordAt I.store e es) := by
  have hbundle : (recordAt I.store e (es ++ [x])).bundle_id = (recordAt I.store e es).bundle_id := by
    rw [recordAt_snoc, apply_bundle_id]
    cases hx : x.body with
    | opened b => exact absurd (h.last.opened.1 ⟨b, hx⟩) hne
    | _ => rfl
  rw [Installation.retries, hbundle, Installation.retries]

/-- **The judge sends an episode back at most P-09 times.** -/
theorem Governed.returned_le (h : Governed I e es) :
    returned es ≤ ((I.retries (recordAt I.store e es)).getD 0).toNat := by
  induction es using List.reverseRecOn with
  | nil => exact Nat.zero_le _
  | append_singleton es x ih =>
    rcases eq_or_ne es [] with rfl | hne
    · obtain ⟨b, hb⟩ := h.followed.last.opened.2 rfl
      rw [returned, transitions_snoc, Entry.transition?, hb]
      exact Nat.zero_le _
    rw [retries_snoc h.followed hne]
    have hle := ih h.of_append
    rw [returned, transitions_snoc, List.countP_append]
    change returned es + _ ≤ _
    cases htrans : x.transition? with
    | none => exact hle
    | some t =>
      rw [Option.toList_some, List.countP_singleton]
      split
      · rename_i hback
        unfold Entry.transition? at htrans
        split at htrans
        · rename_i b hx
          cases htrans
          obtain ⟨hfail, hwithin⟩ := h.sent_back hx hback
          -- there is a verdict FAIL more than there were returns
          exact (h.of_append.returned_fails.2 hfail).trans_le hwithin
        · cases htrans
      · exact hle

/-! ## The length of an episode -/

/-- How far an episode has come. -/
def stage : EpisodeState → Nat
  | .open => 0
  | .diagnosing => 1
  | .recommending => 2
  | .judging => 3
  | .reporting => 4
  | .awaiting_operator => 5
  | .resolved | .handed_off => 6

/-- Every step of the tables goes on, but the one that sends back. -/
theorem stage_lt {principal : PyStr} {frm dst : EpisodeState} (h : (frm, dst) ∈ table principal) :
    stage frm < stage dst ∨ frm = .judging ∧ dst = .recommending := by
  rcases eq_or_ne dst .resolved with rfl | hdst
  · obtain ⟨-, rfl⟩ := table_resolved h
    exact .inl (by decide)
  · obtain ⟨-, htable⟩ := controller_of_table h hdst
    revert htable
    cases frm <;> cases dst <;> decide

theorem Path.length_le {start st : EpisodeState} {ts : List Transition} (h : Store.Path start ts st) :
    ts.length ≤ stage st + 2 * ts.countP sentBack := by
  induction h with
  | nil => exact Nat.zero_le _
  | @snoc ts t before step ih =>
    rw [List.length_append, List.length_singleton, List.countP_append, List.countP_singleton]
    rcases stage_lt step with hlt | ⟨hfrm, hdst⟩
    · split <;> omega
    · have hback : sentBack t = true := decide_eq_true ⟨hfrm, hdst⟩
      rw [if_pos hback, hdst]
      rw [hfrm] at ih
      have h3 : stage .judging = 3 := rfl
      have h2 : stage .recommending = 2 := rfl
      omega

/-- **An episode has at most six transitions, and two more for each retry.** -/
theorem Governed.transitions_le (h : Governed I e es) :
    (transitions es).length ≤ 2 * ((I.retries (recordAt I.store e es)).getD 0).toNat + 6 := by
  rcases eq_or_ne es [] with rfl | hne
  · exact Nat.zero_le _
  obtain ⟨st, -, hpath⟩ := path_of_followed h.followed hne
  have hlen := Path.length_le hpath
  have hback := h.returned_le
  have hstage : stage st ≤ 6 := by cases st <;> decide
  rw [returned] at hback
  omega

/-! ## What is reported -/

/-- A step of the role in the session is listed as ok. -/
def Listed (rec : Record) (role : Role) (session : Json) : Prop :=
  ∃ s ∈ rec.steps, s.role = role ∧ s.outcome = .ok ∧ s.session_id = session

theorem steps_apply {r : Record} {s : Store.Step} (h : s ∈ r.steps) :
    s ∈ (apply cfg.rfc3339 r x).1.steps := by
  unfold apply
  cases x.body with
  | step b => exact List.mem_append_left _ h
  | _ => exact h

theorem Listed.snoc {role : Role} {session : Json} (h : Listed (recordAt cfg e es) role session) :
    Listed (recordAt cfg e (es ++ [x])) role session := by
  obtain ⟨s, hs, hrest⟩ := h
  exact ⟨s, by rw [recordAt_snoc]; exact steps_apply hs, hrest⟩

theorem listed_of_records {role : Role} {session : PyStr} (h : ∃ x ∈ es, Records role session x) :
    Listed (recordAt cfg e es) role (.str session) := by
  induction es using List.reverseRecOn with
  | nil =>
    obtain ⟨x, hx, -⟩ := h
    exact absurd hx List.not_mem_nil
  | append_singleton es y ih =>
    obtain ⟨x, hx, hrecords⟩ := h
    rcases List.mem_append.1 hx with hx | hx
    · exact (ih ⟨x, hx, hrecords⟩).snoc
    · cases List.mem_singleton.1 hx
      obtain ⟨b, hb, hrole, hsession, hok⟩ := hrecords
      refine ⟨⟨b, cfg.rfc3339 y.ts, y.ts⟩, ?_, hrole, hok, hsession⟩
      rw [recordAt_snoc, apply, hb]
      exact List.mem_append_right _ (List.mem_singleton_self _)

/-- The artefact under judgement comes from a step that is recorded as ok. -/
def Planned (rec : Record) : Prop :=
  ∃ a, under_judgement rec = some a ∧ Listed rec .change_planner a.session_id

/-- The last verdict is PASS, on the artefact under judgement; if sessions are tidy, both come from
steps that are recorded as ok. -/
def Passed (tidy : Prop) (rec : Record) : Prop :=
  ∃ v a, rec.verdicts.getLast? = some v ∧ v.result = .PASS ∧ under_judgement rec = some a ∧
    v.target_id = a.id ∧
    (tidy → Listed rec .proposal_judge v.session_id ∧ Listed rec .change_planner a.session_id)

/-- What is proposed and judged in each state. -/
structure Standing (I : Installation) (e : PyStr) (es : List Entry) : Prop where
  /-- Before `recommending` nothing has been proposed or judged. -/
  early : ∀ st, (recordAt I.store e es).state = some st → stage st < 2 →
    ∀ x ∈ es, authors .change_planner x = false ∧ authors .proposal_judge x = false
  /-- In `judging` the verdicts of the visit are on the artefact under judgement. -/
  judged : (recordAt I.store e es).state = some .judging → (I.tidy → Planned (recordAt I.store e es)) ∧
    ∀ x ∈ visit es, ∀ b, x.body = .verdict b →
      ∃ a, under_judgement (recordAt I.store e es) = some a ∧ b.target_id = a.id
  /-- What is reported has passed, or nothing has been proposed or judged. -/
  reported : ∀ st, (recordAt I.store e es).state = some st → st ≠ .handed_off → 4 ≤ stage st →
    (artefacts (recordAt I.store e es) = [] ∧ (recordAt I.store e es).verdicts = []) ∨
      Passed I.tidy (recordAt I.store e es)

section Standing

variable {b : StateBody}

theorem Planned.stays (h : Planned (recordAt cfg e es)) (hx : authors .change_planner x = false) :
    Planned (recordAt cfg e (es ++ [x])) := by
  obtain ⟨a, ha, hlisted⟩ := h
  refine ⟨a, ?_, hlisted.snoc⟩
  rw [recordAt_snoc, under_judgement, artefacts_apply hx]
  exact ha

theorem Passed.stays {tidy : Prop} (h : Passed tidy (recordAt cfg e es))
    (hplan : authors .change_planner x = false) (hjudge : authors .proposal_judge x = false) :
    Passed tidy (recordAt cfg e (es ++ [x])) := by
  obtain ⟨v, a, hlast, hv, ha, htarget, hlisted⟩ := h
  refine ⟨v, a, ?_, hv, ?_, htarget, fun ht => ⟨(hlisted ht).1.snoc, (hlisted ht).2.snoc⟩⟩
  · rw [recordAt_snoc, verdicts_apply hjudge]
    exact hlast
  · rw [recordAt_snoc, under_judgement, artefacts_apply hplan]
    exact ha

/-- A state is entered without proposing or judging. -/
theorem authors_of_state (hx : x.body = .state b) :
    authors .change_planner x = false ∧ authors .proposal_judge x = false :=
  ⟨by rw [authors, hx], by rw [authors, hx]⟩

theorem state_of_entered (hx : x.body = .state b) :
    (recordAt cfg e (es ++ [x])).state = some b.dst := by
  rw [recordAt_snoc, apply_state, hx]

/-- The verdict of a judge that passes is in the visit. -/
theorem passed_in_visit {tidy : Prop} {session : PyStr} {v : Verdict}
    (hworked : Worked tidy es .proposal_judge session)
    (hlast : (recordAt cfg e es).verdicts.getLast? = some v) :
    ∃ y ∈ visit es, y.body = .verdict v.toVerdictBody ∧
      (tidy → Listed (recordAt cfg e es) .proposal_judge v.session_id) := by
  obtain ⟨y, hy, hwrites⟩ := hworked.wrote
  obtain ⟨z, hz, -, hzlast⟩ := exists_last ⟨y, hy, hwrites.author⟩
  have hz' := (last_of_visit ⟨y, hy, hwrites.author⟩).trans hzlast
  obtain ⟨v', hv', hbody, hsession⟩ : ∃ v, (recordAt cfg e es).verdicts.getLast? = some v ∧ _ :=
    last_verdict hz'
  cases hlast.symm.trans hv'
  refine ⟨z, hz, hbody, fun ht => ?_⟩
  rw [hsession, hworked.last ht z hzlast]
  obtain ⟨w, hw, hrecords⟩ := hworked.recorded
  exact listed_of_records ⟨w, mem_of_mem_visit hw, hrecords⟩

/-- The proposal of a planner that is done is under judgement. -/
theorem planned_of_worked {tidy : Prop} {session : PyStr}
    (hworked : Worked tidy es .change_planner session)
    (hvet : ∀ front x back, es = front ++ x :: back → Vetted cfg e front x) (ht : tidy) :
    Planned (recordAt cfg e es) := by
  obtain ⟨y, hy, hwrites⟩ := hworked.wrote
  obtain ⟨z, -, -, hzlast⟩ := exists_last ⟨y, hy, hwrites.author⟩
  obtain ⟨a, ha, hsession⟩ := last_artefact hvet
    ((last_of_visit ⟨y, hy, hwrites.author⟩).trans hzlast)
  refine ⟨a, ha, ?_⟩
  rw [hsession, hworked.last ht z hzlast]
  obtain ⟨w, hw, hrecords⟩ := hworked.recorded
  exact listed_of_records ⟨w, mem_of_mem_visit hw, hrecords⟩

/-- One more transition. -/
theorem Standing.entered (h : Standing I e es) (hgov : Governed I e (es ++ [x]))
    (hx : x.body = .state b) : Standing I e (es ++ [x]) := by
  obtain ⟨hfrm, hstep, hearned⟩ := hgov.step hx
  obtain ⟨hplan, hjudge⟩ := authors_of_state hx
  have hstate : (recordAt I.store e (es ++ [x])).state = some b.dst := state_of_entered hx
  refine ⟨?_, ?_, ?_⟩
  · intro st hst hlow y hy
    cases hstate.symm.trans hst
    rcases List.mem_append.1 hy with hy | hy
    · rcases stage_lt hstep with hlt | ⟨-, hdst⟩
      · exact h.early _ hfrm (hlt.trans hlow) y hy
      · rw [hdst] at hlow
        exact absurd hlow (by decide)
    · cases List.mem_singleton.1 hy
      exact ⟨hplan, hjudge⟩
  · intro hst
    have hdst : b.dst = .judging := Option.some.inj (hstate.symm.trans hst)
    refine ⟨fun ht => ?_, fun y hy => ?_⟩
    · have hopen : b.frm ≠ .open := by
        intro hopen
        rw [hopen, hdst] at hstep
        exact absurd (controller_of_table hstep nofun).2 (by decide)
      obtain ⟨role, session, hrole, hworked, hgrounds⟩ :=
        hearned (by rw [hdst]; nofun) (by rw [hdst]; nofun) hopen
      rw [hdst] at hgrounds
      generalize b.frm = frm at hgrounds hrole
      cases hgrounds
      cases hrole
      exact (planned_of_worked hworked hgov.of_append.vetted ht).stays hplan
    · rw [visit_entered (by rw [entersState, hx])] at hy
      exact absurd hy List.not_mem_nil
  · intro st hst hoff hhigh
    cases hstate.symm.trans hst
    have hnothing : stage b.frm < 2 → artefacts (recordAt I.store e (es ++ [x])) = [] ∧
        (recordAt I.store e (es ++ [x])).verdicts = [] := by
      intro hlow
      have hes := h.early _ hfrm hlow
      rw [recordAt_snoc, artefacts_apply hplan, verdicts_apply hjudge]
      exact ⟨artefacts_eq_nil fun y hy => (hes y hy).1, verdicts_eq_nil fun y hy => (hes y hy).2⟩
    have hkeep : 4 ≤ stage b.frm → b.frm ≠ .handed_off → _ := fun hfar hfrmoff =>
      h.reported _ hfrm hfrmoff hfar
    have hstays : ((artefacts (recordAt I.store e es) = [] ∧ (recordAt I.store e es).verdicts = []) ∨
        Passed I.tidy (recordAt I.store e es)) → (artefacts (recordAt I.store e (es ++ [x])) = [] ∧
        (recordAt I.store e (es ++ [x])).verdicts = []) ∨
        Passed I.tidy (recordAt I.store e (es ++ [x])) := by
      rintro (⟨harts, hverdicts⟩ | hpassed)
      · rw [recordAt_snoc, artefacts_apply hplan, verdicts_apply hjudge]
        exact .inl ⟨harts, hverdicts⟩
      · exact .inr (hpassed.stays hplan hjudge)
    rcases eq_or_ne b.dst .resolved with hdst | hdst
    · have hfrm' := (table_resolved (hdst ▸ hstep)).2
      exact hstays (hkeep (by rw [hfrm']; decide) (by rw [hfrm']; nofun))
    · by_cases hopen : b.frm = .open
      · exact .inl (hnothing (by rw [hopen]; decide))
      obtain ⟨role, session, hrole, hworked, hgrounds⟩ := hearned hdst hoff hopen
      rcases Nat.lt_or_ge (stage b.frm) 2 with hlow | hge
      · exact .inl (hnothing hlow)
      generalize hf : b.frm = frm at *
      generalize hd : b.dst = dst at *
      cases hgrounds with
      | hypotheses => exact absurd hhigh (by decide)
      | recovery | refuted => exact absurd hge (by decide)
      | artefact => exact absurd hhigh (by decide)
      | pass last result =>
        cases hrole
        obtain ⟨y, hy, hbody, hlisted⟩ := passed_in_visit hworked last
        obtain ⟨hplanned, htargets⟩ := h.judged hfrm
        obtain ⟨a, ha, htarget⟩ := htargets y hy _ hbody
        refine hstays (.inr ⟨_, a, last, result, ha, htarget, fun ht => ⟨hlisted ht, ?_⟩⟩)
        obtain ⟨a', ha', hplanner⟩ := hplanned ht
        cases ha.symm.trans ha'
        exact hplanner
      | fail => exact absurd hhigh (by decide)
      | report => exact hstays (hkeep (by decide) nofun)

/-- One more entry that is no transition. -/
theorem Standing.stays (h : Standing I e es) (hvet : Vetted I.store e es x)
    (hx : entersState x = false) : Standing I e (es ++ [x]) := by
  have hstate : (recordAt I.store e (es ++ [x])).state = (recordAt I.store e es).state := state_of_stays hx
  have hplan : (recordAt I.store e es).state ≠ some .recommending → authors .change_planner x = false :=
    fun hne => Bool.eq_false_iff.2 fun hauthor => hne (proposing hvet hauthor)
  have hjudge : (recordAt I.store e es).state ≠ some .judging → authors .proposal_judge x = false := by
    intro hne
    refine Bool.eq_false_iff.2 fun hauthor => ?_
    obtain ⟨b, hb⟩ := authors_judge hauthor
    exact hne (judging hvet hb).1
  refine ⟨?_, ?_, ?_⟩
  · intro st hst hlow y hy
    rw [hstate] at hst
    rcases List.mem_append.1 hy with hy | hy
    · exact h.early st hst hlow y hy
    · cases List.mem_singleton.1 hy
      refine ⟨hplan fun heq => ?_, hjudge fun heq => ?_⟩
      · cases hst.symm.trans heq
        exact absurd hlow (by decide)
      · cases hst.symm.trans heq
        exact absurd hlow (by decide)
  · intro hst
    rw [hstate] at hst
    have hx' : authors .change_planner x = false := hplan (by rw [hst]; nofun)
    obtain ⟨hplanned, htargets⟩ := h.judged hst
    refine ⟨fun ht => (hplanned ht).stays hx', fun y hy b hb => ?_⟩
    rw [recordAt_snoc, under_judgement, artefacts_apply hx']
    rw [visit_snoc hx] at hy
    rcases List.mem_append.1 hy with hy | hy
    · exact htargets y hy b hb
    · cases List.mem_singleton.1 hy
      exact (judging hvet hb).2
  · intro st hst hoff hhigh
    rw [hstate] at hst
    have hplan' := hplan fun heq => by
      cases hst.symm.trans heq
      exact absurd hhigh (by decide)
    have hjudge' := hjudge fun heq => by
      cases hst.symm.trans heq
      exact absurd hhigh (by decide)
    rcases h.reported st hst hoff hhigh with ⟨harts, hverdicts⟩ | hpassed
    · rw [recordAt_snoc, artefacts_apply hplan', verdicts_apply hjudge']
      exact .inl ⟨harts, hverdicts⟩
    · exact .inr (hpassed.stays hplan' hjudge')

/-- **What is reported has been judged.** -/
theorem Governed.standing (h : Governed I e es) : Standing I e es := by
  induction es using List.reverseRecOn with
  | nil =>
    refine ⟨fun _ _ _ x hx => absurd hx List.not_mem_nil, nofun, nofun⟩
  | append_singleton es x ih =>
    have hes := ih h.of_append
    have hvet := h.vetted es x [] rfl
    cases hx : x.body with
    | state b => exact hes.entered h hx
    | opened b =>
      have hnil := h.followed.last.opened.1 ⟨b, hx⟩
      subst hnil
      have hstate : (recordAt I.store e ([] ++ [x])).state = some .open := by
        rw [recordAt_snoc, apply_state, hx]
      refine ⟨fun st hst _ y hy => ?_, fun hst => ?_, fun st hst _ hhigh => ?_⟩
      · cases List.mem_singleton.1 hy
        exact ⟨by rw [authors, hx], by rw [authors, hx]⟩
      · cases hstate.symm.trans hst
      · cases hstate.symm.trans hst
        exact absurd hhigh (by decide)
    | _ => exact hes.stays hvet (by rw [entersState, hx])

end Standing

end Valops.Controller
