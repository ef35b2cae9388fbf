import Mathlib.Data.List.DropRight
import Valops.Controller.Retries
import Valops.Store.Authority

/-!
# What a log says of a visit

A visit of a state is the end of the log after the last entry that entered a state. What a record
lists is what the entries of its log wrote, so what the controller validates on a record can be found
as entries, and where they stand in the log says in which visit they were written.

Main results: `mem_visit_of_suffix` (where nothing enters a state, everything is in the visit),
`written_of_validated` (a step that passes validation has written an entry of its role).
-/

set_option autoImplicit false

namespace Valops.Controller

open Py Store Retries

/-- The record that a log leaves. -/
abbrev recordAt (cfg : StoreConfig) (e : PyStr) (es : List Entry) : Record :=
  replay cfg.rfc3339 (empty_record e) es

/-! ## Visits -/

/-- The entries since the last that entered a state. -/
def visit (es : List Entry) : List Entry := es.rtakeWhile fun x => !entersState x

section Visit

variable {es front back : List Entry} {x : Entry}

theorem visit_snoc (h : entersState x = false) : visit (es ++ [x]) = visit es ++ [x] :=
  List.rtakeWhile_concat_pos _ _ x (by simp [h])

theorem visit_entered (h : entersState x = true) : visit (es ++ [x]) = [] :=
  List.rtakeWhile_concat_neg _ _ x (by simp [h])

theorem visit_suffix : visit es <:+ es := List.rtakeWhile_suffix _ _

theorem mem_of_mem_visit (h : x ∈ visit es) : x ∈ es := visit_suffix.subset h

/-- **Where nothing enters a state, everything is in the visit.** -/
theorem visit_append (h : ∀ x ∈ back, entersState x = false) : visit (front ++ back) = visit front ++ back := by
  induction back using List.reverseRecOn with
  | nil => rw [List.append_nil, List.append_nil]
  | append_singleton back x ih =>
    obtain ⟨hback, hx⟩ := List.forall_mem_append.1 h
    rw [← List.append_assoc, visit_snoc (hx x (List.mem_singleton_self x)), ih hback, List.append_assoc]

end Visit

/-! ## What a step has written -/

/-- The entry is an artefact of steps of the role. -/
def authors (role : Role) (x : Entry) : Bool :=
  match x.body with
  | .hypothesis _ => role = .diagnostician
  | .recommendation _ | .no_action _ => role = .change_planner
  | .verdict _ => role = .proposal_judge
  | .report _ => role = .reporter
  | _ => false

/-- The entry is the artefact of a step of the role in a session; a diagnostician's is its hypothesis
of rank one. -/
structure Writes (role : Role) (session : PyStr) (x : Entry) : Prop where
  author : authors role x = true
  owner : x.session_id = .str session
  top : ∀ b, x.body = .hypothesis b → b.step_session = .str session ∧ b.rank = 1

/-- The entry records a step of the role in a session as ok. -/
def Records (role : Role) (session : PyStr) (x : Entry) : Prop :=
  ∃ b, x.body = .step b ∧ b.role = role ∧ b.session_id = .str session ∧ b.outcome = .ok

section Lists

variable {cfg : StoreConfig} {e : PyStr} {es : List Entry} {x : Entry}

theorem recordAt_snoc : recordAt cfg e (es ++ [x]) = (apply cfg.rfc3339 (recordAt cfg e es) x).1 :=
  replay_snoc es

/-- What is in a list of the record, when an entry adds to it or keeps its members. -/
theorem mem_replay {α : Type} (list : Record → List α) (P : Entry → α → Prop)
    (hempty : list (empty_record e) = [])
    (hstep : ∀ r x a, a ∈ list (apply cfg.rfc3339 r x).1 → P x a ∨ ∃ a' ∈ list r, ∀ y, P y a' → P y a)
    {a : α} (h : a ∈ list (recordAt cfg e es)) : ∃ x ∈ es, P x a := by
  induction es using List.reverseRecOn generalizing a with
  | nil =>
    rw [show recordAt cfg e [] = empty_record e from rfl, hempty] at h
    cases h
  | append_singleton es x ih =>
    rw [recordAt_snoc] at h
    rcases hstep _ x a h with hx | ⟨a', ha', hP⟩
    · exact ⟨x, List.mem_append_right _ (List.mem_singleton_self x), hx⟩
    · obtain ⟨y, hy, hya⟩ := ih ha'
      exact ⟨y, List.mem_append_left _ hy, hP y hya⟩

/-- A hypothesis of the record is that of an entry. -/
theorem mem_hypotheses {h : Hypothesis} (hh : h ∈ (recordAt cfg e es).hypotheses) :
    ∃ x ∈ es, x.body = .hypothesis h.toHypothesisBody := by
  refine mem_replay (fun r => r.hypotheses)
    (fun x h => x.body = .hypothesis h.toHypothesisBody) rfl ?_ hh
  intro r x h hmem
  unfold apply at hmem
  cases hx : x.body with
  | hypothesis b =>
    rw [hx] at hmem
    rcases List.mem_append.1 hmem with hold | hnew
    · exact .inr ⟨h, hold, fun _ => id⟩
    · cases List.mem_singleton.1 hnew
      exact .inl rfl
  | hypothesis_status b =>
    rw [hx] at hmem
    obtain ⟨h', hh', rfl⟩ := List.mem_map.1 hmem
    refine .inr ⟨h', hh', fun y hy => hy.trans ?_⟩
    unfold applyStatus
    split <;> rfl
  | _ =>
    rw [hx] at hmem
    exact .inr ⟨h, hmem, fun _ => id⟩

/-- A verdict of the record is that of an entry. -/
theorem mem_verdicts {v : Verdict} (hv : v ∈ (recordAt cfg e es).verdicts) :
    ∃ x ∈ es, x.body = .verdict v.toVerdictBody ∧ x.session_id = v.session_id := by
  refine mem_replay (fun r => r.verdicts)
    (fun x v => x.body = .verdict v.toVerdictBody ∧ x.session_id = v.session_id) rfl ?_ hv
  intro r x v hmem
  unfold apply at hmem
  cases hx : x.body with
  | verdict b =>
    rw [hx] at hmem
    rcases List.mem_append.1 hmem with hold | hnew
    · exact .inr ⟨v, hold, fun _ => id⟩
    · cases List.mem_singleton.1 hnew
      exact .inl ⟨rfl, rfl⟩
  | _ =>
    rw [hx] at hmem
    exact .inr ⟨v, hmem, fun _ => id⟩

/-- An artefact of the record is that of an entry. -/
theorem mem_artefacts {a : Artefact} (ha : a ∈ artefacts (recordAt cfg e es)) :
    ∃ x ∈ es, authors .change_planner x = true ∧ x.session_id = a.session_id ∧ x.rev = a.rev := by
  refine mem_replay artefacts
    (fun x a => authors .change_planner x = true ∧ x.session_id = a.session_id ∧ x.rev = a.rev) rfl
    ?_ ha
  intro r x a hmem
  unfold apply at hmem
  cases hx : x.body with
  | recommendation b =>
    simp only [hx, artefacts, List.map_append, List.map_cons, List.map_nil, List.mem_append,
      List.mem_singleton] at hmem
    rcases hmem with (hold | rfl) | hold
    · exact .inr ⟨a, List.mem_append_left _ hold, fun _ => id⟩
    · exact .inl ⟨by rw [authors, hx]; rfl, rfl, rfl⟩
    · exact .inr ⟨a, List.mem_append_right _ hold, fun _ => id⟩
  | no_action b =>
    simp only [hx, artefacts, List.map_append, List.map_cons, List.map_nil, List.mem_append,
      List.mem_singleton] at hmem
    rcases hmem with hold | hold | rfl
    · exact .inr ⟨a, List.mem_append_left _ hold, fun _ => id⟩
    · exact .inr ⟨a, List.mem_append_right _ hold, fun _ => id⟩
    · exact .inl ⟨by rw [authors, hx]; rfl, rfl, rfl⟩
  | _ =>
    rw [hx] at hmem
    exact .inr ⟨a, hmem, fun _ => id⟩

/-- A report of the record is that of an entry. -/
theorem mem_reports {rp : Report} (hr : rp ∈ (recordAt cfg e es).reports) :
    ∃ x ∈ es, x.body = .report rp.toReportBody ∧ x.session_id = rp.session_id := by
  refine mem_replay (fun r => r.reports)
    (fun x rp => x.body = .report rp.toReportBody ∧ x.session_id = rp.session_id) rfl ?_ hr
  intro r x rp hmem
  unfold apply at hmem
  cases hx : x.body with
  | report b =>
    rw [hx] at hmem
    rcases List.mem_append.1 hmem with hold | hnew
    · exact .inr ⟨rp, hold, fun _ => id⟩
    · cases List.mem_singleton.1 hnew
      exact .inl ⟨rfl, rfl⟩
  | _ =>
    rw [hx] at hmem
    exact .inr ⟨rp, hmem, fun _ => id⟩

end Lists

/-! ## Validation -/

section Validation

variable {cfg : StoreConfig} {e : PyStr} {es : List Entry} {session : PyStr} {role : Role}
  {kind : ReportKind}

/-- The checks of `validate` on the record pass, whatever alerts there are. -/
def Passes (rec : Record) (role : Role) (session : PyStr) (kind : ReportKind) : Prop :=
  match role with
  | .diagnostician => (validate_diagnostician rec session).1.ok = true
  | .change_planner => (validate_planner rec session).1.ok = true
  | .proposal_judge => (validate_judge rec session).1.ok = true
  | .reporter => ∃ alerts, (validate_reporter rec session kind alerts).1.ok = true

theorem one_mem_ranksTo {n : Nat} (h : 0 < n) : (1 : Int) ∈ ranksTo n :=
  by simpa [ranksTo] using ⟨0, h, rfl⟩

/-- Ranks without gaps begin with one. -/
theorem top_of_validated {rec : Record} (h : (validate_diagnostician rec session).1.ok = true) :
    ∃ hy ∈ rec.hypotheses, hy.step_session = .str session ∧ hy.rank = 1 := by
  unfold validate_diagnostician at h
  extract_lets hs ranks at h
  split at h
  · cases h
  rename_i hne
  split at h
  · cases h
  split at h
  · cases h
  rename_i hranks
  have hpos : 0 < hs.length := List.length_pos_iff.2 fun hnil => hne (List.isEmpty_iff.2 hnil)
  have hone : (1 : Int) ∈ ranks := by
    rw [not_not.1 hranks]
    exact one_mem_ranksTo hpos
  obtain ⟨hy, hmem, hrank⟩ := List.mem_map.1 ((List.mem_insertionSort _).1 hone)
  obtain ⟨hrec, hsession⟩ := List.mem_filter.1 hmem
  exact ⟨hy, hrec, Json.eqStr_iff.1 hsession, hrank⟩

theorem artefact_of_validated {rec : Record} (h : (validate_planner rec session).1.ok = true) :
    ∃ a ∈ artefacts rec, a.session_id = .str session := by
  unfold validate_planner at h
  dsimp only at h
  split at h
  · rename_i art hown
    have hmem : art ∈ (artefacts rec).filter fun a => ofSession session a.session_id :=
      hown ▸ List.mem_singleton_self art
    obtain ⟨hrec, hsession⟩ := List.mem_filter.1 hmem
    exact ⟨art, hrec, Json.eqStr_iff.1 hsession⟩
  · cases h

theorem verdict_of_validated {rec : Record} (h : (validate_judge rec session).1.ok = true) :
    ∃ v ∈ rec.verdicts, v.session_id = .str session := by
  unfold validate_judge at h
  split at h
  · rename_i v hown
    have hmem : v ∈ rec.verdicts.filter fun v => ofSession session v.session_id :=
      hown ▸ List.mem_singleton_self v
    obtain ⟨hrec, hsession⟩ := List.mem_filter.1 hmem
    exact ⟨v, hrec, Json.eqStr_iff.1 hsession⟩
  · cases h

theorem report_of_validated {rec : Record} {alerts : List Fields}
    (h : (validate_reporter rec session kind alerts).1.ok = true) :
    ∃ r ∈ rec.reports, r.session_id = .str session := by
  unfold validate_reporter at h
  extract_lets rs at h
  split at h
  · cases h
  · rename_i r hlast
    obtain ⟨hrec, hown⟩ := List.mem_filter.1 (List.mem_of_getLast? hlast)
    exact ⟨r, hrec, Json.eqStr_iff.1 (Bool.and_eq_true_iff.1 hown).1⟩

/-- **A step that passes validation has written an entry of its role.** -/
theorem written_of_validated
    (hsession : ∀ x ∈ es, ∀ b, x.body = .hypothesis b → b.step_session = x.session_id)
    (h : Passes (recordAt cfg e es) role session kind) : ∃ x ∈ es, Writes role session x := by
  cases role with
  | diagnostician =>
    obtain ⟨hy, hmem, hown, hrank⟩ := top_of_validated h
    obtain ⟨x, hx, hbody⟩ := mem_hypotheses hmem
    have hstep : x.session_id = .str session := (hsession x hx _ hbody).symm.trans hown
    refine ⟨x, hx, by rw [authors, hbody]; rfl, hstep, fun b hb => ?_⟩
    cases hbody.symm.trans hb
    exact ⟨hown, hrank⟩
  | change_planner =>
    obtain ⟨a, hmem, hown⟩ := artefact_of_validated h
    obtain ⟨x, hx, hbody, hstep, -⟩ := mem_artefacts hmem
    refine ⟨x, hx, hbody, hstep.trans hown, fun b hb => ?_⟩
    rw [authors, hb] at hbody
    cases hbody
  | proposal_judge =>
    obtain ⟨v, hmem, hown⟩ := verdict_of_validated h
    obtain ⟨x, hx, hbody, hstep⟩ := mem_verdicts hmem
    refine ⟨x, hx, by rw [authors, hbody]; rfl, hstep.trans hown, fun b hb => ?_⟩
    cases hbody.symm.trans hb
  | reporter =>
    obtain ⟨alerts, h⟩ := h
    obtain ⟨r, hmem, hown⟩ := report_of_validated h
    obtain ⟨x, hx, hbody, hstep⟩ := mem_reports hmem
    refine ⟨x, hx, by rw [authors, hbody]; rfl, hstep.trans hown, fun b hb => ?_⟩
    cases hbody.symm.trans hb

end Validation

end Valops.Controller
