import Valops.Controller.Runner
import Valops.Store.Log

/-!
# Which failures a visit has

`_failures_in_state` takes the failed steps of a role whose stamp is not below the stamp of the last state
entry. The stamps are read from the wall clock, one at each entry; the log says which steps follow which
state entry.

Main result: `failures_follow_log`. The two agree on a log exactly if the stamps tell the failed steps
before the last state entry from those after it (`Told`).
-/

set_option autoImplicit false

namespace Valops.Controller.Retries

open Py Store

/-! ## Visits -/

/-- The entry begins a visit: it adds a line to `state_history`. -/
def entersState (x : Entry) : Bool :=
  match x.body with
  | .opened _ => true
  | .state _ => true
  | _ => false

/-- The failed step of a role that an entry adds. -/
def failedStep (rfc3339 : Double → PyStr) (role : Role) (x : Entry) : Option Store.Step :=
  match x.body with
  | .step b => if b.role = role ∧ b.outcome = .failed then some ⟨b, rfc3339 x.ts, x.ts⟩ else none
  | _ => none

/-- The failed steps of a role after the last state entry of a log. -/
def visitFailures (rfc3339 : Double → PyStr) (role : Role) (es : List Entry) : List Store.Step :=
  es.foldl (fun fails x => if entersState x then [] else fails ++ (failedStep rfc3339 role x).toList) []

/-- The entry is a failed step of the role. -/
def Fails (role : Role) (x : Entry) : Prop :=
  ∃ b, x.body = .step b ∧ b.role = role ∧ b.outcome = .failed

/-- The stamps tell the failed steps before the last state entry from those after it. -/
def Told (role : Role) (es : List Entry) : Prop :=
  ∃ front x back, es = front ++ x :: back ∧ entersState x = true ∧ (∀ y ∈ back, entersState y = false) ∧
    (∀ y ∈ front, Fails role y → y.ts.ge x.ts = false) ∧ ∀ y ∈ back, Fails role y → y.ts.ge x.ts = true

/-! ## The record of a log -/

section Log

variable {rfc3339 : Double → PyStr} {role : Role} {es front back : List Entry} {x : Entry} {r : Record}
  {s : Store.Step}

theorem state_history_replay : (replay rfc3339 r es).state_history.map StateEvent.ts =
    r.state_history.map StateEvent.ts ++ (es.filter entersState).map Entry.ts := by
  induction es generalizing r with
  | nil => simp [replay]
  | cons x es ih =>
    have hfirst : replay rfc3339 r (x :: es) = replay rfc3339 (apply rfc3339 r x).1 es := rfl
    rw [hfirst, ih, List.filter_cons]
    unfold apply entersState
    cases x.body with
    | opened b => simp
    | state b => simp
    | _ => rfl

/-- The failed steps of a role in the record are those of the log. -/
theorem steps_replay : (replay rfc3339 r es).steps.filter (fun s => s.role = role ∧ s.outcome = .failed) =
    r.steps.filter (fun s => s.role = role ∧ s.outcome = .failed) ++
      es.filterMap (failedStep rfc3339 role) := by
  induction es generalizing r with
  | nil => simp [replay]
  | cons x es ih =>
    have hfirst : replay rfc3339 r (x :: es) = replay rfc3339 (apply rfc3339 r x).1 es := rfl
    rw [hfirst, ih, List.filterMap_cons]
    unfold apply failedStep
    cases x.body with
    | step b =>
      dsimp only
      rw [List.filter_append, List.append_assoc]
      congr 1
      by_cases hb : b.role = role ∧ b.outcome = .failed
      · rw [if_pos hb, List.filter_cons_of_pos (by simpa using hb)]
        rfl
      · rw [if_neg hb, List.filter_cons_of_neg (by simpa using hb)]
        rfl
    | _ => rfl

/-- A state entry begins the list anew, and the entries after it add to it. -/
theorem visitFailures_split (hx : entersState x = true) (hback : ∀ y ∈ back, entersState y = false) :
    visitFailures rfc3339 role (front ++ x :: back) = back.filterMap (failedStep rfc3339 role) := by
  have hadd : ∀ (ys : List Entry) (acc : List Store.Step), (∀ y ∈ ys, entersState y = false) →
      ys.foldl (fun fails x => if entersState x then [] else fails ++ (failedStep rfc3339 role x).toList) acc =
        acc ++ ys.filterMap (failedStep rfc3339 role) := by
    intro ys
    induction ys with
    | nil =>
      intro acc _
      rw [List.filterMap_nil, List.append_nil]
      rfl
    | cons y ys ih =>
      intro acc hys
      obtain ⟨hy, hrest⟩ := List.forall_mem_cons.1 hys
      rw [List.foldl_cons, if_neg (by rw [hy]; exact Bool.false_ne_true), ih _ hrest, List.append_assoc]
      congr 1
      cases hfailed : failedStep rfc3339 role y with
      | none => rw [List.filterMap_cons_none hfailed]; rfl
      | some st => rw [List.filterMap_cons_some hfailed]; rfl
  rw [visitFailures, List.foldl_append, List.foldl_cons, if_pos hx, hadd back [] hback]
  rfl

/-- A log has a last state entry, or none. -/
theorem exists_last_state (es : List Entry) : (∀ y ∈ es, entersState y = false) ∨
    ∃ front x back, es = front ++ x :: back ∧ entersState x = true ∧ ∀ y ∈ back, entersState y = false := by
  induction es using List.reverseRecOn with
  | nil => exact .inl fun _ h => absurd h List.not_mem_nil
  | append_singleton es x ih =>
    cases hx : entersState x with
    | true => exact .inr ⟨es, x, [], rfl, hx, fun _ h => absurd h List.not_mem_nil⟩
    | false =>
      rcases ih with hnone | ⟨front, y, back, rfl, hy, hback⟩
      · exact .inl (List.forall_mem_append.2 ⟨hnone, List.forall_mem_singleton.2 hx⟩)
      · refine .inr ⟨front, y, back ++ [x], ?_, hy, ?_⟩
        · rw [List.append_assoc, List.cons_append]
        · exact List.forall_mem_append.2 ⟨hback, List.forall_mem_singleton.2 hx⟩

/-- There is one way to split a log at its last state entry. -/
theorem last_state_unique {front' back' : List Entry} {x' : Entry}
    (h : front ++ x :: back = front' ++ x' :: back') (hx : entersState x = true)
    (hx' : entersState x' = true) (hback : ∀ y ∈ back, entersState y = false)
    (hback' : ∀ y ∈ back', entersState y = false) : front = front' ∧ x = x' ∧ back = back' := by
  rcases List.append_eq_append_iff.1 h with ⟨mid, rfl, hmid⟩ | ⟨mid, rfl, hmid⟩
  · cases mid with
    | nil =>
      rw [List.nil_append, List.cons.injEq] at hmid
      exact ⟨(List.append_nil _).symm, hmid.1, hmid.2⟩
    | cons y mid =>
      rw [List.cons_append, List.cons.injEq] at hmid
      have hlater := hback x' (hmid.2 ▸ List.mem_append_right _ List.mem_cons_self)
      rw [hx'] at hlater
      cases hlater
  · cases mid with
    | nil =>
      rw [List.nil_append, List.cons.injEq] at hmid
      exact ⟨List.append_nil _, hmid.1.symm, hmid.2.symm⟩
    | cons y mid =>
      rw [List.cons_append, List.cons.injEq] at hmid
      have hlater := hback' x (hmid.2 ▸ List.mem_append_right _ List.mem_cons_self)
      rw [hx] at hlater
      cases hlater

/-- What `_failures_in_state` returns on a log, by its last state entry. -/
theorem failures_split (hx : entersState x = true) (hback : ∀ y ∈ back, entersState y = false)
    (hr : r.steps = []) : _failures_in_state (replay rfc3339 r (front ++ x :: back)) role =
      .ok ((front ++ x :: back).filterMap (failedStep rfc3339 role) |>.filter fun s => s.ts.ge x.ts) := by
  have hlast : ((replay rfc3339 r (front ++ x :: back)).state_history.map StateEvent.ts).getLast? =
      some x.ts := by
    have hnone : back.filter entersState = [] :=
      List.filter_eq_nil_iff.2 fun y hy => by rw [hback y hy]; exact Bool.false_ne_true
    rw [state_history_replay, List.filter_append, List.filter_cons_of_pos hx, hnone, List.map_append,
      ← List.append_assoc]
    exact List.getLast?_concat
  rw [List.getLast?_map] at hlast
  obtain ⟨entered, hentered, hts⟩ := Option.map_eq_some_iff.1 hlast
  have hsteps : (replay rfc3339 r (front ++ x :: back)).steps.filter
      (fun s => s.role = role ∧ s.outcome = .failed) =
      (front ++ x :: back).filterMap (failedStep rfc3339 role) := by
    rw [steps_replay, hr]
    rfl
  rw [_failures_in_state, hentered, ← hsteps, List.filter_filter, ← hts]
  show Except.ok _ = Except.ok _
  congr 1
  refine List.filter_congr fun s _ => ?_
  rw [Bool.eq_iff_iff, decide_eq_true_eq, Bool.and_eq_true, decide_eq_true_eq]
  constructor
  · exact fun ⟨hrole, hfailed, hge⟩ => ⟨hge, hrole, hfailed⟩
  · exact fun ⟨hge, hrole, hfailed⟩ => ⟨hrole, hfailed, hge⟩

/-- The failed steps among some entries. -/
theorem mem_failed : s ∈ es.filterMap (failedStep rfc3339 role) ↔
    ∃ y ∈ es, ∃ b, y.body = .step b ∧ b.role = role ∧ b.outcome = .failed ∧ s = ⟨b, rfc3339 y.ts, y.ts⟩ := by
  rw [List.mem_filterMap]
  refine exists_congr fun y => and_congr_right fun _ => ?_
  unfold failedStep
  cases hbody : y.body with
  | step b =>
    dsimp only
    by_cases hb : b.role = role ∧ b.outcome = .failed
    · rw [if_pos hb]
      constructor
      · exact fun h => ⟨b, rfl, hb.1, hb.2, (Option.some.inj h).symm⟩
      · rintro ⟨b', hb', _, _, rfl⟩
        cases hb'
        rfl
    · rw [if_neg hb]
      refine ⟨nofun, ?_⟩
      rintro ⟨b', hb', h1, h2, _⟩
      cases hb'
      exact absurd ⟨h1, h2⟩ hb
  | _ => exact ⟨nofun, fun ⟨_, h, _⟩ => nomatch h⟩

/-- A condition on the stamps of the failed steps among some entries. -/
theorem forall_failed (p : Double → Prop) : (∀ s ∈ es.filterMap (failedStep rfc3339 role), p s.ts) ↔
    ∀ y ∈ es, Fails role y → p y.ts := by
  constructor
  · rintro h y hy ⟨b, hb, hrole, hfailed⟩
    exact h _ (mem_failed.2 ⟨y, hy, b, hb, hrole, hfailed, rfl⟩)
  · intro h s hs
    obtain ⟨y, hy, b, hb, hrole, hfailed, rfl⟩ := mem_failed.1 hs
    exact h y hy ⟨b, hb, hrole, hfailed⟩

/-- A filter of two lists keeps the second one and nothing of the first. -/
theorem filter_append_eq_right {α : Type} {p : α → Bool} {xs ys : List α} :
    (xs ++ ys).filter p = ys ↔ (∀ a ∈ xs, p a = false) ∧ ∀ a ∈ ys, p a = true := by
  rw [List.filter_append]
  constructor
  · intro h
    have hys : ∀ a ∈ ys, p a = true := by
      intro a ha
      rw [← h] at ha
      rcases List.mem_append.1 ha with ha | ha
      · exact (List.mem_filter.1 ha).2
      · exact (List.mem_filter.1 ha).2
    rw [List.filter_eq_self.2 hys, List.append_left_eq_self] at h
    exact ⟨fun a ha => eq_false_of_ne_true (List.filter_eq_nil_iff.1 h a ha), hys⟩
  · rintro ⟨hxs, hys⟩
    have hnone : xs.filter p = [] := List.filter_eq_nil_iff.2 fun a ha => by
      rw [hxs a ha]
      exact Bool.false_ne_true
    rw [hnone, List.filter_eq_self.2 hys, List.nil_append]

end Log

/-- **The failures of a visit are those of the log**, exactly if the stamps tell them apart. -/
theorem failures_follow_log (rfc3339 : Double → PyStr) (episode_id : PyStr) (es : List Entry) (role : Role) :
    _failures_in_state (replay rfc3339 (empty_record episode_id) es) role =
      .ok (visitFailures rfc3339 role es) ↔ Told role es := by
  rcases exists_last_state es with hnone | ⟨front, x, back, rfl, hx, hback⟩
  · refine iff_of_false (fun h => ?_) ?_
    · have hempty : (replay rfc3339 (empty_record episode_id) es).state_history.map StateEvent.ts = [] := by
        have hfilter : es.filter entersState = [] :=
          List.filter_eq_nil_iff.2 fun y hy => by rw [hnone y hy]; exact Bool.false_ne_true
        rw [state_history_replay, hfilter]
        rfl
      rw [_failures_in_state, List.map_eq_nil_iff.1 hempty] at h
      cases h
    · rintro ⟨front, x, back, rfl, hx, _⟩
      have hlater := hnone x (List.mem_append_right _ List.mem_cons_self)
      rw [hx] at hlater
      cases hlater
  have hnostep : failedStep rfc3339 role x = none := by
    unfold failedStep
    unfold entersState at hx
    cases hbody : x.body with
    | step b =>
      rw [hbody] at hx
      cases hx
    | _ => rfl
  rw [failures_split hx hback rfl, visitFailures_split hx hback, Except.ok.injEq, List.filterMap_append,
    List.filterMap_cons_none hnostep, filter_append_eq_right]
  rw [forall_failed fun t => t.ge x.ts = false, forall_failed fun t => t.ge x.ts = true]
  constructor
  · exact fun h => ⟨front, x, back, rfl, hx, hback, h.1, h.2⟩
  · rintro ⟨front', x', back', heq, hx', hback', h⟩
    obtain ⟨rfl, rfl, rfl⟩ := last_state_unique heq hx hx' hback hback'
    exact h

/-- A clock that goes forward at every entry. -/
def Increasing (es : List Entry) : Prop := es.Pairwise fun x y => x.ts.lt y.ts = true

theorem ge_of_lt {t u : Double} (h : t.lt u = true) : u.ge t = true ∧ t.ge u = false := by
  unfold Double.ge Double.lt Double.eq at *
  cases ht : t.key with
  | none =>
    rw [ht] at h
    cases h
  | some a =>
    cases hu : u.key with
    | none =>
      rw [ht, hu] at h
      cases h
    | some b =>
      rw [ht, hu] at h
      simp only [decide_eq_true_eq] at h
      simp only [Bool.or_eq_true, Bool.or_eq_false_iff, decide_eq_true_eq, decide_eq_false_iff_not]
      omega

/-- **A clock that goes forward tells the visits apart.** -/
theorem told_of_increasing {es : List Entry} (h : Increasing es) (hes : ∃ x ∈ es, entersState x = true)
    (role : Role) : Told role es := by
  rcases exists_last_state es with hnone | ⟨front, x, back, rfl, hx, hback⟩
  · obtain ⟨x, hmem, hx⟩ := hes
    rw [hnone x hmem] at hx
    cases hx
  · obtain ⟨_, hafter, hbefore⟩ := List.pairwise_append.1 h
    refine ⟨front, x, back, rfl, hx, hback, fun y hy _ => ?_, fun y hy _ => ?_⟩
    · exact (ge_of_lt (hbefore y hy x List.mem_cons_self)).2
    · exact (ge_of_lt ((List.pairwise_cons.1 hafter).1 y hy)).1

/-! ### A clock that steps back -/

/-- An entry that the controller writes at this time. -/
def entryAt (t : Nat) (body : Body) : Entry :=
  ⟨py "e1", 1, (Double.ofInt? t).getD .zero, body, py "controller", .null, py "audit:none"⟩

/-- A change of the state. -/
def stateAt (t : Nat) (frm dst : EpisodeState) : Entry := entryAt t (.state ⟨frm, dst, .null⟩)

/-- A failed step of the change planner. -/
def failedAt (t : Nat) : Entry :=
  entryAt t (.step ⟨.change_planner, .str (py "s1"), .failed, .str (py "no artefact"), .str (py "recommending"),
    .str (py "default")⟩)

/-- The judge sends the episode back after the clock has been set back. -/
def steppedBack : List Entry :=
  [stateAt 1 .open .diagnosing, stateAt 2 .diagnosing .recommending, failedAt 9,
    stateAt 10 .recommending .judging, stateAt 8 .judging .recommending, failedAt 7]

/-- **The failure of the earlier visit counts, and the one of this visit does not.** -/
theorem clock_stepped_back :
    (_failures_in_state (replay (fun _ => []) (empty_record (py "e1")) steppedBack) .change_planner).toOption =
      some [⟨⟨.change_planner, .str (py "s1"), .failed, .str (py "no artefact"), .str (py "recommending"),
        .str (py "default")⟩, [], (Double.ofInt? 9).getD .zero⟩] ∧
    _failures_in_state (replay (fun _ => []) (empty_record (py "e1")) steppedBack) .change_planner ≠
      .ok (visitFailures (fun _ => []) .change_planner steppedBack) := by
  decide +kernel

end Valops.Controller.Retries
