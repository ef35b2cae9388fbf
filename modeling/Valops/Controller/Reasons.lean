import Valops.Controller.Judged

/-!
# Why the runner moves an episode on

The runner reads a record, lets a step work for the state it finds there, reads again and decides where to
go. Between the two readings a request of its own may still be served, once, at the revision of the first
reading: then the state is another one, and no table has the step that was decided. Otherwise nothing has
entered a state since the first reading, so what the step has written is in the visit of that state.

Main result: `earned_of_route`.
-/

set_option autoImplicit false

namespace Valops.Controller

open Py Store Retries

variable {I : Installation} {cfg : StoreConfig} {e : PyStr} {es front back : List Entry} {x : Entry}
  {s dst : EpisodeState} {n m : Nat} {role : Role} {session : PyStr}

/-! ## States that the runner leaves alone -/

/-- No entry of the runner changes the state. -/
def Unmoved (es : List Entry) : Prop :=
  ∀ x ∈ es, ∀ b, x.body = .state b → x.principal ≠ py "controller"

theorem ne_nil_of_state (h : (recordAt cfg e front).state = some s) : front ≠ [] := by
  rintro rfl
  cases h

/-- Without the runner an episode stays where it is, or is resolved by the verifier. -/
theorem state_unmoved (h : Followed cfg e (front ++ back)) (hs : (recordAt cfg e front).state = some s)
    (hback : Unmoved back) : (recordAt cfg e (front ++ back)).state = some s ∨
      s = .awaiting_operator ∧ (recordAt cfg e (front ++ back)).state = some .resolved := by
  induction back using List.reverseRecOn with
  | nil =>
    rw [List.append_nil]
    exact .inl hs
  | append_singleton back x ih =>
    rw [← List.append_assoc] at h ⊢
    obtain ⟨hback, hx⟩ := List.forall_mem_append.1 hback
    have hbefore := ih h.of_append hback
    have hne : front ++ back ≠ [] := List.append_ne_nil_of_left_ne_nil (ne_nil_of_state hs) _
    rw [recordAt_snoc, apply_state]
    cases hb : x.body with
    | opened b => exact absurd (h.last.opened.1 ⟨b, hb⟩) hne
    | state b =>
      obtain ⟨hfrm, hstep⟩ := h.last.state b hb
      have hresolved : b.dst = .resolved := by
        by_contra hdst
        exact hx x (List.mem_singleton_self x) b hb (controller_of_table hstep hdst).1
      dsimp only
      rw [hresolved] at hstep ⊢
      have hfrm' : b.frm = .awaiting_operator := (table_resolved hstep).2
      rw [hfrm'] at hfrm
      rcases hbefore with hold | ⟨rfl, -⟩
      · exact .inr ⟨Option.some.inj (hold.symm.trans hfrm), rfl⟩
      · exact .inr ⟨rfl, rfl⟩
    | _ => exact hbefore

/-- Where the verifier has no part, nothing enters a state. -/
theorem unmoved_stays (h : Followed cfg e (front ++ back)) (hs : (recordAt cfg e front).state = some s)
    (hback : Unmoved back) (hawait : s ≠ .awaiting_operator) : ∀ x ∈ back, entersState x = false := by
  intro x hx
  obtain ⟨mid, rest, rfl⟩ := List.append_of_mem hx
  have hsplit : front ++ (mid ++ x :: rest) = (front ++ mid) ++ x :: rest := (List.append_assoc ..).symm
  have hmid : Unmoved mid := fun y hy => hback y (List.mem_append_left _ hy)
  rw [hsplit] at h
  have hfollows := h _ _ _ rfl
  have hstate : (recordAt cfg e (front ++ mid)).state = some s := by
    rcases state_unmoved h.of_append hs hmid with hold | ⟨hs', -⟩
    · exact hold
    · exact absurd hs' hawait
  unfold entersState
  cases hb : x.body with
  | opened b =>
    exact absurd (hfollows.opened.1 ⟨b, hb⟩)
      (List.append_ne_nil_of_left_ne_nil (ne_nil_of_state hs) _)
  | state b =>
    obtain ⟨hfrm, hstep⟩ := hfollows.state b hb
    cases hstate.symm.trans hfrm
    rcases eq_or_ne b.dst .resolved with hdst | hdst
    · rw [hdst] at hstep
      exact absurd (table_resolved hstep).2 hawait
    · exact absurd (controller_of_table hstep hdst).1 (hback x hx b hb)
  | _ => rfl

/-- The bundle of an episode stays. -/
theorem bundle_later (h : Followed cfg e (front ++ back)) (hne : front ≠ []) :
    (recordAt cfg e (front ++ back)).bundle_id = (recordAt cfg e front).bundle_id := by
  induction back using List.reverseRecOn with
  | nil => rw [List.append_nil]
  | append_singleton back x ih =>
    rw [← List.append_assoc] at h ⊢
    rw [recordAt_snoc, apply_bundle_id]
    cases hb : x.body with
    | opened b =>
      exact absurd (h.last.opened.1 ⟨b, hb⟩) (List.append_ne_nil_of_left_ne_nil hne _)
    | _ => exact ih h.of_append

/-! ## What a step has done -/

/-- The entry comes from an agent. -/
def byAgent (x : Entry) : Prop := x.body.agentOp?.isSome = true

/-- From a place of the log on a step of the role has been recorded as ok and has written its artefact; if
sessions are tidy, no other agent has written. -/
structure Did (tidy : Prop) (es : List Entry) (m : Nat) (role : Role) (session : PyStr) : Prop where
  recorded : ∃ x ∈ es.drop m, Records role session x
  wrote : ∃ x ∈ es.drop m, Writes role session x
  alone : tidy → ∀ x ∈ es.drop m, byAgent x → x.session_id = .str session

theorem byAgent_of_authors (h : authors role x = true) : byAgent x := by
  unfold authors at h
  unfold byAgent
  cases hx : x.body with
  | hypothesis b => rfl
  | recommendation b => rfl
  | no_action b => rfl
  | verdict b => rfl
  | report b => rfl
  | _ =>
    rw [hx] at h
    cases h

/-- What has been done since the visit began is done in the visit. -/
theorem Did.worked {tidy : Prop} (h : Did tidy es m role session) (hvisit : visit es = front ++ es.drop m) :
    Worked tidy es role session := by
  have hmem : ∀ x ∈ es.drop m, x ∈ visit es := fun x hx => hvisit ▸ List.mem_append_right _ hx
  obtain ⟨x, hx, hrecords⟩ := h.recorded
  obtain ⟨y, hy, hwrites⟩ := h.wrote
  refine ⟨⟨x, hmem x hx, hrecords⟩, ⟨y, hmem y hy, hwrites⟩, fun ht z hz => ?_⟩
  obtain ⟨w, hw, hauthor, hlast⟩ := exists_last ⟨y, hy, hwrites.author⟩
  rw [hvisit, List.filter_append, List.getLast?_append, hlast] at hz
  cases hz
  exact h.alone ht z hw (byAgent_of_authors hauthor)

/-! ## Where the runner goes -/

/-- P-09 of the bundle that has been loaded for an episode. -/
theorem retries_of_bundle {bundle : Bundle} {rec : Record} {limit : Json} {retries : Int}
    (hbundle : ∀ th, bundle.thresholds = .ok th → ∃ id, rec.bundle = .str id ∧ th = I.thresholds id)
    (hlimit : threshold bundle "P-09" = .ok limit) (hint : I.builtins.int limit = .ok retries) :
    I.retries rec = some retries := by
  obtain ⟨th, hth, hindex⟩ := bind_eq_ok.1 hlimit
  obtain ⟨id, hid, rfl⟩ := hbundle th hth
  have hrec : rec.bundle_id = some id := by
    unfold Record.bundle at hid
    split at hid
    · rename_i b hb
      cases hid
      exact hb
    · cases hid
  rw [Installation.retries, hrec, Option.bind_eq_bind, Option.bind_some, hindex]
  show ((I.builtins.int limit).toOption : Option Int) = _
  rw [hint]
  rfl

/-- The branches of `advance` have their grounds. -/
theorem grounds_of_route {bundle : Bundle} {rec : Record} {reason : PyStr}
    (hbundle : ∀ th, bundle.thresholds = .ok th → ∃ id, rec.bundle = .str id ∧ th = I.thresholds id)
    (h : route I.builtins bundle s rec = .ok (.go dst reason)) : Grounds (I.retries rec) rec s dst := by
  cases s with
  | diagnosing =>
    unfold route at h
    dsimp only at h
    split at h
    · rename_i hseen
      cases h
      refine .recovery fun hnil => ?_
      rw [hnil] at hseen
      cases hseen
    · rename_i hcalm
      have hnil : rec.recovery_observations = [] := by simpa using hcalm
      split at h
      · rename_i hall
        cases h
        exact .refuted hall
      · rename_i hopen
        cases h
        exact .hypotheses hnil (Bool.eq_false_iff.2 hopen)
  | recommending =>
    cases h
    exact .artefact
  | judging =>
    obtain ⟨v, hv, h⟩ := bind_eq_ok.1 h
    have hlast := orRaise_eq_ok.1 hv
    split at h
    · rename_i hpass
      cases h
      exact .pass hlast hpass
    · rename_i hfail
      obtain ⟨limit, hlimit, h⟩ := bind_eq_ok.1 h
      obtain ⟨retries, hretries, h⟩ := bind_eq_ok.1 h
      split at h
      · rename_i hwithin
        cases h
        refine .fail hlast ?_ (retries_of_bundle hbundle hlimit hretries) hwithin
        cases hr : v.result with
        | PASS => exact absurd hr hfail
        | FAIL => rfl
      · obtain ⟨reasons, -, h⟩ := bind_eq_ok.1 h
        cases h
  | reporting =>
    cases h
    exact .report
  | _ => cases h

/-- Once a request has been served late, no table has the step that is decided. -/
theorem not_decided {retries : Option Int} {rec : Record} {frm late : EpisodeState}
    (h : Grounds retries rec s dst) (hlate : (s, late) ∈ CONTROLLER)
    (hfrm : frm = late ∨ late = .awaiting_operator ∧ frm = .resolved) : (frm, dst) ∉ CONTROLLER := by
  have hmoved : ∀ a b : EpisodeState, (s = a ∧ dst = b) →
      ((a, b) = (.diagnosing, .recommending) ∨ (a, b) = (.diagnosing, .reporting) ∨
        (a, b) = (.recommending, .judging) ∨ (a, b) = (.judging, .reporting) ∨
        (a, b) = (.judging, .recommending) ∨ (a, b) = (.reporting, .awaiting_operator)) →
      (frm, dst) ∉ CONTROLLER := by
    rintro a b ⟨rfl, rfl⟩ hpair
    rcases hfrm with rfl | ⟨rfl, rfl⟩
    · rcases hpair with hp | hp | hp | hp | hp | hp <;> cases hp <;> revert hlate <;> cases frm <;> decide
    · rcases hpair with hp | hp | hp | hp | hp | hp <;> cases hp <;> decide
  cases h with
  | hypotheses => exact hmoved _ _ ⟨rfl, rfl⟩ (by decide)
  | recovery => exact hmoved _ _ ⟨rfl, rfl⟩ (by decide)
  | refuted => exact hmoved _ _ ⟨rfl, rfl⟩ (by decide)
  | artefact => exact hmoved _ _ ⟨rfl, rfl⟩ (by decide)
  | pass => exact hmoved _ _ ⟨rfl, rfl⟩ (by decide)
  | fail => exact hmoved _ _ ⟨rfl, rfl⟩ (by decide)
  | report => exact hmoved _ _ ⟨rfl, rfl⟩ (by decide)

/-- **What the runner decides is earned.** -/
theorem earned_of_route {bundle : Bundle} {reason : PyStr} (hfollowed : Followed I.store e es)
    (hn : n ≤ m) (hs : (recordAt I.store e (es.take n)).state = some s) (hrole : roleOf s = some role)
    (hlate : ∀ front x back b, es = front ++ x :: back → x.body = .state b →
      x.principal = py "controller" → front.length ≤ n)
    (hdid : Did I.tidy es m role session)
    (hbundle : ∀ th, bundle.thresholds = .ok th →
      ∃ id, (recordAt I.store e (es.take n)).bundle = .str id ∧ th = I.thresholds id)
    (hroute : route I.builtins bundle s (recordAt I.store e es) = .ok (.go dst reason)) :
    Earned I e es dst := by
  intro frm hfrm htable _ _
  have hes : es.take n ++ es.drop n = es := List.take_append_drop n es
  have hfollowed' : Followed I.store e (es.take n ++ es.drop n) := hes.symm ▸ hfollowed
  have hsame : (recordAt I.store e es).bundle = (recordAt I.store e (es.take n)).bundle := by
    have hid := bundle_later hfollowed' (ne_nil_of_state hs)
    rw [hes] at hid
    rw [Record.bundle, hid, Record.bundle]
  have hgrounds : Grounds (I.retries (recordAt I.store e es)) (recordAt I.store e es) s dst :=
    grounds_of_route (hsame ▸ hbundle) hroute
  -- the runner may have moved the episode at the place where it read, and nowhere later
  have hunmoved : ∀ back, es = es.take (n + 1) ++ back → Unmoved back := by
    intro back hback x hx b hb hp
    obtain ⟨mid, rest, rfl⟩ := List.append_of_mem hx
    have hlen := hlate (es.take (n + 1) ++ mid) x rest b (by rw [List.append_assoc]; exact hback) hb hp
    have htotal := congrArg List.length hback
    simp only [List.length_append, List.length_take, List.length_cons] at hlen htotal
    omega
  cases hdrop : es.drop n with
  | nil =>
    obtain ⟨x, hx, -⟩ := hdid.recorded
    have hnil : es.drop m = [] := by
      rw [List.drop_eq_nil_iff] at hdrop ⊢
      omega
    rw [hnil] at hx
    exact absurd hx List.not_mem_nil
  | cons x rest =>
    have hlt : n < es.length := by
      by_contra hge
      rw [List.drop_eq_nil_of_le (not_lt.1 hge)] at hdrop
      cases hdrop
    have hnext : es.take (n + 1) = es.take n ++ [x] := by
      have hget : es[n]? = some x := by rw [← List.head?_drop, hdrop, List.head?_cons]
      rw [List.take_add_one, hget, Option.toList_some]
    have hrest : es = es.take (n + 1) ++ rest := by
      rw [hnext, List.append_assoc, List.singleton_append, ← hdrop, hes]
    by_cases hx : ∃ b, x.body = .state b ∧ x.principal = py "controller"
    · obtain ⟨b, hb, hp⟩ := hx
      have hf : Followed I.store e (es.take n ++ x :: rest) := hdrop ▸ hfollowed'
      obtain ⟨hbfrm, hstep⟩ := (hf _ _ _ rfl).state b hb
      cases hs.symm.trans hbfrm
      have hcontroller : (b.frm, b.dst) ∈ CONTROLLER := by
        rw [hp] at hstep
        exact hstep
      have hmoved : (recordAt I.store e (es.take (n + 1))).state = some b.dst := by
        rw [hnext]
        exact state_of_entered hb
      have hafter := state_unmoved (hrest ▸ hfollowed) hmoved (hunmoved rest hrest)
      rw [← hrest, hfrm] at hafter
      refine absurd htable (not_decided hgrounds hcontroller ?_)
      exact hafter.imp Option.some.inj (And.imp_right Option.some.inj)
    · have hall : Unmoved (es.drop n) := by
        rw [hdrop]
        exact List.forall_mem_cons.2 ⟨fun b hb hp => hx ⟨b, hb, hp⟩, hunmoved rest hrest⟩
      have hawait : s ≠ .awaiting_operator := by
        rintro rfl
        cases hrole
      have hstay := unmoved_stays hfollowed' hs hall hawait
      have hframe : frm = s := by
        rcases state_unmoved hfollowed' hs hall with hold | ⟨hs', -⟩
        · rw [hes, hfrm] at hold
          exact Option.some.inj hold
        · exact absurd hs' hawait
      subst hframe
      have hvisit : visit es = (visit (es.take n) ++ (es.drop n).take (m - n)) ++ es.drop m := by
        conv_lhs => rw [← hes]
        rw [visit_append hstay, List.append_assoc]
        congr 1
        have hdm : es.drop m = (es.drop n).drop (m - n) := by
          rw [List.drop_drop]
          congr 1
          omega
        rw [hdm, List.take_append_drop]
      exact ⟨role, session, hrole, hdid.worked hvisit, hgrounds⟩

end Valops.Controller
