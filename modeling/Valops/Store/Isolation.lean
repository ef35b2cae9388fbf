import Valops.Store.Ledger

/-!
# The judge's view

What `judge_view` shows of an episode depends only on what `isolate` keeps of its log: not on
hypotheses, their statuses, verdicts, reports, steps, costs and annotations, not on the numbers of
the entries, and on a proposal before the last one not even through its kind.

Main result: `judge_isolation`.
-/

set_option autoImplicit false

namespace Valops.Store

open Py

/-! ## What is kept of a log -/

/-- The kinds the judge must not see. -/
def Body.hidden : Body → Bool
  | .hypothesis _ | .hypothesis_status _ | .verdict _ | .report _ | .step _ | .cost _
  | Body.annotation _ => true
  | _ => false

/-- A recommendation or a no-action record. -/
def Body.proposal : Body → Bool
  | .recommendation _ | .no_action _ => true
  | _ => false

/-- What is kept of an entry: all but its number, or that a proposal was there. -/
inductive Trace where
  | kept (e : Entry)
  | proposal
  deriving DecidableEq

/-- The log without hidden entries and numbers, and with a mark for every proposal but the last. -/
def isolate : List Entry → List Trace
  | [] => []
  | e :: es =>
    if e.body.hidden then isolate es
    else if e.body.proposal && es.any fun e => e.body.proposal then .proposal :: isolate es
    else .kept { e with rev := 0 } :: isolate es

/-- What the judge sees of the artefact that an entry adds. -/
def Entry.judged (rfc3339 : Double → PyStr) (e : Entry) : Option JudgedArtefact :=
  match e.body with
  | .recommendation b => some (.recommendation b (rfc3339 e.ts))
  | .no_action b => some (.no_action b (rfc3339 e.ts))
  | _ => none

def Trace.judged (rfc3339 : Double → PyStr) : Trace → Option JudgedArtefact
  | .kept e => e.judged rfc3339
  | .proposal => none

/-! ## What the judge sees of a record -/

/-- What the judge sees of the artefact under judgement. -/
def Record.target (rec : Record) : Option JudgedArtefact :=
  (under_judgement rec).map Artefact.judged

/-- The fields of the view that are not about the artefact under judgement. -/
def Record.facts (rec : Record) : Record :=
  { rec with
    revision := 0
    hypotheses := []
    recommendations := []
    no_action := []
    verdicts := []
    reports := []
    annotations := []
    steps := []
    state_history := []
    cost := {} }

theorem skillView_congr {skills : Json} {a a' : Option Artefact}
    (h : a.map Artefact.judged = a'.map Artefact.judged) :
    skillView skills a = skillView skills a' := by
  cases a with
  | none =>
    cases a' with
    | none => rfl
    | some a' => cases h
  | some a =>
    cases a' with
    | none => cases h
    | some a' =>
      have hj : a.judged = a'.judged := Option.some.inj h
      cases a with
      | recommendation r =>
        cases a' with
        | recommendation r' =>
          have hskill : r.skill = r'.skill :=
            congrArg RecommendationBody.skill (JudgedArtefact.recommendation.inj hj).1
          simp only [skillView, hskill]
        | no_action n => cases hj
      | no_action n =>
        cases a' with
        | recommendation r' => cases hj
        | no_action n' => rfl

/-- The view is made of the facts and of the artefact under judgement. -/
theorem judge_view_congr {rec rec' : Record} {skills : Json} (hfacts : rec.facts = rec'.facts)
    (htarget : rec.target = rec'.target) : judge_view rec skills = judge_view rec' skills := by
  have hview : ∀ rec : Record, judge_view rec skills = (do
      let skill ← skillView skills (under_judgement rec)
      pure { episode_id := rec.facts.episode_id, cls := rec.facts.cls, trigger := rec.facts.trigger,
             state := rec.facts.state, consensus_mode := rec.facts.consensus_mode,
             consensus_mode_evidence := rec.facts.consensus_mode_evidence,
             signals := rec.facts.signals, under_judgement := rec.target, skill,
             verifications := rec.facts.verifications,
             recovery_observations := rec.facts.recovery_observations }) := fun _ => rfl
  rw [hview, hview, hfacts, htarget, skillView_congr htarget]

/-! ## Replaying a log -/

/-- The one greatest element of a list is its `argmax`. -/
theorem argmax_of_lt {α : Type} [DecidableEq α] {f : α → Nat} {l : List α} {a : α} (ha : a ∈ l)
    (h : ∀ b ∈ l, b = a ∨ f b < f a) : l.argmax f = some a := by
  refine List.argmax_eq_some_iff.2 ⟨ha, ?_, ?_⟩
  · intro b hb
    rcases h b hb with rfl | hlt
    · exact le_rfl
    · exact hlt.le
  · intro b hb hle
    rcases h b hb with rfl | hlt
    · exact le_rfl
    · exact absurd hle (not_le_of_gt hlt)

/-- The greatest element of the images. -/
theorem argmax_map {α β : Type} {f : α → Nat} {g : α → β} {k : β → Nat} (hk : ∀ a, k (g a) = f a)
    (l : List α) : (l.argmax f).map g = (l.map g).argmax k := by
  induction l with
  | nil => rfl
  | cons a l ih =>
    rw [List.map_cons, List.argmax_cons, List.argmax_cons, ← ih]
    cases l.argmax f with
    | none => rfl
    | some b =>
      simp only [Option.map_some, hk]
      split <;> rfl

/-- The artefact under judgement is seen without its session. -/
theorem target_anon (rec : Record) : rec.anon.target = rec.target := by
  have hseen : ∀ rec : Record, rec.target =
      (((artefacts rec).map fun a => (a.judged, a.rev)).argmax Prod.snd).map Prod.fst := by
    intro rec
    rw [← argmax_map (f := Artefact.rev) (g := fun a => (a.judged, a.rev)) fun _ => rfl,
      Option.map_map]
    rfl
  have hsame : (artefacts rec.anon).map (fun a => (a.judged, a.rev)) =
      (artefacts rec).map fun a => (a.judged, a.rev) := by
    simp only [artefacts, Record.anon, List.map_append, List.map_map]
    rfl
  rw [hseen, hseen, hsame]

theorem facts_anon (rec : Record) : rec.anon.facts = rec.facts := rfl

section Replay

variable {rfc3339 : Double → PyStr} {r : Record} {e : Entry} {es : List Entry}

/-- Neither a hidden entry nor a proposal changes the facts. -/
theorem facts_of_hidden (h : e.body.hidden ∨ e.body.proposal) :
    (apply rfc3339 r e).1.facts = r.facts := by
  unfold apply
  cases hb : e.body <;> rw [hb] at h <;> first | rfl | simp [Body.hidden, Body.proposal] at h

/-- The facts that an entry adds do not depend on its number. -/
theorem facts_apply : (apply rfc3339 r e).1.facts =
    (apply rfc3339 r.facts { e with rev := 0 }).1.facts := by
  unfold apply
  cases hb : e.body <;> rfl

/-- An entry that is no proposal leaves the artefact under judgement. -/
theorem target_of_not_proposal (h : e.body.proposal = false) :
    (apply rfc3339 r e).1.target = r.target := by
  unfold apply
  cases hb : e.body <;> rw [hb] at h <;> first | rfl | cases h

/-- A proposal with a number above the others is the artefact under judgement. -/
theorem target_of_proposal (hrev : ∀ a ∈ artefacts r, a.rev < e.rev) (h : e.body.proposal) :
    (apply rfc3339 r e).1.target = e.judged rfc3339 := by
  have hold : ∀ a, a ∈ artefacts r ↔
      a ∈ r.recommendations.map Artefact.recommendation ∨ a ∈ r.no_action.map Artefact.no_action :=
    fun a => List.mem_append
  cases hb : e.body with
  | recommendation b =>
    have hmax : under_judgement (apply rfc3339 r e).1 =
        some (.recommendation ⟨b, e.session_id, rfc3339 e.ts, e.rev⟩) := by
      refine argmax_of_lt ?_ ?_
      · simp [apply, hb, artefacts]
      · intro a ha
        simp only [apply, hb, artefacts, List.map_append, List.mem_append, List.map_cons,
          List.map_nil, List.mem_singleton] at ha
        rcases ha with (ha | ha) | ha
        · exact .inr (hrev a ((hold a).2 (.inl ha)))
        · exact .inl ha
        · exact .inr (hrev a ((hold a).2 (.inr ha)))
    rw [Record.target, hmax, Entry.judged, hb]
    rfl
  | no_action b =>
    have hmax : under_judgement (apply rfc3339 r e).1 =
        some (.no_action ⟨b, e.session_id, rfc3339 e.ts, e.rev⟩) := by
      refine argmax_of_lt ?_ ?_
      · simp [apply, hb, artefacts]
      · intro a ha
        simp only [apply, hb, artefacts, List.map_append, List.mem_append, List.map_cons,
          List.map_nil, List.mem_singleton] at ha
        rcases ha with ha | ha | ha
        · exact .inr (hrev a ((hold a).2 (.inl ha)))
        · exact .inr (hrev a ((hold a).2 (.inr ha)))
        · exact .inl ha
    rw [Record.target, hmax, Entry.judged, hb]
    rfl
  | _ =>
    rw [hb] at h
    cases h

/-- The artefacts of a record have numbers of entries. -/
theorem artefacts_rev {n : Nat} (hrev : ∀ a ∈ artefacts r, a.rev < n) (he : e.rev < n) :
    ∀ a ∈ artefacts (apply rfc3339 r e).1, a.rev < n := by
  intro a ha
  cases hb : e.body with
  | recommendation b =>
    simp only [apply, hb, artefacts, List.map_append, List.mem_append, List.map_cons,
      List.map_nil, List.mem_singleton] at ha
    rcases ha with (ha | rfl) | ha
    · exact hrev a (List.mem_append_left _ ha)
    · exact he
    · exact hrev a (List.mem_append_right _ ha)
  | no_action b =>
    simp only [apply, hb, artefacts, List.map_append, List.mem_append, List.map_cons,
      List.map_nil, List.mem_singleton] at ha
    rcases ha with ha | ha | rfl
    · exact hrev a (List.mem_append_left _ ha)
    · exact hrev a (List.mem_append_right _ ha)
    · exact he
  | _ =>
    simp only [apply, hb] at ha
    exact hrev a ha

/-- The facts of a replayed log are those of what is kept of it. -/
theorem facts_replay : ∀ {es : List Entry} {r r' : Record}, r.facts = r'.facts →
    (replay rfc3339 r es).facts = ((isolate es).foldl (fun r t => match t with
      | .kept e => (apply rfc3339 r e).1.facts
      | .proposal => r) r'.facts)
  | [], _, _, h => h
  | e :: es, r, r', h => by
    show (replay rfc3339 (apply rfc3339 r e).1 es).facts = _
    rw [isolate]
    by_cases hhid : e.body.hidden
    · rw [if_pos hhid]
      exact facts_replay ((facts_of_hidden (.inl hhid)).trans h)
    · rw [if_neg hhid]
      split
      · rename_i hprop
        exact facts_replay ((facts_of_hidden (.inr (Bool.and_eq_true_iff.1 hprop).1)).trans h)
      · have hstep : (apply rfc3339 r e).1.facts =
            (apply rfc3339 r'.facts { e with rev := 0 }).1.facts.facts := by
          rw [facts_apply, h]
          rfl
        exact facts_replay hstep

theorem not_proposal_of_hidden (h : e.body.hidden) : e.body.proposal = false := by
  cases hb : e.body <;> rw [hb] at h <;> first | rfl | cases h

variable (rfc3339) in
theorem judged_isSome (e : Entry) : (e.judged rfc3339).isSome = e.body.proposal := by
  unfold Entry.judged
  cases hb : e.body <;> rfl

variable (rfc3339) in
/-- What is kept of a log has a proposal to judge when the log has a proposal. -/
theorem isolate_judged_isSome (es : List Entry) :
    ((isolate es).findSome? (Trace.judged rfc3339)).isSome = es.any fun e => e.body.proposal := by
  induction es with
  | nil => rfl
  | cons e es ih =>
    rw [isolate, List.any_cons]
    split
    · rename_i hhid
      rw [not_proposal_of_hidden hhid, ih, Bool.false_or]
    · split
      · rename_i hmark
        obtain ⟨hprop, hany⟩ := Bool.and_eq_true_iff.1 hmark
        rw [List.findSome?_cons, hprop, Bool.true_or]
        exact ih.trans hany
      · have hkept : Trace.judged rfc3339 (.kept { e with rev := 0 }) = e.judged rfc3339 := rfl
        rw [List.findSome?_cons, hkept, ← judged_isSome rfc3339 e]
        cases e.judged rfc3339 with
        | some j => rfl
        | none => simpa using ih

/-- The artefact under judgement is the last proposal of the log. -/
theorem target_replay : ∀ {es : List Entry} {r : Record}, es.Pairwise (fun a b => a.rev < b.rev) →
    (∀ a ∈ artefacts r, ∀ e ∈ es, a.rev < e.rev) → (replay rfc3339 r es).target =
      ((isolate es).findSome? (Trace.judged rfc3339)).or r.target
  | [], _, _, _ => rfl
  | e :: es, r, hsorted, hrev => by
    obtain ⟨hlt, hrest⟩ := List.pairwise_cons.1 hsorted
    have hrev' : ∀ a ∈ artefacts (apply rfc3339 r e).1, ∀ e' ∈ es, a.rev < e'.rev :=
      fun a ha e' he' => artefacts_rev (fun a ha => hrev a ha e' (List.mem_cons_of_mem _ he'))
        (hlt e' he') a ha
    have hsome := isolate_judged_isSome rfc3339 es
    have hkept : Trace.judged rfc3339 (.kept { e with rev := 0 }) = e.judged rfc3339 := rfl
    show (replay rfc3339 (apply rfc3339 r e).1 es).target = _
    rw [target_replay hrest hrev', isolate]
    split
    · rename_i hhid
      rw [target_of_not_proposal (not_proposal_of_hidden hhid)]
    · split
      · rename_i hmark
        rw [(Bool.and_eq_true_iff.1 hmark).2] at hsome
        obtain ⟨j, hj⟩ := Option.isSome_iff_exists.1 hsome
        rw [List.findSome?_cons, Trace.judged, hj]
        rfl
      · rename_i hlast
        rw [List.findSome?_cons, hkept]
        cases hprop : e.body.proposal with
        | false =>
          have hnone : e.judged rfc3339 = none := by
            simpa [hprop] using judged_isSome rfc3339 e
          rw [target_of_not_proposal hprop, hnone]
        | true =>
          -- no proposal comes after this one
          have hnil : (isolate es).findSome? (Trace.judged rfc3339) = none := by
            rw [hprop, Bool.true_and, Bool.not_eq_true] at hlast
            simpa [hlast] using hsome
          rw [target_of_proposal (fun a ha => hrev a ha e List.mem_cons_self) hprop, hnil]
          obtain ⟨j, hj⟩ := Option.isSome_iff_exists.1
            ((judged_isSome rfc3339 e).trans hprop)
          rw [hj]
          rfl

/-- Two replayed logs of which the same is kept show the judge the same. -/
theorem replay_judged (rfc3339 : Double → PyStr) (ep : PyStr) {es es' : List Entry}
    (hsorted : es.Pairwise fun a b => a.rev < b.rev)
    (hsorted' : es'.Pairwise fun a b => a.rev < b.rev) (h : isolate es = isolate es') :
    (replay rfc3339 (empty_record ep) es).facts = (replay rfc3339 (empty_record ep) es').facts ∧
    (replay rfc3339 (empty_record ep) es).target = (replay rfc3339 (empty_record ep) es').target := by
  have hempty : ∀ a ∈ artefacts (empty_record ep), ∀ e ∈ es, a.rev < e.rev := fun a ha =>
    absurd ha List.not_mem_nil
  have hempty' : ∀ a ∈ artefacts (empty_record ep), ∀ e ∈ es', a.rev < e.rev := fun a ha =>
    absurd ha List.not_mem_nil
  refine ⟨?_, ?_⟩
  · rw [facts_replay rfl, facts_replay rfl, h]
  · rw [target_replay hsorted hempty, target_replay hsorted' hempty', h]

end Replay

/-! ## Isolation -/

/-- What the judge reads depends only on what is kept of a log. -/
structure JudgeIsolated (cfg : StoreConfig) : Prop where
  /-- For any two logs of an episode: the entries are in the order of their numbers. -/
  folds : ∀ (ep : PyStr) (es es' : List Entry) (rec rec' : Record) (skills : Json),
    es.Pairwise (fun a b => a.rev < b.rev) → es'.Pairwise (fun a b => a.rev < b.rev) →
    (∀ e ∈ es, e.episode_id = ep) → (∀ e ∈ es', e.episode_id = ep) → isolate es = isolate es' →
    fold cfg.rfc3339 es = .ok rec → fold cfg.rfc3339 es' = .ok rec' →
    judge_view rec skills = judge_view rec' skills
  /-- For an episode in any two runs: what `agent_read` returns to a judge. -/
  reads : ∀ (ok ok' : System → Act → Prop) (x y : System) (e : PyStr) (rec rec' : Record) (w : World),
    Conc.Reachable Initial (Moves cfg) ok x → Conc.Reachable Initial (Moves cfg) ok' y →
    isolate (x.store.entries e) = isolate (y.store.entries e) →
    x.store.records.get? e = some rec → y.store.records.get? e = some rec' →
    (loadSkills cfg w rec >>= view_for rec true) = (loadSkills cfg w rec' >>= view_for rec' true)

section Isolation

variable {cfg : StoreConfig}

/-- The log of an episode is in the order of its numbers. -/
theorem Consistent.increasing {strict : Prop} {s : EpisodeStore} (h : Consistent cfg strict s)
    (e : PyStr) : (s.entries e).Pairwise fun a b => a.rev < b.rev := by
  rw [← List.pairwise_map (f := Entry.rev) (R := (· < ·)), h.entries_rev e]
  exact List.pairwise_lt_range'

theorem fold_eq_ok {ep : PyStr} {es : List Entry} {rec : Record} {rfc3339 : Double → PyStr}
    (hep : ∀ e ∈ es, e.episode_id = ep) (h : fold rfc3339 es = .ok rec) :
    rec = replay rfc3339 (empty_record ep) es := by
  cases es with
  | nil => cases h
  | cons e es =>
    rw [← hep e List.mem_cons_self]
    exact (foldFrom_eq_ok h).symm

/-- **The judge is isolated** from all that `isolate` drops. -/
theorem judge_isolation (cfg : StoreConfig) : JudgeIsolated cfg := by
  refine ⟨?_, ?_⟩
  · intro ep es es' rec rec' skills hsorted hsorted' hep hep' hiso hrec hrec'
    obtain ⟨hfacts, htarget⟩ := replay_judged cfg.rfc3339 ep hsorted hsorted' hiso
    rw [fold_eq_ok hep hrec, fold_eq_ok hep' hrec']
    exact judge_view_congr hfacts htarget
  · intro ok ok' x y e rec rec' w hx hy hiso hrec hrec'
    have hcx : Consistent cfg False x.store := (ledger False.elim hx).consistent
    have hcy : Consistent cfg False y.store := (ledger False.elim hy).consistent
    obtain ⟨hfacts, htarget⟩ :=
      replay_judged cfg.rfc3339 e (hcx.increasing e) (hcy.increasing e) hiso
    have hf : rec.facts = rec'.facts := by
      rw [← facts_anon rec, ← facts_anon rec', hcx.folded e rec hrec, hcy.folded e rec' hrec']
      exact hfacts
    have ht : rec.target = rec'.target := by
      rw [← target_anon rec, ← target_anon rec', hcx.folded e rec hrec, hcy.folded e rec' hrec',
        target_anon, target_anon]
      exact htarget
    have hskills : loadSkills cfg w rec = loadSkills cfg w rec' := by
      have hbundle : rec.facts.bundle_id = rec'.facts.bundle_id := by rw [hf]
      have hid : rec.bundle_id = rec'.bundle_id := hbundle
      unfold loadSkills Record.bundle
      rw [hid]
    have hview : ∀ skills, view_for rec true skills = view_for rec' true skills := by
      intro skills
      show (judge_view rec skills >>= _) = (judge_view rec' skills >>= _)
      rw [judge_view_congr hf ht]
    rw [hskills, funext hview]

end Isolation

/-- An entry of an episode. -/
def sampleEntry (rev ts : Nat) (session : String) (body : Body) : Entry :=
  ⟨py "e", rev, Double.ofRatio false ts 1, body, py "agent", .str (py session), py "seq:1"⟩

def sampleOpening : Body :=
  .opened ⟨.validator_health, .obj [], py "v", py "b", .tower, .obj [], py "key"⟩

def sampleProposal (id text : String) : Body :=
  .recommendation ⟨py id, py "h1", .str (py text), py "restart", .null, .null, [py "s1"]⟩

/-- A log in which a first proposal was rejected. -/
def rejectedLog : List Entry :=
  [sampleEntry 1 10 "c" sampleOpening,
    sampleEntry 2 20 "d" (.hypothesis ⟨py "h1", .str (py "d"), 1, py "disk", py "t", py "x"⟩),
    sampleEntry 3 30 "p" (sampleProposal "r1" "wipe the ledger"),
    sampleEntry 4 40 "j" (.verdict ⟨py "r1", .FAIL, [.str (py "unsafe")]⟩),
    sampleEntry 5 50 "q" (sampleProposal "r2" "restart")]

/-- A log with another hypothesis, another first proposal and no verdict. -/
def quietLog : List Entry :=
  [sampleEntry 1 10 "c" sampleOpening,
    sampleEntry 2 25 "p" (.no_action ⟨py "n1", py "wait", [py "s1"]⟩),
    sampleEntry 3 50 "q" (sampleProposal "r2" "restart")]

theorem judge_isolation_sample : ∃ rec rec', rec ≠ rec' ∧
    fold sampleConfig.rfc3339 rejectedLog = .ok rec ∧ fold sampleConfig.rfc3339 quietLog = .ok rec' ∧
    ∀ skills, judge_view rec skills = judge_view rec' skills := by
  have hrec : fold sampleConfig.rfc3339 rejectedLog =
      .ok (replay sampleConfig.rfc3339 (empty_record (py "e")) rejectedLog) := by decide +kernel
  have hrec' : fold sampleConfig.rfc3339 quietLog =
      .ok (replay sampleConfig.rfc3339 (empty_record (py "e")) quietLog) := by decide +kernel
  refine ⟨_, _, by decide +kernel, hrec, hrec', fun skills => ?_⟩
  exact (judge_isolation sampleConfig).folds (py "e") _ _ _ _ skills (by decide) (by decide)
    (by decide) (by decide) (by decide +kernel) hrec hrec'

end Valops.Store
