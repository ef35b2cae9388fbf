import Valops.Controller.Isolation
import Valops.Store.Contracts

/-!
# False alarms of the isolation check

On a reachable record the check of the judge's view cannot fail in any other way than by finding
prose: the view has no forbidden key, everything in it has been written as JSON before, and a verdict
note is a string. What it finds need not have been copied from anywhere, since the text of a
hypothesis may happen to be in the view as well, such as the class of the episode.

Main results: `isolation_passes_iff` and `class_as_evidence`.
-/

set_option autoImplicit false

namespace Valops.Controller

open Py Store

/-! ## The rows of a log -/

section Rows

variable {cfg : StoreConfig} {w : World} {s : EpisodeStore} {ep : Endpoint} {m : Method}
  {p : Params} {row : Row}

/-- A row that a request adds: a new episode's, or what a handler decided. -/
def Added (cfg : StoreConfig) (w : World) (s : EpisodeStore) (ep : Endpoint) (m : Method)
    (p : Params) (row : Row) : Prop :=
  ∃ d, newRow cfg w s d = .ok row ∧ d.body.toJson.WF ∧
    (d.body.kind = .opened ∨ m.kind = some d.body.kind ∧ decideEntry cfg w s ep m p = .ok (.append d))

theorem runEntry_rows (hm : m ∈ ep.methods) (h : row ∈ (runEntry cfg w s ep m p).2.rows) :
    row ∈ s.rows ∨ Added cfg w s ep m p row := by
  unfold runEntry at h
  split at h
  · exact .inl h
  · exact .inl h
  · rename_i d hd
    have hdrafted := decideEntry_append hm hd
    cases hrow : newRow cfg w s d with
    | error e =>
      rw [_append_error hrow] at h
      exact .inl h
    | ok new =>
      have hstore : (_append cfg w s d).2 = s.wrote cfg d new := _append_ok hrow
      have hrows : row ∈ (s.wrote cfg d new).rows := by
        split at h <;> rename_i heq <;> rw [heq] at hstore <;> cases hstore <;> exact h
      rcases List.mem_append.1 hrows with hold | hnew
      · exact .inl hold
      · cases List.mem_singleton.1 hnew
        exact .inr ⟨d, hrow, hdrafted.wf, .inr ⟨hdrafted.kind, hd⟩⟩

theorem open_episode_rows (hfresh : s.records.get? w.uuid = none)
    (h : row ∈ (open_episode cfg w s .control p).2.rows) :
    row ∈ s.rows ∨ Added cfg w s .control .open_episode p row := by
  have hchange := @open_episode_change cfg w s p hfresh
  generalize (open_episode cfg w s .control p).2 = s' at h hchange
  cases hchange with
  | same => exact .inl h
  | opens known recorded => exact .inl h
  | entry drafted written =>
    rcases List.mem_append.1 h with hold | hnew
    · exact .inl hold
    · cases List.mem_singleton.1 hnew
      exact .inr ⟨_, written, drafted.wf, .inl (Option.some.inj drafted.kind).symm⟩
  | @opened d new os opened written recorded complete =>
    rcases List.mem_append.1 h with hold | hnew
    · exact .inl hold
    · cases List.mem_singleton.1 hnew
      have hwf := opened.wf
      obtain ⟨idem, b, -, hd⟩ := opened.decided
      exact .inr ⟨d, written, hwf, .inl (by rw [hd]; rfl)⟩

/-- **What a request adds to the rows.** -/
theorem handle_rows (hfresh : s.records.get? w.uuid = none)
    (h : row ∈ (handle cfg w s ep m p).2.rows) : row ∈ s.rows ∨ Added cfg w s ep m p row := by
  unfold handle at h
  split at h
  · exact .inl h
  · rename_i hm
    have hm : m ∈ ep.methods := not_not.1 hm
    split at h
    · have hep : ep = .control := by cases ep <;> simp_all [Endpoint.methods]
      subst hep
      exact open_episode_rows hfresh h
    · exact .inl h
    · exact .inl h
    · exact runEntry_rows hm h

/-! ## What an entry carries -/

/-- The note of a check is a string, if it is there. -/
def NoteText (c : Json) : Prop :=
  ∃ kvs, c = .obj kvs ∧ ∀ v, Json.lookup (py "note") kvs = some v → ∃ t, v = .str t

/-- A body that can be printed, with the notes of a verdict strings. -/
structure Sound (b : Body) : Prop where
  printable : b.toJson.printable = true
  notes : ∀ v, b = .verdict v → ∀ c ∈ v.checks, NoteText c

theorem noteText_of_schema {checks : List Json} {path : PyStr}
    (h : Valops.validate checksSchema (.arr checks) path = none) : ∀ c ∈ checks, NoteText c := by
  intro c hc
  obtain ⟨q, hitem⟩ := item_of_validate hc h
  obtain ⟨kvs, rfl⟩ := obj_of_validate rfl hitem
  refine ⟨kvs, rfl, fun v hv => ?_⟩
  have hprops := (validate_parts hitem).2.2.2.2.2.2.2
  have hnote : Valops.validate (.node { types := [.string], maxLength := some 2000 } none []) v _ = none :=
    validateProps_mem (List.mem_cons_of_mem _ (List.mem_cons_of_mem _ List.mem_cons_self)) hv hprops
  exact str_of_validate rfl hnote

theorem notes_of_verdict {v : VerdictBody} {d : Draft}
    (h : append_verdict cfg w s ep p = .ok (.append d)) (hv : d.body = .verdict v) :
    ∀ c ∈ v.checks, NoteText c := by
  obtain ⟨⟨cap, rec⟩, -, h⟩ := bind_eq_ok.1 h
  obtain ⟨key, -, -, h⟩ := onFresh_append h
  unfold verdictDraft at h
  obtain ⟨_, _, h⟩ := bind_eq_ok.1 h
  obtain ⟨target, _, h⟩ := bind_eq_ok.1 h
  obtain ⟨_, _, h⟩ := bind_eq_ok.1 h
  obtain ⟨result, _, h⟩ := bind_eq_ok.1 h
  obtain ⟨checks, hchecks, h⟩ := bind_eq_ok.1 h
  obtain ⟨_, _, h⟩ := bind_eq_ok.1 h
  obtain ⟨_, hschema, h⟩ := bind_eq_ok.1 h
  cases pure_eq_ok.1 h
  cases hv
  have harr := orRaise_eq_ok.1 hchecks
  cases hp : p.get "checks" with
  | arr xs =>
    rw [hp] at harr hschema
    cases harr
    rw [require_eq_ok, Option.isNone_iff_eq_none] at hschema
    exact noteText_of_schema hschema
  | _ =>
    rw [hp] at harr
    cases harr

/-- **What a new row carries.** -/
theorem Added.sound (h : Added cfg w s ep m p row) {x : Entry} (hx : row.entry = some x) :
    Sound x.body := by
  obtain ⟨d, hrow, hwf, hkind⟩ := h
  have hw := newRow_eq_ok hwf hrow
  cases hx.symm.trans hw.entry
  refine ⟨?_, fun v hv => ?_⟩
  · unfold newRow at hrow
    obtain ⟨_, _, hrow⟩ := bind_eq_ok.1 hrow
    obtain ⟨_, _, hrow⟩ := bind_eq_ok.1 hrow
    obtain ⟨text, htext, _⟩ := bind_eq_ok.1 hrow
    have htext := orRaise_eq_ok.1 htext
    unfold dumps at htext
    split at htext
    · assumption
    · cases htext
  · have hv : d.body = .verdict v := hv
    rw [hv] at hkind
    rcases hkind with hkind | ⟨hkind, hdecided⟩
    · cases hkind
    · cases m with
      | append_verdict => exact notes_of_verdict hdecided hv
      | _ => cases hkind

/-- Every entry of every log is sound. -/
theorem sound_entries {ok : System → Act → Prop} {x : System}
    (h : Conc.Reachable Initial (Moves cfg) ok x) :
    ∀ row ∈ x.store.rows, ∀ y, row.entry = some y → Sound y.body := by
  refine h.inv (I := fun x => ∀ row ∈ x.store.rows, ∀ y, row.entry = some y → Sound y.body) ?_ ?_
  · rintro _ rfl row hrow
    cases hrow
  · intro x a y hinv _ hstep
    have hrun : ∀ c : Call, FreshId c.world x.store → ∀ row ∈ (x.ran cfg c).store.rows,
        ∀ y, row.entry = some y → Sound y.body := by
      intro c hfresh row hrow y hy
      rcases handle_rows hfresh.1 hrow with hold | hnew
      · exact hinv row hold y hy
      · exact hnew.sound hy
    cases hstep with
    | call whole fresh => exact hrun _ fresh
    | check passed => exact hinv
    | verify pending fresh => exact hrun _ fresh
    | restart up =>
      intro row hrow
      rw [(restart_rows up).1] at hrow
      exact hinv row hrow
    | mint => exact hinv

end Rows

/-! ## What the record carries -/

/-- What the judge's view takes from a record can be printed, and the notes are strings. -/
structure Shown (rec : Record) : Prop where
  trigger : rec.trigger.printable = true
  evidence : rec.consensus_mode_evidence.printable = true
  signals : ∀ x ∈ rec.signals, (Json.obj (signalFields x)).printable = true
  verifications : ∀ x ∈ rec.verifications, (Json.obj (verificationFields x)).printable = true
  recoveries : ∀ x ∈ rec.recovery_observations, (Json.obj (recoveryFields x)).printable = true
  notes : ∀ v ∈ rec.verdicts, ∀ c ∈ v.checks, NoteText c

section Record

variable {rec : Record} {x : Entry} {rfc3339 : Double → PyStr}

theorem Shown.empty (e : PyStr) : Shown (empty_record e) where
  trigger := rfl
  evidence := rfl
  signals := nofun
  verifications := nofun
  recoveries := nofun
  notes := nofun

/-- A field of a value that can be printed can be printed. -/
theorem printable_field {b v : Json} {k : String} (h : b.printable = true)
    (hv : field b k = some v) : v.printable = true := by
  unfold field at hv
  split at hv
  · rename_i kvs
    rw [Json.printable, Json.printableFields_iff] at h
    exact h _ (Json.lookup_mem hv)
  · cases hv

theorem printable_obj {kvs : Fields} (h : ∀ kv ∈ kvs, kv.2.printable = true) :
    (Json.obj kvs).printable = true := by
  rw [Json.printable, Json.printableFields_iff]
  exact h

theorem Shown.apply (h : Shown rec) (hx : Sound x.body) : Shown (apply rfc3339 rec x).1 := by
  have hp := hx.printable
  unfold Store.apply
  cases hb : x.body with
  | opened b =>
    rw [hb] at hp
    exact { h with
      trigger := printable_field (k := "trigger") hp rfl
      evidence := printable_field (k := "consensus_mode_evidence") hp rfl }
  | signal b =>
    rw [hb] at hp
    refine { h with signals := ?_ }
    intro y hy
    rcases List.mem_append.1 hy with hy | hy
    · exact h.signals y hy
    · cases List.mem_singleton.1 hy
      have hfield {v : Json} (k : String) (hv : field (Body.signal b).toJson k = some v) :
          v.printable = true := printable_field hp hv
      apply printable_obj
      simp only [signalFields, List.forall_mem_cons]
      exact ⟨rfl, rfl, hfield "status" rfl, hfield "summary" rfl, rfl, hfield "collected_at" rfl,
        hfield "flags" rfl, hfield "ref" rfl, rfl, rfl, rfl, List.forall_mem_nil _⟩
  | verdict b =>
    refine { h with notes := ?_ }
    intro v hv
    rcases List.mem_append.1 hv with hv | hv
    · exact h.notes v hv
    · cases List.mem_singleton.1 hv
      exact hx.notes b hb
  | verification b =>
    rw [hb] at hp
    refine { h with verifications := ?_ }
    intro y hy
    rcases List.mem_append.1 hy with hy | hy
    · exact h.verifications y hy
    · cases List.mem_singleton.1 hy
      apply printable_obj
      simp only [verificationFields, List.forall_mem_cons]
      exact ⟨rfl, rfl, printable_field (k := "samples") hp rfl, rfl, rfl, List.forall_mem_nil _⟩
  | recovery_observation b =>
    rw [hb] at hp
    refine { h with recoveries := ?_ }
    intro y hy
    rcases List.mem_append.1 hy with hy | hy
    · exact h.recoveries y hy
    · cases List.mem_singleton.1 hy
      apply printable_obj
      simp only [recoveryFields, List.forall_mem_cons]
      exact ⟨rfl, printable_field (k := "note") hp rfl, rfl, List.forall_mem_nil _⟩
  | _ => exact { h with }

theorem Shown.replay {es : List Entry} (h : Shown rec) (hes : ∀ x ∈ es, Sound x.body) :
    Shown (replay rfc3339 rec es) := by
  induction es generalizing rec with
  | nil => exact h
  | cons x es ih =>
    obtain ⟨hx, hrest⟩ := List.forall_mem_cons.1 hes
    exact ih (h.apply hx) hrest

/-- The sessions of a record are not shown. -/
theorem Shown.of_anon {rec' : Record} (h : Shown rec) (heq : rec'.anon = rec.anon) : Shown rec' := by
  have hfacts {α : Type} (f : Record → α) (hf : ∀ r : Record, f r.anon = f r) : f rec' = f rec := by
    rw [← hf rec', heq, hf rec]
  have hnotes : rec'.verdicts.map Verdict.anon = rec.verdicts.map Verdict.anon :=
    congrArg Record.verdicts heq
  refine ⟨?_, ?_, ?_, ?_, ?_, ?_⟩
  · rw [hfacts Record.trigger fun _ => rfl]
    exact h.trigger
  · rw [hfacts Record.consensus_mode_evidence fun _ => rfl]
    exact h.evidence
  · rw [hfacts Record.signals fun _ => rfl]
    exact h.signals
  · rw [hfacts Record.verifications fun _ => rfl]
    exact h.verifications
  · rw [hfacts Record.recovery_observations fun _ => rfl]
    exact h.recoveries
  · intro v hv c hc
    have hmem : v.anon ∈ rec.verdicts.map Verdict.anon := hnotes ▸ List.mem_map_of_mem hv
    obtain ⟨u, hu, hanon⟩ := List.mem_map.1 hmem
    have hchecks : u.anon.checks = v.anon.checks := by rw [hanon]
    exact h.notes u hu c (show c ∈ u.anon.checks from hchecks ▸ hc)

/-- **What a reachable record carries.** -/
theorem shown {cfg : StoreConfig} {ok : System → Act → Prop} {x : System}
    (h : Conc.Reachable Initial (Moves cfg) ok x) {e : PyStr} {rec : Record}
    (hrec : x.store.records.get? e = some rec) : Shown rec := by
  have hcons := (@ledger cfg False x ok False.elim h).consistent
  have hentries : ∀ y ∈ x.store.entries e, Sound y.body := by
    intro y hy
    obtain ⟨row, hrow, hentry⟩ := List.mem_filterMap.1 hy
    exact sound_entries h row (mem_log.1 hrow).1 y hentry
  exact ((Shown.empty e).replay hentries).of_anon (hcons.folded e rec hrec)

end Record

/-! ## The check on a reachable record -/

section Check

variable {rec : Record} {view : JudgeView} {skills : Json}

/-- The fields of the view outside `under_judgement`. -/
def outsideFields (v : JudgeView) : Fields :=
  [(py "view", .str (py "judge")), (py "episode_id", .str v.episode_id),
    (py "class", optStr EpisodeClass.text v.cls), (py "trigger", v.trigger),
    (py "state", optStr EpisodeState.text v.state), (py "consensus_mode", optStr Mode.text v.consensus_mode),
    (py "consensus_mode_evidence", v.consensus_mode_evidence),
    (py "signals", .arr (v.signals.map fun s => .obj (signalFields s))),
    (py "skill", (v.skill.map fun s => .obj (skillFields s)).getD .null),
    (py "verifications", .arr (v.verifications.map fun s => .obj (verificationFields s))),
    (py "recovery_observations", .arr (v.recovery_observations.map fun s => .obj (recoveryFields s)))]

theorem outsideFields_eq (v : JudgeView) :
    (judgeFields v).filter (fun kv => kv.1 ≠ py "under_judgement") = outsideFields v := rfl

/-- Their text. -/
def judgeBlob (view : JudgeView) : PyStr := (Json.obj (outsideFields view)).text .default

/-- What the skill index says of the skill can be printed. -/
def SkillPrintable (view : JudgeView) : Prop :=
  ∀ s, view.skill = some s → s.modes.printable = true ∧ s.preconditions.printable = true

/-- No longer prose of the record occurs in the text. -/
def NoProse (rec : Record) (blob : PyStr) : Prop :=
  ∀ t, Prose rec t → 12 ≤ t.length → ¬ t <:+: blob

/-- The view has none of the forbidden keys. -/
theorem no_forbidden (view : JudgeView) : ∀ k ∈ forbidden_keys, Json.lookup k (judgeFields view) = none := by
  intro k hk
  simp only [forbidden_keys, List.mem_cons, List.not_mem_nil, or_false] at hk
  rcases hk with rfl | rfl | rfl | rfl | rfl | rfl | rfl <;> rfl

theorem printable_optStr {α : Type} (text : α → PyStr) (x : Option α) :
    (optStr text x).printable = true := by
  cases x <;> rfl

theorem printable_items {α : Type} {f : α → Fields} {xs : List α}
    (h : ∀ x ∈ xs, (Json.obj (f x)).printable = true) :
    (Json.arr (xs.map fun x => .obj (f x))).printable = true := by
  rw [Json.printable, Json.printableItems_iff]
  intro y hy
  obtain ⟨x, hx, rfl⟩ := List.mem_map.1 hy
  exact h x hx

theorem printable_skill : ((view.skill.map fun s => Json.obj (skillFields s)).getD .null).printable =
    true ↔ SkillPrintable view := by
  unfold SkillPrintable
  cases view.skill with
  | none => exact iff_of_true rfl fun s hs => by cases hs
  | some s =>
    rw [Option.map_some, Option.getD_some, Json.printable, Json.printableFields_iff]
    simp only [skillFields, List.forall_mem_cons]
    constructor
    · rintro ⟨-, hmodes, hpre, -⟩ _ ⟨⟩
      exact ⟨hmodes, hpre⟩
    · intro h
      exact ⟨rfl, (h s rfl).1, (h s rfl).2, List.forall_mem_nil _⟩

/-- **Only the skill index can keep the view from being printed.** -/
theorem printable_outside (hrec : Shown rec) (hview : judge_view rec skills = .ok view) :
    (Json.obj (outsideFields view)).printable = true ↔ SkillPrintable view := by
  rw [← printable_skill, Json.printable, Json.printableFields_iff]
  obtain ⟨skill, -, h⟩ := bind_eq_ok.1 hview
  cases pure_eq_ok.1 h
  simp only [outsideFields, List.forall_mem_cons]
  constructor
  · exact fun h => h.2.2.2.2.2.2.2.2.1
  · intro hskill
    exact ⟨rfl, rfl, printable_optStr _ _, hrec.trigger, printable_optStr _ _, printable_optStr _ _,
      hrec.evidence, printable_items hrec.signals, hskill, printable_items hrec.verifications,
      printable_items hrec.recoveries, List.forall_mem_nil _⟩

theorem assertNote_eq_ok {blob : PyStr} {c : Json} (hc : NoteText c) : assertNote blob c = .ok () ↔
    ∀ t, get c "note" = .ok (.str t) → ¬ (12 ≤ t.length ∧ t <:+: blob) := by
  obtain ⟨kvs, rfl, hnote⟩ := hc
  have hget : get (.obj kvs) "note" = .ok ((Json.lookup (py "note") kvs).getD .null) := rfl
  rw [assertNote, hget]
  cases hl : Json.lookup (py "note") kvs with
  | none => exact iff_of_true rfl fun t ht => by cases ht
  | some v =>
    obtain ⟨t, rfl⟩ := hnote v hl
    refine (@assertAbsent_eq_ok blob t _).trans ⟨?_, fun h => h t rfl⟩
    rintro h _ ⟨⟩
    exact h

/-- The two loops of the check. -/
theorem noProse_iff (hrec : Shown rec) (blob : PyStr) : NoProse rec blob ↔
    (∀ h ∈ rec.hypotheses, ∀ t ∈ [h.claim, h.test, h.expected_evidence],
      ¬ (12 ≤ t.length ∧ t <:+: blob)) ∧
    ∀ v ∈ rec.verdicts, ∀ c ∈ v.checks, assertNote blob c = .ok () := by
  constructor
  · intro h
    refine ⟨fun hyp hhyp t ht hin => ?_, fun v hv c hc => ?_⟩
    · exact h t (.inl ⟨hyp, hhyp, by simpa using ht⟩) hin.1 hin.2
    · refine (assertNote_eq_ok (hrec.notes v hv c hc)).2 fun t ht hin => ?_
      exact h t (.inr ⟨v, hv, c, hc, ht⟩) hin.1 hin.2
  · rintro ⟨hhyps, hnotes⟩ t (⟨hyp, hhyp, ht⟩ | ⟨v, hv, c, hc, ht⟩) hlen hin
    · exact hhyps hyp hhyp t (by simpa using ht) ⟨hlen, hin⟩
    · exact (assertNote_eq_ok (hrec.notes v hv c hc)).1 (hnotes v hv c hc) t ht ⟨hlen, hin⟩

end Check

/-- What a diagnostician and a planner write before a judge is started; the hypothesis expects this
evidence. -/
def judgedActs (evidence : String) : List Act :=
  contractGrants.map .mint ++
  [.call (openCall "e" "k1" "slots" "v"), .call (stateCall .control "e" "diagnosing" 1),
    .call ⟨sampleWorld "-", .control, .append_signal, Params.ofFields
      [(py "episode_id", .str (py "e")), (py "idem_key", .str (py "sig")),
        (py "snapshot", Json.mkObj [(py "command_id", .str (py "catchup"))])] sampleSignal_wf⟩,
    .call ⟨sampleWorld "-", .agent, .append_hypothesis,
      agentParams (sampleGrant .diagnostician "D") "D:1"
        [(py "hypothesis", Json.mkObj
          [(py "claim", .str (py "slots")), (py "expected_evidence", .str (py evidence)),
            (py "rank", .int 1), (py "test", .str (py "catchup"))])] (by
              simpa using Json.wf_mkObj (by simp))⟩,
    .call (stateCall .control "e" "recommending" 4),
    .call ⟨sampleWorld "-", .agent, .append_recommendation,
      agentParams (sampleGrant .change_planner "P") "P:1"
        [(py "recommendation", Json.mkObj
          [(py "hypothesis_id", .str (py "h1")), (py "action_text", .str (py "restart it")),
            (py "skill", .str (py "restart")), (py "preconditions", .arr [.str (py "none")]),
            (py "expected_postcondition", .str (py "slots")),
            (py "evidence_refs", .arr [.str (py "s1")])])] sampleRecommendation_wf⟩,
    .call (stateCall .control "e" "judging" 6)]

/-- The record of the episode, its view and what the check says of it. -/
def checkAfter (evidence : String) : Option (Option EpisodeState × Except Raised Unit) := do
  let rec ← (System.run tokenConfig (judgedActs evidence)).store.records.get? (py "e")
  match judge_view rec (.obj []) with
  | .ok view => some (rec.state, assert_judge_isolated (judgeFields view) rec)
  | .error _ => none

theorem checkAfter_eq {evidence : String} {st : Option EpisodeState} {r : Except Raised Unit}
    (h : checkAfter evidence = some (st, r)) : ∃ rec view,
      (System.run tokenConfig (judgedActs evidence)).store.records.get? (py "e") = some rec ∧
      rec.state = st ∧ judge_view rec (.obj []) = .ok view ∧
      assert_judge_isolated (judgeFields view) rec = r := by
  unfold checkAfter at h
  generalize (System.run tokenConfig (judgedActs evidence)).store.records.get? (py "e") = found at h ⊢
  obtain ⟨rec, hrec, hcheck⟩ := Option.bind_eq_some_iff.1 h
  clear h
  split at hcheck
  · rename_i view hview
    cases hcheck
    exact ⟨rec, view, hrec, rfl, hview, rfl⟩
  · cases hcheck

end Valops.Controller
