import Mathlib.Data.List.Perm.Basic
import Valops.Store.Isolation
import Valops.Store.StateMachine

/-!
# The artefact contracts

What holds of the signals, hypotheses, proposals and verdicts of a record, and ties each of them to
the log. A record is the replay of its log, so the contracts are proved over logs, one entry at a
time: the checks of a handler are about the record that the entries before leave.

Main result: `artefact_contracts`.
-/

set_option autoImplicit false

namespace Valops.Store

open Py

/-! ## The contracts -/

/-- The ids of a list are numbered from one. -/
def Numbered (letter : String) (ids : List PyStr) : Prop :=
  ∀ (i : Nat) (id : PyStr), ids[i]? = some id → id = _next_id i letter

/-- A list of references: not empty, and to signals of lower revisions. -/
def Cited (es : List Entry) (rev : Nat) (refs : List PyStr) : Prop :=
  refs ≠ [] ∧ ∀ ref ∈ refs, ∃ y ∈ es, y.rev < rev ∧ ∃ b, y.body = .signal b ∧ b.id = ref

/-- The id of the proposal with the greatest revision. -/
def Latest (rec : Record) (id : PyStr) : Prop :=
  ∃ a ∈ artefacts rec, a.id = id ∧ ∀ a' ∈ artefacts rec, a'.rev ≤ a.rev

/-- The contracts, for the log of an episode and the record it leaves. -/
structure Contracts (cfg : StoreConfig) (e : PyStr) (es : List Entry) (rec : Record) : Prop where
  signal_ids : Numbered "s" (rec.signals.map fun s => s.id)
  hypothesis_ids : Numbered "h" (rec.hypotheses.map fun h => h.id)
  recommendation_ids : Numbered "r" (rec.recommendations.map fun r => r.id)
  no_action_ids : Numbered "n" (rec.no_action.map fun n => n.id)
  collected : ∀ sig ∈ rec.signals, ∃ y ∈ es, y.body = .signal sig.toSignalBody
  recommendation_refs : ∀ r ∈ rec.recommendations, Cited es r.rev r.evidence_refs
  no_action_refs : ∀ n ∈ rec.no_action, Cited es n.rev n.evidence_refs
  status_refs : ∀ x ∈ es, ∀ b : HypothesisStatusBody, x.body = .hypothesis_status b →
    Cited es x.rev b.evidence_refs
  statuses : ∀ h ∈ rec.hypotheses, (h.status = .open ∧ h.evidence_refs = []) ∨
    ∃ x ∈ es, ∃ b : HypothesisStatusBody, x.body = .hypothesis_status b ∧
      b.hypothesis_id = h.id ∧ h.status = b.status ∧ h.evidence_refs = b.evidence_refs
  ranks_pos : ∀ h ∈ rec.hypotheses, 1 ≤ h.rank
  ranks : rec.hypotheses.Pairwise fun h h' => h.step_session = h'.step_session → h.rank ≠ h'.rank
  artefact_sessions : (artefactSessions rec).Nodup
  verdict_sessions : (rec.verdicts.map fun v => v.session_id).Nodup
  grounded : ∀ r ∈ rec.recommendations,
    (∃ h ∈ rec.hypotheses, h.id = r.hypothesis) ∧ PlannerSkill cfg rec r.skill
  judged : ∀ v ∈ rec.verdicts, v.checks ≠ [] ∧ ∃ front x back, es = front ++ x :: back ∧
    x.body = .verdict v.toVerdictBody ∧
    Latest (replay cfg.rfc3339 (empty_record e) front) v.target_id

/-! ## How an entry follows the log -/

/-- An entry that the checks let through after the entries before it. -/
structure Vetted (cfg : StoreConfig) (e : PyStr) (front : List Entry) (x : Entry) : Prop where
  later : ∀ y ∈ front, y.rev < x.rev
  how : (front = [] ∧ ∃ b, x.body = .opened b) ∨ ∃ w ep p session signed,
    Admitted cfg w ep p (replay cfg.rfc3339 (empty_record e) front) x.body x.principal session ∧
    Unforged cfg.verify signed (p.get "token") ∧ bindText cfg session = .ok x.session_id

section Lemmas

variable {cfg : StoreConfig} {e : PyStr} {es front back : List Entry} {x : Entry} {rec : Record}
  {letter : String} {ids : List PyStr} {n : Nat} {refs : List PyStr}

theorem Ledger.vetted {s : System} (h : Ledger cfg True s)
    (hsplit : s.store.entries e = front ++ x :: back) : Vetted cfg e front x := by
  obtain ⟨i, row, o, _, _, _, _, _, he, hacc, hjust⟩ := h.at hsplit
  have hsorted := h.consistent.increasing e
  rw [hsplit] at hsorted
  refine ⟨fun y hy => (List.pairwise_append.1 hsorted).2.2 y hy x List.mem_cons_self, ?_⟩
  cases hjust with
  | opened first endpoint body principal => exact .inl ⟨first, _, body⟩
  | admitted started kind named before exact admitted session =>
    have hexact := exact trivial
    rw [hexact, he] at admitted
    exact .inr ⟨_, _, _, _, _, admitted, hacc.authentic trivial, session⟩

/-- The session of an agent is a string, and the entry has it. -/
theorem Authority.session {w : World} {ep : Endpoint} {op : AgentOp} {p : Params} {cap : Capability}
    {signed : Grant → Prop} {v : Json} (h : Authority cfg w ep op p cap rec)
    (htoken : Unforged cfg.verify signed (p.get "token"))
    (hv : bindText cfg cap.session_id = .ok v) :
    v = cap.session_id ∧ ∃ S, cap.session_id = .str S := by
  obtain ⟨g, _, rfl⟩ := h.checked.grant htoken
  exact ⟨bindText_str hv, _, rfl⟩

theorem Numbered.nil : Numbered letter [] := by
  intro i id h
  cases h

theorem Numbered.snoc (h : Numbered letter ids) (hn : n = ids.length) :
    Numbered letter (ids ++ [_next_id n letter]) := by
  intro i id hi
  rcases Nat.lt_or_ge i ids.length with hlt | hge
  · rw [List.getElem?_append_left hlt] at hi
    exact h i id hi
  · rw [List.getElem?_append_right hge] at hi
    have hi0 : i - ids.length = 0 := by
      by_contra hne
      rw [List.getElem?_eq_none (by simp; omega)] at hi
      cases hi
    rw [hi0] at hi
    cases hi
    rw [hn, show i = ids.length by omega]

theorem Cited.mono (h : Cited es n refs) : Cited (es ++ [x]) n refs :=
  ⟨h.1, fun ref href =>
    let ⟨y, hy, hlt, hb⟩ := h.2 ref href
    ⟨y, List.mem_append_left _ hy, hlt, hb⟩⟩

/-- What is cited from a record has been collected before. -/
theorem Contracts.cited (h : Contracts cfg e es rec) (hlater : ∀ y ∈ es, y.rev < n)
    (hrefs : RefsExist rec refs) : Cited es n refs := by
  refine ⟨hrefs.1, fun ref href => ?_⟩
  obtain ⟨sig, hsig, hid⟩ := hrefs.2 ref href
  obtain ⟨y, hy, hbody⟩ := h.collected sig hsig
  exact ⟨y, hy, hlater y hy, _, hbody, hid⟩

/-- The record is as before an entry of another kind. -/
theorem Contracts.mono (h : Contracts cfg e es rec) (hx : ∀ b, x.body ≠ .hypothesis_status b) :
    Contracts cfg e (es ++ [x]) rec := by
  refine { h with
    collected := ?_
    recommendation_refs := fun r hr => (h.recommendation_refs r hr).mono
    no_action_refs := fun n hn => (h.no_action_refs n hn).mono
    status_refs := ?_
    statuses := ?_
    judged := ?_ }
  · intro sig hsig
    obtain ⟨y, hy, hbody⟩ := h.collected sig hsig
    exact ⟨y, List.mem_append_left _ hy, hbody⟩
  · intro y hy b hb
    rcases List.mem_append.1 hy with hy | hy
    · exact (h.status_refs y hy b hb).mono
    · cases List.mem_singleton.1 hy
      exact absurd hb (hx b)
  · intro hyp hhyp
    refine (h.statuses hyp hhyp).imp_right ?_
    rintro ⟨y, hy, hrest⟩
    exact ⟨y, List.mem_append_left _ hy, hrest⟩
  · intro v hv
    obtain ⟨hchecks, front, y, back, hes, hrest⟩ := h.judged v hv
    refine ⟨hchecks, front, y, back ++ [x], ?_, hrest⟩
    rw [hes, List.append_assoc]
    rfl

/-- The artefact under judgement is the latest. -/
theorem latest_of_under_judgement {a : Artefact} (h : under_judgement rec = some a) :
    Latest rec a.id :=
  ⟨a, List.argmax_mem h, rfl, fun _ ha' => List.le_of_mem_argmax ha' h⟩

theorem Contracts.empty : Contracts cfg e [] (empty_record e) where
  signal_ids := .nil
  hypothesis_ids := .nil
  recommendation_ids := .nil
  no_action_ids := .nil
  collected := nofun
  recommendation_refs := nofun
  no_action_refs := nofun
  status_refs := nofun
  statuses := nofun
  ranks_pos := nofun
  ranks := .nil
  artefact_sessions := .nil
  verdict_sessions := .nil
  grounded := nofun
  judged := nofun

end Lemmas

/-! ## One more entry -/

section Step

variable {cfg : StoreConfig} {e : PyStr} {es : List Entry} {x : Entry} {rec : Record}
  {t : PyStr}

theorem Contracts.signal (h : Contracts cfg e es rec) {b : SignalBody} (hx : x.body = .signal b)
    (hid : b.id = _next_id rec.signals.length "s") :
    Contracts cfg e (es ++ [x])
      { rec with revision := x.rev, signals := rec.signals ++ [⟨b, t, x.audit_ref⟩] } := by
  have h' := h.mono (x := x) (by rw [hx]; nofun)
  refine { h' with signal_ids := ?_, collected := ?_ }
  · show Numbered "s" ((rec.signals ++ [_]).map _)
    rw [List.map_append, List.map_singleton]
    show Numbered "s" (_ ++ [b.id])
    rw [hid]
    exact h.signal_ids.snoc (by rw [List.length_map])
  · intro sig hsig
    rcases List.mem_append.1 hsig with hsig | hsig
    · exact h'.collected sig hsig
    · cases List.mem_singleton.1 hsig
      exact ⟨x, List.mem_append_right _ (List.mem_singleton_self x), hx⟩

theorem Contracts.hypothesis (h : Contracts cfg e es rec) {b : HypothesisBody}
    (hx : x.body = .hypothesis b) (hid : b.id = _next_id rec.hypotheses.length "h")
    (hpos : 1 ≤ b.rank)
    (hnew : ∀ y ∈ rec.hypotheses, y.step_session = b.step_session → y.rank ≠ b.rank) :
    Contracts cfg e (es ++ [x])
      { rec with revision := x.rev, hypotheses := rec.hypotheses ++ [⟨b, .open, [], [], t⟩] } := by
  have h' := h.mono (x := x) (by rw [hx]; nofun)
  refine { h' with
    hypothesis_ids := ?_, statuses := ?_, ranks_pos := ?_, ranks := ?_, grounded := ?_ }
  · show Numbered "h" ((rec.hypotheses ++ [_]).map _)
    rw [List.map_append, List.map_singleton]
    show Numbered "h" (_ ++ [b.id])
    rw [hid]
    exact h.hypothesis_ids.snoc (by rw [List.length_map])
  · intro y hy
    rcases List.mem_append.1 hy with hy | hy
    · exact h'.statuses y hy
    · cases List.mem_singleton.1 hy
      exact .inl ⟨rfl, rfl⟩
  · intro y hy
    rcases List.mem_append.1 hy with hy | hy
    · exact h.ranks_pos y hy
    · cases List.mem_singleton.1 hy
      exact hpos
  · refine List.pairwise_append.2 ⟨h.ranks, List.pairwise_singleton _ _, fun y hy z hz => ?_⟩
    cases List.mem_singleton.1 hz
    exact hnew y hy
  · intro r hr
    obtain ⟨⟨y, hy, hid⟩, hskill⟩ := h.grounded r hr
    exact ⟨⟨y, List.mem_append_left _ hy, hid⟩, hskill⟩

/-- A status changes neither the id nor the session nor the rank of a hypothesis. -/
theorem applyStatus_keeps (b : HypothesisStatusBody) (v : Json) (y : Hypothesis) :
    (applyStatus b t v y).id = y.id ∧ (applyStatus b t v y).step_session = y.step_session ∧
      (applyStatus b t v y).rank = y.rank := by
  unfold applyStatus
  split <;> exact ⟨rfl, rfl, rfl⟩

theorem Contracts.hypothesis_status (h : Contracts cfg e es rec) {b : HypothesisStatusBody}
    (hx : x.body = .hypothesis_status b) (hlater : ∀ y ∈ es, y.rev < x.rev)
    (hrefs : RefsExist rec b.evidence_refs) :
    Contracts cfg e (es ++ [x])
      { rec with
        revision := x.rev
        hypotheses := rec.hypotheses.map (applyStatus b t x.session_id) } := by
  have hmem : x ∈ es ++ [x] := List.mem_append_right _ (List.mem_singleton_self x)
  refine { h with
    hypothesis_ids := ?_
    collected := ?_
    recommendation_refs := fun r hr => (h.recommendation_refs r hr).mono
    no_action_refs := fun n hn => (h.no_action_refs n hn).mono
    status_refs := ?_
    statuses := ?_
    ranks_pos := ?_
    ranks := ?_
    grounded := ?_
    judged := ?_ }
  · have hids : (rec.hypotheses.map (applyStatus b t x.session_id)).map (fun y => y.id) =
        rec.hypotheses.map fun y => y.id := by
      rw [List.map_map]
      exact List.map_congr_left fun y _ => (applyStatus_keeps b _ y).1
    exact hids ▸ h.hypothesis_ids
  · intro sig hsig
    obtain ⟨y, hy, hbody⟩ := h.collected sig hsig
    exact ⟨y, List.mem_append_left _ hy, hbody⟩
  · intro y hy b' hb'
    rcases List.mem_append.1 hy with hy | hy
    · exact (h.status_refs y hy b' hb').mono
    · cases List.mem_singleton.1 hy
      cases hx.symm.trans hb'
      exact (h.cited hlater hrefs).mono
  · intro z hz
    obtain ⟨y, hy, rfl⟩ := List.mem_map.1 hz
    unfold applyStatus
    split
    · rename_i hid
      exact .inr ⟨x, hmem, b, hx, hid.symm, rfl, rfl⟩
    · refine (h.statuses y hy).imp_right ?_
      rintro ⟨y', hy', hrest⟩
      exact ⟨y', List.mem_append_left _ hy', hrest⟩
  · intro z hz
    obtain ⟨y, hy, rfl⟩ := List.mem_map.1 hz
    rw [(applyStatus_keeps b _ y).2.2]
    exact h.ranks_pos y hy
  · refine List.pairwise_map.2 (h.ranks.imp fun {y z} hyz => ?_)
    rw [(applyStatus_keeps b _ y).2.1, (applyStatus_keeps b _ z).2.1, (applyStatus_keeps b _ y).2.2,
      (applyStatus_keeps b _ z).2.2]
    exact hyz
  · intro r hr
    obtain ⟨⟨y, hy, hid⟩, hskill⟩ := h.grounded r hr
    exact ⟨⟨_, List.mem_map_of_mem hy, (applyStatus_keeps b _ y).1.trans hid⟩, hskill⟩
  · intro v hv
    obtain ⟨hchecks, front, y, back, hes, hrest⟩ := h.judged v hv
    refine ⟨hchecks, front, y, back ++ [x], ?_, hrest⟩
    rw [hes, List.append_assoc]
    rfl

theorem Contracts.recommendation (h : Contracts cfg e es rec) {b : RecommendationBody}
    (hx : x.body = .recommendation b) (hlater : ∀ y ∈ es, y.rev < x.rev)
    (hid : b.id = _next_id rec.recommendations.length "r")
    (hsession : x.session_id ∉ artefactSessions rec)
    (hknown : ∃ y ∈ rec.hypotheses, y.id = b.hypothesis) (hskill : PlannerSkill cfg rec b.skill)
    (hrefs : RefsExist rec b.evidence_refs) :
    Contracts cfg e (es ++ [x])
      { rec with
        revision := x.rev
        recommendations := rec.recommendations ++ [⟨b, x.session_id, t, x.rev⟩] } := by
  have h' := h.mono (x := x) (by rw [hx]; nofun)
  refine { h' with
    recommendation_ids := ?_, recommendation_refs := ?_, artefact_sessions := ?_, grounded := ?_ }
  · show Numbered "r" ((rec.recommendations ++ [_]).map _)
    rw [List.map_append, List.map_singleton]
    show Numbered "r" (_ ++ [b.id])
    rw [hid]
    exact h.recommendation_ids.snoc (by rw [List.length_map])
  · intro r hr
    rcases List.mem_append.1 hr with hr | hr
    · exact h'.recommendation_refs r hr
    · cases List.mem_singleton.1 hr
      exact (h.cited hlater hrefs).mono
  · show ((rec.recommendations ++ [_]).map _ ++ _).Nodup
    rw [List.map_append, List.map_singleton, List.append_assoc, List.singleton_append]
    exact List.perm_middle.nodup_iff.2 (List.nodup_cons.2 ⟨hsession, h.artefact_sessions⟩)
  · intro r hr
    rcases List.mem_append.1 hr with hr | hr
    · exact h.grounded r hr
    · cases List.mem_singleton.1 hr
      exact ⟨hknown, hskill⟩

theorem Contracts.no_action (h : Contracts cfg e es rec) {b : NoActionBody}
    (hx : x.body = .no_action b) (hlater : ∀ y ∈ es, y.rev < x.rev)
    (hid : b.id = _next_id rec.no_action.length "n")
    (hsession : x.session_id ∉ artefactSessions rec) (hrefs : RefsExist rec b.evidence_refs) :
    Contracts cfg e (es ++ [x])
      { rec with
        revision := x.rev
        no_action := rec.no_action ++ [⟨b, x.session_id, t, x.rev⟩] } := by
  have h' := h.mono (x := x) (by rw [hx]; nofun)
  refine { h' with no_action_ids := ?_, no_action_refs := ?_, artefact_sessions := ?_ }
  · show Numbered "n" ((rec.no_action ++ [_]).map _)
    rw [List.map_append, List.map_singleton]
    show Numbered "n" (_ ++ [b.id])
    rw [hid]
    exact h.no_action_ids.snoc (by rw [List.length_map])
  · intro n hn
    rcases List.mem_append.1 hn with hn | hn
    · exact h'.no_action_refs n hn
    · cases List.mem_singleton.1 hn
      exact (h.cited hlater hrefs).mono
  · show (_ ++ (rec.no_action ++ [_]).map _).Nodup
    rw [List.map_append, List.map_singleton, ← List.append_assoc]
    refine List.nodup_append.2 ⟨h.artefact_sessions, List.nodup_singleton _, fun y hy z hz => ?_⟩
    cases List.mem_singleton.1 hz
    exact fun heq => hsession ((show y = x.session_id from heq) ▸ hy)

theorem Contracts.verdict (h : Contracts cfg e es rec) {b : VerdictBody} (hx : x.body = .verdict b)
    (hrec : rec = replay cfg.rfc3339 (empty_record e) es)
    (hsession : x.session_id ∉ rec.verdicts.map fun v => v.session_id) (hchecks : b.checks ≠ [])
    (hlatest : Latest rec b.target_id) :
    Contracts cfg e (es ++ [x])
      { rec with revision := x.rev, verdicts := rec.verdicts ++ [⟨b, x.session_id, t⟩] } := by
  have h' := h.mono (x := x) (by rw [hx]; nofun)
  refine { h' with verdict_sessions := ?_, judged := ?_ }
  · show ((rec.verdicts ++ [_]).map _).Nodup
    rw [List.map_append, List.map_singleton]
    refine List.nodup_append.2 ⟨h.verdict_sessions, List.nodup_singleton _, fun y hy z hz => ?_⟩
    cases List.mem_singleton.1 hz
    exact fun heq => hsession ((show y = x.session_id from heq) ▸ hy)
  · intro v hv
    rcases List.mem_append.1 hv with hv | hv
    · exact h'.judged v hv
    · cases List.mem_singleton.1 hv
      exact ⟨hchecks, es, x, [], rfl, hx, hrec ▸ hlatest⟩

/-- What a session has not written, when its values differ as Python compares them. -/
theorem not_mem_of_pyEq {S : PyStr} {vs : List Json} (h : ∀ v ∈ vs, v.pyEq (.str S) = false) :
    Json.str S ∉ vs := by
  intro hmem
  have hself : (Json.str S).pyEq (.str S) = true := Json.pyEq_str_iff.2 rfl
  rw [h _ hmem] at hself
  cases hself

/-- **The contracts survive an entry.** -/
theorem Contracts.step (h : Contracts cfg e es (replay cfg.rfc3339 (empty_record e) es))
    (hx : Vetted cfg e es x) :
    Contracts cfg e (es ++ [x]) (replay cfg.rfc3339 (empty_record e) (es ++ [x])) := by
  rw [replay_snoc]
  rcases hx.how with ⟨rfl, b, hb⟩ | ⟨w, ep, p, session, signed, hadm, htoken, hsession⟩
  · rw [apply, hb]
    have hmono := (@Contracts.empty cfg e).mono (x := x) (by rw [hb]; simp)
    exact { hmono with grounded := fun r hr => absurd hr List.not_mem_nil }
  · generalize hrec : replay cfg.rfc3339 (empty_record e) es = rec at h hadm ⊢
    generalize hbody : x.body = body at hadm
    generalize x.principal = principal at hadm
    have hmono : (∀ b, body ≠ .hypothesis_status b) → Contracts cfg e (es ++ [x]) rec :=
      fun hne => h.mono (by rw [hbody]; exact hne)
    rw [apply, hbody]
    cases hadm with
    | @hypothesis cap rank claim test expected auth rank_pos rank_new =>
      obtain ⟨-, S, hS⟩ := auth.session htoken hsession
      refine h.hypothesis hbody rfl rank_pos fun y hy hsame => rank_new y hy ?_
      rw [hsame]
      show cap.session_id.pyEq cap.session_id = true
      rw [hS]
      exact Json.pyEq_str_iff.2 rfl
    | hypothesis_status auth known refs => exact h.hypothesis_status hbody hx.later refs
    | recommendation auth fresh id known skill refs =>
      obtain ⟨hv, S, hS⟩ := auth.session htoken hsession
      rw [hS] at hv fresh
      exact h.recommendation hbody hx.later id (hv ▸ not_mem_of_pyEq fresh) known skill refs
    | no_action auth fresh id refs =>
      obtain ⟨hv, S, hS⟩ := auth.session htoken hsession
      rw [hS] at hv fresh
      exact h.no_action hbody hx.later id (hv ▸ not_mem_of_pyEq fresh) refs
    | verdict auth fresh judged target_id checks =>
      obtain ⟨hv, S, hS⟩ := auth.session htoken hsession
      rw [hS] at hv fresh
      refine h.verdict hbody hrec.symm (hv ▸ not_mem_of_pyEq ?_) checks ?_
      · simpa using fresh
      · rw [target_id]
        exact latest_of_under_judgement judged
    | signal endpoint live id => exact h.signal hbody id
    | observation endpoint checked live id => exact h.signal hbody id
    | _ => exact { hmono (by simp) with }

end Step

/-- The contracts of a log whose entries were let through. -/
theorem contracts_of_vetted {cfg : StoreConfig} {e : PyStr} {es : List Entry}
    (h : ∀ front x back, es = front ++ x :: back → Vetted cfg e front x) :
    Contracts cfg e es (replay cfg.rfc3339 (empty_record e) es) := by
  induction es using List.reverseRecOn with
  | nil => exact .empty
  | append_singleton es x ih =>
    refine (ih fun front y back hes => h front y (back ++ [x]) ?_).step (h es x [] rfl)
    rw [hes, List.append_assoc]
    rfl

/-- **The artefact contracts hold in every reachable record.** -/
theorem artefact_contracts {cfg : StoreConfig} {s : System}
    (h : Conc.Reachable Initial (Moves cfg) (Authentic cfg) s) :
    ∀ e rec, s.store.records.get? e = some rec → Contracts cfg e (s.store.entries e) rec := by
  intro e rec hrec
  have hled : Ledger cfg True s := ledger (fun _ _ _ hok => hok) h
  rw [hled.consistent.exact trivial e rec hrec]
  exact contracts_of_vetted fun front x back hsplit => hled.vetted hsplit

/-- A planner and a diagnostician of the episode. -/
def contractGrants : List Grant := [sampleGrant .change_planner "P", sampleGrant .diagnostician "D"]

theorem sampleSignal_wf : ∀ kv ∈ [(py "episode_id", Json.str (py "e")), (py "idem_key", .str (py "sig")),
    (py "snapshot", Json.mkObj [(py "command_id", .str (py "catchup"))])], kv.2.WF := by
  simpa using Json.wf_mkObj (by simp)

theorem sampleRecommendation_wf : ∀ kv ∈ [(py "recommendation", Json.mkObj
    [(py "hypothesis_id", .str (py "h1")), (py "action_text", .str (py "restart it")),
      (py "skill", .str (py "restart")), (py "preconditions", .arr [.str (py "none")]),
      (py "expected_postcondition", .str (py "slots")),
      (py "evidence_refs", .arr [.str (py "s1")])])], kv.2.WF := by
  simpa using Json.wf_mkObj (by simp [Json.wf_arr_iff])

/-- A signal, a hypothesis that it supports, and a recommendation. -/
def contractActs : List Act :=
  contractGrants.map .mint ++
  [.call (openCall "e" "k1" "slots" "v"), .call (stateCall .control "e" "diagnosing" 1),
    .call ⟨sampleWorld "-", .control, .append_signal, Params.ofFields
      [(py "episode_id", .str (py "e")), (py "idem_key", .str (py "sig")),
        (py "snapshot", Json.mkObj [(py "command_id", .str (py "catchup"))])] sampleSignal_wf⟩,
    .call ⟨sampleWorld "-", .agent, .append_hypothesis,
      agentParams (sampleGrant .diagnostician "D") "D:1" [(py "hypothesis", Json.mkObj sampleHypothesis)]
        hypothesisField_wf⟩,
    .call ⟨sampleWorld "-", .agent, .append_hypothesis_status,
      agentParams (sampleGrant .diagnostician "D") "D:2"
        [(py "hypothesis_id", .str (py "h1")), (py "status", .str (py "supported")),
          (py "evidence_refs", .arr [.str (py "s1")])] (by simp [Json.wf_arr_iff])⟩,
    .call (stateCall .control "e" "recommending" 5),
    .call ⟨sampleWorld "-", .agent, .append_recommendation,
      agentParams (sampleGrant .change_planner "P") "P:1"
        [(py "recommendation", Json.mkObj
          [(py "hypothesis_id", .str (py "h1")), (py "action_text", .str (py "restart it")),
            (py "skill", .str (py "restart")), (py "preconditions", .arr [.str (py "none")]),
            (py "expected_postcondition", .str (py "slots")),
            (py "evidence_refs", .arr [.str (py "s1")])])] sampleRecommendation_wf⟩]

theorem artefact_contracts_sample : ∃ rec, rec.recommendations.length = 1 ∧
    Contracts tokenConfig (py "e") ((System.run tokenConfig contractActs).store.entries (py "e"))
      rec := by
  have hlen : ((System.run tokenConfig contractActs).store.records.get? (py "e")).map
      (fun rec => rec.recommendations.length) = some 1 := by decide +kernel
  obtain ⟨rec, hrec, hone⟩ := Option.map_eq_some_iff.1 hlen
  exact ⟨rec, hone, artefact_contracts (System.run_reachable (by decide +kernel) (by decide +kernel))
    (py "e") rec hrec⟩

end Valops.Store
