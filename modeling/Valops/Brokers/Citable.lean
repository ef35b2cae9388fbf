import Valops.Brokers.Success
import Valops.Store.Signals

/-!
# Citable signals

An observation tool samples first and records afterwards, under a key that the worker chooses, and the
store answers a known key with the id it gave before. So a worker can be shown one sample and be told
the id of another: `cited_another`.

Main result: `citable`.
-/

set_option autoImplicit false

namespace Valops.Brokers

open Py Store

/-- A recorded signal is what a sample showed: its command, status and structured content. -/
structure Shows (b : SignalBody) (res : Fields) : Prop where
  command_id : index (.obj res) "command_id" = .ok (.str b.command_id)
  status : index (.obj res) "status" = .ok b.status
  structured : get (.obj res) "structured" = .ok b.summary

instance (b : SignalBody) (res : Fields) : Decidable (Shows b res) :=
  decidable_of_iff (index (.obj res) "command_id" = .ok (.str b.command_id) ∧
      index (.obj res) "status" = .ok b.status ∧ get (.obj res) "structured" = .ok b.summary)
    ⟨fun h => ⟨h.1, h.2.1, h.2.2⟩, fun h => ⟨h.1, h.2, h.3⟩⟩

/-- A tool result: an id, and the status and the content that come with it. -/
structure Told (res : Fields) (reply : Json) (id : PyStr) : Prop where
  signal_id : index reply "signal_id" = .ok (.str id)
  status : index reply "status" = index (.obj res) "status"
  structured : index reply "structured" = get (.obj res) "structured"

/-- The signal that a tool result names in an episode is the only one with its id, and it is what the
result shows. -/
def Citable (s : EpisodeStore) (r : Request) (reply : Json) : Prop :=
  ∃ e id rec sig, r.cap.episode_id = .str e ∧ Told r.result reply id ∧
    s.records.get? e = some rec ∧ sig ∈ rec.signals ∧ sig.id = id ∧
    (∀ sig' ∈ rec.signals, sig'.id = id → sig'.toSignalBody = sig.toSignalBody) ∧
    Shows sig.toSignalBody r.result

/-- The key of a call is new in its episode, and the sample has no summary that would stand in for its
content; or the key answers with the id of a signal that is what the sample shows. -/
def Shown (x : Net) (r : Request) : Prop :=
  ∃ e, r.cap.episode_id = .str e ∧
    (((∀ row ∈ x.sys.store.rows, row.episode_id = e → row.idem_key ≠ r.idem_key) ∧
        (get (.obj r.result) "structured" = .ok .null → get (.obj r.result) "summary" = .ok .null)) ∨
      ∃ row ∈ x.sys.store.rows, row.episode_id = e ∧ row.idem_key = r.idem_key ∧
        ∃ v, loads row.result = some v ∧ ∃ b ∈ x.sys.store.signalsOf e,
          index v "signal_id" = .ok (.str b.id) ∧ Shows b r.result)

/-- A sample is a dict. -/
def SampleDict : NetAct → Prop
  | .prepare w _ _ => ∀ res, w.sample = .ok res → (Json.obj res).WF
  | _ => True

/-- What an observation on its way will record. -/
structure Observed (r : Request) : Prop where
  dict : (Json.obj r.result).WF
  status : ∃ v, index (.obj r.result) "status" = .ok v
  snapshot : ∃ ref, r.args = [(py "snapshot", Json.mkObj (r.result ++ [(py "audit_ref", .str ref)]))]

section Citable

variable {cfg : BrokerConfig} {x y : Net} {r : Request}

theorem lookup_eq_none_iff {k : PyStr} {kvs : Fields} :
    Json.lookup k kvs = none ↔ ∀ kv ∈ kvs, kv.1 ≠ k := by
  induction kvs with
  | nil => simp [Json.lookup]
  | cons kv kvs ih =>
    obtain ⟨k', v⟩ := kv
    rw [Json.lookup, List.forall_mem_cons, ← ih]
    by_cases hk : k = k'
    · simp [hk]
    · simp [hk, Ne.symm hk]

/-- A dict with one more field has its other fields as before. -/
theorem lookup_snoc {kvs : Fields} {k a : PyStr} {v : Json} (hwf : (Json.obj kvs).WF) (hk : a ≠ k) :
    Json.lookup k (Json.mkFields (kvs ++ [(a, v)])) = Json.lookup k kvs := by
  cases hl : Json.lookup k kvs with
  | none =>
    refine lookup_eq_none_iff.2 fun kv hkv => ?_
    rcases List.mem_append.1 (Json.mem_mkFields hkv) with hkv | hkv
    · exact lookup_eq_none_iff.1 hl kv hkv
    · cases List.mem_singleton.1 hkv
      exact hk
  | some u =>
    obtain ⟨front, back, rfl⟩ := List.append_of_mem (Json.lookup_mem hl)
    rw [List.append_assoc, List.cons_append]
    refine Json.lookup_mkFields fun kv hkv => ?_
    rcases List.mem_append.1 hkv with hkv | hkv
    · -- the keys of a dict increase
      have hsorted := (Json.wf_obj_iff.1 hwf).1
      rw [Json.SortedKeys, List.map_append, List.map_cons, List.pairwise_append,
        List.pairwise_cons] at hsorted
      exact (hsorted.2.1.1 kv.1 (List.mem_map_of_mem hkv)).ne'
    · cases List.mem_singleton.1 hkv
      exact hk

/-- What is on its way from the observer broker will record what it shows. -/
theorem inflight_observed (h : Conc.Reachable NetInitial (NetMoves cfg) (fun _ a => SampleDict a) x) :
    ∀ r ∈ x.inflight, r.tool.broker = .observer → Observed r := by
  refine h.inv (I := fun x => ∀ r ∈ x.inflight, r.tool.broker = .observer → Observed r) ?_ ?_
  · rintro _ rfl r hr
    cases hr
  · intro x a y hinv hact hstep
    cases hstep with
    | store direct step => exact hinv
    | deliver inflight sent step => exact fun r hr => hinv r (mem_inflight inflight hr)
    | lose inflight => exact fun r hr => hinv r (mem_inflight inflight hr)
    | refused bad => exact hinv
    | revoke ok => exact hinv
    | @prepared w t p r' b ok =>
      intro r hr hobs
      rcases List.mem_cons.1 hr with rfl | hr
      · have htool := ((prepare_eq ok).2 r rfl).1
        rw [htool] at hobs
        unfold prepare at ok
        rw [hobs] at ok
        obtain ⟨cap, args, _, hrest⟩ := (charged_eq ok).2 r rfl
        obtain ⟨res, hres, hrest⟩ := bind_eq_ok.1 hrest
        obtain ⟨_, _, hrest⟩ := bind_eq_ok.1 hrest
        obtain ⟨status, hstatus, hrest⟩ := bind_eq_ok.1 hrest
        obtain ⟨ref, _, hrest⟩ := bind_eq_ok.1 hrest
        cases pure_eq_ok.1 hrest
        have hsample : w.sample = .ok res := by
          unfold observe at hres
          split at hres
          · exact hres
          · obtain ⟨_, _, hres⟩ := bind_eq_ok.1 hres
            obtain ⟨_, _, hres⟩ := bind_eq_ok.1 hres
            exact hres
        exact ⟨hact res hsample, ⟨status, hstatus⟩, ref, rfl⟩
      · exact hinv r hr hobs

/-- What the worker is told of a result of the store. -/
theorem tool_result_told {res : Fields} {v reply : Json} (h : _tool_result res (.ok v) = .ok reply) :
    ∃ sid, index v "signal_id" = .ok sid ∧ index reply "signal_id" = .ok sid ∧
      index reply "status" = index (.obj res) "status" ∧
      index reply "structured" = get (.obj res) "structured" := by
  obtain ⟨sid, hsid, h⟩ := bind_eq_ok.1 h
  obtain ⟨status, hstatus, h⟩ := bind_eq_ok.1 h
  obtain ⟨structured, hstructured, h⟩ := bind_eq_ok.1 h
  obtain ⟨output, _, h⟩ := bind_eq_ok.1 h
  obtain ⟨truncated, _, h⟩ := bind_eq_ok.1 h
  obtain ⟨flags, _, h⟩ := bind_eq_ok.1 h
  cases pure_eq_ok.1 h
  rw [hstatus, hstructured]
  exact ⟨sid, hsid, rfl, rfl, rfl⟩

/-- What the store reads of the snapshot. -/
theorem Observed.snapshot_get (h : Observed r) {p : Params} (hsent : p.fields = r.fields) {k : String}
    (hk : py "audit_ref" ≠ py k) :
    get (orEmpty (p.get "snapshot")) k = get (.obj r.result) k := by
  obtain ⟨ref, hargs⟩ := h.snapshot
  have hsnap : p.get "snapshot" = Json.mkObj (r.result ++ [(py "audit_ref", .str ref)]) := by
    rw [Params.get, hsent, Request.fields, hargs, Json.lookup_mkFields]
    · rfl
    · exact fun kv hkv => absurd hkv List.not_mem_nil
  have hempty : orEmpty (Json.mkObj (r.result ++ [(py "audit_ref", .str ref)])) =
      Json.mkObj (r.result ++ [(py "audit_ref", .str ref)]) := by
    refine if_pos ?_
    rw [Json.mkObj, Json.truthy, Bool.not_eq_true', List.isEmpty_eq_false_iff]
    intro hnil
    have hlast : Json.lookup (py "audit_ref") (Json.mkFields (r.result ++ [(py "audit_ref", .str ref)])) =
        some (.str ref) := Json.lookup_mkFields fun kv hkv => absurd hkv List.not_mem_nil
    rw [hnil] at hlast
    cases hlast
  rw [hsnap, hempty]
  show Except.ok ((Json.lookup (py k) (Json.mkFields _)).getD .null) = _
  rw [lookup_snoc h.dict hk]
  rfl

/-! ## What a delivery leaves -/

theorem get_of_index {kvs : Fields} {k : String} {v : Json} (h : index (.obj kvs) k = .ok v) :
    get (.obj kvs) k = .ok v := by
  have hlookup : Json.lookup (py k) kvs = some v := orRaise_eq_ok.1 h
  show Except.ok ((Json.lookup (py k) kvs).getD .null) = _
  rw [hlookup]
  rfl

theorem index_of_get_str {kvs : Fields} {k : String} {t : PyStr} (h : get (.obj kvs) k = .ok (.str t)) :
    index (.obj kvs) k = .ok (.str t) := by
  have hlookup : (Json.lookup (py k) kvs).getD .null = .str t := Except.ok.inj h
  cases hl : Json.lookup (py k) kvs with
  | none =>
    rw [hl] at hlookup
    cases hlookup
  | some v =>
    rw [hl] at hlookup
    cases hlookup
    exact orRaise_eq_ok.2 hl

/-- A signal stays. -/
theorem signals_later {s s' : System} (h : Conc.Reachable (· = s) (Moves cfg.store) Conc.anyAct s')
    {e : PyStr} : ∀ b ∈ s.store.signalsOf e, b ∈ s'.store.signalsOf e := by
  intro b hb
  have hrows := (reachable_rows_grow h).sublist
  exact (((hrows.filter _).filterMap _).filterMap _).subset hb

/-- In a reachable store, being citable is a matter of the signals of the log. -/
theorem citable_iff {z : System} {reply : Json} {e : PyStr} {rec : Record}
    (hz : Conc.Reachable Initial (Moves cfg.store) Conc.anyAct z) (he : r.cap.episode_id = .str e)
    (hrec : z.store.records.get? e = some rec) : Citable z.store r reply ↔
      ∃ b ∈ z.store.signalsOf e, Told r.result reply b.id ∧ Shows b r.result := by
  have hsignals := record_signals (ledger False.elim hz).consistent hrec
  constructor
  · rintro ⟨e', id, rec', sig, he', htold, hrec', hsig, rfl, _, hshows⟩
    cases he.symm.trans he'
    cases hrec.symm.trans hrec'
    exact ⟨_, hsignals ▸ List.mem_map_of_mem hsig, htold, hshows⟩
  · rintro ⟨b, hb, htold, hshows⟩
    obtain ⟨sig, hsig, rfl⟩ := List.mem_map.1 (hsignals ▸ hb)
    refine ⟨e, _, rec, sig, he, htold, hrec, hsig, rfl, fun sig' hsig' hid => ?_, hshows⟩
    exact signal_unique hz (hsignals ▸ List.mem_map_of_mem hsig') hb hid

/-- What the store answered an observation with: the result of the row that had its key already, or the
id of the signal that it now is. -/
inductive Answered (x y : Net) (r : Request) (e : PyStr) (v : Json) : Prop
  | known (row : Row) (mem : row ∈ x.sys.store.rows) (episode : row.episode_id = e)
      (key : row.idem_key = r.idem_key) (answer : loads row.result = some v)
      (same : y.sys.store.signalsOf e = x.sys.store.signalsOf e)
  | fresh (b : SignalBody)
      (new : ∀ row ∈ x.sys.store.rows, row.episode_id = e → row.idem_key ≠ r.idem_key)
      (mem : b ∈ y.sys.store.signalsOf e) (answer : v = signalResult b.id)
      (command_id : index (.obj r.result) "command_id" = .ok (.str b.command_id))
      (status : index (.obj r.result) "status" = .ok b.status)
      (summary : snapshotSummary (.obj r.result) = .ok b.summary)

theorem Observed.snapshot_summary (h : Observed r) {p : Params} (hsent : p.fields = r.fields) :
    snapshotSummary (orEmpty (p.get "snapshot")) = snapshotSummary (.obj r.result) := by
  rw [snapshotSummary, snapshotSummary, h.snapshot_get hsent (by decide),
    h.snapshot_get hsent (by decide)]

/-- A signal that was just appended is in the log. -/
theorem signal_appended {s s' : EpisodeStore} {row : Row} {entry : Entry} {b : SignalBody}
    (hrows : s'.rows = s.rows ++ [row]) (hentry : row.entry = some entry)
    (hb : entry.body = .signal b) : b ∈ s'.signalsOf row.episode_id := by
  refine List.mem_filterMap.2 ⟨entry, ?_, Entry.signal?_eq_some.2 hb⟩
  refine List.mem_filterMap.2 ⟨row, mem_log.2 ⟨?_, rfl⟩, hentry⟩
  rw [hrows]
  exact List.mem_append_right _ (List.mem_singleton.2 rfl)

/-- What the store decided on an observation that it recorded. -/
theorem fresh_answer {w : World} {p : Params} {s : EpisodeStore} {d : Draft} {row : Row}
    (hobs : r.tool.broker = .observer) (hr : Observed r) (hsent : p.fields = r.fields)
    (hm : r.tool.method ∈ r.tool.endpoint.methods)
    (hdec : decideEntry cfg.store w s r.tool.endpoint r.tool.method p = .ok (.append d))
    (hw : Written cfg.store w s d row) : ∃ b : SignalBody,
      d.body = .signal b ∧ loads row.result = some (signalResult b.id) ∧
      index (.obj r.result) "command_id" = .ok (.str b.command_id) ∧
      index (.obj r.result) "status" = .ok b.status ∧
      snapshotSummary (.obj r.result) = .ok b.summary := by
  have hdraft := decideEntry_append hm hdec
  have hkind : some d.body.kind = some .signal := by
    rw [← hdraft.kind]
    cases ht : r.tool <;> rw [ht] at hobs <;> first | rfl | cases hobs
  obtain ⟨b₀, hb₀⟩ : ∃ b, d.body = .signal b := by
    cases hbody : d.body with
    | signal b => exact ⟨b, rfl⟩
    | _ =>
      rw [hbody] at hkind
      cases hkind
  obtain ⟨_, _, _, _, hsignal⟩ := decideEntry_signal hdec hm hb₀
  obtain ⟨b, hb, hresult, hcommand, hstatus, hsummary⟩ := signalDraft_shown hsignal
  rw [hr.snapshot_get hsent (by decide)] at hcommand hstatus
  rw [hr.snapshot_summary hsent] at hsummary
  obtain ⟨status, hindexed⟩ := hr.status
  refine ⟨b, hb, hresult ▸ hdraft.result.loads hw.result, index_of_get_str hcommand, ?_, hsummary⟩
  rw [hindexed]
  exact (get_of_index hindexed).symm.trans hstatus

theorem summary_of_null {snap v : Json} (hnull : get snap "structured" = .ok .null)
    (h : snapshotSummary snap = .ok v) : get snap "summary" = .ok v := by
  rw [snapshotSummary, hnull] at h
  exact h

/-- A summary is the structured content unless there is none. -/
theorem structured_of_summary {snap v : Json}
    (hnull : get snap "structured" = .ok .null → get snap "summary" = .ok .null)
    (h : snapshotSummary snap = .ok v) : get snap "structured" = .ok v := by
  rw [snapshotSummary] at h
  obtain ⟨structured, hstructured, h⟩ := bind_eq_ok.1 h
  split at h
  · cases pure_eq_ok.1 h
    exact hstructured
  · rename_i heq
    cases not_not.1 heq
    cases (hnull hstructured).symm.trans h
    exact hstructured

/-- **What an observation is answered with.** -/
theorem answered {w : World} {w' : BrokerWorld} {p : Params} {reply : Json}
    (hx : Conc.Reachable NetInitial (NetMoves cfg) (fun _ a => SampleDict a) x)
    (hstep : NetMoves cfg x (.deliver w r p) y) (hobs : r.tool.broker = .observer)
    (hreply : r.answer w' (received
      (handle cfg.store w x.sys.store r.tool.endpoint r.tool.method p).1) = .ok reply) :
    ∃ e rec v, r.cap.episode_id = .str e ∧ y.sys.store.records.get? e = some rec ∧
      Answered x y r e v ∧ _tool_result r.result (.ok v) = .ok reply := by
  obtain ⟨v, hv⟩ := answer_eq_ok hreply
  have hres := received_eq_ok hv
  have htold : _tool_result r.result (.ok v) = .ok reply := by
    rw [hv] at hreply
    unfold Request.answer at hreply
    rw [hobs] at hreply
    exact hreply
  have hsys := reachable_sys hx
  cases hstep with
  | @deliver _ _ _ s front back inflight sent step =>
    have hr : r ∈ x.inflight := by
      rw [inflight]
      exact List.mem_append_right _ List.mem_cons_self
    obtain ⟨g, now, id, _, hauth⟩ := inflight_authorised hx r hr
    obtain ⟨_, hepisode, hidem⟩ := r.get_given hauth sent
    obtain ⟨hwrites, hopen, hidemKey⟩ := r.tool.method_kind
    have hm := method_of_ok hres
    have hrun : handle cfg.store w x.sys.store r.tool.endpoint r.tool.method p =
        runEntry cfg.store w x.sys.store r.tool.endpoint r.tool.method p :=
      handle_eq_runEntry hm hwrites hopen
    have hstore : s.store = (runEntry cfg.store w x.sys.store r.tool.endpoint r.tool.method p).2 :=
      (step.store_section (c := r.call w p) rfl).trans (congrArg Prod.snd hrun)
    rw [hrun] at hres
    have hs : Conc.Reachable Initial (Moves cfg.store) Conc.anyAct s := hsys.next trivial step
    obtain ⟨dec, e, rec, key, _, hdec, hid, hrec, hkey, hval, row, hfind, hload⟩ :=
      runEntry_holds hm (fun e rec h => (ledger False.elim hsys).consistent.episode_id h) hres
    cases hval
    rw [hidemKey, hidem] at hkey
    cases keyText_str hkey
    rw [hid] at hepisode
    rw [← hstore] at hfind
    have hmem := List.mem_of_find?_eq_some hfind
    have hfound := List.find?_some hfind
    rw [decide_eq_true_iff] at hfound
    obtain ⟨hrow_e, hrow_k⟩ := hfound
    have hlater : Conc.Reachable (· = x.sys) (Moves cfg.store) Conc.anyAct s :=
      .next (.start rfl) trivial step
    obtain ⟨rec', hrec', _⟩ := record_later hsys hlater hrec
    refine ⟨e, rec', v, hepisode.symm, hrec', ?_, htold⟩
    rcases new_row step with hrows | ⟨call, d', new, hsec, hrows, hw', hkind, hdraft⟩
    · refine .known row (hrows ▸ hmem) hrow_e hrow_k hload ?_
      rw [EpisodeStore.signalsOf, entries_congr hrows]
      rfl
    · cases hsec
      rw [hstore] at hrows
      obtain ⟨d, hdec', hw⟩ := runEntry_row hm hrows
      rw [← hstore] at hrows
      have hd := decideEntry_append hm hdec'
      obtain ⟨b, hb, hresult, hcommand, hstatus, hsummary⟩ :=
        fresh_answer hobs (inflight_observed hx r hr hobs) sent hm hdec' hw
      have hdrec : d.record.episode_id = e := by
        obtain ⟨e', hid', hget⟩ := hd.found
        cases hid.symm.trans hid'
        exact (ledger False.elim hsys).consistent.episode_id hget
      have hnew_e : new.episode_id = e := hw.episode.trans hdrec
      have hdkey : d.idem_key = r.idem_key := by
        have hkey := hd.key
        rw [hidemKey, hidem] at hkey
        exact keyText_str hkey
      have hlast : new ∈ s.store.rows := by
        rw [hrows]
        exact List.mem_append_right _ (List.mem_singleton.2 rfl)
      -- the row that answers is the row that was appended
      cases row_of_key hs hmem hlast (hrow_e.trans hnew_e.symm)
        (hrow_k.trans (hdkey.symm.trans hw.key.symm))
      refine .fresh b ?_ ?_ (Option.some.inj (hload.symm.trans hresult)) hcommand hstatus hsummary
      · rw [← hdrec, ← hdkey]
        exact hd.fresh
      · rw [← hnew_e]
        exact signal_appended hrows hw.entry hb

/-- **A citable signal is what the worker was shown** exactly when the key of the call is new, or names
a signal that is what the sample shows. -/
theorem citable {w : World} {w' : BrokerWorld} {p : Params} {reply : Json}
    (hx : Conc.Reachable NetInitial (NetMoves cfg) (fun _ a => SampleDict a) x)
    (hstep : NetMoves cfg x (.deliver w r p) y) (hobs : r.tool.broker = .observer)
    (hreply : r.answer w' (received
      (handle cfg.store w x.sys.store r.tool.endpoint r.tool.method p).1) = .ok reply) :
    (∀ z, Conc.Reachable (· = y.sys) (Moves cfg.store) Conc.anyAct z → Citable z.store r reply) ↔
      Shown x r := by
  obtain ⟨e, rec, v, he, hrec, hanswered, htold⟩ := answered hx hstep hobs hreply
  have hact : SampleDict (.deliver w r p) := trivial
  have hy : Conc.Reachable Initial (Moves cfg.store) Conc.anyAct y.sys :=
    reachable_sys (hx.next hact hstep)
  obtain ⟨sid, hsid, hreplied, hstatus, hstructured⟩ := tool_result_told htold
  have hcitable : (∀ z, Conc.Reachable (· = y.sys) (Moves cfg.store) Conc.anyAct z →
      Citable z.store r reply) ↔
      ∃ b ∈ y.sys.store.signalsOf e, Told r.result reply b.id ∧ Shows b r.result := by
    rw [← citable_iff hy he hrec]
    refine ⟨fun h => h _ (.start rfl), fun h z hz => ?_⟩
    obtain ⟨rec', hrec', _⟩ := record_later hy hz hrec
    obtain ⟨b, hb, hshown⟩ := (citable_iff hy he hrec).1 h
    exact (citable_iff (hy.trans hz) he hrec').2 ⟨b, signals_later hz b hb, hshown⟩
  have htold_iff : ∀ id, Told r.result reply id ↔ sid = .str id :=
    fun id => ⟨fun h => Except.ok.inj (hreplied.symm.trans h.signal_id),
      fun h => ⟨h ▸ hreplied, hstatus, hstructured⟩⟩
  rw [hcitable]
  cases hanswered with
  | known row mem episode key answer same =>
    rw [same]
    constructor
    · rintro ⟨b, hb, hid, hshows⟩
      rw [htold_iff] at hid
      exact ⟨e, he, .inr ⟨row, mem, episode, key, v, answer, b, hb, hid ▸ hsid, hshows⟩⟩
    · rintro ⟨e', he', ⟨hnew, _⟩ | ⟨row', hrow', hrow_e, hrow_k, v', hload, b, hb, hid, hshows⟩⟩
      · cases he.symm.trans he'
        exact absurd key (hnew row mem episode)
      · cases he.symm.trans he'
        cases row_of_key (reachable_sys hx) mem hrow' (episode.trans hrow_e.symm)
          (key.trans hrow_k.symm)
        cases answer.symm.trans hload
        exact ⟨b, hb, (htold_iff _).2 (Except.ok.inj (hsid.symm.trans hid)), hshows⟩
  | fresh b new mem answer command_id status summary =>
    have hsid' : sid = .str b.id := by
      rw [answer] at hsid
      exact Except.ok.inj (hsid.symm.trans rfl)
    constructor
    · rintro ⟨b', hb', hid, hshows⟩
      have hids := Json.str.inj (hsid'.symm.trans ((htold_iff _).1 hid))
      cases signal_unique hy mem hb' hids
      refine ⟨e, he, .inl ⟨new, fun hnull => ?_⟩⟩
      have hsummary := summary_of_null hnull summary
      rw [hsummary, ← hnull]
      exact hshows.structured.symm
    · rintro ⟨e', he', ⟨_, hinstead⟩ | ⟨row', hrow', hrow_e, hrow_k, _⟩⟩
      · exact ⟨b, mem, (htold_iff _).2 hsid', command_id, status, structured_of_summary hinstead summary⟩
      · cases he.symm.trans he'
        exact absurd hrow_k (new row' hrow' hrow_e)

end Citable

/-- The catch-up as the daemon sampled it, with a backlog. -/
def backlogSample (backlog : Int) : Fields :=
  [(py "command_id", .str (py "catchup")), (py "status", .str (py "ok")),
    (py "structured", .int backlog)]

/-- What a sample is recorded as. -/
def backlogSnapshot (backlog : Int) : Json :=
  Json.mkObj (backlogSample backlog ++ [(py "audit_ref", .str (py "-"))])

theorem backlogSample_wf (backlog : Int) : (Json.obj (backlogSample backlog)).WF := by
  refine Json.wf_obj_iff.2 ⟨?_, by simp [backlogSample]⟩
  show List.Pairwise _ [py "command_id", py "status", py "structured"]
  decide

theorem backlogSnapshot_wf (backlog : Int) : (backlogSnapshot backlog).WF :=
  Json.wf_mkObj (by simp [backlogSample])

/-- The diagnostician samples the catch-up under this key. -/
def askBacklog (idem : String) (backlog : Int) : NetAct :=
  .prepare { sampleBroker with sample := .ok (backlogSample backlog) } .get_catchup
    (agentParams diagnostician idem [(py "args", .obj [])] noArgs_wf)

def backlogRequest (idem : String) (backlog : Int) : Request :=
  ⟨.get_catchup, sampleToken diagnostician, diagnostician.capability, py "S:obs:" ++ py idem,
    [(py "snapshot", backlogSnapshot backlog)], backlogSample backlog⟩

def backlogParams (idem : String) (backlog : Int) : Params :=
  agentParams diagnostician ("S:obs:" ++ idem) [(py "snapshot", backlogSnapshot backlog)] (by
    simpa using backlogSnapshot_wf backlog)

/-- The call of the store with that sample arrives. -/
def deliverBacklog (idem : String) (backlog : Int) : NetAct :=
  .deliver (sampleWorld "-") (backlogRequest idem backlog) (backlogParams idem backlog)

/-- What the worker is told. -/
def backlogReply (id : String) (backlog : Int) : Json :=
  Json.mkObj [(py "signal_id", .str (py id)), (py "status", .str (py "ok")),
    (py "structured", .int backlog), (py "output", .str []), (py "truncated", .bool false),
    (py "suspicious_flags", .arr []), (py "note", .str UNTRUSTED_NOTE)]

/-- A first sample is on its way. -/
def sampledNet : Net := Conc.after (Net.act sampleNet) {} (diagnosed ++ [askBacklog "12345678" 7])

theorem citable_sample :
    Citable (Conc.after (Net.act sampleNet) sampledNet [deliverBacklog "12345678" 7]).sys.store
      (backlogRequest "12345678" 7) (backlogReply "s1" 7) := by
  have hruns : Conc.Runs (Net.act sampleNet) Conc.anyAct {} (diagnosed ++ [askBacklog "12345678" 7]) := by
    decide +kernel
  have hx : Conc.Reachable NetInitial (NetMoves sampleNet) (fun _ a => SampleDict a) sampledNet := by
    refine .after Net.act_moves (.start rfl) (hruns.of_all fun a ha _ => ?_)
    simp only [diagnosed, List.cons_append, List.nil_append, List.mem_cons, List.not_mem_nil,
      or_false] at ha
    rcases ha with rfl | rfl | rfl | rfl
    · exact trivial
    · exact trivial
    · exact trivial
    · intro res hres
      cases hres
      exact backlogSample_wf 7
  have hstep : NetMoves sampleNet sampledNet (deliverBacklog "12345678" 7)
      (Conc.after (Net.act sampleNet) sampledNet [deliverBacklog "12345678" 7]) :=
    Conc.step_after Net.act_moves (by decide +kernel)
  have hreply : (backlogRequest "12345678" 7).answer sampleBroker (received (handle sampleNet.store
      (sampleWorld "-") sampledNet.sys.store .observe .append_observation
        (backlogParams "12345678" 7)).1) = .ok (backlogReply "s1" 7) := by decide +kernel
  have hshown : Shown sampledNet (backlogRequest "12345678" 7) :=
    ⟨py "e", rfl, .inl ⟨by decide +kernel, fun h => absurd h (by decide +kernel)⟩⟩
  exact (citable hx hstep rfl hreply).2 hshown _ (.start rfl)

/-- The same key was used for a first sample, and a second one is on its way. -/
def resampledNet : Net := Conc.after (Net.act sampleNet) {} (diagnosed ++
  [askBacklog "12345678" 7, deliverBacklog "12345678" 7, askBacklog "12345678" 8])

/-- A worker is shown one sample and told the id of another. -/
theorem cited_another : ∃ x y w r w' p reply,
    Conc.Reachable NetInitial (NetMoves sampleNet) Conc.anyAct x ∧
    NetMoves sampleNet x (.deliver w r p) y ∧ r.tool.broker = .observer ∧
    r.answer w' (received
      (handle sampleNet.store w x.sys.store r.tool.endpoint r.tool.method p).1) = .ok reply ∧
    ¬ Citable y.sys.store r reply := by
  have hx : Conc.Reachable NetInitial (NetMoves sampleNet) Conc.anyAct resampledNet :=
    .after Net.act_moves (.start rfl) (by decide +kernel)
  have hstep : NetMoves sampleNet resampledNet (deliverBacklog "12345678" 8)
      (Conc.after (Net.act sampleNet) resampledNet [deliverBacklog "12345678" 8]) :=
    Conc.step_after Net.act_moves (by decide +kernel)
  refine ⟨resampledNet, _, sampleWorld "-", backlogRequest "12345678" 8, sampleBroker,
    backlogParams "12345678" 8, backlogReply "s1" 8, hx, hstep, rfl, by decide +kernel, ?_⟩
  rintro ⟨e, id, rec, sig, he, htold, hrec, hsig, hid, _, hshows⟩
  cases he
  have hnone : ∀ rec ∈ (Conc.after (Net.act sampleNet) resampledNet
      [deliverBacklog "12345678" 8]).sys.store.records.get? (py "e"), ∀ sig ∈ rec.signals,
      ¬ Shows sig.toSignalBody (backlogSample 8) := by decide +kernel
  exact hnone rec hrec sig hsig hshows

end Valops.Brokers
