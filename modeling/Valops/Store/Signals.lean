import Valops.Store.Repeat

/-!
# Signals

A signal is numbered by the signals before it and never changes, so an id names one signal for good.

Main results: `signal_unique` (an id names one signal), `signalDraft_shown` (what is recorded of a
snapshot, and what the call is answered with).
-/

set_option autoImplicit false

namespace Valops.Store

open Py

/-- The signal of an entry. -/
def Entry.signal? (x : Entry) : Option SignalBody :=
  match x.body with
  | .signal b => some b
  | _ => none

/-- The signals of an episode. -/
def EpisodeStore.signalsOf (s : EpisodeStore) (e : PyStr) : List SignalBody :=
  (s.entries e).filterMap Entry.signal?

/-- `{"signal_id": ...}`. -/
def signalResult (id : PyStr) : Json := Json.mkObj [(py "signal_id", .str id)]

section Signals

variable {cfg : StoreConfig} {w : World} {s : EpisodeStore} {ep : Endpoint} {m : Method} {p : Params}
  {d : Draft} {rec : Record} {e : PyStr} {row : Row} {x y : System} {a : Act} {b b' : SignalBody}
  {ok : System → Act → Prop}

theorem Entry.signal?_eq_some {entry : Entry} : entry.signal? = some b ↔ entry.body = .signal b := by
  unfold Entry.signal?
  cases entry.body <;> simp

/-! ## Records -/

theorem apply_signals {rfc3339 : Double → PyStr} {r : Record} {entry : Entry} :
    (apply rfc3339 r entry).1.signals.map Signal.toSignalBody =
      r.signals.map Signal.toSignalBody ++ entry.signal?.toList := by
  cases h : entry.body <;> simp [apply, Entry.signal?, h]

theorem replay_signals {rfc3339 : Double → PyStr} (es : List Entry) :
    (replay rfc3339 (empty_record e) es).signals.map Signal.toSignalBody =
      es.filterMap Entry.signal? := by
  induction es using List.reverseRecOn with
  | nil => rfl
  | append_singleton es entry ih =>
    rw [replay_snoc, apply_signals, ih, List.filterMap_append]
    cases h : entry.signal? <;> simp [h]

/-- The signals of a record are those of its log. -/
theorem record_signals {strict : Prop} (h : Consistent cfg strict s)
    (hrec : s.records.get? e = some rec) :
    rec.signals.map Signal.toSignalBody = s.signalsOf e := by
  have hfield := h.field hrec (fun r => r.signals.map Signal.toSignalBody) fun _ => rfl
  rw [hfield]
  exact replay_signals (s.entries e)

/-! ## Ids -/

theorem Admitted.signal_id {body : Body} {principal : PyStr} {session : Json}
    (h : Admitted cfg w ep p rec body principal session) (hb : body = .signal b) :
    b.id = _next_id rec.signals.length "s" := by
  cases h with
  | signal endpoint live id =>
    cases hb
    exact id
  | observation endpoint checked live id =>
    cases hb
    exact id
  | _ => cases hb

/-- A new signal is numbered by the signals before it. -/
theorem NewEntry.signal_id {c : Call} {new : Entry} (hled : Ledger cfg False x)
    (h : NewEntry cfg x c e new) (hb : new.body = .signal b) :
    b.id = _next_id (x.store.signalsOf e).length "s" := by
  obtain ⟨d, row, hdraft, hw, _, hrow, hbody, hrec⟩ := h.draft
  rw [hbody] at hb
  rcases hdraft with hdraft | hopened
  · obtain ⟨e', _, hget⟩ := hdraft.found
    have he : e' = e := (hled.consistent.episode_id hget).symm.trans hrec
    subst he
    have hlen : d.record.signals.length = (x.store.signalsOf e').length := by
      rw [← record_signals hled.consistent hget, List.length_map]
    rw [← hlen]
    exact hdraft.admitted.signal_id hb
  · obtain ⟨idem, ob, _, rfl⟩ := hopened.decided
    cases hb

theorem _next_id_injective {n k : Nat} {letter : String} (h : _next_id n letter = _next_id k letter) :
    n = k := by
  have htext := natText_injective (List.append_cancel_left h)
  omega

/-- **An id names one signal.** -/
theorem signal_unique (h : Conc.Reachable Initial (Moves cfg) ok x) (hb : b ∈ x.store.signalsOf e)
    (hb' : b' ∈ x.store.signalsOf e) (hid : b.id = b'.id) : b = b' := by
  have hnumbered : ∀ front new back, x.store.entries e = front ++ new :: back → ∀ b,
      new.body = .signal b → b.id = _next_id (front.filterMap Entry.signal?).length "s" := by
    refine log_inv (Q := fun _ front new => ∀ b, new.body = .signal b →
      b.id = _next_id (front.filterMap Entry.signal?).length "s") ?_ h e
    intro x a y c e new hled _ _ _ hnew b hb
    exact hnew.signal_id hled hb
  obtain ⟨entry, hentry, hsig⟩ := List.mem_filterMap.1 hb
  obtain ⟨entry', hentry', hsig'⟩ := List.mem_filterMap.1 hb'
  obtain ⟨front, back, hsplit⟩ := List.append_of_mem hentry
  obtain ⟨front', back', hsplit'⟩ := List.append_of_mem hentry'
  have hn := hnumbered front entry back hsplit b (Entry.signal?_eq_some.1 hsig)
  have hn' := hnumbered front' entry' back' hsplit' b' (Entry.signal?_eq_some.1 hsig')
  have hlen : (front.filterMap Entry.signal?).length = (front'.filterMap Entry.signal?).length :=
    _next_id_injective (hn.symm.trans (hid.trans hn'))
  -- of two places in one log with as many signals before them, neither is before the other
  have heq := hsplit.symm.trans hsplit'
  rcases List.append_eq_append_iff.1 heq with ⟨mid, hfront', hmid⟩ | ⟨mid, hfront, hmid⟩
  · cases mid with
    | nil =>
      cases hmid
      exact Option.some.inj (hsig.symm.trans hsig')
    | cons z mid =>
      obtain ⟨rfl, _⟩ := List.cons.inj hmid
      rw [hfront', List.filterMap_append, List.length_append, List.filterMap_cons, hsig,
        List.length_cons] at hlen
      omega
  · cases mid with
    | nil =>
      cases hmid
      exact Option.some.inj (hsig.symm.trans hsig')
    | cons z mid =>
      obtain ⟨rfl, _⟩ := List.cons.inj hmid
      rw [hfront, List.filterMap_append, List.length_append, List.filterMap_cons, hsig',
        List.length_cons] at hlen
      omega

/-! ## Results -/

/-- What `append_signal` records of a snapshot, and what it answers. -/
theorem signalDraft_shown {principal key : PyStr} {session_id : Json}
    (h : signalDraft principal session_id rec p key = .ok d) : ∃ b : SignalBody,
      d.body = .signal b ∧ d.result = signalResult b.id ∧
      get (orEmpty (p.get "snapshot")) "command_id" = .ok (.str b.command_id) ∧
      get (orEmpty (p.get "snapshot")) "status" = .ok b.status ∧
      snapshotSummary (orEmpty (p.get "snapshot")) = .ok b.summary := by
  unfold signalDraft at h
  obtain ⟨_, _, h⟩ := bind_eq_ok.1 h
  obtain ⟨command_id, hcommand, h⟩ := bind_eq_ok.1 h
  obtain ⟨_, _, h⟩ := bind_eq_ok.1 h
  obtain ⟨text, htext, h⟩ := bind_eq_ok.1 h
  obtain ⟨status, hstatus, h⟩ := bind_eq_ok.1 h
  obtain ⟨summary, hsummary, h⟩ := bind_eq_ok.1 h
  obtain ⟨truncated, _, h⟩ := bind_eq_ok.1 h
  obtain ⟨collected_at, _, h⟩ := bind_eq_ok.1 h
  obtain ⟨flags, _, h⟩ := bind_eq_ok.1 h
  obtain ⟨ref, _, h⟩ := bind_eq_ok.1 h
  cases pure_eq_ok.1 h
  have hstr : command_id = .str text := by
    have htext := orRaise_eq_ok.1 htext
    cases command_id with
    | str t =>
      cases htext
      rfl
    | _ => cases htext
  rw [hstr] at hcommand
  exact ⟨_, rfl, rfl, hcommand, hstatus, hsummary⟩

/-- A decision to append a signal answers with its id. -/
theorem decideEntry_signal (h : decideEntry cfg w s ep m p = .ok (.append d)) (hm : m ∈ ep.methods)
    (hb : d.body = .signal b) : ∃ rec principal session_id key,
      signalDraft principal session_id rec p key = .ok d := by
  have hkind := (decideEntry_append hm h).kind
  rw [hb] at hkind
  have hsignal : ∀ {principal : PyStr} {session_id : Json},
      append_signal s principal session_id p = .ok (.append d) →
      ∃ rec principal session_id key, signalDraft principal session_id rec p key = .ok d := by
    intro principal session_id h
    obtain ⟨rec, _, h⟩ := bind_eq_ok.1 h
    obtain ⟨key, _, _, hdraft⟩ := onFresh_append h
    exact ⟨rec, principal, session_id, key, hdraft⟩
  cases m with
  | append_signal => exact hsignal h
  | append_observation =>
    obtain ⟨cap, _, h⟩ := bind_eq_ok.1 h
    obtain ⟨_, _, h⟩ := bind_eq_ok.1 h
    obtain ⟨_, _, h⟩ := bind_eq_ok.1 h
    exact hsignal h
  | _ => cases hkind

/-- The row that a section appends was written from what the handler decided. -/
theorem runEntry_row (hm : m ∈ ep.methods) (h : (runEntry cfg w s ep m p).2.rows = s.rows ++ [row]) :
    ∃ d, decideEntry cfg w s ep m p = .ok (.append d) ∧ Written cfg w s d row := by
  have hne : s.rows ≠ s.rows ++ [row] := by
    intro heq
    have hlen := congrArg List.length heq
    simp at hlen
  unfold runEntry at h
  cases hdec : decideEntry cfg w s ep m p with
  | error err =>
    rw [hdec] at h
    exact absurd h hne
  | ok dec =>
    rw [hdec] at h
    cases dec with
    | reply v => exact absurd h hne
    | append d =>
      refine ⟨d, rfl, ?_⟩
      dsimp only at h
      cases hrow : newRow cfg w s d with
      | error err =>
        rw [_append_error hrow] at h
        exact absurd h hne
      | ok row' =>
        have hstore := _append_ok hrow
        have hrows : s.rows ++ [row'] = s.rows ++ [row] := by
          split at h <;> rename_i happ <;> rw [happ] at hstore <;> rw [← h] <;>
            exact (congrArg EpisodeStore.rows hstore).symm
        cases List.append_cancel_left hrows
        exact newRow_eq_ok (decideEntry_append hm hdec).wf hrow

end Signals

end Valops.Store
