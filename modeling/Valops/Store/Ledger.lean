import Valops.Store.System

/-!
# The ledger

The invariant that all results about the store start from. `Consistent`: every row decodes, the
rows of an episode are numbered from one, and each live record is what its entries replay to, up to
the sessions of tokens that were not minted. `Justified`: every entry was let through on the record
that the entries before it replay to.

`strict` adds that no session is lost; it holds in runs in which no token is forged.

Main result: `ledger`.
-/

set_option autoImplicit false

namespace Valops.Store

open Py

/-! ## Records and rows -/

/-- The live records are what the rows say. -/
structure Consistent (cfg : StoreConfig) (strict : Prop) (s : EpisodeStore) : Prop where
  decodes : ∀ row ∈ s.rows, ∃ x, row.entry = some x
  known : ∀ e, (∃ rec, s.records.get? e = some rec) ↔ ∃ row ∈ s.rows, row.episode_id = e
  numbered : ∀ e, (s.log e).map Row.rev = List.range' 1 (s.log e).length
  folded : ∀ e rec, s.records.get? e = some rec →
    rec.anon = (replay cfg.rfc3339 (empty_record e) (s.entries e)).anon
  exact : strict → ∀ e rec, s.records.get? e = some rec →
    rec = replay cfg.rfc3339 (empty_record e) (s.entries e)

section Logs

variable {cfg : StoreConfig} {s : EpisodeStore} {d : Draft} {row : Row}

theorem wrote_log_self : (s.wrote cfg d row).log row.episode_id = s.log row.episode_id ++ [row] := by
  simp [EpisodeStore.log, EpisodeStore.wrote]

theorem wrote_log_of_ne {e : PyStr} (h : e ≠ row.episode_id) :
    (s.wrote cfg d row).log e = s.log e := by
  simp [EpisodeStore.log, EpisodeStore.wrote, Ne.symm h]

theorem wrote_entries_self {x : Entry} (h : row.entry = some x) :
    (s.wrote cfg d row).entries row.episode_id = s.entries row.episode_id ++ [x] := by
  rw [EpisodeStore.entries, wrote_log_self, List.filterMap_append]
  simp [EpisodeStore.entries, h]

theorem wrote_entries_of_ne {e : PyStr} (h : e ≠ row.episode_id) :
    (s.wrote cfg d row).entries e = s.entries e := by
  rw [EpisodeStore.entries, wrote_log_of_ne h, EpisodeStore.entries]

theorem entriesOf_eq (e : PyStr) : entriesOf s.rows e = s.entries e := rfl

theorem mem_log {e : PyStr} : row ∈ s.log e ↔ row ∈ s.rows ∧ row.episode_id = e := by
  simp [EpisodeStore.log]

end Logs

section Replay

variable {rfc3339 : Double → PyStr} {r : Record} {es : List Entry}

theorem replay_episode_id : (replay rfc3339 r es).episode_id = r.episode_id := by
  induction es using List.reverseRecOn with
  | nil => rfl
  | append_singleton es x ih => rw [replay_snoc, apply_episode_id, ih]

/-- A replayed record has the number of its last entry. -/
theorem replay_revision : (replay rfc3339 r es).revision =
    ((es.getLast?).map Entry.rev).getD r.revision := by
  induction es using List.reverseRecOn with
  | nil => rfl
  | append_singleton es x _ => rw [replay_snoc, apply_revision, List.getLast?_concat]; rfl

end Replay

namespace Consistent

variable {cfg : StoreConfig} {strict : Prop} {s : EpisodeStore} {e : PyStr} {rec : Record}

theorem entries_rev (h : Consistent cfg strict s) (e : PyStr) :
    (s.entries e).map Entry.rev = List.range' 1 (s.log e).length := by
  have hdec : ∀ rows : List Row, (∀ row ∈ rows, ∃ x, row.entry = some x) →
      (rows.filterMap Row.entry).map Entry.rev = rows.map Row.rev := by
    intro rows hrows
    induction rows with
    | nil => rfl
    | cons row rows ih =>
      obtain ⟨x, hx⟩ := hrows row List.mem_cons_self
      rw [List.filterMap_cons_some hx, List.map_cons, List.map_cons, entry_rev hx,
        ih fun r hr => hrows r (List.mem_cons_of_mem _ hr)]
  rw [EpisodeStore.entries, hdec _ fun row hrow => h.decodes row (mem_log.1 hrow).1, h.numbered]

theorem entries_length (h : Consistent cfg strict s) (e : PyStr) :
    (s.entries e).length = (s.log e).length := by
  have := congrArg List.length (h.entries_rev e)
  simpa using this

/-- The revision of a record is the number of its entries. -/
theorem revision (h : Consistent cfg strict s) (hrec : s.records.get? e = some rec) :
    rec.revision = (s.entries e).length := by
  have hanon : rec.anon.revision = _ := congrArg Record.revision (h.folded e rec hrec)
  have hrev : rec.revision = (replay cfg.rfc3339 (empty_record e) (s.entries e)).revision := hanon
  rw [hrev, replay_revision, ← List.getLast?_map, h.entries_rev, ← h.entries_length]
  rcases Nat.eq_zero_or_pos (s.entries e).length with h0 | hpos
  · rw [h0]
    rfl
  · rw [List.getLast?_range', if_neg (by omega)]
    simp

theorem episode_id (h : Consistent cfg strict s) (hrec : s.records.get? e = some rec) :
    rec.episode_id = e := by
  have hanon : rec.anon.episode_id = _ := congrArg Record.episode_id (h.folded e rec hrec)
  have hid : rec.episode_id = (replay cfg.rfc3339 (empty_record e) (s.entries e)).episode_id := hanon
  rw [hid, replay_episode_id]
  rfl

/-- What a record says of the state, which sessions do not affect. -/
theorem state (h : Consistent cfg strict s) (hrec : s.records.get? e = some rec) :
    rec.state = (replay cfg.rfc3339 (empty_record e) (s.entries e)).state := by
  have hanon : rec.anon.state = _ := congrArg Record.state (h.folded e rec hrec)
  exact hanon

end Consistent

/-! ## Writing an entry -/

/-- The record a draft is for stands where its episode's log ends. -/
structure Extends (cfg : StoreConfig) (strict : Prop) (s : EpisodeStore) (d : Draft) : Prop where
  revision : d.record.revision = (s.log d.record.episode_id).length
  folded : ∀ x x' : Entry, x.body = d.body → x.anon = x'.anon →
    (apply cfg.rfc3339 d.record x).1.anon = (apply cfg.rfc3339 (replay cfg.rfc3339
      (empty_record d.record.episode_id) (s.entries d.record.episode_id)) x').1.anon
  exact : strict → ∀ x : Entry, x.body = d.body →
    apply cfg.rfc3339 d.record x = apply cfg.rfc3339 (replay cfg.rfc3339
      (empty_record d.record.episode_id) (s.entries d.record.episode_id)) x

section Write

variable {cfg : StoreConfig} {strict : Prop} {s : EpisodeStore} {w : World} {ep : Endpoint}
  {m : Method} {p : Params} {d : Draft} {row : Row}

theorem Drafted.extends (hs : Consistent cfg strict s) (h : Drafted cfg w s ep m p d) :
    Extends cfg strict s d := by
  obtain ⟨e, _, hrec⟩ := h.found
  have hid := hs.episode_id hrec
  rw [← hid] at hrec
  refine ⟨?_, ?_, ?_⟩
  · rw [hs.revision hrec, hs.entries_length]
  · intro x x' _ hanon
    exact anon_apply_congr (hs.folded _ _ hrec) hanon
  · intro hstrict x _
    rw [← hs.exact hstrict _ _ hrec]

/-- An id that no row has is that of no log. -/
theorem log_eq_nil {e : PyStr} (h : ∀ row ∈ s.rows, row.episode_id ≠ e) : s.log e = [] := by
  rw [EpisodeStore.log, List.filter_eq_nil_iff]
  intro row hrow
  simpa using h row hrow

theorem Opened.extends (hnew : ∀ row ∈ s.rows, row.episode_id ≠ w.uuid)
    (h : Opened cfg w s ep m p d) : Extends cfg strict s d := by
  obtain ⟨idem, b, _, rfl⟩ := h.decided
  have hlog : s.log w.uuid = [] := log_eq_nil hnew
  have hentries : s.entries w.uuid = [] := by rw [EpisodeStore.entries, hlog]; rfl
  have happly : ∀ x : Entry, x.body = .opened b →
      apply cfg.rfc3339 (openDraft ep w.uuid idem b).record x =
        apply cfg.rfc3339 (empty_record w.uuid) x := by
    intro x hx
    simp [apply, hx, openDraft]
  refine ⟨?_, ?_, ?_⟩
  · show 0 = (s.log w.uuid).length
    rw [hlog]
    rfl
  · intro x x' hx hanon
    show _ = (apply cfg.rfc3339 (replay cfg.rfc3339 (empty_record w.uuid) (s.entries w.uuid)) x').1.anon
    rw [hentries, happly x hx]
    exact anon_apply_congr rfl hanon
  · intro _ x hx
    show _ = apply cfg.rfc3339 (replay cfg.rfc3339 (empty_record w.uuid) (s.entries w.uuid)) x
    rw [hentries, happly x hx]
    rfl

theorem Opened.wf (h : Opened cfg w s ep m p d) : d.body.toJson.WF := by
  obtain ⟨idem, b, hdec, rfl⟩ := h.decided
  obtain ⟨check, hfrom⟩ := openedBody_eq_ok (openDecision_fresh hdec).body
  exact hfrom.wf

/-- The log after a write, numbered. -/
theorem numbered_snoc {rows : List Row} (h : rows.map Row.rev = List.range' 1 rows.length)
    (hrev : row.rev = rows.length + 1) :
    (rows ++ [row]).map Row.rev = List.range' 1 (rows ++ [row]).length := by
  rw [List.map_append, h, List.length_append, List.length_singleton, List.range'_concat]
  simp [hrev, Nat.add_comm]

/-- **Writing an entry keeps the records consistent with the rows.** -/
theorem Consistent.wrote (hs : Consistent cfg strict s) (hd : Extends cfg strict s d)
    (hw : Written cfg w s d row)
    (hsession : strict → ∀ r, apply cfg.rfc3339 r (d.entry row) =
      apply cfg.rfc3339 r { d.entry row with session_id := row.session_id }) :
    Consistent cfg strict (s.wrote cfg d row) := by
  have hep := hw.episode
  have hget : (s.wrote cfg d row).records.get? row.episode_id =
      some (apply cfg.rfc3339 d.record (d.entry row)).1 := by
    rw [hep]
    exact Dict.get?_set_self _
  have hget_of_ne : ∀ e, e ≠ row.episode_id →
      (s.wrote cfg d row).records.get? e = s.records.get? e := by
    intro e he
    rw [hep] at he
    exact Dict.get?_set_of_ne _ he
  refine ⟨?_, ?_, ?_, ?_, ?_⟩
  · intro r hr
    rcases List.mem_append.1 hr with hr | hr
    · exact hs.decodes r hr
    · cases List.mem_singleton.1 hr
      exact ⟨_, hw.entry⟩
  · intro e
    by_cases he : e = row.episode_id
    · subst he
      refine ⟨fun _ => ⟨row, ?_, rfl⟩, fun _ => ⟨_, hget⟩⟩
      exact List.mem_append_right _ (List.mem_singleton_self row)
    · rw [hget_of_ne e he, hs.known e]
      constructor
      · rintro ⟨r, hr, heq⟩
        exact ⟨r, List.mem_append_left _ hr, heq⟩
      · rintro ⟨r, hr, heq⟩
        rcases List.mem_append.1 hr with hr | hr
        · exact ⟨r, hr, heq⟩
        · cases List.mem_singleton.1 hr
          exact absurd heq.symm he
  · intro e
    by_cases he : e = row.episode_id
    · subst he
      rw [wrote_log_self]
      refine numbered_snoc (hs.numbered _) ?_
      rw [hw.rev, hd.revision, hep]
    · rw [wrote_log_of_ne he]
      exact hs.numbered e
  · intro e rec hrec
    by_cases he : e = row.episode_id
    · subst he
      rw [hget] at hrec
      cases hrec
      rw [wrote_entries_self hw.entry, replay_snoc, hep]
      exact hd.folded _ _ rfl rfl
    · rw [hget_of_ne e he] at hrec
      rw [wrote_entries_of_ne he]
      exact hs.folded e rec hrec
  · intro hstrict e rec hrec
    by_cases he : e = row.episode_id
    · subst he
      rw [hget] at hrec
      cases hrec
      rw [wrote_entries_self hw.entry, replay_snoc, hep, hsession hstrict,
        hd.exact hstrict _ rfl]
    · rw [hget_of_ne e he] at hrec
      rw [wrote_entries_of_ne he]
      exact hs.exact hstrict e rec hrec

end Write

/-! ## Restarting -/

section Restart

variable {cfg : StoreConfig} {strict : Prop} {s s' : EpisodeStore}

theorem Consistent.sorted (hs : Consistent cfg strict s) (e : PyStr) :
    entriesOf (s.rows.insertionSort rowLe) e = s.entries e := by
  have hrevs : ((s.rows.filter fun r => decide (r.episode_id = e)).map Row.rev).Pairwise (· < ·) := by
    have hnum : (s.rows.filter fun r => decide (r.episode_id = e)).map Row.rev =
        List.range' 1 (s.log e).length := hs.numbered e
    rw [hnum]
    exact List.pairwise_lt_range'
  rw [entriesOf, filter_insertionSort hrevs]
  rfl

/-- What a restart finds: the replay of every log. -/
theorem restart_get? (hs : Consistent cfg strict s) (h : restart cfg s = .ok s') (e : PyStr) :
    s'.records.get? e = if ∃ r ∈ s.rows, r.episode_id = e then
      some (replay cfg.rfc3339 (empty_record e) (s.entries e)) else none := by
  unfold restart at h
  obtain ⟨records, hrecords, h⟩ := bind_eq_ok.1 h
  cases pure_eq_ok.1 h
  have hget := rebuildRows_get? (e := e) hrecords
  rw [hs.sorted] at hget
  rw [hget]
  simp [Dict.get?, List.mem_insertionSort]

theorem restart_rows (h : restart cfg s = .ok s') : s'.rows = s.rows ∧ s'.opens = s.opens := by
  unfold restart at h
  obtain ⟨records, _, h⟩ := bind_eq_ok.1 h
  cases pure_eq_ok.1 h
  exact ⟨rfl, rfl⟩

theorem log_congr (h : s'.rows = s.rows) (e : PyStr) : s'.log e = s.log e := by
  rw [EpisodeStore.log, h]
  rfl

theorem entries_congr (h : s'.rows = s.rows) (e : PyStr) : s'.entries e = s.entries e := by
  rw [EpisodeStore.entries, log_congr h]
  rfl

/-- **A restart keeps the records consistent with the rows.** -/
theorem Consistent.restart (hs : Consistent cfg strict s) (h : restart cfg s = .ok s') :
    Consistent cfg strict s' := by
  have hrows := (restart_rows h).1
  have hexact : ∀ e rec, s'.records.get? e = some rec →
      rec = replay cfg.rfc3339 (empty_record e) (s.entries e) := by
    intro e rec hrec
    rw [restart_get? hs h] at hrec
    split at hrec
    · exact (Option.some.inj hrec).symm
    · cases hrec
  refine ⟨?_, ?_, ?_, ?_, ?_⟩
  · rw [hrows]
    exact hs.decodes
  · intro e
    rw [restart_get? hs h, hrows]
    split
    · rename_i hex
      exact ⟨fun _ => hex, fun _ => ⟨_, rfl⟩⟩
    · rename_i hex
      refine ⟨?_, fun h => absurd h hex⟩
      rintro ⟨_, hnone⟩
      cases hnone
  · intro e
    rw [log_congr hrows]
    exact hs.numbered e
  · intro e rec hrec
    rw [entries_congr hrows, ← hexact e rec hrec]
  · intro _ e rec hrec
    rw [entries_congr hrows]
    exact hexact e rec hrec

theorem Consistent.congr (hs : Consistent cfg strict s) (hrows : s'.rows = s.rows)
    (hrecords : s'.records = s.records) : Consistent cfg strict s' := by
  refine ⟨?_, ?_, ?_, ?_, ?_⟩
  · rw [hrows]
    exact hs.decodes
  · rw [hrows, hrecords]
    exact hs.known
  · intro e
    rw [log_congr hrows]
    exact hs.numbered e
  · intro e rec hrec
    rw [entries_congr hrows]
    exact hs.folded e rec (hrecords ▸ hrec)
  · intro hstrict e rec hrec
    rw [entries_congr hrows]
    exact hs.exact hstrict e rec (hrecords ▸ hrec)

theorem Consistent.empty : Consistent cfg strict {} := by
  refine ⟨by simp, by simp [Dict.get?], fun e => rfl, ?_, ?_⟩
  · intro e rec hrec
    cases hrec
  · intro _ e rec hrec
    cases hrec

end Restart

/-! ## How an entry got in -/

/-- How an entry came into the log after these entries. -/
inductive Justified (cfg : StoreConfig) (strict : Prop) (o : Origin) (front : List Entry)
    (x : Entry) : Prop
  | opened {b : OpenedBody} (first : front = []) (endpoint : o.call.endpoint = .control)
      (body : x.body = .opened b) (principal : x.principal = Endpoint.control.principal) :
      Justified cfg strict o front x
  | admitted {rec : Record} {session : Json} (started : front ≠ [])
      (kind : o.call.method.kind = some x.body.kind)
      (named : o.call.params.get "episode_id" = .str x.episode_id)
      (before : rec.anon = (replay cfg.rfc3339 (empty_record x.episode_id) front).anon)
      (exact : strict → rec = replay cfg.rfc3339 (empty_record x.episode_id) front)
      (admitted : Admitted cfg o.call.world o.call.endpoint o.call.params rec x.body x.principal
        session)
      (session : bindText cfg session = .ok x.session_id) : Justified cfg strict o front x

/-- The call's token is one that was minted, if its signature verifies. -/
def Authentic (cfg : StoreConfig) (x : System) (a : Act) : Prop :=
  ∀ c, a.section? = some c → Unforged cfg.verify (· ∈ x.minted) (c.params.get "token")

instance (cfg : StoreConfig) (x : System) (a : Act) : Decidable (Authentic cfg x a) :=
  match h : a.section? with
  | some c => decidable_of_iff (Unforged cfg.verify (· ∈ x.minted) (c.params.get "token"))
      ⟨fun hc _ hs => by cases h.symm.trans hs; exact hc, fun ha => ha c h⟩
  | none => .isTrue fun _ hs => by cases h.symm.trans hs

/-- A row, its entry and its origin. -/
structure Accounted (cfg : StoreConfig) (strict : Prop) (front : List Row) (row : Row) (o : Origin)
    (x : Entry) : Prop where
  entry : row.entry = some x
  rev : x.rev = (entriesOf front row.episode_id).length + 1
  time : x.ts = o.call.world.ts
  justified : Justified cfg strict o (entriesOf front row.episode_id) x
  authentic : strict → Unforged cfg.verify (· ∈ o.minted) (o.call.params.get "token")

/-- The invariant. -/
structure Ledger (cfg : StoreConfig) (strict : Prop) (x : System) : Prop where
  consistent : Consistent cfg strict x.store
  length : x.origins.length = x.store.rows.length
  accounted : ∀ (i : Nat) (row : Row), x.store.rows[i]? = some row →
    ∃ o e, x.origins[i]? = some o ∧ Accounted cfg strict (x.store.rows.take i) row o e

section Ledger

variable {cfg : StoreConfig} {strict : Prop} {w : World} {s s' : EpisodeStore} {ep : Endpoint}
  {m : Method} {p : Params} {d : Draft} {row : Row} {x y : System} {a : Act} {c : Call}

/-- Where an entry's session is used, it came out of a token that was minted, or there is none. -/
theorem Admitted.apply_session {signed : Grant → Prop} {rec : Record} {b : Body} {principal : PyStr}
    {session v : Json} (hadm : Admitted cfg w ep p rec b principal session)
    (htoken : Unforged cfg.verify signed (p.get "token")) (hv : bindText cfg session = .ok v)
    {r : Record} {x : Entry} (hbody : x.body = b) (hsession : x.session_id = session) :
    apply cfg.rfc3339 r x = apply cfg.rfc3339 r { x with session_id := v } := by
  have hcap : ∀ {cap : Capability} {op : AgentOp}, Authority cfg w ep op p cap rec →
      session = cap.session_id → v = session := by
    intro cap op auth hs
    obtain ⟨g, _, rfl⟩ := auth.checked.grant htoken
    subst hs
    exact bindText_str hv
  have hsame : v = session → apply cfg.rfc3339 r x =
      apply cfg.rfc3339 r { x with session_id := v } := by
    intro heq
    rw [heq, ← hsession]
  cases hadm with
  | hypothesis auth => exact hsame (hcap auth rfl)
  | hypothesis_status auth => exact hsame (hcap auth rfl)
  | recommendation auth => exact hsame (hcap auth rfl)
  | no_action auth => exact hsame (hcap auth rfl)
  | verdict auth => exact hsame (hcap auth rfl)
  | report auth => exact hsame (hcap auth rfl)
  | _ => simp [apply, hbody]

/-- What is written goes to the end of the rows. -/
theorem Change.rows (h : Change cfg w s ep m p s') :
    (s'.rows = s.rows ∧ s'.records = s.records) ∨ ∃ d row os, newRow cfg w s d = .ok row ∧
      (Drafted cfg w s ep m p d ∨ Opened cfg w s ep m p d) ∧ s' = { s.wrote cfg d row with opens := os } := by
  cases h with
  | same => exact .inl ⟨rfl, rfl⟩
  | opens known recorded => exact .inl ⟨rfl, rfl⟩
  | entry drafted written => exact .inr ⟨_, _, s.opens, written, .inl drafted, rfl⟩
  | opened opened written recorded complete => exact .inr ⟨_, _, _, written, .inr opened, rfl⟩

/-- The new row of a section is justified by its call. -/
theorem accounted_new (hs : Consistent cfg strict s) (hfresh : FreshId w s)
    (hdraft : Drafted cfg w s ep m p d ∨ Opened cfg w s ep m p d) (hw : Written cfg w s d row)
    {o : Origin}
    (ho : o.call.world = w ∧ o.call.endpoint = ep ∧ o.call.method = m ∧ o.call.params = p)
    (hauth : strict → Unforged cfg.verify (· ∈ o.minted) (o.call.params.get "token")) :
    ∃ e, Accounted cfg strict s.rows row o e := by
  obtain ⟨rfl, rfl, rfl, rfl⟩ := ho
  refine ⟨_, hw.entry, ?_, hw.time, ?_, hauth⟩
  · show row.rev = _
    have hext : Extends cfg strict s d := hdraft.elim (Drafted.extends hs) (Opened.extends hfresh.2)
    rw [entriesOf_eq, hs.entries_length, hw.rev, hext.revision, hw.episode]
  · rcases hdraft with hdraft | hopened
    · obtain ⟨e, hname, hrec⟩ := hdraft.found
      have hid := hs.episode_id hrec
      rw [← hid] at hname hrec
      have hrows := (hs.known _).1 ⟨_, hrec⟩
      refine .admitted ?_ hdraft.kind hname ?_ ?_ hdraft.admitted hw.session
      · obtain ⟨r, hr, heq⟩ := hrows
        obtain ⟨x, hx⟩ := hs.decodes r hr
        rw [entriesOf_eq, hw.episode]
        refine List.ne_nil_of_mem (a := x) ?_
        exact List.mem_filterMap.2 ⟨r, mem_log.2 ⟨hr, heq⟩, hx⟩
      · rw [entriesOf_eq, hw.episode]
        exact hs.folded _ _ hrec
      · rw [entriesOf_eq, hw.episode]
        exact fun hstrict => hs.exact hstrict _ _ hrec
    · obtain ⟨idem, b, _, rfl⟩ := hopened.decided
      refine .opened (b := b) ?_ hopened.endpoint rfl ?_
      · have hnil : s.log row.episode_id = [] := by
          rw [hw.episode]
          exact log_eq_nil hfresh.2
        rw [entriesOf_eq, EpisodeStore.entries, hnil]
        rfl
      · show o.call.endpoint.principal = _
        rw [hopened.endpoint]

/-- A section keeps the ledger. -/
theorem Ledger.section (h : Ledger cfg strict x)
    (hchange : Change cfg c.world x.store c.endpoint c.method c.params s) (hfresh : FreshId c.world x.store)
    (hauth : strict → Unforged cfg.verify (· ∈ x.minted) (c.params.get "token")) :
    Ledger cfg strict (x.after c s) := by
  rcases hchange.rows with ⟨hrows, hrecords⟩ | ⟨d, row, os, hrow, hdraft, rfl⟩
  · have horigins : (x.after c s).origins = x.origins := by
      simp [System.after, hrows]
    refine ⟨h.consistent.congr hrows hrecords, ?_, ?_⟩
    · rw [horigins]
      show x.origins.length = s.rows.length
      rw [hrows]
      exact h.length
    · rw [horigins]
      show ∀ i row, s.rows[i]? = some row → _
      intro i row
      show s.rows[i]? = some row → ∃ o e, _ ∧ Accounted cfg strict (s.rows.take i) row o e
      rw [hrows]
      exact h.accounted i row
  · have hwf : d.body.toJson.WF := hdraft.elim (fun h => h.wf) (fun h => h.wf)
    have hw := newRow_eq_ok hwf hrow
    have hext : Extends cfg strict x.store d :=
      hdraft.elim (Drafted.extends h.consistent) (Opened.extends hfresh.2)
    obtain ⟨e, he⟩ := accounted_new (o := ⟨c, x.minted⟩) h.consistent hfresh hdraft hw
      ⟨rfl, rfl, rfl, rfl⟩ hauth
    have horigins : (x.after c { x.store.wrote cfg d row with opens := os }).origins =
        x.origins ++ [⟨c, x.minted⟩] := by
      simp [System.after, EpisodeStore.wrote]
    have hsession : strict → ∀ r, apply cfg.rfc3339 r (d.entry row) =
        apply cfg.rfc3339 r { d.entry row with session_id := row.session_id } := by
      intro hstrict r
      rcases hdraft with hdraft | hopened
      · exact hdraft.admitted.apply_session (hauth hstrict) hw.session rfl rfl
      · obtain ⟨idem, b, _, rfl⟩ := hopened.decided
        have hnull : row.session_id = .null := bindText_null hw.session
        rw [hnull]
        rfl
    have hcons : Consistent cfg strict (x.store.wrote cfg d row) :=
      h.consistent.wrote hext hw hsession
    refine ⟨hcons.congr rfl rfl, ?_, ?_⟩
    · rw [horigins]
      simp [System.after, EpisodeStore.wrote, h.length]
    · rw [horigins]
      intro i r
      show (x.store.rows ++ [row])[i]? = some r → ∃ o e, _ ∧
        Accounted cfg strict ((x.store.rows ++ [row]).take i) r o e
      intro hi
      rcases Nat.lt_or_ge i x.store.rows.length with hlt | hge
      · rw [List.getElem?_append_left hlt] at hi
        rw [List.getElem?_append_left (h.length ▸ hlt), List.take_append_of_le_length hlt.le]
        exact h.accounted i r hi
      · rw [List.getElem?_append_right hge] at hi
        have hi0 : i - x.store.rows.length = 0 := by
          by_contra hne
          rw [List.getElem?_eq_none (by simp; omega)] at hi
          cases hi
        have hilen : i = x.store.rows.length := by omega
        subst hilen
        rw [hi0] at hi
        cases hi
        refine ⟨⟨c, x.minted⟩, e, ?_, ?_⟩
        · rw [List.getElem?_append_right h.length.le, h.length, Nat.sub_self]
          rfl
        · rw [List.take_left']
          · exact he
          · rfl

/-- A step keeps the ledger. -/
theorem Ledger.step (h : Ledger cfg strict x) (hauth : strict → Authentic cfg x a)
    (hstep : Moves cfg x a y) : Ledger cfg strict y := by
  rcases hstep.effect with ⟨c, s, hsec, hchange, hfresh, hstore, horigins, _⟩ |
    ⟨_, hup, horigins, _⟩ | ⟨_, hstore, horigins, _⟩
  · have hnew := h.section hchange hfresh fun hstrict => hauth hstrict c hsec
    exact ⟨hstore ▸ hnew.consistent, by rw [horigins, hstore]; exact hnew.length,
      by rw [horigins, hstore]; exact hnew.accounted⟩
  · have hrows := (restart_rows hup).1
    exact ⟨h.consistent.restart hup, by rw [horigins, hrows]; exact h.length,
      by rw [horigins, hrows]; exact h.accounted⟩
  · exact ⟨hstore ▸ h.consistent, by rw [horigins, hstore]; exact h.length,
      by rw [horigins, hstore]; exact h.accounted⟩

/-- A new entry: its call, and the draft it was written from. -/
structure NewEntry (cfg : StoreConfig) (x : System) (c : Call) (e : PyStr) (new : Entry) : Prop where
  draft : ∃ d row, (Drafted cfg c.world x.store c.endpoint c.method c.params d ∨
    Opened cfg c.world x.store c.endpoint c.method c.params d) ∧
    Written cfg c.world x.store d row ∧ row.entry = some new ∧ row.episode_id = e ∧
    new.body = d.body ∧ d.record.episode_id = e
  fresh : FreshId c.world x.store

/-- What a step does to a log: nothing, or a new entry at its end. -/
theorem Moves.entries (h : Moves cfg x a y) (e : PyStr) :
    y.store.entries e = x.store.entries e ∨ ∃ c new, a.section? = some c ∧
      y.store.entries e = x.store.entries e ++ [new] ∧ NewEntry cfg x c e new := by
  rcases h.effect with ⟨c, s, hsec, hchange, hfresh, hstore, _, _⟩ | ⟨_, hup, _, _⟩ |
    ⟨_, hstore, _, _⟩
  · rcases hchange.rows with ⟨hrows, _⟩ | ⟨d, row, os, hrow, hdraft, rfl⟩
    · exact .inl (by rw [hstore, entries_congr hrows])
    · have hwf : d.body.toJson.WF := hdraft.elim (fun h => h.wf) (fun h => h.wf)
      have hw := newRow_eq_ok hwf hrow
      have hentries : y.store.entries e = (x.store.wrote cfg d row).entries e := by
        rw [hstore]
        rfl
      by_cases he : e = row.episode_id
      · subst he
        refine .inr ⟨c, _, hsec, ?_, ⟨d, row, hdraft, hw, hw.entry, rfl, rfl, hw.episode.symm⟩, hfresh⟩
        rw [hentries, wrote_entries_self hw.entry]
      · exact .inl (by rw [hentries, wrote_entries_of_ne he])
  · exact .inl (entries_congr (restart_rows hup).1 e)
  · exact .inl (by rw [hstore])

theorem Ledger.initial (h : Initial x) : Ledger cfg strict x := by
  subst h
  exact ⟨.empty, rfl, by simp⟩

/-- **The ledger holds in every run**; strictly, when no token is forged. -/
theorem ledger {ok : System → Act → Prop} (hauth : strict → ∀ x a, ok x a → Authentic cfg x a)
    (h : Conc.Reachable Initial (Moves cfg) ok x) : Ledger cfg strict x :=
  h.inv (fun _ => Ledger.initial) fun _ _ _ hinv hok hstep =>
    hinv.step (fun hstrict => hauth hstrict _ _ hok) hstep

/-- **The rule for logs**: what holds of every new entry and the log it goes to holds at every place
of every log. -/
theorem log_inv {ok : System → Act → Prop} {Q : PyStr → List Entry → Entry → Prop}
    (hnew : ∀ x a y c e new, Ledger cfg False x → ok x a → Moves cfg x a y → a.section? = some c →
      NewEntry cfg x c e new → Q e (x.store.entries e) new)
    (h : Conc.Reachable Initial (Moves cfg) ok x) : ∀ e front new back,
      x.store.entries e = front ++ new :: back → Q e front new := by
  refine h.inv_of (J := fun x => ∀ e front new back,
    x.store.entries e = front ++ new :: back → Q e front new) (fun _ => ledger False.elim) ?_ ?_
  · rintro _ rfl e front new back hsplit
    cases front <;> cases hsplit
  · intro x a y hled hinv hok hstep e front new back hsplit
    rcases hstep.entries e with hsame | ⟨c, last, hsec, hlog, hentry⟩
    · exact hinv e front new back (hsame ▸ hsplit)
    · rw [hlog] at hsplit
      rcases List.eq_nil_or_concat back with rfl | ⟨back, z, rfl⟩
      · obtain ⟨rfl, hlast⟩ := List.append_inj' hsplit rfl
        cases hlast
        exact hnew x a y c e new hled hok hstep hsec hentry
      · rw [List.concat_eq_append, ← List.cons_append, ← List.append_assoc] at hsplit
        exact hinv e front new back (List.append_inj' hsplit rfl).1

end Ledger

end Valops.Store
