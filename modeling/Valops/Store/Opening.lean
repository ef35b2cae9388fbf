import Valops.Store.StateMachine

/-!
# Opening episodes

`open_episode` compares the triple (class, check, validator) as one string, joined with `|`. Two
triples with the same string exist when a check contains `|`: `merged_run` is a run in which such an
episode is reported as a duplicate of another one.

The entry of a new episode and the row for its key are two inserts. When the second one is lost, and
the episode is finished before the key is used again, the key opens a second episode: `twice_run`.

Main results: `dedup_exact`, for the calls that no live episode is merged with, and `opened_once`,
for the runs in which a key without its row is not used for anything but its live episode.
-/

set_option autoImplicit false

namespace Valops.Store

open Py

/-! ## Joined strings -/

/-- A part without the separator can be read off. -/
theorem append_sep_inj {sep : Nat} : ∀ {a a' b b' : List Nat}, sep ∉ a → sep ∉ a' →
    a ++ sep :: b = a' ++ sep :: b' → a = a' ∧ b = b'
  | [], [], _, _, _, _, h => ⟨rfl, (List.cons.inj h).2⟩
  | [], x :: a', _, _, _, h', h => by
    obtain ⟨rfl, _⟩ := List.cons.inj h
    exact absurd List.mem_cons_self h'
  | x :: a, [], _, _, h, _, heq => by
    obtain ⟨rfl, _⟩ := List.cons.inj heq
    exact absurd List.mem_cons_self h
  | x :: a, y :: a', b, b', h, h', heq => by
    obtain ⟨rfl, htail⟩ := List.cons.inj heq
    obtain ⟨ha, hb⟩ := append_sep_inj (fun hm => h (List.mem_cons_of_mem _ hm))
      (fun hm => h' (List.mem_cons_of_mem _ hm)) htail
    exact ⟨by rw [ha], hb⟩

/-- `|`. -/
def bar : Nat := 124

theorem cls_bar (c : EpisodeClass) : bar ∉ c.text := by cases c <;> decide

theorem cls_text_injective {c c' : EpisodeClass} (h : c.text = c'.text) : c = c' := by
  have hc := EpisodeClass.ofJson_text c
  rw [h, EpisodeClass.ofJson_text] at hc
  exact (Option.some.inj hc).symm

/-- What an episode is about. -/
structure Triple where
  cls : EpisodeClass
  check : PyStr
  validator_id : PyStr
  deriving DecidableEq

/-- The dedupe key of a triple. -/
def Triple.key (t : Triple) : PyStr :=
  t.cls.text ++ py "|" ++ t.check ++ py "|" ++ t.validator_id

/-- Keys tell triples apart whose checks have no `|`. -/
theorem Triple.key_injective {t t' : Triple} (h : bar ∉ t.check) (h' : bar ∉ t'.check)
    (heq : t.key = t'.key) : t = t' := by
  have hkey : ∀ t : Triple, t.key = t.cls.text ++ bar :: (t.check ++ bar :: t.validator_id) := by
    intro t
    simp [Triple.key, py, bar]
  rw [hkey, hkey] at heq
  obtain ⟨hcls, hrest⟩ := append_sep_inj (cls_bar _) (cls_bar _) heq
  obtain ⟨hcheck, hvid⟩ := append_sep_inj h h' hrest
  obtain ⟨_, _, _⟩ := t
  obtain ⟨_, _, _⟩ := t'
  cases cls_text_injective hcls
  cases hcheck
  cases hvid
  rfl

/-- The check of a trigger. -/
def triggerCheck (trigger : Json) : Option PyStr :=
  match get trigger "check" with
  | .ok (.str c) => some c
  | _ => none

/-- The triple of the arguments of an opening. -/
def OpenedBody.triple? (b : OpenedBody) : Option Triple :=
  (triggerCheck b.trigger).map fun c => ⟨b.cls, c, b.validator_id⟩

/-- The triple a record was opened for. -/
def Record.triple? (rec : Record) : Option Triple := do
  let cls ← rec.cls
  let check ← triggerCheck rec.trigger
  let vid ← rec.validator_id
  pure ⟨cls, check, vid⟩

/-! ## One live episode for each key -/

/-- The record a log folds to. -/
def EpisodeStore.folded (cfg : StoreConfig) (s : EpisodeStore) (e : PyStr) : Record :=
  replay cfg.rfc3339 (empty_record e) (s.entries e)

/-- At most one live episode has a dedupe key. -/
def KeysUnique (cfg : StoreConfig) (s : EpisodeStore) : Prop :=
  ∀ e e', s.entries e ≠ [] → s.entries e' ≠ [] → (s.folded cfg e).Live → (s.folded cfg e').Live →
    (s.folded cfg e).dedupe_key = (s.folded cfg e').dedupe_key → e = e'

section Keys

variable {cfg : StoreConfig} {strict : Prop} {x y : System} {a : Act} {e e' : PyStr} {rec : Record}
  {w : World} {p : Params} {b : OpenedBody} {check : PyStr}

/-- A field that is not a session is the same in the live record and in the folded one. -/
theorem Consistent.field {α : Type} {s : EpisodeStore} (h : Consistent cfg strict s)
    (hrec : s.records.get? e = some rec) (f : Record → α) (hf : ∀ r, f r.anon = f r) :
    f rec = f (s.folded cfg e) := by
  rw [← hf rec, h.folded e rec hrec, hf]
  rfl

theorem OpenedFrom.triple (h : OpenedFrom cfg p b check) :
    b.triple? = some ⟨b.cls, check, b.validator_id⟩ := by
  simp [OpenedBody.triple?, triggerCheck, h.checked]

theorem OpenedFrom.dedupe_eq (h : OpenedFrom cfg p b check) :
    b.dedupe_key = (Triple.mk b.cls check b.validator_id).key := h.dedupe

theorem OpenedAs.triple (h : OpenedAs rec b) : rec.triple? = b.triple? := by
  unfold Record.triple? OpenedBody.triple?
  rw [h.cls, h.trigger, h.validator]
  cases triggerCheck b.trigger <;> rfl

/-- A log starts with the opening of its episode. -/
theorem Ledger.openedAs (h : Ledger cfg strict x) (hne : x.store.entries e ≠ []) :
    ∃ first rest b, x.store.entries e = first :: rest ∧ first.body = .opened b ∧
      OpenedAs (x.store.folded cfg e) b := by
  have hfol := h.followed e
  obtain ⟨first, rest, heq⟩ := List.exists_cons_of_ne_nil hne
  obtain ⟨b, hb⟩ := (hfol [] first rest heq).opened.2 rfl
  rw [heq] at hfol
  refine ⟨first, rest, b, heq, hb, ?_⟩
  rw [EpisodeStore.folded, heq]
  exact openedAs_of_followed hfol hb

/-- The entry that starts a log was written by `open_episode`, which found its key free. -/
theorem NewEntry.opened {c : Call} {new : Entry} (hled : Ledger cfg strict x)
    (hnew : NewEntry cfg x c e new) (hnil : x.store.entries e = []) :
    c.method = .open_episode ∧ ∃ idem b, new.body = .opened b ∧ e = c.world.uuid ∧
      OpensFresh cfg c.world x.store c.params idem b := by
  obtain ⟨d, row, hdraft, _, _, _, hbody, hid⟩ := hnew.draft
  rcases hdraft with hdraft | hopened
  · obtain ⟨e', _, hrec⟩ := hdraft.found
    have he : e' = e := (hled.consistent.episode_id hrec).symm.trans hid
    subst he
    obtain ⟨r, hr, heq⟩ := (hled.consistent.known e').1 ⟨_, hrec⟩
    obtain ⟨z, hz⟩ := hled.consistent.decodes r hr
    exact absurd hnil (List.ne_nil_of_mem (List.mem_filterMap.2 ⟨r, mem_log.2 ⟨hr, heq⟩, hz⟩))
  · obtain ⟨idem, b, hdec, rfl⟩ := hopened.decided
    exact ⟨hopened.method, idem, b, hbody, hid.symm, openDecision_fresh hdec⟩

theorem entries_eq_nil {s : EpisodeStore} {d : Draft} (hid : d.record.episode_id = e)
    (hnew : ∀ row ∈ s.rows, row.episode_id ≠ d.record.episode_id) : s.entries e = [] := by
  rw [EpisodeStore.entries, log_eq_nil (hid ▸ hnew)]
  rfl

theorem Ledger.entries_ne_nil (h : Ledger cfg strict x) (hrec : x.store.records.get? e = some rec) :
    x.store.entries e ≠ [] := by
  obtain ⟨r, hr, heq⟩ := (h.consistent.known e).1 ⟨_, hrec⟩
  obtain ⟨z, hz⟩ := h.consistent.decodes r hr
  exact List.ne_nil_of_mem (List.mem_filterMap.2 ⟨r, mem_log.2 ⟨hr, heq⟩, hz⟩)

theorem Ledger.record_of_entries (h : Ledger cfg strict x) (hne : x.store.entries e ≠ []) :
    ∃ rec, x.store.records.get? e = some rec := by
  obtain ⟨z, hz⟩ := List.exists_mem_of_ne_nil _ hne
  obtain ⟨r, hr, _⟩ := List.mem_filterMap.1 hz
  exact (h.consistent.known e).2 ⟨r, (mem_log.1 hr).1, (mem_log.1 hr).2⟩

theorem live_field (h : Ledger cfg strict x) (hrec : x.store.records.get? e = some rec) :
    rec.Live ↔ (x.store.folded cfg e).Live := by
  have hstate := h.consistent.state hrec
  exact forall₂_congr fun st _ => by rw [hstate]; rfl

/-- What a step leaves of a live log: the log was live with its key, or it is new and no live
record has its key. -/
theorem Moves.live_before (hled : Ledger cfg False x) (hled' : Ledger cfg False y)
    (hstep : Moves cfg x a y) (hne : y.store.entries e ≠ []) (hlive : (y.store.folded cfg e).Live) :
    (x.store.entries e ≠ [] ∧ (x.store.folded cfg e).Live ∧
      (x.store.folded cfg e).dedupe_key = (y.store.folded cfg e).dedupe_key) ∨
    (∃ c, a.section? = some c ∧ e = c.world.uuid ∧ x.store.entries e = [] ∧
      ∀ e', x.store.entries e' ≠ [] → (x.store.folded cfg e').Live →
        (x.store.folded cfg e').dedupe_key ≠ (y.store.folded cfg e).dedupe_key) := by
  rcases hstep.entries e with hsame | ⟨c, new, hsec, hlog, hnew⟩
  · have hfold : y.store.folded cfg e = x.store.folded cfg e := by
      rw [EpisodeStore.folded, hsame]
      rfl
    rw [hsame] at hne
    rw [hfold] at hlive ⊢
    exact .inl ⟨hne, hlive, rfl⟩
  · have hfold : y.store.folded cfg e =
        replay cfg.rfc3339 (empty_record e) (x.store.entries e ++ [new]) := by
      rw [EpisodeStore.folded, hlog]
    by_cases hnil : x.store.entries e = []
    · obtain ⟨_, idem, b, hb, he, hfresh⟩ := hnew.opened hled hnil
      refine .inr ⟨c, hsec, he, hnil, ?_⟩
      intro e' hne' hlive' hkey
      obtain ⟨rec', hrec'⟩ := hled.record_of_entries hne'
      have hkey' : (y.store.folded cfg e).dedupe_key = some b.dedupe_key := by
        rw [hfold, hnil, List.nil_append]
        show (apply cfg.rfc3339 (empty_record e) new).1.dedupe_key = _
        unfold apply
        rw [hb]
      refine hfresh.unmatched e' rec' (Dict.mem_of_get? hrec') ?_ ((live_field hled hrec').2 hlive')
      rw [hled.consistent.field hrec' Record.dedupe_key fun _ => rfl, hkey, hkey']
    · have hfol := hled'.followed e
      rw [hlog] at hfol
      obtain ⟨hkey, hbefore⟩ := hfol.last.later hnil
      rw [hfold] at hlive ⊢
      exact .inl ⟨hnil, hbefore hlive, hkey.symm⟩

/-- **At most one live episode has a dedupe key**, in every run. -/
theorem keys_unique {ok : System → Act → Prop}
    (h : Conc.Reachable Initial (Moves cfg) ok x) : KeysUnique cfg x.store := by
  have hstep : ∀ x a y, (Ledger cfg False x ∧ KeysUnique cfg x.store) → ok x a → Moves cfg x a y →
      Ledger cfg False y ∧ KeysUnique cfg y.store := by
    rintro x a y ⟨hled, hinv⟩ _ hstep
    have hled' := hled.step False.elim hstep
    refine ⟨hled', ?_⟩
    intro e e' hne hne' hlive hlive' hkey
    rcases hstep.live_before hled hled' hne hlive with ⟨h1, h2, h3⟩ | ⟨c, hsec, he, hnil, hfree⟩ <;>
      rcases hstep.live_before hled hled' hne' hlive' with
        ⟨h1', h2', h3'⟩ | ⟨c', hsec', he', hnil', hfree'⟩
    · exact hinv e e' h1 h1' h2 h2' (h3.trans (hkey.trans h3'.symm))
    · exact absurd (h3.trans hkey) (hfree' e h1 h2)
    · exact absurd (h3'.trans hkey.symm) (hfree e' h1' h2')
    · rw [hsec] at hsec'
      cases hsec'
      exact he.trans he'.symm
  refine (h.inv (I := fun x => Ledger cfg False x ∧ KeysUnique cfg x.store) ?_ hstep).2
  rintro _ rfl
  refine ⟨.initial rfl, ?_⟩
  intro e e' hne
  exact absurd rfl hne

theorem rebuildRows_nodup : ∀ {rows : List Row} {d d' : Dict PyStr Record},
    (d.map Prod.fst).Nodup → rebuildRows cfg d rows = .ok d' → (d'.map Prod.fst).Nodup
  | [], d, d', hd, h => by
    cases h
    exact hd
  | row :: rows, d, d', hd, h => by
    rw [rebuildRows] at h
    obtain ⟨x, _, h⟩ := bind_eq_ok.1 h
    obtain ⟨r, _, h⟩ := bind_eq_ok.1 h
    exact rebuildRows_nodup (Dict.nodup_keys_set hd) h

/-- The live records are a dict: no id has two. -/
theorem records_nodup {ok : System → Act → Prop} (h : Conc.Reachable Initial (Moves cfg) ok x) :
    (x.store.records.map Prod.fst).Nodup := by
  refine h.inv (I := fun x => (x.store.records.map Prod.fst).Nodup) ?_ ?_
  · rintro _ rfl
    exact List.nodup_nil
  · intro x a y hinv _ hstep
    rcases hstep.effect with ⟨c, s, _, hchange, _, hstore, _, _⟩ | ⟨_, hup, _, _⟩ | ⟨_, hstore, _, _⟩
    · rw [hstore]
      rcases hchange.rows with ⟨_, hrecords⟩ | ⟨d, row, os, _, _, rfl⟩
      · rw [hrecords]
        exact hinv
      · exact Dict.nodup_keys_set hinv
    · unfold restart at hup
      obtain ⟨records, hrecords, hup⟩ := bind_eq_ok.1 hup
      rw [← pure_eq_ok.1 hup]
      exact rebuildRows_nodup (d := []) List.nodup_nil hrecords
    · rw [hstore]
      exact hinv

end Keys

/-! ## De-duplication -/

/-- Two triples that the store takes for one. -/
def Triple.Merged (t t' : Triple) : Prop :=
  t ≠ t' ∧ t.key = t'.key

/-- The triple of a call finds the live episode that is for it, and no other one. -/
structure Dedup (cfg : StoreConfig) (s : EpisodeStore) : Prop where
  /-- At most one live episode is for a triple. -/
  unique : ∀ e e' rec rec' t, s.records.get? e = some rec → s.records.get? e' = some rec' →
    rec.Live → rec'.Live → rec.triple? = some t → rec'.triple? = some t → e = e'
  /-- A call with a new key and good arguments that returns reports an episode as a duplicate
  exactly when it is the live one for the call's triple, unless a live episode is merged with it. -/
  exact : ∀ w p idem b reply t, p.get "idem_key" = .str idem →
    (∀ r ∈ s.opens, r.idem_key ≠ idem) → openedBody cfg w p = .ok b → b.triple? = some t →
    (open_episode cfg w s .control p).1 = .ok reply →
    ((∀ e, reply = .json (openResult e true) ↔
        ∃ rec, s.records.get? e = some rec ∧ rec.Live ∧ rec.triple? = some t) ↔
      ∀ e rec t', s.records.get? e = some rec → rec.Live → rec.triple? = some t' → ¬ t'.Merged t)
  /-- Triples whose checks have no `|` are not merged. -/
  plain : ∀ t t' : Triple, bar ∉ t.check → bar ∉ t'.check → ¬ t.Merged t'

section Dedup

variable {cfg : StoreConfig} {x : System} {e e' : PyStr} {rec : Record} {w : World} {p : Params}
  {b : OpenedBody} {ok : System → Act → Prop}

/-- The openings in the log are the ones that `open_episode` builds. -/
theorem openings_from (h : Conc.Reachable Initial (Moves cfg) ok x) :
    ∀ e front new back, x.store.entries e = front ++ new :: back → ∀ b, new.body = .opened b →
      ∃ p check, OpenedFrom cfg p b check := by
  refine log_inv (Q := fun _ _ new => ∀ b, new.body = .opened b →
    ∃ p check, OpenedFrom cfg p b check) ?_ h
  intro x a y c e new hled _ hstep hsec hnew b hb
  by_cases hnil : x.store.entries e = []
  · obtain ⟨_, idem, b', hb', _, hfresh⟩ := hnew.opened hled hnil
    cases hb.symm.trans hb'
    obtain ⟨check, hfrom⟩ := openedBody_eq_ok hfresh.body
    exact ⟨c.params, check, hfrom⟩
  · obtain ⟨d, row, hdraft, _, _, _, hbody, hid⟩ := hnew.draft
    rcases hdraft with hdraft | hopened
    · have hadm := hdraft.admitted
      rw [hb] at hbody
      rw [← hbody] at hadm
      cases hadm
    · obtain ⟨idem, b', _, rfl⟩ := hopened.decided
      exact absurd (entries_eq_nil hid hnew.fresh.2) hnil

/-- A record has a triple, and its dedupe key. -/
theorem triple_of_record (h : Conc.Reachable Initial (Moves cfg) ok x)
    (hrec : x.store.records.get? e = some rec) :
    ∃ t : Triple, rec.triple? = some t ∧ rec.dedupe_key = some t.key := by
  have hled : Ledger cfg False x := ledger False.elim h
  obtain ⟨first, rest, b, hlog, hb, has⟩ := hled.openedAs (hled.entries_ne_nil hrec)
  obtain ⟨p, check, hfrom⟩ := openings_from h e [] first rest hlog b hb
  refine ⟨⟨b.cls, check, b.validator_id⟩, ?_, ?_⟩
  · rw [hled.consistent.field hrec Record.triple? fun _ => rfl, has.triple, hfrom.triple]
  · rw [hled.consistent.field hrec Record.dedupe_key fun _ => rfl, has.dedupe, hfrom.dedupe_eq]

theorem openResult_inj {d d' : Bool} (h : openResult e d = openResult e' d') : e = e' ∧ d = d' := by
  have hobj : ∀ e d, openResult e d =
      .obj [(py "deduplicated", .bool d), (py "episode_id", .str e)] := fun _ _ => rfl
  rw [hobj, hobj] at h
  simpa [and_comm] using h

/-- What `insertOpen` returns. -/
theorem insertOpen_eq_ok {s : EpisodeStore} {idem : PyStr} {dedup : Bool} {reply : Reply}
    (h : (insertOpen w s idem e dedup).1 = .ok reply) : reply = .json (openResult e dedup) := by
  unfold insertOpen at h
  split at h
  · cases h
  · cases h
  · cases h
    rfl

/-- A call that returns under a new key returns a live record with its dedupe key, or opens an
episode when there is none. -/
theorem open_episode_fresh {s : EpisodeStore} {idem : PyStr} {reply : Reply}
    (hidem : p.get "idem_key" = .str idem) (hnew : ∀ r ∈ s.opens, r.idem_key ≠ idem)
    (hb : openedBody cfg w p = .ok b) (h : (open_episode cfg w s .control p).1 = .ok reply) :
    (∃ k rec, (k, rec) ∈ s.records ∧ rec.dedupe_key = some b.dedupe_key ∧ rec.Live ∧
      reply = .json (openResult rec.episode_id true)) ∨
    ((∀ k rec, (k, rec) ∈ s.records → rec.dedupe_key = some b.dedupe_key → ¬ rec.Live) ∧
      reply = .json (openResult w.uuid false)) := by
  unfold open_episode at h
  split at h
  · cases h
  · rename_i v hdec
    unfold openDecision at hdec
    obtain ⟨key, hkey, hdec⟩ := bind_eq_ok.1 hdec
    obtain ⟨key', hkey', hdec⟩ := bind_eq_ok.1 hdec
    obtain ⟨hk, _⟩ := openKey_eq_ok hkey hkey'
    cases hidem.symm.trans hk
    split at hdec
    · rename_i r hfind
      have hr : r.idem_key = idem := by simpa using List.find?_some hfind
      exact absurd hr (hnew r (List.mem_of_find?_eq_some hfind))
    · obtain ⟨_, _, hdec⟩ := bind_eq_ok.1 hdec
      split at hdec <;> cases pure_eq_ok.1 hdec
  · rename_i idem' rec hdec
    unfold openDecision at hdec
    obtain ⟨key, _, hdec⟩ := bind_eq_ok.1 hdec
    obtain ⟨key', _, hdec⟩ := bind_eq_ok.1 hdec
    split at hdec
    · obtain ⟨_, _, hdec⟩ := bind_eq_ok.1 hdec
      cases pure_eq_ok.1 hdec
    obtain ⟨b', hb', hdec⟩ := bind_eq_ok.1 hdec
    cases hb.symm.trans hb'
    split at hdec
    · rename_i rec' hfind
      cases pure_eq_ok.1 hdec
      obtain ⟨⟨k, r⟩, hmem, rfl⟩ := List.mem_map.1 (List.mem_of_find?_eq_some hfind)
      have hmatch : r.dedupe_key = some b.dedupe_key ∧ r.Live :=
        of_decide_eq_true (List.find?_some (p := fun rec : Record =>
          decide (rec.dedupe_key = some b.dedupe_key ∧ ∀ st ∈ TERMINAL, rec.state ≠ some st)) hfind)
      exact .inl ⟨k, r, hmem, hmatch.1, hmatch.2, insertOpen_eq_ok h⟩
    · cases pure_eq_ok.1 hdec
  · rename_i idem' b' hdec
    have hfresh := openDecision_fresh hdec
    cases hb.symm.trans hfresh.body
    dsimp only at h
    split at h
    · cases h
    · exact .inr ⟨hfresh.unmatched, insertOpen_eq_ok h⟩

/-- **De-duplication is exact**, unless a live episode has another triple with the same key. -/
theorem dedup_exact (h : Conc.Reachable Initial (Moves cfg) ok x) : Dedup cfg x.store := by
  have hled : Ledger cfg False x := ledger False.elim h
  -- live episodes with one key are one
  have hkeys : ∀ {e e' rec rec'}, x.store.records.get? e = some rec →
      x.store.records.get? e' = some rec' → rec.Live → rec'.Live →
      rec.dedupe_key = rec'.dedupe_key → e = e' := by
    intro e e' rec rec' hrec hrec' hlive hlive' hkey
    refine keys_unique h e e' (hled.entries_ne_nil hrec) (hled.entries_ne_nil hrec')
      ((live_field hled hrec).1 hlive) ((live_field hled hrec').1 hlive') ?_
    rw [← hled.consistent.field hrec Record.dedupe_key fun _ => rfl,
      ← hled.consistent.field hrec' Record.dedupe_key fun _ => rfl, hkey]
  have hkeyOf : ∀ {e rec t}, x.store.records.get? e = some rec → rec.triple? = some t →
      rec.dedupe_key = some t.key := by
    intro e rec t hrec ht
    obtain ⟨t', ht', hkey⟩ := triple_of_record h hrec
    cases ht.symm.trans ht'
    exact hkey
  refine ⟨?_, ?_, ?_⟩
  · intro e e' rec rec' t hrec hrec' hlive hlive' ht ht'
    exact hkeys hrec hrec' hlive hlive' ((hkeyOf hrec ht).trans (hkeyOf hrec' ht').symm)
  · intro w p idem b reply t hidem hnew hb ht hret
    have hbkey : b.dedupe_key = t.key := by
      obtain ⟨check, hfrom⟩ := openedBody_eq_ok hb
      rw [hfrom.dedupe_eq, ← Option.some.inj (hfrom.triple.symm.trans ht)]
    rcases open_episode_fresh hidem hnew hb hret with
      ⟨k, rec, hmem, hkey, hlive, rfl⟩ | ⟨hnone, rfl⟩
    · have hget := Dict.get?_of_mem (records_nodup h) hmem
      rw [hled.consistent.episode_id hget]
      obtain ⟨t₁, ht₁, hkey₁⟩ := triple_of_record h hget
      have hsame : t₁.key = t.key := (Option.some.inj (hkey₁.symm.trans hkey)).trans hbkey
      constructor
      · intro hexact e' rec' t' hget' hlive' ht' hmerged
        have hone := hkeys hget' hget hlive' hlive (by rw [hkeyOf hget' ht', hmerged.2, hkey, hbkey])
        subst hone
        cases hget.symm.trans hget'
        obtain ⟨rec₂, hget₂, _, ht₂⟩ := (hexact e').1 rfl
        cases hget.symm.trans hget₂
        exact hmerged.1 (Option.some.inj (ht'.symm.trans ht₂))
      · intro hfree e
        have ht₁' : t₁ = t := by
          by_contra hne
          exact hfree k rec t₁ hget hlive ht₁ ⟨hne, hsame⟩
        subst ht₁'
        constructor
        · intro heq
          obtain ⟨rfl, _⟩ := openResult_inj (Reply.json.inj heq)
          exact ⟨rec, hget, hlive, ht₁⟩
        · rintro ⟨rec', hget', hlive', ht'⟩
          rw [hkeys hget hget' hlive hlive' (hkey₁.trans (hkeyOf hget' ht').symm)]
    · have hnot : ∀ {e rec t'}, x.store.records.get? e = some rec → rec.Live →
          rec.triple? = some t' → t'.key ≠ t.key := by
        intro e rec t' hget hlive ht' hk
        refine hnone e rec (Dict.mem_of_get? hget) ?_ hlive
        rw [hkeyOf hget ht', hbkey, hk]
      refine ⟨fun _ e rec t' hget hlive ht' hmerged => hnot hget hlive ht' hmerged.2, ?_⟩
      intro _ e
      constructor
      · intro heq
        obtain ⟨_, hfalse⟩ := openResult_inj (Reply.json.inj heq)
        cases hfalse
      · rintro ⟨rec', hget', hlive', ht'⟩
        exact absurd rfl (hnot hget' hlive' ht')
  · rintro t t' hbar hbar' ⟨hne, hkey⟩
    exact hne (Triple.key_injective hbar hbar' hkey)

end Dedup

/-- Two episodes with different triples, and a repeated signal for the first. -/
def dedupRun : List Act :=
  [.call (openCall "e" "k1" "slots" "v"), .call (openCall "f" "k2" "votes" "v"),
    .call (openCall "g" "k3" "slots" "v")]

theorem dedup_exact_sample : Dedup sampleConfig (System.run sampleConfig dedupRun).store ∧
    (System.run sampleConfig dedupRun).store.records.length = 2 :=
  ⟨dedup_exact (System.run_reachable (by decide +kernel) System.allowed_any), by decide +kernel⟩

/-- An episode for the check `a|b` of the validator `c`. -/
def barredRun : List Act := [.call (openCall "e" "k1" "a|b" "c")]

/-- A call with a new key for the check `a` of the validator `b|c` is told that this episode is its
duplicate. -/
theorem merged_run : ∃ x, Conc.Reachable Initial (Moves sampleConfig) Conc.anyAct x ∧
    ¬ ∀ w p idem b reply, p.get "idem_key" = .str idem → (∀ r ∈ x.store.opens, r.idem_key ≠ idem) →
      openedBody sampleConfig w p = .ok b →
      (open_episode sampleConfig w x.store .control p).1 = .ok reply →
      ∀ e, reply = .json (openResult e true) ↔
        ∃ rec, x.store.records.get? e = some rec ∧ rec.Live ∧ rec.triple? = b.triple? := by
  refine ⟨System.run sampleConfig barredRun,
    System.run_reachable (by decide +kernel) System.allowed_any, fun hexact => ?_⟩
  have hbody : ((openedBody sampleConfig (sampleWorld "g")
      (openCall "g" "k2" "a" "b|c").params).toOption.bind OpenedBody.triple?) =
      some ⟨.validator_health, py "a", py "b|c"⟩ := by decide +kernel
  obtain ⟨b, hb, htriple⟩ := Option.bind_eq_some_iff.1 hbody
  have hb' : openedBody sampleConfig (sampleWorld "g") (openCall "g" "k2" "a" "b|c").params = .ok b := by
    cases hval : openedBody sampleConfig (sampleWorld "g") (openCall "g" "k2" "a" "b|c").params with
    | error e =>
      rw [hval] at hb
      cases hb
    | ok b' =>
      rw [hval] at hb
      cases hb
      rfl
  obtain ⟨rec, hrec, _, hsame⟩ := (hexact (sampleWorld "g") (openCall "g" "k2" "a" "b|c").params
    (py "k2") b (.json (openResult (py "e") true)) (by decide +kernel) (by decide +kernel) hb'
    (by decide +kernel) (py "e")).1 rfl
  have hother : ((System.run sampleConfig barredRun).store.records.get? (py "e")).bind Record.triple? =
      some ⟨.validator_health, py "a|b", py "c"⟩ := by decide +kernel
  rw [hrec, Option.bind_some, hsame, htriple] at hother
  exact absurd hother (by decide)

/-! ## Exactly once -/

/-- A key that has opened an episode, and whose row was lost, is used again only for this episode
while it is not finished. -/
def KeyKept (cfg : StoreConfig) (x : System) : Act → Prop
  | .call c => c.method = .open_episode → ∀ b ∈ (openedBody cfg c.world c.params).toOption,
    ∀ row ∈ x.store.rows, row.kind = .opened → c.params.get "idem_key" = .str row.idem_key →
    (∃ o ∈ x.store.opens, o.idem_key = row.idem_key) ∨
    ∃ rec ∈ x.store.records.get? row.episode_id, rec.dedupe_key = some b.dedupe_key ∧ rec.Live
  | _ => True

instance (cfg : StoreConfig) (x : System) : ∀ a, Decidable (KeyKept cfg x a)
  | .call c => inferInstanceAs (Decidable (c.method = .open_episode →
    ∀ b ∈ (openedBody cfg c.world c.params).toOption, ∀ row ∈ x.store.rows, row.kind = .opened →
    c.params.get "idem_key" = .str row.idem_key →
    (∃ o ∈ x.store.opens, o.idem_key = row.idem_key) ∨
    ∃ rec ∈ x.store.records.get? row.episode_id, rec.dedupe_key = some b.dedupe_key ∧ rec.Live))
  | .check _ | .verify _ _ | .restart | .mint _ => .isTrue trivial

/-- The episode that a reply of `open_episode` names. -/
def Reply.episode? : Reply → Option PyStr
  | .json v =>
    match get v "episode_id" with
    | .ok (.str e) => some e
    | _ => none
  | _ => none

/-- A key opens one episode, and keeps answering with it. -/
structure OpenedOnce (cfg : StoreConfig) (x : System) : Prop where
  /-- Two openings under a key are one. -/
  once : ∀ (i j : Nat) (row row' : Row), x.store.rows[i]? = some row →
    x.store.rows[j]? = some row' → row.kind = .opened → row'.kind = .opened →
    row.idem_key = row'.idem_key → i = j
  /-- Once a call has returned an episode, every later call with its key that returns, returns it. -/
  stable : ∀ (c : Call) (y : System) (reply : Reply), Moves cfg x (.call c) y →
    c.endpoint = .control → c.method = .open_episode →
    (handle cfg c.world x.store c.endpoint c.method c.params).1 = .ok reply →
    ∀ (ok : System → Act → Prop) (z : System) (c' : Call) (reply' : Reply),
    Conc.Reachable (· = y) (Moves cfg) ok z → c'.endpoint = .control →
    c'.method = .open_episode → c'.params.get "idem_key" = c.params.get "idem_key" →
    (handle cfg c'.world z.store c'.endpoint c'.method c'.params).1 = .ok reply' →
    ∃ e, reply.episode? = some e ∧ reply'.episode? = some e

section Once

variable {cfg : StoreConfig} {x y : System} {a : Act} {e : PyStr} {w : World} {p : Params}
  {ok : System → Act → Prop}

theorem plain_openResult {dedup : Bool} (h : (encodeUtf8 e).isSome = true) :
    Plain (openResult e dedup) := by
  obtain ⟨bs, hbs⟩ := Option.isSome_iff_exists.1 h
  refine plain_mkObj ?_
  simp only [List.mem_cons, List.not_mem_nil, or_false, forall_eq_or_imp, forall_eq]
  refine ⟨⟨by decide, plain_str ?_⟩, by decide, plain_bool _⟩
  rw [List.all_eq_true]
  exact isScalar_of_encodeUtf8 e bs hbs

/-- Ids of episodes are UTF-8. -/
theorem rows_utf8 (h : Conc.Reachable Initial (Moves cfg) ok x) :
    ∀ row ∈ x.store.rows, (encodeUtf8 row.episode_id).isSome = true := by
  refine h.inv (I := fun x => ∀ row ∈ x.store.rows, (encodeUtf8 row.episode_id).isSome = true) ?_ ?_
  · rintro _ rfl row hrow
    cases hrow
  · intro x a y hinv _ hstep
    rcases hstep.effect with ⟨c, s, _, hchange, _, hstore, _, _⟩ | ⟨_, hup, _, _⟩ | ⟨_, hstore, _, _⟩
    · rw [hstore]
      rcases hchange.rows with ⟨hrows, _⟩ | ⟨d, row, os, hrow, hdraft, rfl⟩
      · rw [hrows]
        exact hinv
      · have hw := newRow_eq_ok (hdraft.elim (fun h => h.wf) (fun h => h.wf)) hrow
        intro r hr
        rcases List.mem_append.1 hr with hr | hr
        · exact hinv r hr
        · cases List.mem_singleton.1 hr
          exact hw.utf8
    · rw [(restart_rows hup).1]
      exact hinv
    · rw [hstore]
      exact hinv

/-- The row of a key is a result for its episode, and reads back. -/
def OpensGood (s : EpisodeStore) : Prop :=
  ∀ o ∈ s.opens, (encodeUtf8 o.episode_id).isSome = true ∧
    ∃ dedup, dumps (openResult o.episode_id dedup) = some o.result

theorem Recorded.good {idem : PyStr} {dedup : Bool} {o : OpenRow} (h : Recorded idem e dedup o)
    (hutf8 : (encodeUtf8 e).isSome = true) : (encodeUtf8 o.episode_id).isSome = true ∧
      ∃ dedup, dumps (openResult o.episode_id dedup) = some o.result := by
  rw [h.episode]
  exact ⟨hutf8, dedup, h.result⟩

theorem opens_good (h : Conc.Reachable Initial (Moves cfg) ok x) : OpensGood x.store := by
  refine h.inv_of (I := fun x => Ledger cfg False x ∧ (x.store.records.map Prod.fst).Nodup ∧
      ∀ row ∈ x.store.rows, (encodeUtf8 row.episode_id).isSome = true)
    (J := fun x => OpensGood x.store)
    (fun x h => ⟨ledger False.elim h, records_nodup h, rows_utf8 h⟩) ?_ ?_
  · rintro _ rfl o ho
    cases ho
  · rintro x a y ⟨hled, hnodup, hutf8⟩ hinv _ hstep
    rcases hstep.effect with ⟨c, s, _, hchange, _, hstore, _, _⟩ | ⟨_, hup, _, _⟩ | ⟨_, hstore, _, _⟩
    · rw [hstore]
      cases hchange with
      | same => exact hinv
      | entry drafted written => exact hinv
      | opens known recorded =>
        intro o ho
        rcases List.mem_append.1 ho with ho | ho
        · exact hinv o ho
        · cases List.mem_singleton.1 ho
          have hget := Dict.get?_of_mem hnodup known
          obtain ⟨row, hrow, heq⟩ := (hled.consistent.known _).1 ⟨_, hget⟩
          refine recorded.good ?_
          rw [hled.consistent.episode_id hget, ← heq]
          exact hutf8 row hrow
      | opened opened written recorded complete =>
        intro o ho
        rcases List.mem_append.1 ho with ho | ho
        · exact hinv o ho
        · have hw := newRow_eq_ok opened.wf written
          exact (recorded o ho).good (hw.episode ▸ hw.utf8)
    · show ∀ o ∈ y.store.opens, _
      rw [(restart_rows hup).2]
      exact hinv
    · rw [hstore]
      exact hinv

/-- Rows of `opens` are only added. -/
theorem Moves.opens_grow (hstep : Moves cfg x a y) : x.store.opens <+: y.store.opens := by
  rcases hstep.effect with ⟨c, s, _, hchange, _, hstore, _, _⟩ | ⟨_, hup, _, _⟩ | ⟨_, hstore, _, _⟩
  · rw [hstore]
    cases hchange with
    | same => exact List.prefix_refl _
    | entry drafted written => exact List.prefix_refl _
    | opens known recorded => exact List.prefix_append _ _
    | opened opened written recorded complete => exact List.prefix_append _ _
  · rw [(restart_rows hup).2]
  · rw [hstore]

theorem insertOpen_ok {s : EpisodeStore} {idem : PyStr} {dedup : Bool} {reply : Reply}
    (h : (insertOpen w s idem e dedup).1 = .ok reply) :
    ∃ o, Recorded idem e dedup o ∧ (insertOpen w s idem e dedup).2.opens = s.opens ++ [o] := by
  unfold insertOpen at h ⊢
  split at h
  · cases h
  · cases h
  · rename_i text _ htext
    exact ⟨⟨idem, e, text⟩, ⟨rfl, rfl, htext⟩, rfl⟩

/-- A call that returns, returns what the first row of its key holds. -/
theorem open_episode_reply {s : EpisodeStore} {reply : Reply} (hgood : OpensGood s)
    (h : (open_episode cfg w s .control p).1 = .ok reply) :
    ∃ idem o dedup, p.get "idem_key" = .str idem ∧
      (open_episode cfg w s .control p).2.opens.find? (fun r => decide (r.idem_key = idem)) = some o ∧
      s.opens <+: (open_episode cfg w s .control p).2.opens ∧
      reply = .json (openResult o.episode_id dedup) ∧
      dumps (openResult o.episode_id dedup) = some o.result := by
  cases hdec : openDecision cfg w s p with
  | error e =>
    rw [open_episode, hdec] at h
    cases h
  | ok dec =>
    have hopen := hdec
    unfold openDecision at hopen
    obtain ⟨key, hkey, hopen⟩ := bind_eq_ok.1 hopen
    obtain ⟨idem, hkey', hopen⟩ := bind_eq_ok.1 hopen
    obtain ⟨hidem, _⟩ := openKey_eq_ok hkey hkey'
    cases hfind : s.opens.find? fun r => decide (r.idem_key = idem) with
    | some o =>
      rw [hfind] at hopen
      obtain ⟨v, hv, hopen⟩ := bind_eq_ok.1 hopen
      cases pure_eq_ok.1 hopen
      obtain ⟨hutf8, dedup, hdumps⟩ := hgood o (List.mem_of_find?_eq_some hfind)
      cases (orRaise_eq_ok.1 hv).symm.trans ((plain_openResult hutf8).loads hdumps)
      rw [open_episode, hdec] at h ⊢
      cases h
      exact ⟨idem, o, dedup, hidem, hfind, List.prefix_refl _, rfl, hdumps⟩
    | none =>
      rw [hfind] at hopen
      obtain ⟨b, hb, hopen⟩ := bind_eq_ok.1 hopen
      have hadd : ∀ {opens opens' : List OpenRow} {o : OpenRow}, opens = s.opens →
          opens' = opens ++ [o] → o.idem_key = idem →
          opens'.find? (fun r => decide (r.idem_key = idem)) = some o ∧ s.opens <+: opens' := by
        rintro opens opens' o rfl rfl hk
        refine ⟨?_, List.prefix_append _ _⟩
        rw [List.find?_append, hfind]
        simp [hk]
      split at hopen
      · rename_i rec _
        cases pure_eq_ok.1 hopen
        rw [open_episode, hdec] at h ⊢
        obtain ⟨o, hrec, hos⟩ := insertOpen_ok h
        obtain ⟨hfind', hfront⟩ := hadd rfl hos hrec.key
        refine ⟨idem, o, true, hidem, hfind', hfront, ?_⟩
        rw [hrec.episode]
        exact ⟨insertOpen_eq_ok h, hrec.result⟩
      · cases pure_eq_ok.1 hopen
        rw [open_episode, hdec] at h ⊢
        dsimp only at h ⊢
        split at h
        · cases h
        · rename_i v s' happend
          have hopens : s'.opens = s.opens := by
            have happ := congrArg (fun r => r.2.opens) happend
            dsimp only at happ
            rw [← happ, _append]
            split
            · rfl
            · dsimp only
              split <;> rfl
          obtain ⟨o, hrec, hos⟩ := insertOpen_ok h
          obtain ⟨hfind', hfront⟩ := hadd hopens hos hrec.key
          refine ⟨idem, o, false, hidem, hfind', hfront, ?_⟩
          rw [hrec.episode]
          exact ⟨insertOpen_eq_ok h, hrec.result⟩

theorem reachable_opens_grow (h : Conc.Reachable (· = x) (Moves cfg) ok y) :
    x.store.opens <+: y.store.opens :=
  h.inv (I := fun y => x.store.opens <+: y.store.opens)
    (fun _ hy => hy ▸ List.prefix_refl _) fun _ _ _ hinv _ hstep => hinv.trans hstep.opens_grow

theorem find?_of_earlier {opens opens' : List OpenRow} {q : OpenRow → Bool} {o : OpenRow}
    (hfront : opens <+: opens') (h : opens.find? q = some o) : opens'.find? q = some o := by
  obtain ⟨rest, rfl⟩ := hfront
  rw [List.find?_append, h]
  rfl

theorem episode_openResult (e : PyStr) (dedup : Bool) :
    (Reply.json (openResult e dedup)).episode? = some e := rfl

/-- A key keeps answering with its episode, in every run. -/
theorem stable_reply (h : Conc.Reachable Initial (Moves cfg) ok x) {c c' : Call} {z : System}
    {reply reply' : Reply} {ok' : System → Act → Prop} (hstep : Moves cfg x (.call c) y)
    (hep : c.endpoint = .control) (hm : c.method = .open_episode)
    (hret : (handle cfg c.world x.store c.endpoint c.method c.params).1 = .ok reply)
    (hlater : Conc.Reachable (· = y) (Moves cfg) ok' z) (hep' : c'.endpoint = .control)
    (hm' : c'.method = .open_episode)
    (hkey : c'.params.get "idem_key" = c.params.get "idem_key")
    (hret' : (handle cfg c'.world z.store c'.endpoint c'.method c'.params).1 = .ok reply') :
    ∃ e, reply.episode? = some e ∧ reply'.episode? = some e := by
  have hstore : y.store = (open_episode cfg c.world x.store .control c.params).2 := by
    cases hstep with
    | call whole fresh =>
      show (handle cfg c.world x.store c.endpoint c.method c.params).2 = _
      rw [hep, hm]
      rfl
  rw [hep, hm] at hret
  rw [hep', hm'] at hret'
  have hy : Conc.Reachable Initial (Moves cfg) Conc.anyAct y :=
    (h.mono fun _ _ _ => trivial).next trivial hstep
  obtain ⟨idem, o, dedup, hidem, hfind, _, rfl, _⟩ := open_episode_reply (opens_good h) hret
  obtain ⟨idem', o', dedup', hidem', hfind', hfront', rfl, _⟩ :=
    open_episode_reply (opens_good (hy.trans hlater)) hret'
  cases hidem'.symm.trans (hkey.trans hidem)
  have hz : z.store.opens.find? (fun r => decide (r.idem_key = idem)) = some o := by
    refine find?_of_earlier (reachable_opens_grow hlater) ?_
    rw [hstore]
    exact hfind
  cases (find?_of_earlier hfront' hz).symm.trans hfind'
  exact ⟨o.episode_id, episode_openResult _ _, episode_openResult _ _⟩

/-- No two openings have the same key. -/
def KeysDistinct (s : EpisodeStore) : Prop :=
  (s.rows.filter fun r => decide (r.kind = .opened)).Pairwise fun a b => a.idem_key ≠ b.idem_key

theorem newRow_kind {s : EpisodeStore} {d : Draft} {row : Row} (h : newRow cfg w s d = .ok row) :
    row.kind = d.body.kind := by
  unfold newRow at h
  obtain ⟨_, _, h⟩ := bind_eq_ok.1 h
  obtain ⟨_, _, h⟩ := bind_eq_ok.1 h
  obtain ⟨_, _, h⟩ := bind_eq_ok.1 h
  obtain ⟨_, _, h⟩ := bind_eq_ok.1 h
  obtain ⟨_, _, h⟩ := bind_eq_ok.1 h
  obtain ⟨_, _, h⟩ := bind_eq_ok.1 h
  obtain ⟨_, _, h⟩ := bind_eq_ok.1 h
  obtain ⟨_, _, h⟩ := bind_eq_ok.1 h
  obtain ⟨_, _, h⟩ := bind_eq_ok.1 h
  obtain ⟨_, _, h⟩ := bind_eq_ok.1 h
  obtain ⟨_, _, h⟩ := bind_eq_ok.1 h
  obtain ⟨_, _, h⟩ := bind_eq_ok.1 h
  rw [← pure_eq_ok.1 h]

theorem KeysDistinct.append {s : EpisodeStore} {row : Row} (h : KeysDistinct s)
    (hnew : row.kind = .opened → ∀ r ∈ s.rows, r.kind = .opened → r.idem_key ≠ row.idem_key) :
    ((s.rows ++ [row]).filter fun r => decide (r.kind = .opened)).Pairwise
      fun a b => a.idem_key ≠ b.idem_key := by
  rw [List.filter_append]
  refine List.pairwise_append.2 ⟨h, ?_, ?_⟩
  · exact (List.pairwise_singleton _ row).sublist List.filter_sublist
  · intro r hr r' hr'
    obtain ⟨hrow, hkind⟩ := List.mem_filter.1 hr
    obtain ⟨hrow', hkind'⟩ := List.mem_filter.1 hr'
    cases List.mem_singleton.1 hrow'
    exact hnew (of_decide_eq_true hkind') r hrow (of_decide_eq_true hkind)

/-- The key of a new opening has opened nothing yet. -/
theorem OpensFresh.new_key {idem : PyStr} {b : OpenedBody} {c : Call}
    (h : OpensFresh cfg c.world x.store c.params idem b) (hkept : KeyKept cfg x (.call c))
    (hm : c.method = .open_episode) :
    ∀ r ∈ x.store.rows, r.kind = .opened → r.idem_key ≠ idem := by
  rintro r hr hkind rfl
  rcases hkept hm b (by rw [h.body]; rfl) r hr hkind h.key with
    ⟨o, ho, hk⟩ | ⟨rec, hrec, hkey, hlive⟩
  · exact h.unused o ho hk
  · exact h.unmatched _ rec (Dict.mem_of_get? hrec) hkey hlive

theorem keys_distinct (h : Conc.Reachable Initial (Moves cfg) (KeyKept cfg) x) :
    KeysDistinct x.store := by
  refine h.inv (I := fun x => KeysDistinct x.store) ?_ ?_
  · rintro _ rfl
    exact List.Pairwise.nil
  · intro x a y hinv hok hstep
    rcases hstep.effect with ⟨c, s, hsec, hchange, _, hstore, _, _⟩ | ⟨_, hup, _, _⟩ |
      ⟨_, hstore, _, _⟩
    · rw [hstore]
      cases hchange with
      | same => exact hinv
      | opens known recorded => exact hinv
      | entry drafted written =>
        refine hinv.append fun hkind => ?_
        have hadm := drafted.admitted
        rw [newRow_kind written] at hkind
        revert hkind hadm
        generalize Draft.body _ = body
        intro hkind hadm
        cases body with
        | opened b => cases hadm
        | _ => cases hkind
      | opened opened written recorded complete =>
        refine hinv.append fun _ => ?_
        obtain ⟨idem, b, hdec, rfl⟩ := opened.decided
        have hw := newRow_eq_ok opened.wf written
        have hkept : KeyKept cfg x (.call c) := by
          cases a with
          | call c' =>
            cases hsec
            exact hok
          | verify w p =>
            cases hsec
            cases opened.method
          | _ => cases hsec
        have hfree := (openDecision_fresh hdec).new_key hkept opened.method
        intro r hr hkind
        exact fun heq => hfree r hr hkind (heq.trans hw.key)
    · show (List.filter _ y.store.rows).Pairwise _
      rw [(restart_rows hup).1]
      exact hinv
    · rw [hstore]
      exact hinv

/-- **A key opens one episode**, in the runs in which a key without its row is used only for its
unfinished episode. -/
theorem opened_once (h : Conc.Reachable Initial (Moves cfg) (KeyKept cfg) x) :
    OpenedOnce cfg x := by
  refine ⟨?_, ?_⟩
  · have hdistinct : ∀ rows : List Row, (rows.filter fun r => decide (r.kind = .opened)).Pairwise
        (fun a b => a.idem_key ≠ b.idem_key) → ∀ (i j : Nat) (row row' : Row),
        rows[i]? = some row → rows[j]? = some row' → row.kind = .opened → row'.kind = .opened → i < j →
        row.idem_key ≠ row'.idem_key := by
      intro rows
      induction rows with
      | nil => intro _ i j row row' hi; cases hi
      | cons r rows ih =>
        intro hp i j row row' hi hj hkind hkind' hij
        cases j with
        | zero => omega
        | succ j =>
          cases i with
          | zero =>
            cases hi
            rw [List.filter_cons_of_pos (by simp [hkind])] at hp
            exact (List.pairwise_cons.1 hp).1 row'
              (List.mem_filter.2 ⟨List.mem_of_getElem? hj, by simp [hkind']⟩)
          | succ i =>
            refine ih (hp.sublist ?_) i j row row' hi hj hkind hkind' (by omega)
            exact (List.sublist_cons_self r rows).filter _
    have hp := keys_distinct h
    intro i j row row' hi hj hkind hkind' hkey
    rcases Nat.lt_trichotomy i j with hij | hij | hij
    · exact absurd hkey (hdistinct _ hp i j row row' hi hj hkind hkind' hij)
    · exact hij
    · exact absurd hkey.symm (hdistinct _ hp j i row' row hj hi hkind' hkind hij)
  · intro c y reply hstep hep hm hret ok z c' reply' hlater hep' hm' hkey hret'
    exact stable_reply h hstep hep hm hret hlater hep' hm' hkey hret'

end Once

/-- An opening that loses its second insert. -/
def lostCall : Call :=
  { openCall "e" "k1" "slots" "v" with
    world := { sampleWorld "e" with insert_open := some .databaseError } }

/-- The process stops between the two inserts, and the key is used again. -/
def onceRun : List Act :=
  [.call lostCall, .restart, .call (openCall "f" "k1" "slots" "v")]

theorem opened_once_sample : OpenedOnce sampleConfig (System.run sampleConfig onceRun) ∧
    (System.run sampleConfig onceRun).store.rows.length = 1 :=
  ⟨opened_once (System.run_reachable (by decide +kernel) (by decide +kernel)), by decide +kernel⟩

/-- The process stops between the two inserts, the episode is handed off, and the key is used
again. -/
def twiceRun : List Act :=
  [.call lostCall, .restart, .call (stateCall .control "e" "handed_off" 1),
    .call (openCall "f" "k1" "slots" "v")]

/-- The key has opened two episodes. -/
theorem twice_run : ∃ x, Conc.Reachable Initial (Moves sampleConfig) Conc.anyAct x ∧
    ¬ OpenedOnce sampleConfig x := by
  refine ⟨System.run sampleConfig twiceRun,
    System.run_reachable (by decide +kernel) System.allowed_any, fun honce => ?_⟩
  have hrows : ((System.run sampleConfig twiceRun).store.rows.map fun r => (r.kind, r.idem_key)) =
      [(.opened, py "k1"), (.state, py "state::handed_off"), (.opened, py "k1")] := by decide +kernel
  have hat : ∀ i : Nat, ((System.run sampleConfig twiceRun).store.rows[i]?).map
      (fun r => (r.kind, r.idem_key)) =
      [(Kind.opened, py "k1"), (.state, py "state::handed_off"), (.opened, py "k1")][i]? := by
    intro i
    rw [← hrows, List.getElem?_map]
  obtain ⟨r, hr, hr'⟩ := Option.map_eq_some_iff.1 (hat 0)
  obtain ⟨q, hq, hq'⟩ := Option.map_eq_some_iff.1 (hat 2)
  have hne := honce.once 0 2 r q hr hq (congrArg Prod.fst hr') (congrArg Prod.fst hq')
    ((congrArg Prod.snd hr').trans (congrArg Prod.snd hq').symm)
  cases hne

end Valops.Store
