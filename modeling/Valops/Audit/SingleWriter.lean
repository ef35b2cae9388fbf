import Valops.Audit.Sequencer

/-!
# One chain, many threads

The invariant `Good` survives every operation of every thread (`append_spec` for the one that
matters), each of the three calls is within the proof discipline, and a restart finds the file it
left. From these: the file, the acknowledgements, the anchors and `verify_chain` in every reachable
state, and what `verify_chain` says about any other file.
-/

set_option autoImplicit false

namespace Valops.Audit

open Py HashChain Conc

variable {cfg : SeqConfig} {s s' : Sequencer}

/-! ## Entries and anchors, field by field -/

section Fields

variable (s) (ts : Double) (actor event : PyStr) (episode_id data payload_ref : Json)

theorem entry_seq : get (entry s ts actor event episode_id data payload_ref) "seq" =
    .ok (.int (s.seq + 1 : Nat)) := rfl

theorem entry_actor : get (entry s ts actor event episode_id data payload_ref) "actor" =
    .ok (.str actor) := rfl

theorem entry_event : get (entry s ts actor event episode_id data payload_ref) "event" =
    .ok (.str event) := rfl

theorem entry_episode : get (entry s ts actor event episode_id data payload_ref) "episode_id" =
    .ok episode_id := rfl

theorem entry_data : get (entry s ts actor event episode_id data payload_ref) "data" = .ok data :=
  rfl

theorem entry_prev : prevOf (entry s ts actor event episode_id data payload_ref) = some s.head :=
  rfl

theorem entry_wf (h1 : episode_id.WF) (h2 : data.WF) (h3 : payload_ref.WF) :
    (entry s ts actor event episode_id data payload_ref).WF := by
  apply Json.wf_mkObj
  simp only [List.forall_mem_cons, List.not_mem_nil, false_imp_iff, implies_true, and_true]
  exact ⟨.int _, .float _, .str _, .str _, .str _, h1, h2, h3⟩

end Fields

theorem signed_body (a : Anchor) (key_id : PyStr) (sig : Bytes) :
    anchor_body (a.signed key_id sig) = anchor_body (a.unsigned key_id) := rfl

theorem signed_seq (a : Anchor) (key_id : PyStr) (sig : Bytes) :
    index (a.signed key_id sig) "seq" = .ok (.int a.seq) := rfl

theorem signed_head (a : Anchor) (key_id : PyStr) (sig : Bytes) :
    index (a.signed key_id sig) "chain_head" = .ok (.str a.chain_head) := rfl

/-- The store accepts the signature of an anchor made with the key it trusts. -/
theorem signed_verifies {keys : PyStr → Option Verify} {verify : Verify}
    (hkey : keys cfg.key_id = some verify) (hsign : ∀ m, verify (cfg.sign m) m = true) {a : Anchor}
    {b : Bytes} (hb : anchor_body (a.unsigned cfg.key_id) = .ok b) :
    badSignature keys (a.signed cfg.key_id (cfg.sign b)) = .ok false := by
  have hkid : getD (a.signed cfg.key_id (cfg.sign b)) "key_id" (.str []) = .ok (.str cfg.key_id) := rfl
  have hsig : index (a.signed cfg.key_id (cfg.sign b)) "sig" = .ok (.str (b64u (cfg.sign b))) := rfl
  have hdec : b64u_dec (.str (b64u (cfg.sign b))) = .ok (cfg.sign b) := by
    rw [b64u_dec, b64uDec_b64u]
    rfl
  have hreq : require (Json.str cfg.key_id).hashable (.other .typeError) = .ok () := rfl
  rw [badSignature, hkid, ok_bind, hreq, ok_bind]
  simp only [hkey]
  rw [hsig, ok_bind, hdec, ok_bind, signed_body, hb, ok_bind, hsign]
  rfl

/-! ## The invariant -/

theorem good_fresh : Good cfg .fresh where
  wf := fun _ h => absurd h List.not_mem_nil
  file := rfl
  linked := .nil _
  numbered := trivial
  seq := rfl
  actor := fun _ _ h => absurd h List.not_mem_nil
  made := fun _ h => absurd h List.not_mem_nil
  anchors := fun _ h => absurd h List.not_mem_nil

/-- What an append that is acknowledged did. -/
structure Appended (cfg : SeqConfig) (c : Label) (s s' : Sequencer) (ack : Ack) (e : Json) : Prop where
  history : s'.history = s.history ++ [(some c, e)]
  seq : ack.seq = s.history.length + 1
  hash : hashOf cfg.sha e = some ack.hash

/-- **An append keeps the invariant.** It adds one entry, or nothing when it raises. -/
theorem append_spec (hs : Good cfg s) {c : Label} {actor event : PyStr}
    {episode_id data payload_ref : Json} (hactor : actor = c.2.principal) (h1 : episode_id.WF)
    (h2 : data.WF) (h3 : payload_ref.WF) {r : Except Exc Ack}
    (h : exec cfg c s (.append actor event episode_id data payload_ref) r s') :
    Good cfg s' ∧ Grows s s' ∧ ∀ ack, r = .ok ack → ∃ ts,
      Appended cfg c s s' ack (entry s ts actor event episode_id data payload_ref) := by
  obtain ⟨ts, hts⟩ := h
  unfold append at hts
  simp only at hts
  split at hts
  · cases hts
    exact ⟨hs, .refl s, fun _ h => by cases h⟩
  · rename_i b hb
    cases hts
    have hwf := entry_wf s ts actor event episode_id data payload_ref h1 h2 h3
    have hhash : hashOf cfg.sha (entry s ts actor event episode_id data payload_ref) =
        some (cfg.sha b) := by
      rw [hashOf, hb]
      rfl
    have hline : entryLine (entry s ts actor event episode_id data payload_ref) =
        some (b ++ [10]) := by
      rw [entryLine, hb]
      rfl
    have hlen : s.entries.length = s.history.length := List.length_map _
    have hnum : get (entry s ts actor event episode_id data payload_ref) "seq" =
        .ok (.int (0 + s.entries.length + 1 : Nat)) := by
      rw [entry_seq, hs.seq, Nat.zero_add]
    have hprev := entry_prev s ts actor event episode_id data payload_ref
    have hact := entry_actor s ts actor event episode_id data payload_ref
    generalize he : entry s ts actor event episode_id data payload_ref = e at *
    have hentries : s.entries ++ [e] = (s.history ++ [(some c, e)]).map Prod.snd := by
      rw [List.map_append]
      rfl
    refine ⟨?_, ⟨List.prefix_append _ _, fun a ha => ha⟩, ?_⟩
    · constructor
      · show ∀ x ∈ (s.history ++ [(some c, e)]).map Prod.snd, x.WF
        rw [← hentries]
        exact List.forall_mem_append.2 ⟨hs.wf, List.forall_mem_singleton.2 hwf⟩
      · show chainFile ((s.history ++ [(some c, e)]).map Prod.snd) = _
        rw [← hentries]
        exact chainFile_snoc hline hs.file
      · show LinkedEntries cfg.sha GENESIS ((s.history ++ [(some c, e)]).map Prod.snd) _
        rw [← hentries]
        exact hs.linked.snoc hprev hhash
      · show Numbered 0 ((s.history ++ [(some c, e)]).map Prod.snd)
        rw [← hentries]
        exact numbered_snoc hs.numbered hnum
      · show s.seq + 1 = ((s.history ++ [(some c, e)]).map Prod.snd).length
        rw [← hentries, List.length_append, hs.seq]
        rfl
      · intro c' e' hmem
        rcases List.mem_append.1 hmem with hmem | hmem
        · exact hs.actor c' e' hmem
        · cases List.mem_singleton.1 hmem
          rw [hact, hactor]
      · intro a ha
        obtain ⟨front, back, hcut, hlen', hl⟩ := hs.made a ha
        refine ⟨front, back ++ [e], ?_, hlen', hl⟩
        show (s.history ++ [(some c, e)]).map Prod.snd = _
        rw [← hentries, hcut, List.append_assoc]
      · exact hs.anchors
    · rintro ack ⟨⟩
      refine ⟨ts, ?_⟩
      rw [he]
      constructor
      · rfl
      · show s.seq + 1 = s.history.length + 1
        rw [hs.seq, hlen]
      · exact hhash

/-- Signing and putting: the anchor names the entry that was last when the thread looked. -/
theorem sign_good (hs : Good cfg s) {a : Anchor}
    (ha : ∃ front back, s.entries = front ++ back ∧ front.length = a.seq ∧
      LinkedEntries cfg.sha GENESIS front a.chain_head) :
    Good cfg { s with made := s.made ++ [a] } :=
  { wf := hs.wf, file := hs.file, linked := hs.linked, numbered := hs.numbered, seq := hs.seq
    actor := hs.actor
    made := List.forall_mem_append.2 ⟨hs.made, List.forall_mem_singleton.2 ha⟩
    anchors := fun j hj => by
      obtain ⟨a', ha', hb⟩ := hs.anchors j hj
      exact ⟨a', List.mem_append_left _ ha', hb⟩ }

theorem put_good (hs : Good cfg s) {a : Anchor} {b : Bytes} (ha : a ∈ s.made)
    (hb : anchor_body (a.unsigned cfg.key_id) = .ok b) :
    Good cfg { s with anchors := s.anchors ++ [a.signed cfg.key_id (cfg.sign b)] } :=
  { wf := hs.wf, file := hs.file, linked := hs.linked, numbered := hs.numbered, seq := hs.seq
    actor := hs.actor, made := hs.made
    anchors := List.forall_mem_append.2 ⟨hs.anchors,
      List.forall_mem_singleton.2 ⟨a, ha, b, hb, rfl⟩⟩ }

/-- Operations that touch neither the chain nor the anchors. -/
theorem good_of_eq (hs : Good cfg s) (h1 : s'.file = s.file) (h2 : s'.seq = s.seq)
    (h3 : s'.head = s.head) (h4 : s'.anchors = s.anchors) (h5 : s'.history = s.history)
    (h6 : s'.made = s.made) : Good cfg s' ∧ Grows s s' := by
  obtain ⟨file, seq, head, ts, daemon, err, payloads, anchors, history, made⟩ := s'
  simp only at h1 h2 h3 h4 h5 h6
  subst h1 h2 h3 h4 h5 h6
  refine ⟨?_, List.prefix_refl _, fun _ h => h⟩
  exact ⟨hs.wf, hs.file, hs.linked, hs.numbered, hs.seq, hs.actor, hs.made, hs.anchors⟩

/-- A prefix of the entries stays one. -/
theorem Grows.front {t : Sequencer} (h : Grows s t) {n : Nat} {k : PyStr}
    (hp : ∃ front back, s.entries = front ++ back ∧ front.length = n ∧
      LinkedEntries cfg.sha GENESIS front k) :
    ∃ front back, t.entries = front ++ back ∧ front.length = n ∧
      LinkedEntries cfg.sha GENESIS front k := by
  obtain ⟨front, back, hcut, hlen, hl⟩ := hp
  obtain ⟨new, hnew⟩ := h.history
  refine ⟨front, back ++ new.map Prod.snd, ?_, hlen, hl⟩
  rw [Sequencer.entries, ← hnew, List.map_append, ← Sequencer.entries, hcut, List.append_assoc]

/-! ## The calls -/

/-- What a thread that has returned knows: the acknowledgement of a submission is the place and the
hash of the entry it appended itself. -/
def Returned (cfg : SeqConfig) (c : Label) (r : Except Exc Reply) (s : Sequencer) : Prop :=
  ∀ principal params ack, c.2 = .submit principal params → r = .ok (.ack ack) →
    ∃ e, 0 < ack.seq ∧ s.history[ack.seq - 1]? = some (some c, e) ∧
      hashOf cfg.sha e = some ack.hash ∧
      (∃ event, params.get "event" = .str event ∧ get e "event" = .ok (.str event)) ∧
      get e "episode_id" = .ok (params.get "episode_id") ∧
      get e "data" = .ok (orEmpty (params.get "data"))

theorem Returned.grows {c : Label} {r : Except Exc Reply} {t : Sequencer}
    (h : Returned cfg c r s) (hst : Grows s t) : Returned cfg c r t := by
  intro principal params ack hc hr
  obtain ⟨e, hpos, hget, hrest⟩ := h principal params ack hc hr
  obtain ⟨new, hnew⟩ := hst.history
  refine ⟨e, hpos, ?_, hrest⟩
  rw [← hnew]
  exact List.getElem?_append_left (List.getElem?_eq_some_iff.1 hget).1 ▸ hget

section Rules

variable {c : Label} {α : Type} {Q : Except Exc α → Sequencer → Prop}

/-- A computation goes on with its value, or raises. -/
theorem wpE_compute {x : Except Exc α} (h : ∀ t, Grows s t → Good cfg t → Q x t) :
    wpE (discipline cfg) c (compute x) Q s := h

theorem wpE_run {o : Op} {Q : Except Exc (Res o) → Sequencer → Prop}
    (h : ∀ t, Grows s t → Good cfg t → ∀ r t', exec cfg c t o r t' →
      Good cfg t' ∧ Grows t t' ∧ ∀ u, Grows t' u → Good cfg u → Q (.ok r) u) :
    wpE (discipline cfg) c (run o) Q s := by
  apply wp_bind
  apply wp_step
  intro t hst ht r t' hr
  obtain ⟨h1, h2, h3⟩ := h t hst ht r t' hr
  exact ⟨h1, h2, fun u htu _ v huv hv => h3 v (Grows.trans htu huv) hv⟩

theorem wpE_append {actor event : PyStr} {episode_id data payload_ref : Json}
    {Q : Except Exc Ack → Sequencer → Prop} (hactor : actor = c.2.principal) (h1 : episode_id.WF)
    (h2 : data.WF) (h3 : payload_ref.WF) (herr : ∀ e u, Grows s u → Good cfg u → Q (.error e) u)
    (hok : ∀ t t' ack ts, Grows s t → Good cfg t' → Grows t t' →
      Appended cfg c t t' ack (entry t ts actor event episode_id data payload_ref) →
      ∀ u, Grows t' u → Good cfg u → Q (.ok ack) u) :
    wpE (discipline cfg) c (run_append actor event episode_id data payload_ref) Q s := by
  apply wp_perform
  intro t hst ht r t' hr
  obtain ⟨hgood, hgrows, hack⟩ := append_spec ht hactor h1 h2 h3 hr
  refine ⟨hgood, hgrows, fun u htu hu => ?_⟩
  cases r with
  | error e => exact herr e u ((hst.trans hgrows).trans htu) hu
  | ok ack =>
    obtain ⟨ts, happ⟩ := hack ack rfl
    exact hok t t' ack ts hst hgood hgrows happ u htu hu

/-- An append whose result does not matter to what follows. -/
theorem wpE_append_any {actor event : PyStr} {episode_id data payload_ref : Json}
    {Q : Except Exc Ack → Sequencer → Prop} (hactor : actor = c.2.principal) (h1 : episode_id.WF)
    (h2 : data.WF) (h3 : payload_ref.WF) (h : ∀ r u, Grows s u → Good cfg u → Q r u) :
    wpE (discipline cfg) c (run_append actor event episode_id data payload_ref) Q s :=
  wpE_append hactor h1 h2 h3 (fun e u => h (.error e) u)
    fun _ _ ack _ hst _ htt' _ u htu => h (.ok ack) u ((hst.trans htt').trans htu)

end Rules

theorem wf_obj_of_pairs {kvs : Fields} (h : ∀ kv ∈ kvs, kv.2.WF) : (Json.mkObj kvs).WF :=
  Json.wf_mkObj h

theorem checkData_eq_ok {v w : Json} (h : checkData v = .ok w) : w = orEmpty v := by
  unfold checkData at h
  split at h
  · rename_i heq
    cases h
    exact heq.symm
  · cases h

theorem checkEvent_eq_ok {v : Json} {e : PyStr} (h : checkEvent v = .ok e) : v = .str e := by
  unfold checkEvent at h
  obtain ⟨_, _, h⟩ := bind_eq_ok.1 h
  split at h
  · split at h
    · cases pure_eq_ok.1 h
      rfl
    · cases h
  · cases h

/-- `submit` is within the discipline. -/
theorem submit_wp {c : Label} {principal : PyStr} {params : Params}
    (hc : c.2 = .submit principal params) :
    wpE (discipline cfg) c (submit principal params) (Returned cfg c) s := by
  have hprincipal : principal = c.2.principal := by
    rw [hc]
    rfl
  have hnone : ∀ e u, Returned cfg c (.error e) u := by
    intro e u p q ack _ h
    cases h
  -- the append at the end, wherever the payload is stored
  have last : ∀ (event : PyStr) (ref : Json) (s : Sequencer), params.get "event" = .str event →
      ref.WF →
      wpE (discipline cfg) c (Reply.ack <$> run_append principal event (params.get "episode_id")
        (orEmpty (params.get "data")) ref) (Returned cfg c) s := by
    intro event ref s hevent href
    apply wpE_bind
    refine wpE_append hprincipal (params.wf_get _) (wf_orEmpty (params.wf_get _)) href ?_ ?_
    · intro e u _ _ t _ _
      exact hnone e t
    · intro t t' ack ts _ ht' _ happ u htu hu
      apply wpE_pure
      intro v huv _ p q ack' hc' hr
      cases hr
      cases hc.symm.trans hc'
      refine Returned.grows ?_ (htu.trans huv) principal params ack hc rfl
      rintro p' q' a hc' hr
      cases hr
      cases hc.symm.trans hc'
      refine ⟨_, ?_, ?_, happ.hash, ⟨event, hevent, entry_event ..⟩, entry_episode .., entry_data ..⟩
      · rw [happ.seq]
        exact Nat.succ_pos _
      · rw [happ.seq, happ.history, Nat.add_sub_cancel, List.getElem?_concat_length]
  unfold submit
  apply wpE_bind
  apply wpE_compute
  intro t _ _
  cases hevent : checkEvent (params.get "event") with
  | error e => exact fun u _ _ => hnone e u
  | ok event =>
    apply wpE_bind
    apply wpE_compute
    intro t _ _
    cases hdata : checkData (params.get "data") with
    | error e => exact fun u _ _ => hnone e u
    | ok data =>
      cases checkData_eq_ok hdata
      apply wpE_bind
      apply wpE_compute
      intro t _ _
      cases payload params with
      | error e => exact fun u _ _ => hnone e u
      | ok raw =>
        cases raw with
        | none => exact last event .null t (checkEvent_eq_ok hevent) .null
        | some raw =>
          apply wpE_bind
          apply wp_perform
          intro t' _ ht' r t'' hr
          have hstore : Good cfg t'' ∧ Grows t' t'' := by
            have hr : store_payload cfg t' raw = (r, t'') := hr
            unfold store_payload at hr
            split at hr
            · cases hr
              exact ⟨ht', .refl _⟩
            · cases hr
              exact good_of_eq ht' rfl rfl rfl rfl rfl rfl
          refine ⟨hstore.1, hstore.2, fun u _ _ => ?_⟩
          cases r with
          | error e => exact fun v _ _ => hnone e v
          | ok ref => exact last event (.str ref) u (checkEvent_eq_ok hevent) (.str _)

/-- The calls that are not submissions promise nothing about their result. -/
theorem returned_other {c : Label} (hc : ∀ principal params, c.2 ≠ .submit principal params)
    (r : Except Exc Reply) (s : Sequencer) : Returned cfg c r s :=
  fun principal params _ h => absurd h (hc principal params)

/-- `anchor_now` is within the discipline: what it signs outside the lock is still the hash of an
entry, because entries stay where they are. -/
theorem anchor_now_wp {c : Label} (hc : c.2 = .anchor_now) :
    wpE (discipline cfg) c (anchor_now cfg) (Returned cfg c) s := by
  have hany : ∀ r u, Returned cfg c r u := by
    apply returned_other
    intro principal params h
    cases hc.symm.trans h
  have hactor : py "audit_sequencer" = c.2.principal := by
    rw [hc]
    rfl
  unfold anchor_now
  apply wpE_bind
  apply wpE_run
  rintro t0 _ ht0 r t0' ⟨rfl, rfl⟩
  refine ⟨ht0, .refl _, fun t1 h01 _ => ?_⟩
  -- the prefix the thread saw
  have hfront : ∃ front back, t0'.entries = front ++ back ∧ front.length = t0'.seq ∧
      LinkedEntries cfg.sha GENESIS front t0'.head :=
    ⟨t0'.entries, [], (List.append_nil _).symm, ht0.seq.symm, ht0.linked⟩
  generalize t0'.seq = seq at hfront
  generalize t0'.head = head at hfront
  apply wpE_bind
  apply wpE_run
  rintro t2 h12 ht2 ts_ms _ rfl
  refine ⟨ht2, .refl _, fun t3 h23 _ => ?_⟩
  apply wpE_bind
  apply wpE_compute
  intro t4 h34 _
  cases hb : anchor_body ((⟨head, seq, ts_ms⟩ : Anchor).unsigned cfg.key_id) with
  | error e => exact fun u _ _ => hany _ u
  | ok b =>
    apply wpE_bind
    apply wpE_run
    rintro t5 h45 ht5 sig t6 ⟨rfl, rfl⟩
    have h05 := (((h01.trans h12).trans h23).trans h34).trans h45
    refine ⟨sign_good ht5 (h05.front hfront), ⟨List.prefix_refl _,
      fun a ha => List.mem_append_left _ ha⟩, fun t7 h67 _ => ?_⟩
    have hmade : (⟨head, seq, ts_ms⟩ : Anchor) ∈ t7.made :=
      h67.made _ (List.mem_append_right _ (List.mem_singleton_self _))
    apply wpE_bind
    apply wp_perform
    intro t8 h78 ht8 r t9 hr
    have hput : Good cfg t9 ∧ Grows t8 t9 := by
      cases r with
      | error e =>
        obtain rfl : t9 = t8 := hr
        exact ⟨ht8, .refl _⟩
      | ok _ =>
        obtain rfl : t9 = _ := hr
        exact ⟨put_good ht8 (h78.made _ hmade) hb, ⟨List.prefix_refl _, fun _ h => h⟩⟩
    refine ⟨hput.1, hput.2, fun t10 _ _ => ?_⟩
    cases r with
    | error e => exact fun u _ _ => hany _ u
    | ok _ =>
      apply wpE_bind
      apply wpE_run
      rintro t11 _ ht11 _ t12 ⟨ts, rfl⟩
      have hts : Good cfg { t11 with last_anchor_ts := .float ts } ∧
          Grows t11 { t11 with last_anchor_ts := .float ts } :=
        good_of_eq ht11 rfl rfl rfl rfl rfl rfl
      refine ⟨hts.1, hts.2, fun t13 _ _ => ?_⟩
      apply wpE_bind
      refine wpE_append_any hactor .null ?_ .null ?_
      · apply Json.wf_mkObj
        simp only [List.forall_mem_cons, List.not_mem_nil, false_imp_iff, implies_true, and_true]
        exact ⟨.int _, .str _⟩
      · intro r u _ _
        cases r with
        | error e => exact fun v _ _ => hany _ v
        | ok ack => exact wpE_pure fun v _ _ => hany _ v

/-- `record_daemon_checkpoint` is within the discipline. -/
theorem record_daemon_checkpoint_wp {c : Label} {ckpt : Params}
    (hc : c.2 = .record_daemon_checkpoint ckpt) :
    wpE (discipline cfg) c (record_daemon_checkpoint cfg c.2.principal ckpt) (Returned cfg c) s := by
  have hany : ∀ r u, Returned cfg c r u := by
    apply returned_other
    intro principal params h
    cases hc.symm.trans h
  have hstop : ∀ {α : Type} (x : Except Exc α) {f : α → Method Reply} {s : Sequencer},
      (∀ a t, x = .ok a → wpE (discipline cfg) c (f a) (Returned cfg c) t) →
      wpE (discipline cfg) c (compute x >>= f) (Returned cfg c) s := by
    intro α x f s h
    apply wpE_bind
    apply wpE_compute
    intro t _ _
    cases x with
    | error e => exact fun u _ _ => hany _ u
    | ok a => exact h a t rfl
  have happend : ∀ {event : PyStr} {data : Json} {f : Ack → Method Reply} {s : Sequencer}, data.WF →
      (∀ a t, wpE (discipline cfg) c (f a) (Returned cfg c) t) →
      wpE (discipline cfg) c (run_append c.2.principal event .null data .null >>= f)
        (Returned cfg c) s := by
    intro event data f s hdata h
    apply wpE_bind
    refine wpE_append_any rfl .null hdata .null fun r u _ _ => ?_
    cases r with
    | error e => exact fun v _ _ => hany _ v
    | ok a => exact h a u
  have hfields : ∀ {seq head : Json} {b : Bool} (more : Fields), seq.WF → head.WF →
      (∀ kv ∈ more, kv.2.WF) →
      (Json.mkObj ([(py "seq", seq), (py "head", head), (py "accepted", .bool b)] ++ more)).WF := by
    intro seq head b more h1 h2 h3
    apply Json.wf_mkObj
    refine List.forall_mem_append.2 ⟨?_, h3⟩
    simp only [List.forall_mem_cons, List.not_mem_nil, false_imp_iff, implies_true, and_true]
    exact ⟨h1, h2, .bool b⟩
  have hwhat : ∀ text : PyStr, (Json.mkObj [(py "what", .str text)]).WF := fun text =>
    Json.wf_mkObj (List.forall_mem_singleton.2 (.str text))
  unfold record_daemon_checkpoint
  apply hstop
  intro verify t _
  apply hstop
  intro body t _
  apply hstop
  intro sigText t _
  apply hstop
  intro sig t _
  split
  · exact happend (hwhat _) fun a t => wpE_throw fun u _ _ => hany _ u
  · apply wpE_bind
    apply wpE_run
    rintro t1 _ ht1 last _ ⟨_, rfl⟩
    refine ⟨ht1, .refl _, fun t2 _ _ => ?_⟩
    apply hstop
    intro problem t _
    apply hstop
    intro seq t hseq
    apply hstop
    intro head t hhead
    have hwseq : seq.WF := wf_index ckpt.wf hseq
    have hwhead : head.WF := wf_index ckpt.wf hhead
    cases problem with
    | some text =>
      refine happend (hwhat text) fun a t => ?_
      refine happend (hfields _ hwseq hwhead (List.forall_mem_singleton.2 (.str text))) fun a t => ?_
      exact wpE_throw fun u _ _ => hany _ u
    | none =>
      apply wpE_bind
      apply wpE_run
      rintro t3 _ ht3 _ t4 rfl
      have hset : Good cfg { t3 with daemon_last := some (seq, head) } ∧
          Grows t3 { t3 with daemon_last := some (seq, head) } :=
        good_of_eq ht3 rfl rfl rfl rfl rfl rfl
      refine ⟨hset.1, hset.2, fun t5 _ _ => ?_⟩
      refine happend (hfields [] hwseq hwhead fun _ h => absurd h List.not_mem_nil) fun a t => ?_
      exact wpE_pure fun u _ _ => hany _ u

/-- Every call is within the discipline, whenever it starts. -/
theorem body_wp (c : Label) : wp (discipline cfg) c (body cfg c) (Returned cfg c) s := by
  obtain ⟨n, call⟩ := c
  cases call with
  | submit principal params => exact submit_wp rfl
  | anchor_now => exact anchor_now_wp rfl
  | record_daemon_checkpoint ckpt => exact record_daemon_checkpoint_wp rfl

/-! ## Restarts -/

theorem loadEntry_eq_ok {n : Nat} {e : Json} {l l' : Loaded} (h : loadEntry cfg n e l = .ok l') :
    hashOf cfg.sha e = some l'.head ∧ ∃ v, index e "seq" = .ok v ∧ asNat v = some l'.seq := by
  unfold loadEntry at h
  obtain ⟨prev, _, h⟩ := bind_eq_ok.1 h
  obtain ⟨seq, hseq, h⟩ := bind_eq_ok.1 h
  obtain ⟨hash, hhash, h⟩ := bind_eq_ok.1 h
  obtain ⟨k, hk, h⟩ := bind_eq_ok.1 h
  obtain ⟨event, _, h⟩ := bind_eq_ok.1 h
  obtain ⟨ts, _, h⟩ := bind_eq_ok.1 h
  obtain ⟨last, _, h⟩ := bind_eq_ok.1 h
  cases pure_eq_ok.1 h
  exact ⟨orRaise_eq_ok.1 hhash, seq, hseq, orRaise_eq_ok.1 hk⟩

theorem index_of_get {e v : Json} {k : String} (h : get e k = .ok v) (hv : v ≠ .null) :
    index e k = .ok v := by
  cases e with
  | obj kvs =>
    simp only [get, getD, Except.ok.injEq] at h
    cases hl : Json.lookup (py k) kvs with
    | none =>
      rw [hl] at h
      exact absurd h.symm hv
    | some w =>
      rw [hl] at h
      rw [index, hl, ← h]
      rfl
  | null => cases h
  | bool b => cases h
  | int z => cases h
  | float x => cases h
  | str s => cases h
  | arr xs => cases h

/-- **A restart finds the chain it left**: the number of entries and the last hash. -/
theorem loadLines_spec : ∀ {lines : List Bytes} {es : List Json} {n : Nat} {l l' : Loaded}
    {k : PyStr}, loadLines cfg (n + 1) lines l = .ok l' → lines.map loadsBytes = es.map some →
    Numbered n es → LinkedEntries cfg.sha l.head es k → l.seq = n →
    l'.head = k ∧ l'.seq = n + es.length
  | [], [], n, l, l', k, h, _, _, hl, hn => by
    cases h
    cases hl
    exact ⟨rfl, hn⟩
  | [], _ :: _, _, _, _, _, _, h, _, _, _ => by cases h
  | _ :: _, [], _, _, _, _, _, h, _, _, _ => by cases h
  | line :: lines, e :: es, n, l, l', k, h, hparse, hnum, hl, hn => by
    simp only [List.map_cons, List.cons.injEq] at hparse
    rw [loadLines] at h
    obtain ⟨e', he', h⟩ := bind_eq_ok.1 h
    cases hparse.1.symm.trans (orRaise_eq_ok.1 he')
    obtain ⟨l1, hl1, h⟩ := bind_eq_ok.1 h
    obtain ⟨hhead, v, hv, hk⟩ := loadEntry_eq_ok hl1
    have hseq := index_of_get hnum.1 (by simp)
    cases hseq.symm.trans hv
    cases hl with
    | cons _ hhash hrest =>
      cases hhash.symm.trans hhead
      have hsome : asNat (.int (n + 1 : Nat)) = some (n + 1) := rfl
      have hl1seq : l1.seq = n + 1 := Option.some.inj (hk.symm.trans hsome)
      obtain ⟨h1, h2⟩ := loadLines_spec h hparse.2 hnum.2 hrest hl1seq
      refine ⟨h1, ?_⟩
      rw [h2, List.length_cons]
      omega

theorem good_restart (hs : Good cfg s) (h : restart cfg s = .ok s') : Good cfg s' := by
  unfold restart at h
  obtain ⟨l, hl, h⟩ := bind_eq_ok.1 h
  cases pure_eq_ok.1 h
  have hparse := splitLines_chainFile hs.wf hs.file
  obtain ⟨hhead, hseq⟩ := loadLines_spec hl hparse hs.numbered hs.linked rfl
  have hentries : (s.history.map fun x => ((none : Option Label), x.2)).map Prod.snd = s.entries := by
    rw [List.map_map]
    rfl
  constructor
  · exact fun e he => hs.wf e (hentries ▸ he)
  · exact (congrArg chainFile hentries).trans hs.file
  · show LinkedEntries cfg.sha GENESIS ((s.history.map fun x => (none, x.2)).map Prod.snd) l.head
    rw [hentries, hhead]
    exact hs.linked
  · show Numbered 0 ((s.history.map fun x => ((none : Option Label), x.2)).map Prod.snd)
    rw [hentries]
    exact hs.numbered
  · show l.seq = ((s.history.map fun x => ((none : Option Label), x.2)).map Prod.snd).length
    rw [hentries, hseq, Nat.zero_add]
  · intro c e hmem
    obtain ⟨x, _, hx⟩ := List.mem_map.1 hmem
    cases hx
  · intro a ha
    obtain ⟨front, back, hcut, hrest⟩ := hs.made a ha
    exact ⟨front, back, hentries.trans hcut, hrest⟩
  · exact hs.anchors

/-! ## Every run -/

theorem pool_good {P : Pool Sequencer Label Op Res (Except Exc Reply)} (hs : Good cfg s)
    (h : Pool.Reach (exec cfg) (body cfg) s P) : Good cfg P.state :=
  (Pool.sound (discipline cfg) (fun _ _ _ _ h => h) (fun c _ _ => body_wp c) hs h).1

/-- **The invariant holds in every state a sequencer can start in.** -/
theorem started_good (h : Started cfg s) : Good cfg s := by
  induction h with
  | fresh => exact good_fresh
  | again _ hP hr ih => exact good_restart (pool_good ih hP) hr

/-- **The invariant holds in every interleaving of every run.** -/
theorem reach_good {P : Pool Sequencer Label Op Res (Except Exc Reply)} (hs : Started cfg s)
    (h : Pool.Reach (exec cfg) (body cfg) s P) : Good cfg P.state :=
  pool_good (started_good hs) h

/-! ## What a reader of the chain sees -/

/-- The hash before the entry at `i`: of the entry before it, or the genesis hash. -/
def headAt (sha : Bytes → PyStr) (es : List Json) : Nat → Option PyStr
  | 0 => some GENESIS
  | n + 1 => es[n]?.bind (hashOf sha)

theorem headAt_prefix {sha : Bytes → PyStr} {front : List Json} (back : List Json) {k : PyStr}
    (h : LinkedEntries sha GENESIS front k) : headAt sha (front ++ back) front.length = some k := by
  cases front using List.reverseRecOn with
  | nil =>
    cases h
    rfl
  | append_singleton front e =>
    obtain ⟨m, _, _, hh⟩ := h.last
    have hlen : (front ++ [e]).length = front.length + 1 := List.length_append
    rw [hlen, headAt, List.append_assoc, List.getElem?_append_right (le_refl _), Nat.sub_self]
    exact hh

theorem prevOf_getElem {sha : Bytes → PyStr} {es : List Json} {k : PyStr}
    (h : LinkedEntries sha GENESIS es k) {i : Nat} {e : Json} (he : es[i]? = some e) :
    prevOf e = headAt sha es i := by
  obtain ⟨hi, rfl⟩ := List.getElem?_eq_some_iff.1 he
  have hcut : es = es.take i ++ es[i] :: es.drop (i + 1) := by
    rw [List.getElem_cons_drop, List.take_append_drop]
  rw [hcut] at h
  obtain ⟨m, hfront, hrest⟩ := h.split
  have hlen : (es.take i).length = i := List.length_take_of_le hi.le
  have hhead := headAt_prefix (es[i] :: es.drop (i + 1)) hfront
  rw [← hcut, hlen] at hhead
  cases hrest with
  | cons hp _ _ => rw [hp, hhead]

theorem get_prev_of_prevOf {e : Json} {s : PyStr} (h : prevOf e = some s) :
    get e "prev" = .ok (.str s) := by
  unfold prevOf at h
  split at h
  · rename_i t ht
    cases h
    exact ht
  · cases h

theorem numbered_getElem : ∀ {es : List Json} {n i : Nat} {e : Json}, Numbered n es →
    es[i]? = some e → get e "seq" = .ok (.int (n + i + 1 : Nat))
  | [], _, _, _, _, he => by cases he
  | x :: es, n, 0, e, h, he => by
    cases he
    exact h.1
  | x :: es, n, i + 1, e, h, he => by
    have ih := numbered_getElem h.2 (i := i) he
    rw [ih]
    congr 3
    omega

/-- An operation appends under the label of its thread, or appends nothing. -/
theorem exec_history {c : Label} {o : Op} {r : Res o} (h : exec cfg c s o r s') :
    s'.history = s.history ∨ ∃ e, s'.history = s.history ++ [(some c, e)] := by
  cases o with
  | append actor event episode_id data payload_ref =>
    obtain ⟨ts, hts⟩ := h
    unfold append at hts
    simp only at hts
    split at hts
    · cases hts
      exact .inl rfl
    · cases hts
      exact .inr ⟨_, rfl⟩
  | store_payload raw =>
    have hr : store_payload cfg s raw = (r, s') := h
    unfold store_payload at hr
    split at hr
    · cases hr
      exact .inl rfl
    · cases hr
      exact .inl rfl
  | read_head => exact .inl (congrArg Sequencer.history h.2)
  | ts_ms => exact .inl (congrArg Sequencer.history h)
  | sign a body =>
    obtain ⟨_, rfl⟩ := h
    exact .inl rfl
  | put a =>
    cases r with
    | ok _ =>
      obtain rfl : s' = _ := h
      exact .inl rfl
    | error _ =>
      obtain rfl : s' = _ := h
      exact .inl rfl
  | set_anchor_ts =>
    obtain ⟨t, rfl⟩ := h
    exact .inl rfl
  | read_daemon_last => exact .inl (congrArg Sequencer.history h.2)
  | set_daemon_last last =>
    obtain rfl : s' = _ := h
    exact .inl rfl

/-- Everything appended since the start was appended by one of the threads. -/
theorem appended_by_thread {P : Pool Sequencer Label Op Res (Except Exc Reply)}
    (h : Pool.Reach (exec cfg) (body cfg) s P) : ∃ new, P.state.history = s.history ++ new ∧
      ∀ x ∈ new, ∃ t ∈ P.threads, x.1 = some t.tag := by
  induction h with
  | refl => exact ⟨[], (List.append_nil _).symm, fun _ h => absurd h List.not_mem_nil⟩
  | tail _ hstep ih =>
    obtain ⟨new, hnew, hlabel⟩ := ih
    cases hstep with
    | spawn s ts c _ =>
      refine ⟨new, hnew, fun x hx => ?_⟩
      obtain ⟨t, ht, hxt⟩ := hlabel x hx
      exact ⟨t, List.mem_append_left _ ht, hxt⟩
    | run s1 s2 before after c o k r hr =>
      have hkeep : ∀ x ∈ new, ∃ t ∈ before ++ ⟨c, k r⟩ :: after, x.1 = some t.tag := by
        intro x hx
        obtain ⟨t, ht, hxt⟩ := hlabel x hx
        rcases List.mem_append.1 ht with ht | ht
        · exact ⟨t, List.mem_append_left _ ht, hxt⟩
        rcases List.mem_cons.1 ht with rfl | ht
        · exact ⟨⟨c, k r⟩, by simp, hxt⟩
        · exact ⟨t, List.mem_append_right _ (List.mem_cons_of_mem _ ht), hxt⟩
      rcases exec_history hr with hsame | ⟨e, he⟩
      · exact ⟨new, hsame.trans hnew, hkeep⟩
      · refine ⟨new ++ [(some c, e)], ?_, List.forall_mem_append.2 ⟨hkeep, ?_⟩⟩
        · show s2.history = _
          rw [he, hnew, List.append_assoc]
        · exact List.forall_mem_singleton.2 ⟨⟨c, k r⟩, by simp, rfl⟩

/-- `verify_chain` accepts the file against the anchors that were put. -/
theorem verify_good (hs : Good cfg s) {keys : PyStr → Option Verify} {verify : Verify}
    (hkey : keys cfg.key_id = some verify) (hsign : ∀ m, verify (cfg.sign m) m = true) :
    ∃ r, verify_chain cfg.sha (some s.file) s.anchors keys = .ok r ∧ r.ok = true := by
  have hparse := splitLines_chainFile hs.wf hs.file
  obtain ⟨hashes, hwalk, hmap⟩ := walk_complete (w := Walk.init) hparse rfl hs.numbered hs.linked
  have hseqs : ∀ j ∈ s.anchors, ∃ n : Int, index j "seq" = .ok (.int n) := by
    intro j hj
    obtain ⟨a, _, b, _, rfl⟩ := hs.anchors j hj
    exact ⟨a.seq, signed_seq ..⟩
  obtain ⟨sortedAnchors, hsort⟩ := sortAnchors_isOk hseqs
  have hstep : ∀ j ∈ sortedAnchors, ∀ v, ∃ v', anchorStep keys
      ⟨[], hashes, s.head, 0 + s.entries.length⟩ j ([], v) = .ok ([], v') := by
    intro j hj v
    obtain ⟨a, ha, b, hb, rfl⟩ := hs.anchors j ((sortAnchors_perm hsort).mem_iff.1 hj)
    obtain ⟨front, back, hcut, hlen, hl⟩ := hs.made a ha
    refine anchorStep_complete (signed_verifies hkey hsign hb) (signed_seq ..) (signed_head ..) ?_ ?_
    · show a.seq ≤ 0 + s.entries.length
      rw [hcut, List.length_append, hlen]
      omega
    · intro hpos
      have hhead := headAt_prefix back hl
      rw [hlen, ← hcut] at hhead
      obtain ⟨n, hn⟩ : ∃ n, a.seq = n + 1 := ⟨a.seq - 1, by omega⟩
      rw [hn, headAt] at hhead
      have hget : (hashes.map some)[n]? = some (some a.chain_head) := by
        rw [← hmap, List.getElem?_map]
        cases he : s.entries[n]? with
        | none =>
          rw [he] at hhead
          cases hhead
        | some e =>
          rw [he] at hhead
          exact congrArg some hhead
      show hashes[a.seq - 1]? = some a.chain_head
      rw [hn, Nat.add_sub_cancel]
      rw [List.getElem?_map, Option.map_eq_some_iff] at hget
      obtain ⟨h, hh, heq⟩ := hget
      rw [hh, Option.some.inj heq]
  obtain ⟨v, hloop⟩ := anchorLoop_complete (v := .null) hstep
  refine ⟨⟨0 + s.entries.length, s.head, [], v⟩, ?_, rfl⟩
  rw [verify_chain]
  show (walk cfg.sha (splitLines s.file) Walk.init >>= _) = _
  rw [hwalk, ok_bind, hsort, ok_bind]
  show (anchorLoop keys ⟨[], hashes, s.head, 0 + s.entries.length⟩ sortedAnchors ([], .null) >>= _) = _
  rw [hloop]
  rfl

/-! ## A run -/

/-- ASCII text as bytes. -/
def ascii (s : String) : Bytes := (py s).map UInt8.ofNat

/-- The time 1700000000.5. -/
def exampleTs : Double := .num false ⟨0x41D954FC40200000, Double.exampleTime_lt⟩

/-- The entry of a submission at that time. -/
def exampleEntry : Json :=
  entry .fresh exampleTs (py "controller") (py "hook") .null (.obj []) .null

/-- Its canonical form. -/
def exampleBytes : Bytes := ascii ("\x7b\"actor\":\"controller\",\"data\":\x7b\x7d,\"episode_id\":null," ++
  "\"event\":\"hook\",\"payload_ref\":null,\"prev\":\"00000000000000000000000000000000" ++
  "00000000000000000000000000000000\",\"seq\":1,\"ts\":1700000000.5\x7d")

/-- Its SHA-256. -/
def exampleHead : PyStr := py "c9c40a70f1d8fb8a8f327965b3ac14dbe92c14d0e2978c49e250475ef0b247e3"

/-- What is signed over it. -/
def exampleAnchor : Anchor := ⟨exampleHead, 1, 1700000000500⟩

def exampleBody : Bytes := ascii ("\x7b\"chain_head\":" ++
  "\"c9c40a70f1d8fb8a8f327965b3ac14dbe92c14d0e2978c49e250475ef0b247e3\"," ++
  "\"key_id\":\"chain-1\",\"seq\":1,\"ts_ms\":1700000000500\x7d")

/-- The Ed25519 signature of that under the key of 32 zero bytes. -/
def exampleSig : Bytes := [122, 115, 4, 129, 7, 213, 70, 104, 64, 206, 138, 27, 148, 188, 70, 52,
  139, 47, 217, 155, 91, 177, 94, 89, 228, 102, 154, 232, 137, 14, 118, 8, 210, 226, 7, 215, 48,
  102, 15, 244, 250, 133, 250, 201, 182, 132, 86, 48, 27, 167, 78, 152, 240, 36, 245, 11, 20, 107,
  128, 60, 35, 211, 241, 6]

/-- SHA-256 and the signing key as tables of what the run below asks them. -/
def exampleCfg : SeqConfig where
  sha := fun b => if b = exampleBytes then exampleHead else []
  key_id := py "chain-1"
  sign := fun m => if m = exampleBody then exampleSig else []
  daemon_verifier := none
  str := fun _ => []

/-- The trusted keys of the run. -/
def exampleKeys (key_id : PyStr) : Option Verify :=
  if key_id = py "chain-1" then some fun sig m => decide (sig = exampleCfg.sign m) else none

set_option maxRecDepth 10000 in
theorem canonical_exampleEntry : canonical exampleEntry = some exampleBytes := by
  decide +kernel

set_option maxRecDepth 10000 in
theorem anchor_body_example :
    anchor_body (exampleAnchor.unsigned exampleCfg.key_id) = .ok exampleBody := by
  decide +kernel

theorem exampleKeys_trusts : exampleKeys exampleCfg.key_id =
    some fun sig m => decide (sig = exampleCfg.sign m) := if_pos rfl

theorem exampleVerify_sign (m : Bytes) :
    (fun sig m => decide (sig = exampleCfg.sign m)) (exampleCfg.sign m) m = true :=
  decide_eq_true rfl

/-- The submission of the run. -/
def exampleSubmit : Label :=
  (0, .submit (py "controller") (.ofFields [(py "event", .str (py "hook"))] (by simp)))

theorem submit_example : ∃ k, body exampleCfg exampleSubmit =
    .step (.append (py "controller") (py "hook") .null (.obj []) .null) k := ⟨_, rfl⟩

theorem append_eq {cfg : SeqConfig} {c : Label} {s : Sequencer} {ts : Double} {actor event : PyStr}
    {episode_id data payload_ref : Json} {b : Bytes}
    (h : canonical (entry s ts actor event episode_id data payload_ref) = some b) :
    append cfg c s ts actor event episode_id data payload_ref =
      (.ok ⟨s.seq + 1, cfg.sha b, payload_ref⟩, { s with
        file := s.file ++ (b ++ [10])
        seq := s.seq + 1
        head := cfg.sha b
        history := s.history ++ [(some c, entry s ts actor event episode_id data payload_ref)] }) := by
  unfold append
  simp only [h]

theorem sha_example : exampleCfg.sha exampleBytes = exampleHead := by simp only [exampleCfg, if_pos]

theorem sign_example : exampleCfg.sign exampleBody = exampleSig := by simp only [exampleCfg, if_pos]

/-- The first four operations of an anchoring. -/
theorem anchor_now_steps {n : Nat} {a : Anchor} {b : Bytes}
    (hb : anchor_body (a.unsigned cfg.key_id) = .ok b) :
    ∃ k, body cfg (n, .anchor_now) = .step .read_head k ∧
    ∃ k1, k (a.seq, a.chain_head) = .step .ts_ms k1 ∧ ∃ k2, k1 a.ts_ms = .step (.sign a b) k2 ∧
    ∃ k3, k2 (cfg.sign b) = .step (.put (a.signed cfg.key_id (cfg.sign b))) k3 := by
  refine ⟨_, rfl, _, rfl, ?_⟩
  change ∃ k2, ExceptT.run (compute (anchor_body (a.unsigned cfg.key_id)) >>= _) = _ ∧ _
  rw [hb]
  exact ⟨_, rfl, _, rfl⟩

/-- An anchoring runs until its anchor is put. -/
theorem anchor_now_run {n : Nat} {a : Anchor} {b : Bytes} {s : Sequencer}
    {ts : List (Thread Label Op Res (Except Exc Reply))}
    (hb : anchor_body (a.unsigned cfg.key_id) = .ok b) (hseq : a.seq = s.seq)
    (hhead : a.chain_head = s.head) (fresh : ∀ t ∈ ts, t.tag ≠ (n, .anchor_now)) :
    ∃ t, Relation.ReflTransGen (Pool.Step (exec cfg) (body cfg)) ⟨s, ts⟩
      ⟨{ s with made := s.made ++ [a], anchors := s.anchors ++ [a.signed cfg.key_id (cfg.sign b)] },
        ts ++ [t]⟩ := by
  obtain ⟨k, hk, k1, hk1, k2, hk2, k3, hk3⟩ := anchor_now_steps (n := n) hb
  refine ⟨⟨(n, .anchor_now), k3 (.ok ())⟩, ?_⟩
  refine .head (.spawn s ts _ fresh) ?_
  rw [hk]
  refine .head (.run s s ts [] _ _ k (a.seq, a.chain_head) ⟨by rw [hseq, hhead], rfl⟩) ?_
  rw [hk1]
  refine .head (.run s s ts [] _ _ k1 a.ts_ms rfl) ?_
  rw [hk2]
  refine .head (.run s _ ts [] _ _ k2 (cfg.sign b) ⟨rfl, rfl⟩) ?_
  rw [hk3]
  exact .single (.run _ _ ts [] _ _ k3 (.ok ()) rfl)

/-- The state after the submission. -/
def exampleState : Sequencer := { Sequencer.fresh with
  file := Sequencer.fresh.file ++ (exampleBytes ++ [10])
  seq := Sequencer.fresh.seq + 1
  head := exampleHead
  history := Sequencer.fresh.history ++ [(some exampleSubmit, exampleEntry)] }

/-- A run: the controller submits an entry; an anchor over it is signed and put. -/
theorem exampleRun : ∃ P, Pool.Reach (exec exampleCfg) (body exampleCfg) .fresh P ∧
    P.state.entries = [exampleEntry] ∧ P.state.made = [exampleAnchor] ∧
    P.state.anchors = [exampleAnchor.signed exampleCfg.key_id exampleSig] := by
  obtain ⟨k, hk⟩ := submit_example
  have happ := @append_eq exampleCfg exampleSubmit _ _ _ _ _ _ _ _ canonical_exampleEntry
  rw [sha_example] at happ
  let submitted : List (Thread Label Op Res (Except Exc Reply)) :=
    [⟨exampleSubmit, k (.ok ⟨1, exampleHead, .null⟩)⟩]
  have hsubmit : Pool.Reach (exec exampleCfg) (body exampleCfg) .fresh ⟨exampleState, submitted⟩ := by
    refine .head (.spawn Sequencer.fresh [] exampleSubmit fun _ h => absurd h List.not_mem_nil) ?_
    rw [hk]
    exact .single (.run _ _ [] [] _ _ k _ ⟨_, happ⟩)
  have hfresh : ∀ t ∈ submitted, t.tag ≠ (1, .anchor_now) := by
    intro t ht
    cases List.mem_singleton.1 ht
    exact fun h => Nat.zero_ne_one (congrArg Prod.fst h)
  obtain ⟨t, hanchor⟩ := anchor_now_run (s := exampleState) anchor_body_example rfl rfl hfresh
  refine ⟨_, hsubmit.trans hanchor, rfl, rfl, ?_⟩
  rw [sign_example]
  rfl

/-! ## Results -/

/-- **The chain has a single writer.** In every state of every interleaving of submissions,
anchorings and checkpoints: the file holds `seq` entries, consecutive and linked; every entry of
this run carries the principal of the call that appended it; an acknowledgement is the place and hash
of the caller's own entry; anchors in the store name the hash of their entry; `verify_chain` finds no
error. -/
theorem single_writer {P : Pool Sequencer Label Op Res (Except Exc Reply)}
    {keys : PyStr → Option Verify} {verify : Verify} (hkey : keys cfg.key_id = some verify)
    (hsign : ∀ m, verify (cfg.sign m) m = true) (hs : Started cfg s)
    (h : Pool.Reach (exec cfg) (body cfg) s P) :
    ∃ es : List Json, (splitLines P.state.file).map loadsBytes = es.map some ∧
      es.length = P.state.seq ∧
      (∀ i e, es[i]? = some e → get e "seq" = .ok (.int (i + 1 : Nat)) ∧
        ∃ prev, headAt cfg.sha es i = some prev ∧ get e "prev" = .ok (.str prev)) ∧
      (∀ i e, s.entries.length ≤ i → es[i]? = some e → ∃ t ∈ P.threads,
        P.state.history[i]? = some (some t.tag, e) ∧
        get e "actor" = .ok (.str t.tag.2.principal)) ∧
      (∀ c principal params ack, (⟨c, .ret (.ok (.ack ack))⟩ : Thread ..) ∈ P.threads →
        c.2 = .submit principal params → ∃ e, 0 < ack.seq ∧ es[ack.seq - 1]? = some e ∧
          P.state.history[ack.seq - 1]? = some (some c, e) ∧ hashOf cfg.sha e = some ack.hash ∧
          (∃ event, params.get "event" = .str event ∧ get e "event" = .ok (.str event)) ∧
          get e "episode_id" = .ok (params.get "episode_id") ∧
          get e "data" = .ok (orEmpty (params.get "data"))) ∧
      (∀ a ∈ P.state.anchors, ∃ (n : Nat) (head : PyStr), index a "seq" = .ok (.int n) ∧
        index a "chain_head" = .ok (.str head) ∧ n ≤ es.length ∧
        headAt cfg.sha es n = some head) ∧
      ∃ r, verify_chain cfg.sha (some P.state.file) P.state.anchors keys = .ok r ∧ r.ok = true := by
  have hgood := reach_good hs h
  have hentries : ∀ {i : Nat} {c : Option Label} {e : Json},
      P.state.history[i]? = some (c, e) → P.state.entries[i]? = some e := by
    intro i c e he
    rw [Sequencer.entries, List.getElem?_map, he]
    rfl
  refine ⟨P.state.entries, splitLines_chainFile hgood.wf hgood.file, hgood.seq.symm, ?_, ?_, ?_, ?_,
    verify_good hgood hkey hsign⟩
  · intro i e he
    have hnum := numbered_getElem hgood.numbered he
    rw [Nat.zero_add] at hnum
    have hprev := prevOf_getElem hgood.linked he
    refine ⟨hnum, ?_⟩
    cases hp : headAt cfg.sha P.state.entries i with
    | some prev => exact ⟨prev, rfl, get_prev_of_prevOf (hprev.trans hp)⟩
    | none =>
      cases i with
      | zero => cases hp
      | succ j =>
        -- the entry before exists and has a hash
        exfalso
        have hj : j < P.state.entries.length := by
          have := (List.getElem?_eq_some_iff.1 he).1
          omega
        have hsome := hgood.linked.hash_isSome _ (List.getElem_mem hj)
        rw [headAt, List.getElem?_eq_getElem hj] at hp
        simp only [Option.bind_some] at hp
        rw [hp] at hsome
        cases hsome
  · intro i e hi he
    obtain ⟨new, hnew, hlabel⟩ := appended_by_thread h
    rw [Sequencer.entries, List.getElem?_map, Option.map_eq_some_iff] at he
    obtain ⟨⟨l, e'⟩, hget, rfl⟩ := he
    have hmem : (l, e') ∈ new := by
      rw [hnew, List.getElem?_append_right (by simpa [Sequencer.entries] using hi)] at hget
      exact List.mem_of_getElem? hget
    obtain ⟨t, ht, hl⟩ := hlabel _ hmem
    simp only at hl
    subst hl
    exact ⟨t, ht, hget, hgood.actor _ _ (List.mem_of_getElem? hget)⟩
  · intro c principal params ack hmem hc
    have hret := Pool.returned (discipline cfg) (Q := Returned cfg) (fun _ _ _ _ h => h)
      (fun c _ _ => body_wp c) (started_good hs) h hmem
    obtain ⟨e, hpos, hget, hhash, hevent, hep, hdata⟩ := hret principal params ack hc rfl
    exact ⟨e, hpos, hentries hget, hget, hhash, hevent, hep, hdata⟩
  · intro j hj
    obtain ⟨a, ha, b, _, rfl⟩ := hgood.anchors j hj
    obtain ⟨front, back, hcut, hlen, hl⟩ := hgood.made a ha
    refine ⟨a.seq, a.chain_head, signed_seq .., signed_head .., ?_, ?_⟩
    · rw [hcut, List.length_append, hlen]
      omega
    · have hhead := headAt_prefix back hl
      rwa [hlen, ← hcut] at hhead

theorem single_writer_example : ∃ P, Pool.Reach (exec exampleCfg) (body exampleCfg) .fresh P ∧
    P.state.anchors ≠ [] ∧
    ∃ es : List Json, (splitLines P.state.file).map loadsBytes = es.map some ∧ es.length = P.state.seq ∧
      ∃ r, verify_chain exampleCfg.sha (some P.state.file) P.state.anchors exampleKeys = .ok r ∧
        r.ok = true := by
  obtain ⟨P, hP, _, _, hanchors⟩ := exampleRun
  refine ⟨P, hP, by rw [hanchors]; exact List.cons_ne_nil _ _, ?_⟩
  obtain ⟨es, hes, hlen, _, _, _, _, hv⟩ := single_writer exampleKeys_trusts
    exampleVerify_sign .fresh hP
  exact ⟨es, hes, hlen, hv⟩

/-- **The anchored prefix cannot be changed unnoticed.** If `verify_chain` finds no error in any file
against anchors that include one this sequencer signed, the file's lines up to that anchor parse to
the sequencer's own entries, provided the hashes of the two files' entries do not collide. -/
theorem anchored_prefix {P : Pool Sequencer Label Op Res (Except Exc Reply)} (hs : Started cfg s)
    (h : Pool.Reach (exec cfg) (body cfg) s P) {a : Anchor} (ha : a ∈ P.state.made) {sig : Bytes}
    {file : Bytes} {anchors : List Json} {keys : PyStr → Option Verify} {r : Report}
    (hmem : a.signed cfg.key_id sig ∈ anchors)
    (hv : verify_chain cfg.sha (some file) anchors keys = .ok r) (hok : r.ok = true)
    (hsha : ∀ x y bx by', some x ∈ (splitLines P.state.file).map loadsBytes →
      some y ∈ (splitLines file).map loadsBytes → canonical x = some bx → canonical y = some by' →
      cfg.sha bx = cfg.sha by' → bx = by') :
    a.seq ≤ (splitLines file).length ∧ ∀ i < a.seq, ∃ e : Json,
      (splitLines file)[i]?.map loadsBytes = some (some e) ∧
      (splitLines P.state.file)[i]?.map loadsBytes = some (some e) := by
  have hgood := reach_good hs h
  have hown := splitLines_chainFile hgood.wf hgood.file
  -- what a run without errors went through
  unfold verify_chain at hv
  obtain ⟨w, hwalk, hv⟩ := bind_eq_ok.1 hv
  rw [Option.getD_some] at hwalk
  obtain ⟨sortedAnchors, hsort, hv⟩ := bind_eq_ok.1 hv
  obtain ⟨st, hloop, hv⟩ := bind_eq_ok.1 hv
  cases pure_eq_ok.1 hv
  have herr : st.1 = [] := List.isEmpty_iff.1 hok
  obtain ⟨hwerr, hstep⟩ := anchorLoop_sound (a := a.signed cfg.key_id sig) hloop herr
  obtain ⟨_, es, hparse, hlinked, hwseq, hashes, hhashes, hmap⟩ := walk_sound hwalk hwerr
  obtain ⟨s1, s2, hs12, hs2⟩ := hstep ((sortAnchors_perm hsort).mem_iff.2 hmem)
  have hlen : (splitLines file).length = es.length := by
    have := congrArg List.length hparse
    simpa using this
  obtain ⟨front, back, hcut, hflen, hfl⟩ := hgood.made a ha
  rcases Nat.eq_zero_or_pos a.seq with h0 | hpos
  · rw [h0]
    exact ⟨Nat.zero_le _, fun i hi => absurd hi (Nat.not_lt_zero i)⟩
  obtain ⟨hle, hget⟩ := anchorStep_sound hpos (signed_seq ..) (signed_head ..) hs12 hs2
  have hinit : Walk.init.hashes = [] ∧ Walk.init.seq = 0 := ⟨rfl, rfl⟩
  rw [hwseq, hinit.2, Nat.zero_add] at hle
  rw [hhashes, hinit.1, List.nil_append] at hget
  -- the walked prefix ends at the anchored hash
  have htake : LinkedEntries cfg.sha GENESIS (es.take a.seq) a.chain_head := by
    have hl := hlinked
    rw [← List.take_append_drop a.seq es] at hl
    obtain ⟨m, hm, _⟩ := hl.split
    have hhead := headAt_prefix (es.drop a.seq) hm
    obtain ⟨n, hn⟩ : ∃ n, a.seq = n + 1 := ⟨a.seq - 1, by omega⟩
    rw [List.take_append_drop, List.length_take_of_le hle, hn, headAt] at hhead
    have hkey : (es.map (hashOf cfg.sha))[n]? = some (some a.chain_head) := by
      rw [hn, Nat.add_sub_cancel] at hget
      rw [hmap, List.getElem?_map, hget]
      rfl
    rw [List.getElem?_map, Option.map_eq_some_iff] at hkey
    obtain ⟨e, he, hhe⟩ := hkey
    rw [he, Option.bind_some, hhe] at hhead
    cases hhead
    exact hm
  have hinj : ∀ x ∈ front, ∀ y ∈ es.take a.seq, ∀ d, hashOf cfg.sha x = some d →
      hashOf cfg.sha y = some d → x = y := by
    intro x hx y hy d hdx hdy
    obtain ⟨bx, hbx, rfl⟩ := Option.map_eq_some_iff.1 hdx
    obtain ⟨by', hby, hbeq⟩ := Option.map_eq_some_iff.1 hdy
    have hxmem : x ∈ P.state.entries := by
      rw [hcut]
      exact List.mem_append_left _ hx
    have hymem : some y ∈ (splitLines file).map loadsBytes := by
      rw [hparse]
      exact List.mem_map_of_mem (List.mem_of_mem_take hy)
    have hywf : y.WF := by
      obtain ⟨line, _, hline⟩ := List.mem_map.1 hymem
      exact loadsBytes_wf hline
    have hb' : bx = by' := by
      refine hsha x y bx by' ?_ hymem hbx hby hbeq.symm
      rw [hown]
      exact List.mem_map_of_mem hxmem
    exact canonical_injective (hgood.wf x hxmem) hywf hbx (hb' ▸ hby)
  have heq : front = es.take a.seq := by
    refine Linked.determined hinj hfl htake ?_
    rw [hflen, List.length_take_of_le hle]
  refine ⟨hlen ▸ hle, fun i hi => ?_⟩
  have hi' : i < es.length := by omega
  refine ⟨es[i], ?_, ?_⟩
  · rw [← List.getElem?_map, hparse, List.getElem?_map, List.getElem?_eq_getElem hi']
    rfl
  · have hfi : P.state.entries[i]? = some es[i] := by
      rw [hcut, List.getElem?_append_left (by omega), heq, List.getElem?_take_of_lt hi,
        List.getElem?_eq_getElem hi']
    rw [← List.getElem?_map, hown, List.getElem?_map, hfi]
    rfl

theorem anchored_prefix_example : ∃ P, Pool.Reach (exec exampleCfg) (body exampleCfg) .fresh P ∧
    1 ≤ (splitLines P.state.file).length ∧ ∀ i < 1, ∃ e : Json,
      (splitLines P.state.file)[i]?.map loadsBytes = some (some e) ∧
      (splitLines P.state.file)[i]?.map loadsBytes = some (some e) := by
  obtain ⟨P, hP, hentries, hmade, hanchors⟩ := exampleRun
  have hgood := reach_good .fresh hP
  have hparse := splitLines_chainFile hgood.wf hgood.file
  obtain ⟨r, hv, hok⟩ := verify_good hgood exampleKeys_trusts exampleVerify_sign
  have hmem : exampleAnchor ∈ P.state.made := by
    rw [hmade]
    exact List.mem_singleton.2 rfl
  have hput : exampleAnchor.signed exampleCfg.key_id exampleSig ∈ P.state.anchors := by
    rw [hanchors]
    exact List.mem_singleton.2 rfl
  refine ⟨P, hP, anchored_prefix .fresh hP hmem hput hv hok ?_⟩
  intro x y bx by' hx hy hbx hby _
  rw [hparse, hentries] at hx hy
  cases List.mem_singleton.1 hx
  cases List.mem_singleton.1 hy
  exact Option.some.inj (hbx.symm.trans hby)

end Valops.Audit
