import Valops.Conc.Local
import Valops.Audit.SingleWriter

/-!
# What the sequencer's threads know

The demands on the operations of the three calls: an anchor is signed for a head that the thread has
read, put once it is signed, and recorded once it is put; a checkpoint is recorded as accepted by the
thread that has accepted it. A submission may name any event.

Main results: `body_local`; `exec_good` and `exec_knows`, what an operation that meets its demands
does.
-/

set_option autoImplicit false

namespace Valops.Audit

open Py Conc

/-- What a thread has read, signed, put and accepted. -/
structure Known where
  heads : List (Nat × PyStr) := []
  signed : List Json := []
  put : List Json := []
  accepted : Option (Json × Json) := none

/-- Whether `_load` takes the last checkpoint from an entry. -/
def accepting (event : PyStr) (data : Json) : Bool :=
  decide (event = py "observe_checkpoint") &&
    match get data "accepted" with
    | .ok v => v.truthy
    | .error _ => false

/-- `_load` takes nothing from an entry. -/
def Plain (event : PyStr) (data : Json) : Prop := event ≠ py "anchor" ∧ accepting event data = false

/-- The data of an `anchor` entry name an anchor. -/
def Records (data anchor : Json) : Prop :=
  ∃ seq head, index data "anchored_seq" = .ok seq ∧ index anchor "seq" = .ok seq ∧
    index data "chain_head" = .ok head ∧ index anchor "chain_head" = .ok head

/-- The data of the entry that records an accepted checkpoint. -/
def acceptedData (last : Json × Json) : Json :=
  Json.mkObj [(py "seq", last.1), (py "head", last.2), (py "accepted", .bool true)]

/-- A call of `submit`. -/
def Call.Submits (c : Call) : Prop := ∃ principal params, c = .submit principal params

/-- An append. -/
def Op.Appends : Op → Prop
  | .append .. => True
  | _ => False

/-- What the data of an entry may be for who appends it. -/
def Warranted (c : Label) (κ : Known) (event : PyStr) (data : Json) : Prop :=
  c.2.Submits ∨ Plain event data ∨ (event = py "anchor" ∧ ∃ a ∈ κ.put, Records data a) ∨
    ∃ last, κ.accepted = some last ∧ event = py "observe_checkpoint" ∧ data = acceptedData last

/-- The values of an entry came out of the decoder. -/
structure Decoded (episode_id data payload_ref : Json) : Prop where
  episode_wf : episode_id.WF
  data_wf : data.WF
  ref_wf : payload_ref.WF
  object : ∃ kvs, data = .obj kvs

section Knowledge

variable (cfg : SeqConfig)

/-- The demands on the operations of a thread. -/
def demands (c : Label) (κ : Known) : Op → Prop
  | .append actor event episode_id data payload_ref =>
    actor = c.2.principal ∧ Decoded episode_id data payload_ref ∧ Warranted c κ event data
  | .sign a body => (a.seq, a.chain_head) ∈ κ.heads ∧ anchor_body (a.unsigned cfg.key_id) = .ok body
  | .put a => a ∈ κ.signed
  | _ => True

/-- What an operation adds to what a thread knows. -/
def learned (κ : Known) : (o : Op) → Res o → Known
  | .read_head, r => { κ with heads := r :: κ.heads }
  | .sign a _, r => { κ with signed := a.signed cfg.key_id r :: κ.signed }
  | .put a, .ok _ => { κ with put := a :: κ.put }
  | .set_daemon_last last, _ => { κ with accepted := some last }
  | .append _ event _ data _, .ok _ => if accepting event data then { κ with accepted := none } else κ
  | _, _ => κ

/-- The knowledge of a thread. -/
def knowledge (c : Label) : Knowledge Known Op Res := ⟨demands cfg c, learned cfg⟩

end Knowledge

section Bodies

variable {cfg : SeqConfig} {c : Label} {κ : Known} {α : Type}

/-- An append whose result decides only whether the thread goes on. -/
theorem localE_append {actor event : PyStr} {episode_id data payload_ref : Json}
    {f : Ack → Method α} (hactor : actor = c.2.principal)
    (hdec : Decoded episode_id data payload_ref) (hok : Warranted c κ event data)
    (h : ∀ a κ', LocalE (knowledge cfg c) κ' (f a) fun _ _ => True) :
    LocalE (knowledge cfg c) κ (run_append actor event episode_id data payload_ref >>= f)
      fun _ _ => True := by
  refine localE_bind ⟨⟨hactor, hdec, hok⟩, fun r => ?_⟩
  cases r with
  | ok a => exact h a _
  | error e => exact trivial

theorem localE_compute {β : Type} {x : Except Exc β} {f : β → Method α}
    (h : ∀ a, x = .ok a → LocalE (knowledge cfg c) κ (f a) fun _ _ => True) :
    LocalE (knowledge cfg c) κ (compute x >>= f) fun _ _ => True := by
  apply localE_bind
  cases x with
  | ok a => exact h a rfl
  | error e => exact trivial

theorem submit_local {principal : PyStr} {params : Params} (hc : c.2 = .submit principal params) :
    LocalE (knowledge cfg c) {} (submit principal params) fun _ _ => True := by
  have hactor : principal = c.2.principal := by
    rw [hc]
    rfl
  have hlast : ∀ {event : PyStr} {data ref : Json} {κ : Known}, data.WF → (∃ kvs, data = .obj kvs) →
      ref.WF → LocalE (knowledge cfg c) κ
        (Reply.ack <$> run_append principal event (params.get "episode_id") data ref)
        fun _ _ => True := by
    intro event data ref κ hdata hobj href
    exact localE_append hactor ⟨params.wf_get _, hdata, href, hobj⟩ (.inl ⟨_, _, hc⟩)
      fun _ _ => trivial
  unfold submit
  refine localE_compute fun event _ => localE_compute fun data hdata =>
    localE_compute fun raw _ => ?_
  have hobj : ∃ kvs, data = .obj kvs := by
    unfold checkData at hdata
    split at hdata
    · cases hdata
      exact ⟨_, rfl⟩
    · cases hdata
  have hwf : data.WF := by
    rw [checkData_eq_ok hdata]
    exact wf_orEmpty (params.wf_get _)
  cases raw with
  | none => exact hlast hwf hobj .null
  | some raw =>
    refine localE_bind ⟨trivial, fun r => ?_⟩
    cases r with
    | ok ref => exact hlast hwf hobj (.str _)
    | error e => exact trivial

theorem anchor_now_local (hc : c.2 = .anchor_now) :
    LocalE (knowledge cfg c) {} (anchor_now cfg) fun _ _ => True := by
  have hactor : py "audit_sequencer" = c.2.principal := by
    rw [hc]
    rfl
  unfold anchor_now
  refine localE_bind ⟨trivial, fun ⟨seq, head⟩ => localE_bind ⟨trivial, fun ts_ms => ?_⟩⟩
  refine localE_compute fun body hbody => localE_bind ⟨⟨List.mem_cons_self, hbody⟩, fun sig => ?_⟩
  refine localE_bind ⟨List.mem_cons_self, fun r => ?_⟩
  cases r with
  | error e => exact trivial
  | ok u =>
    refine localE_bind ⟨trivial, fun _ => ?_⟩
    refine localE_append hactor ⟨.null, Json.wf_mkObj (by simp), .null, _, rfl⟩ ?_ fun _ _ => trivial
    exact .inr (.inr (.inl ⟨rfl, _, List.mem_cons_self, .int seq, .str head, rfl, rfl, rfl, rfl⟩))

theorem record_daemon_checkpoint_local {ckpt : Params} :
    LocalE (knowledge cfg c) {} (record_daemon_checkpoint cfg c.2.principal ckpt)
      fun _ _ => True := by
  have hfields : ∀ {seq head : Json} {b : Bool} (more : Fields), seq.WF → head.WF →
      (∀ kv ∈ more, kv.2.WF) →
      (Json.mkObj ([(py "seq", seq), (py "head", head), (py "accepted", .bool b)] ++ more)).WF := by
    intro seq head b more h1 h2 h3
    apply Json.wf_mkObj
    refine List.forall_mem_append.2 ⟨?_, h3⟩
    simp only [List.forall_mem_cons, List.not_mem_nil, false_imp_iff, implies_true, and_true]
    exact ⟨h1, h2, .bool b⟩
  have hwhat : ∀ text : PyStr, Decoded .null (Json.mkObj [(py "what", .str text)]) .null :=
    fun text => ⟨.null, Json.wf_mkObj (List.forall_mem_singleton.2 (.str text)), .null, _, rfl⟩
  have hfail : ∀ (κ : Known) (data : Json), Warranted c κ (py "integrity_fail") data := by
    intro κ data
    refine .inr (.inl ⟨by decide, ?_⟩)
    rw [accepting, decide_eq_false (by decide), Bool.false_and]
  unfold record_daemon_checkpoint
  refine localE_compute fun verify _ => localE_compute fun body _ => localE_compute fun sigText _ =>
    localE_compute fun sig _ => ?_
  split
  · exact localE_append rfl (hwhat _) (hfail _ _) fun _ _ => trivial
  · refine localE_bind ⟨trivial, fun last => localE_compute fun problem _ =>
      localE_compute fun seq hseq => localE_compute fun head hhead => ?_⟩
    have hwseq : seq.WF := wf_index ckpt.wf hseq
    have hwhead : head.WF := wf_index ckpt.wf hhead
    cases problem with
    | some text =>
      refine localE_append rfl (hwhat text) (hfail _ _) fun _ _ => ?_
      refine localE_append rfl
        ⟨.null, hfields _ hwseq hwhead (List.forall_mem_singleton.2 (.str text)), .null, _, rfl⟩
        (.inr (.inl ⟨by decide, ?_⟩)) fun _ _ => trivial
      rfl
    | none =>
      refine localE_bind ⟨trivial, fun _ => ?_⟩
      refine localE_append rfl
        ⟨.null, hfields [] hwseq hwhead fun _ h => absurd h List.not_mem_nil, .null, _, rfl⟩
        (.inr (.inr (.inr ⟨(seq, head), rfl, rfl, rfl⟩))) fun _ _ => trivial

/-- **Every call meets its demands.** -/
theorem body_local (c : Label) : Local (knowledge cfg c) {} (body cfg c) fun _ _ => True := by
  obtain ⟨n, call⟩ := c
  cases call with
  | submit principal params => exact submit_local rfl
  | anchor_now => exact anchor_now_local rfl
  | record_daemon_checkpoint ckpt => exact record_daemon_checkpoint_local

end Bodies

/-! ## Knowledge and the chain -/

/-- What a thread knows, of the shared object. -/
structure Knows (cfg : SeqConfig) (κ : Known) (s : Sequencer) : Prop where
  heads : ∀ h ∈ κ.heads, ∃ front back, s.entries = front ++ back ∧ front.length = h.1 ∧
    HashChain.Linked (hashOf cfg.sha) prevOf GENESIS front h.2
  signed : ∀ j ∈ κ.signed, ∃ a ∈ s.made, ∃ b, anchor_body (a.unsigned cfg.key_id) = .ok b ∧
    j = a.signed cfg.key_id (cfg.sign b)
  put : ∀ j ∈ κ.put, j ∈ s.anchors

section Exec

variable {cfg : SeqConfig} {c : Label} {κ : Known} {s s' : Sequencer} {o : Op} {r : Res o}

theorem Knows.empty : Knows cfg {} s := ⟨nofun, nofun, nofun⟩

/-- Knowledge lasts while entries and anchors are only added. -/
theorem Knows.grows (h : Knows cfg κ s) (hgrows : Grows s s') (hanchors : s.anchors ⊆ s'.anchors) :
    Knows cfg κ s' := by
  refine ⟨fun x hx => hgrows.front (h.heads x hx), ?_, fun j hj => hanchors (h.put j hj)⟩
  intro j hj
  obtain ⟨a, ha, hrest⟩ := h.signed j hj
  exact ⟨a, hgrows.made a ha, hrest⟩

/-- An operation that meets its demands keeps the invariant of the chain. -/
theorem exec_good (hs : Good cfg s) (hκ : Knows cfg κ s) (hpre : demands cfg c κ o)
    (h : exec cfg c s o r s') : Good cfg s' ∧ Grows s s' ∧ s.anchors ⊆ s'.anchors := by
  cases o with
  | append actor event episode_id data payload_ref =>
    obtain ⟨hactor, hdec, _⟩ := hpre
    obtain ⟨hgood, hgrows, _⟩ := append_spec hs hactor hdec.1 hdec.2 hdec.3 h
    refine ⟨hgood, hgrows, ?_⟩
    obtain ⟨ts, hts⟩ := h
    simp only [append] at hts
    split at hts <;> cases hts <;> exact fun j hj => hj
  | store_payload raw =>
    have h : store_payload cfg s raw = (r, s') := h
    unfold store_payload at h
    split at h
    · cases h
      exact ⟨hs, .refl s, fun j hj => hj⟩
    · cases h
      rw [← and_assoc]
      exact ⟨good_of_eq hs rfl rfl rfl rfl rfl rfl, fun j hj => hj⟩
  | read_head =>
    obtain ⟨_, rfl⟩ := h
    exact ⟨hs, .refl s', fun j hj => hj⟩
  | ts_ms =>
    obtain rfl : s' = s := h
    exact ⟨hs, .refl s', fun j hj => hj⟩
  | sign a body =>
    obtain ⟨_, rfl⟩ := h
    exact ⟨sign_good hs (hκ.heads _ hpre.1), ⟨List.prefix_refl _,
      fun x hx => List.mem_append_left _ hx⟩, fun j hj => hj⟩
  | put a =>
    cases r with
    | ok u =>
      obtain rfl : s' = _ := h
      obtain ⟨a', ha', b, hb, rfl⟩ := hκ.signed _ hpre
      exact ⟨put_good hs ha' hb, ⟨List.prefix_refl _, fun x hx => hx⟩,
        fun j hj => List.mem_append_left _ hj⟩
    | error e =>
      obtain rfl : s' = s := h
      exact ⟨hs, .refl s', fun j hj => hj⟩
  | set_anchor_ts =>
    obtain ⟨t, rfl⟩ := h
    rw [← and_assoc]
    exact ⟨good_of_eq hs rfl rfl rfl rfl rfl rfl, fun j hj => hj⟩
  | read_daemon_last =>
    obtain ⟨_, rfl⟩ := h
    exact ⟨hs, .refl s', fun j hj => hj⟩
  | set_daemon_last last =>
    obtain rfl : s' = _ := h
    rw [← and_assoc]
    exact ⟨good_of_eq hs rfl rfl rfl rfl rfl rfl, fun j hj => hj⟩

/-- Only an append writes to the chain. -/
theorem exec_quiet (h : exec cfg c s o r s') (hquiet : ¬ o.Appends) : s'.file = s.file ∧
    s'.seq = s.seq ∧ s'.head = s.head ∧ s'.history = s.history := by
  cases o with
  | append actor event episode_id data payload_ref => exact absurd trivial hquiet
  | store_payload raw =>
    have h : store_payload cfg s raw = (r, s') := h
    unfold store_payload at h
    split at h <;> cases h <;> exact ⟨rfl, rfl, rfl, rfl⟩
  | read_head =>
    obtain ⟨_, rfl⟩ := h
    exact ⟨rfl, rfl, rfl, rfl⟩
  | ts_ms =>
    obtain rfl : s' = s := h
    exact ⟨rfl, rfl, rfl, rfl⟩
  | sign a body =>
    obtain ⟨_, rfl⟩ := h
    exact ⟨rfl, rfl, rfl, rfl⟩
  | put a =>
    cases r with
    | ok u =>
      obtain rfl : s' = _ := h
      exact ⟨rfl, rfl, rfl, rfl⟩
    | error e =>
      obtain rfl : s' = s := h
      exact ⟨rfl, rfl, rfl, rfl⟩
  | set_anchor_ts =>
    obtain ⟨t, rfl⟩ := h
    exact ⟨rfl, rfl, rfl, rfl⟩
  | read_daemon_last =>
    obtain ⟨_, rfl⟩ := h
    exact ⟨rfl, rfl, rfl, rfl⟩
  | set_daemon_last last =>
    obtain rfl : s' = _ := h
    exact ⟨rfl, rfl, rfl, rfl⟩

/-- What a thread learns from an operation is so. -/
theorem exec_knows (hs : Good cfg s) (hκ : Knows cfg κ s) (hpre : demands cfg c κ o)
    (h : exec cfg c s o r s') : Knows cfg (learned cfg κ o r) s' := by
  obtain ⟨_, hgrows, hanchors⟩ := exec_good hs hκ hpre h
  have hkept := hκ.grows hgrows hanchors
  cases o with
  | read_head =>
    obtain ⟨rfl, rfl⟩ := h
    refine ⟨List.forall_mem_cons.2 ⟨?_, hkept.heads⟩, hkept.signed, hkept.put⟩
    exact ⟨s'.entries, [], (List.append_nil _).symm, hs.seq.symm, hs.linked⟩
  | sign a body =>
    obtain ⟨rfl, rfl⟩ := h
    refine ⟨hkept.heads, List.forall_mem_cons.2 ⟨?_, hkept.signed⟩, hkept.put⟩
    exact ⟨a, List.mem_append_right _ (List.mem_singleton_self a), body, hpre.2, rfl⟩
  | put a =>
    cases r with
    | ok u =>
      obtain rfl : s' = _ := h
      refine ⟨hkept.heads, hkept.signed, List.forall_mem_cons.2 ⟨?_, hkept.put⟩⟩
      exact List.mem_append_right _ (List.mem_singleton_self a)
    | error e => exact hkept
  | append actor event episode_id data payload_ref =>
    cases r with
    | ok a =>
      show Knows cfg (if accepting event data then _ else κ) s'
      split <;> exact ⟨hkept.heads, hkept.signed, hkept.put⟩
    | error e => exact hkept
  | set_daemon_last last => exact ⟨hkept.heads, hkept.signed, hkept.put⟩
  | store_payload raw => exact hkept
  | ts_ms => exact hkept
  | set_anchor_ts => exact hkept
  | read_daemon_last => exact hkept

end Exec

end Valops.Audit
