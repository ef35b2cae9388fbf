import Valops.Audit.Recovery
import Valops.Conc.Runs
import Valops.Observer.Chain

/-!
# Forwarding checkpoints

The daemon with its chain file, the sequencer, and the broker that asks the sequencer for the last
checkpoint, the daemon for one since then, and hands it to the sequencer. Both ends may restart at
any point; the sequencer's handler runs one operation at a time, between operations of its other
threads, and dies with the process. While the daemon is down its file may be replaced.

`seen` and `outcomes` are only recorded: the entries the daemon has held, and what became of each
forwarded checkpoint, with the chain it was made from.

Main result: `checkpoints_guarded`.
-/

set_option autoImplicit false

namespace Valops.Observer

open Py Audit HashChain Conc

/-- `daemon_last`. -/
abbrev Last := Option (Json × Json)

/-- `last["seq"] if last else None`, as it arrives at the daemon. -/
def sinceOf (last : Last) : Option Nat := last.bind fun l => asNat l.1

/-- The label of the handler of a forwarded checkpoint. -/
def handler (ck : Params) : Label := (0, .record_daemon_checkpoint ck)

/-- Where the broker is in `forward_checkpoint`, with the chain its checkpoint was made from. While
the handler runs, `last` is what `daemon_last` was when it started. -/
inductive Phase where
  | idle
  | asked (since : Option Nat)
  | fetched (src : List Json) (ck : Params)
  | recording (src : List Json) (last : Last) (ck : Params) (p : Prog Op Res (Except Exc Reply))

/-- What became of a forwarded checkpoint. -/
structure Outcome where
  src : List Json
  result : Except Exc Reply

/-- The three parties. -/
structure Site where
  file : Bytes := []
  chain : Option LocalChain := none
  seqr : Sequencer := .fresh
  phase : Phase := .idle
  seen : List Json := []
  outcomes : List Outcome := []

/-- An operation that records no checkpoint as accepted. -/
def Quiet : Op → Prop
  | .append _ event _ data _ => accepting event data = false
  | .set_daemon_last _ => False
  | _ => True

/-- An operation of another thread of the sequencer: one that meets the demands on threads, and
records no checkpoint. -/
def Elsewhere (cfg : SeqConfig) (s s' : Sequencer) : Prop :=
  ∃ (c : Label) (κ : Known) (o : Op) (r : Res o), Knows cfg κ s ∧ demands cfg c κ o ∧ Quiet o ∧
    exec cfg c s o r s'

/-- What can happen. -/
inductive SiteAct where
  | start | stop | serve | replace (file : Bytes) | elsewhere | ask | fetch | giveUp | send | handle
  | reply | restart

/-- The phase after the sequencer has died. -/
def Phase.cut : Phase → Phase
  | .recording .. => .idle
  | p => p

/-- The next entry number of the sequencer has no more digits than `str` prints. -/
def Short (s : Sequencer) : Prop := (Json.int (s.seq + 1 : Nat)).printable = true

instance (s : Sequencer) : Decidable (Short s) := inferInstanceAs (Decidable (_ = true))

/-- One step. -/
inductive SiteStep (cfg : SeqConfig) (sign : Bytes → Bytes) (x : Site) : SiteAct → Site → Prop
  | start {c : LocalChain} (down : x.chain = none) (up : loadChain cfg.sha x.file = .ok c) :
      SiteStep cfg sign x .start { x with chain := some c, seen := x.seen ++ c.entries }
  | stop : SiteStep cfg sign x .stop { x with chain := none }
  | serve {c : LocalChain} {ts : Double} {served : Served} (up : x.chain = some c) :
      SiteStep cfg sign x .serve { x with
        chain := some (c.append cfg.sha x.file ts served).1
        file := (c.append cfg.sha x.file ts served).2
        seen := x.seen ++ (c.append cfg.sha x.file ts served).1.entries }
  | replace {file : Bytes} (down : x.chain = none) :
      SiteStep cfg sign x (.replace file) { x with file := file }
  | elsewhere {s : Sequencer} (h : Elsewhere cfg x.seqr s) :
      SiteStep cfg sign x .elsewhere { x with seqr := s }
  | ask (idle : x.phase = .idle) :
      SiteStep cfg sign x .ask { x with phase := .asked (sinceOf x.seqr.daemon_last) }
  | fetch {c : LocalChain} {since : Option Nat} {ts : Double} {kvs : Fields}
      (asked : x.phase = .asked since) (up : x.chain = some c)
      (made : c.checkpoint sign since ts = .ok kvs) :
      SiteStep cfg sign x .fetch { x with
        phase := .fetched c.entries (Params.ofFields kvs (checkpoint_wf made)) }
  | giveUp (waiting : ∀ src last ck p, x.phase ≠ .recording src last ck p) :
      SiteStep cfg sign x .giveUp { x with phase := .idle }
  | send {src : List Json} {ck : Params} (fetched : x.phase = .fetched src ck) :
      SiteStep cfg sign x .send { x with
        phase := .recording src x.seqr.daemon_last ck (body cfg (handler ck)) }
  | handle {src : List Json} {last : Last} {ck : Params} {o : Op}
      {k : Res o → Prog Op Res (Except Exc Reply)} {r : Res o} {s : Sequencer}
      (at_op : x.phase = .recording src last ck (.step o k))
      (short : Short x.seqr)
      (run : exec cfg (handler ck) x.seqr o r s) :
      SiteStep cfg sign x .handle { x with seqr := s, phase := .recording src last ck (k r) }
  | reply {src : List Json} {last : Last} {ck : Params} {r : Except Exc Reply}
      (at_end : x.phase = .recording src last ck (.ret r)) :
      SiteStep cfg sign x .reply { x with phase := .idle, outcomes := x.outcomes ++ [⟨src, r⟩] }
  | restart {s : Sequencer} (up : Audit.restart cfg x.seqr = .ok s) :
      SiteStep cfg sign x .restart { x with seqr := s, phase := x.phase.cut }

/-! ## What the chain of the sequencer records -/

section Recorded

variable {cfg : SeqConfig} {s s' : Sequencer} {d d' : Last} {c : Label}

/-- The last accepted checkpoint that the chain records: what a restart finds. -/
def Recorded (cfg : SeqConfig) (s : Sequencer) (d : Last) : Prop :=
  ∃ ts, loadEntries cfg 1 s.entries .init = .ok ⟨s.seq, s.head, ts, d, none⟩

theorem Recorded.unique (h : Recorded cfg s d) (h' : Recorded cfg s d') : d = d' := by
  obtain ⟨ts, hts⟩ := h
  obtain ⟨ts', hts'⟩ := h'
  cases hts.symm.trans hts'
  rfl

theorem recorded_fresh : Recorded cfg .fresh none := ⟨.null, rfl⟩

/-- An operation that leaves the chain alone. -/
theorem Recorded.same (h : Recorded cfg s d) (hhistory : s'.history = s.history)
    (hseq : s'.seq = s.seq) (hhead : s'.head = s.head) : Recorded cfg s' d := by
  obtain ⟨ts, hts⟩ := h
  refine ⟨ts, ?_⟩
  rw [Sequencer.entries, hhistory, hseq, hhead]
  exact hts

/-- What an append does: nothing, or its entry, and what that records. -/
theorem Recorded.append (h : Recorded cfg s d) (hgood : Good cfg s) {actor event : PyStr}
    {episode_id data payload_ref : Json} {r : Except Exc Ack} (hobj : ∃ kvs, data = .obj kvs)
    (hd : checkpointAfter event data d = .ok d')
    (hexec : exec cfg c s (.append actor event episode_id data payload_ref) r s') :
    s'.daemon_last = s.daemon_last ∧ (s' = s ∧ (∃ e, r = .error e) ∧
        (∃ ts, canonical (entry s ts actor event episode_id data payload_ref) = none) ∨
      Recorded cfg s' d' ∧ ∃ a, r = .ok a) := by
  obtain ⟨ts, hts⟩ := hexec
  simp only [Audit.append] at hts
  split at hts
  · rename_i hnone
    obtain ⟨rfl, rfl⟩ := Prod.mk.inj hts
    exact ⟨rfl, .inl ⟨rfl, ⟨_, rfl⟩, ts, hnone⟩⟩
  · rename_i b hb
    obtain ⟨rfl, rfl⟩ := Prod.mk.inj hts
    refine ⟨rfl, .inr ⟨?_, _, rfl⟩⟩
    obtain ⟨t, hload⟩ := h
    have hentries : Sequencer.entries { s with
        file := s.file ++ (b ++ [10])
        seq := s.seq + 1
        head := cfg.sha b
        history := s.history ++ [(some c, entry s ts actor event episode_id data payload_ref)] } =
        s.entries ++ [entry s ts actor event episode_id data payload_ref] := List.map_append
    refine ⟨if event = py "anchor" then .float ts else t, ?_⟩
    rw [hentries, loadEntries_snoc, hload, ok_bind, Nat.add_comm 1, ← hgood.seq,
      loadEntry_entry hobj hb, hd]
    rfl

/-- What other threads do leaves the last checkpoint alone. -/
theorem Elsewhere.spec (h : Elsewhere cfg s s') (hgood : Good cfg s) : Good cfg s' ∧
    s'.daemon_last = s.daemon_last ∧ ∀ d, Recorded cfg s d → Recorded cfg s' d := by
  obtain ⟨c, κ, o, r, hknows, hpre, hquiet, hexec⟩ := h
  obtain ⟨hgood', _, _⟩ := exec_good hgood hknows hpre hexec
  refine ⟨hgood', ?_, ?_⟩
  · rcases @liveExec_last cfg c κ ⟨s, []⟩ ⟨s', _⟩ o r ⟨hexec, rfl⟩ with ⟨last, rfl, _⟩ | ⟨_, hlast, _⟩
    · exact hquiet.elim
    · exact hlast
  · intro d hd
    by_cases happends : o.Appends
    · cases o with
      | append actor event episode_id data payload_ref =>
        have hafter : checkpointAfter event data d = .ok d := by
          rw [checkpointAfter, show accepting event data = false from hquiet]
          rfl
        obtain ⟨_, hsame | hdone⟩ := hd.append hgood hpre.2.1.object hafter hexec
        · rw [hsame.1]
          exact hd
        · exact hdone.1
      | _ => exact happends.elim
    · obtain ⟨_, hseq, hhead, hhistory⟩ := exec_quiet hexec happends
      exact hd.same hhistory hseq hhead

/-- The operations of the threads of any pool are such operations, if they record no checkpoint. -/
theorem thread_elsewhere (hgood : Good cfg s) {P : Pool Sequencer Label Op Res (Except Exc Reply)}
    (h : Pool.Reach (exec cfg) (body cfg) s P) {o : Op} {k : Res o → Prog Op Res (Except Exc Reply)}
    {r : Res o} (hmem : ⟨c, .step o k⟩ ∈ P.threads) (hquiet : Quiet o)
    (hexec : exec cfg c P.state o r s') : Elsewhere cfg P.state s' := by
  have hstep : ∀ c κ s o r s', Good cfg s → Knows cfg κ s → (knowledge cfg c).pre κ o →
      exec cfg c s o r s' → Kept (Good cfg) (fun _ => Knows cfg) c ((knowledge cfg c).learn κ o r) s s' := by
    intro c κ s o r s' hs hκ hpre hr
    obtain ⟨hs', hgrows, hanchors⟩ := exec_good hs hκ hpre hr
    exact ⟨hs', exec_knows hs hκ hpre hr, fun _ _ _ hother => hother.grows hgrows hanchors⟩
  obtain ⟨_, _, hts⟩ := Pool.local_sound (knowledge cfg) hstep body_local (fun _ _ _ => .empty) hgood h
  obtain ⟨κ, hκ, hlocal⟩ := hts _ hmem
  exact ⟨c, κ, o, r, hκ, hlocal.1, hquiet, hexec⟩

/-- **A restart finds the last checkpoint that was recorded.** -/
theorem Recorded.restart (h : Recorded cfg s d) (hgood : Good cfg s)
    (hup : Audit.restart cfg s = .ok s') :
    Good cfg s' ∧ s'.daemon_last = d ∧ Recorded cfg s' d := by
  have hgood' := good_restart hgood hup
  unfold Audit.restart at hup
  obtain ⟨l, hl, hup⟩ := bind_eq_ok.1 hup
  cases pure_eq_ok.1 hup
  obtain ⟨ts, hts⟩ := h
  rw [loadLines_eq (splitLines_chainFile hgood.wf hgood.file)] at hl
  cases hl.symm.trans hts
  refine ⟨hgood', rfl, ts, ?_⟩
  have hentries : Sequencer.entries { s with
      seq := s.seq
      head := s.head
      last_anchor_ts := ts
      daemon_last := d
      integrity_error := none
      history := s.history.map fun x => (none, x.2) } = s.entries := by
    rw [Sequencer.entries, List.map_map]
    rfl
  rw [hentries]
  exact hts

end Recorded

/-! ## The handler -/

/-- The daemon's key is the one the sequencer verifies with; hashes and printed integers have no
lone surrogates. -/
structure Keyed (cfg : SeqConfig) (sign : Bytes → Bytes) : Prop where
  verifier : ∃ verify, cfg.daemon_verifier = some verify ∧ ∀ body, verify (sign body) body = true
  hash_text : ∀ b, (cfg.sha b).all isScalar = true
  int_text : ∀ z, (cfg.str (.int z)).all isScalar = true

/-- The last checkpoint is the end of this chain. -/
def Marks (sha : Bytes → PyStr) (es : List Json) (last : Last) : Prop :=
  ∃ h, last = some (.int es.length, .str h) ∧ LinkedEntries sha GENESIS es h

/-- Nothing has been accepted, or the chain still has the hash at the last checkpoint. -/
def Accepts (sha : Bytes → PyStr) (src : List Json) (last : Last) : Prop :=
  last = none ∨ ∃ k h, last = some (.int (k : Nat), .str h) ∧ k ≤ src.length ∧ headAt sha src k = some h

section Handler

variable {cfg : SeqConfig} {sign : Bytes → Bytes} {src g : List Json} {last : Last} {ck : Params}

theorem pyEq_int_self (z : Int) : (Json.int z).pyEq (.int z) = true := by
  simp only [Json.pyEq, Json.numEq, Json.num, Json.Num.eq, beq_self_eq_true]

theorem pyEq_optText (s : Option PyStr) (h : PyStr) :
    (optText s).pyEq (.str h) = true ↔ s = some h := by
  cases s with
  | none => exact iff_of_false nofun nofun
  | some k =>
    show Json.eqStr (.str h) k = true ↔ some k = some h
    rw [Json.eqStr_iff, Json.str.injEq, Option.some.injEq, eq_comm]

section Problem

variable {n recorded : Nat} {h : PyStr} (hseq : index (.obj ck.fields) "seq" = .ok (.int n))
include hseq

/-- The first check. -/
theorem checkpointProblem_truncated (hlt : n < recorded) :
    checkpointProblem cfg ck (some (.int recorded, .str h)) = .ok (some
      (py "daemon chain truncated: seq " ++ cfg.str (.int n) ++ py " < recorded " ++
        cfg.str (.int recorded))) := by
  have hlower : orRaise (Json.pyLt (.int n) (.int recorded)) (.other .typeError) = .ok true := by
    rw [Json.pyLt_int, decide_eq_true (Nat.cast_lt.2 hlt)]
    rfl
  rw [checkpointProblem, hseq, ok_bind, hlower, ok_bind, if_pos rfl]
  rfl

/-- The second check. -/
theorem checkpointProblem_reached (hle : recorded ≤ n)
    (hsince : ck.get "since_seq" = .int recorded) :
    checkpointProblem cfg ck (some (.int recorded, .str h)) = .ok
      (if (ck.get "since_head").pyEq (.str h) then none
      else some (py "daemon chain rewritten: hash at last recorded seq differs")) := by
  have hlower : orRaise (Json.pyLt (.int n) (.int recorded)) (.other .typeError) = .ok false := by
    rw [Json.pyLt_int, decide_eq_false (fun h => Nat.not_lt.2 hle (Nat.cast_lt.1 h))]
    rfl
  rw [checkpointProblem, hseq, ok_bind, hlower, ok_bind, if_neg Bool.false_ne_true, hsince,
    pyEq_int_self]
  cases (ck.get "since_head").pyEq (.str h) <;> rfl

end Problem

/-- The check on a checkpoint is the comparison of the two chains. -/
theorem checkpointProblem_spec (hkeys : Keyed cfg sign)
    (hck : CheckpointOf cfg.sha sign src (sinceOf last) ck)
    (hlast : last = none ∨ ∃ g, Marks cfg.sha g last) :
    (Accepts cfg.sha src last ∧ checkpointProblem cfg ck last = .ok none) ∨
    (¬ Accepts cfg.sha src last ∧ ∃ text, checkpointProblem cfg ck last = .ok (some text) ∧
      text.all isScalar = true) := by
  rcases hlast with rfl | ⟨g, h, rfl, _⟩
  · exact .inl ⟨.inl rfl, rfl⟩
  rcases Nat.lt_or_ge src.length g.length with hlt | hge
  · refine .inr ⟨?_, _, checkpointProblem_truncated hck.seq hlt, ?_⟩
    · rintro (hnone | ⟨k, h', heq, hle, _⟩)
      · cases hnone
      · cases heq
        omega
    · have hplain : (py "daemon chain truncated: seq ").all isScalar = true ∧
          (py " < recorded ").all isScalar = true := by
        decide +kernel
      simp only [List.all_append, hkeys.int_text, hplain.1, hplain.2, Bool.and_self]
  · obtain ⟨hsince, hhead⟩ := hck.since g.length rfl hge
    rw [checkpointProblem_reached hck.seq hge hsince, hhead]
    by_cases heq : headAt cfg.sha src g.length = some h
    · rw [if_pos ((pyEq_optText _ _).2 heq)]
      exact .inl ⟨.inr ⟨g.length, h, rfl, hge, heq⟩, rfl⟩
    · rw [if_neg fun hsame => heq ((pyEq_optText _ _).1 hsame)]
      refine .inr ⟨?_, _, rfl, by decide +kernel⟩
      rintro (hnone | ⟨k, h', heq', _, hhead'⟩)
      · cases hnone
      · cases heq'
        exact heq hhead'

/-- While the handler runs, the chain records the last checkpoint, or the new one once it is
accepted. -/
structure Window (cfg : SeqConfig) (src : List Json) (last new : Last) (s : Sequencer) : Prop where
  good : Good cfg s
  recorded : Recorded cfg s last ∨ Accepts cfg.sha src last ∧ Recorded cfg s new

/-- The proof discipline of the handler: other threads leave the last checkpoint alone, and what is
recorded stays. -/
def handling (cfg : SeqConfig) (src : List Json) (last new : Last) :
    Discipline Sequencer Label Op Res where
  exec := limited (exec cfg) fun _ s _ _ => Short s
  inv := Window cfg src last new
  rely s t := t.daemon_last = s.daemon_last ∧ ∀ d, Recorded cfg s d → Recorded cfg t d
  guar _ s _ t := Recorded cfg s new → Recorded cfg t new
  refl _ := ⟨rfl, fun _ h => h⟩
  trans h h' := ⟨h'.1.trans h.1, fun d hd => h'.2 d (h.2 d hd)⟩

/-- The handler has accepted the checkpoint. -/
structure Accepted (cfg : SeqConfig) (src : List Json) (last new : Last) (r : Except Exc Reply)
    (s : Sequencer) : Prop where
  accepts : Accepts cfg.sha src last
  result : ∃ a, r = .ok (.ack a)
  daemon_last : s.daemon_last = new
  recorded : Recorded cfg s new

/-- The handler has rejected the checkpoint. -/
structure Rejected (cfg : SeqConfig) (src : List Json) (last : Last) (r : Except Exc Reply)
    (s : Sequencer) : Prop where
  accepts : ¬ Accepts cfg.sha src last
  result : ∃ m, r = .error (rpcError .integrity m)
  daemon_last : s.daemon_last = last
  recorded : Recorded cfg s last

variable {new : Last} {s : Sequencer}

/-- A chain ends in a hash, or in the zeros it starts from. -/
theorem head_text (hash_text : ∀ b, (cfg.sha b).all isScalar = true) {es : List Json} {h : PyStr}
    (hlinked : LinkedEntries cfg.sha GENESIS es h) : h.all isScalar = true := by
  rcases List.eq_nil_or_concat' es with rfl | ⟨front, e, rfl⟩
  · cases hlinked
    decide
  · obtain ⟨_, _, _, hhash⟩ := hlinked.last
    obtain ⟨b, _, rfl⟩ := Option.map_eq_some_iff.1 hhash
    exact hash_text b

/-- The entries of the handler have canonical forms. -/
theorem canonical_entry (hkeys : Keyed cfg sign) (hgood : Good cfg s) (hshort : Short s)
    {actor event : PyStr} {data : Json} (ts : Double) (hactor : actor.all isScalar = true)
    (hevent : event.all isScalar = true) (hdata : data.printable = true ∧ data.scalar = true) :
    canonical (entry s ts actor event .null data .null) ≠ none := by
  refine Option.isSome_iff_ne_none.1 (canonical_isSome (Json.printable_mkObj ?_)
    (Json.scalar_mkObj ?_))
  · simp only [List.forall_mem_cons, List.not_mem_nil, false_imp_iff, implies_true, and_true]
    exact ⟨hshort, rfl, rfl, rfl, rfl, rfl, hdata.1, rfl⟩
  · simp only [List.forall_mem_cons, List.not_mem_nil, false_imp_iff, implies_true, and_true]
    exact ⟨⟨by decide, rfl⟩, ⟨by decide, rfl⟩, ⟨by decide, head_text hkeys.hash_text hgood.linked⟩,
      ⟨by decide, hactor⟩, ⟨by decide, hevent⟩, ⟨by decide, rfl⟩, ⟨by decide, hdata.2⟩,
      ⟨by decide, rfl⟩⟩

section Rules

variable {c : Label} {α : Type} {Q : Except Exc α → Sequencer → Prop} {d d' : Last}

/-- How an append of the handler may change what is recorded. -/
def Allowed (sha : Bytes → PyStr) (src : List Json) (last new d d' : Last) : Prop :=
  d = last ∧ d' = last ∨ Accepts sha src last ∧ d' = new

theorem Allowed.window (h : Allowed cfg.sha src last new d d') (hgood : Good cfg s)
    (hrec : Recorded cfg s d') : Window cfg src last new s := by
  rcases h with ⟨_, rfl⟩ | ⟨hacc, rfl⟩
  · exact ⟨hgood, .inl hrec⟩
  · exact ⟨hgood, .inr ⟨hacc, hrec⟩⟩

theorem Allowed.keeps (h : Allowed cfg.sha src last new d d') (hd : d = new) : d' = new := by
  rcases h with ⟨rfl, rfl⟩ | ⟨_, rfl⟩
  · exact hd
  · rfl

/-- An append of the handler succeeds, and the chain records what it says. -/
theorem wpE_handler_append (hkeys : Keyed cfg sign) {event : PyStr} {kvs : Fields}
    {f : Ack → Method α} (hprincipal : c.2.principal = py "observer_broker")
    (hevent : event.all isScalar = true) (hwf : (Json.mkObj kvs).WF)
    (hdata : (Json.mkObj kvs).printable = true ∧ (Json.mkObj kvs).scalar = true)
    (hd : checkpointAfter event (Json.mkObj kvs) d = .ok d')
    (hallowed : Allowed cfg.sha src last new d d') (hrec : Recorded cfg s d)
    (hnext : ∀ a t, t.daemon_last = s.daemon_last → Recorded cfg t d' →
      wpE (handling cfg src last new) c (f a) Q t) :
    wpE (handling cfg src last new) c (run_append (py "observer_broker") event .null
      (Json.mkObj kvs) .null >>= f) Q s := by
  apply wpE_bind
  apply wp_perform
  rintro t ⟨hlast, hkept⟩ ⟨hgood, _⟩ r t' ⟨hshort, hexec⟩
  obtain ⟨hgood', _, _⟩ := append_spec hgood hprincipal.symm .null hwf .null hexec
  obtain ⟨hlast', hfailed | ⟨hrec', a, rfl⟩⟩ :=
    (hkept d hrec).append hgood ⟨_, rfl⟩ hd hexec
  · obtain ⟨_, _, ts, hnone⟩ := hfailed
    exact absurd hnone (canonical_entry hkeys hgood hshort ts (by decide) hevent hdata)
  · refine ⟨hallowed.window hgood' hrec', fun hnew => ?_, ?_⟩
    · rw [← hallowed.keeps ((hkept d hrec).unique hnew)]
      exact hrec'
    rintro u ⟨hlast'', hkept'⟩ _
    exact hnext a u (hlast''.trans (hlast'.trans hlast)) (hkept' d' hrec')

end Rules

/-- What the handler appends about a checkpoint. -/
theorem checkpoint_data {n : Nat} {h : PyStr} (b : Bool) {more : Fields}
    (hprintable : (Json.int n).printable = true) (hhead : h.all isScalar = true)
    (hmore : ∀ kv ∈ more, kv.1.all isScalar = true ∧ kv.2.scalar = true ∧ kv.2.printable = true ∧
      kv.2.WF) :
    (Json.mkObj ([(py "seq", .int n), (py "head", .str h), (py "accepted", .bool b)] ++ more)).WF ∧
    (Json.mkObj ([(py "seq", .int n), (py "head", .str h), (py "accepted", .bool b)] ++
      more)).printable = true ∧
    (Json.mkObj ([(py "seq", .int n), (py "head", .str h), (py "accepted", .bool b)] ++
      more)).scalar = true := by
  refine ⟨Json.wf_mkObj ?_, Json.printable_mkObj ?_, Json.scalar_mkObj ?_⟩
  · refine List.forall_mem_append.2 ⟨?_, fun kv hkv => (hmore kv hkv).2.2.2⟩
    simp
  · refine List.forall_mem_append.2 ⟨?_, fun kv hkv => (hmore kv hkv).2.2.1⟩
    simp only [List.forall_mem_cons, List.not_mem_nil, false_imp_iff, implies_true, and_true]
    exact ⟨hprintable, rfl, rfl⟩
  · refine List.forall_mem_append.2 ⟨?_, fun kv hkv => ⟨(hmore kv hkv).1, (hmore kv hkv).2.1⟩⟩
    simp only [List.forall_mem_cons, List.not_mem_nil, false_imp_iff, implies_true, and_true]
    exact ⟨⟨by decide, rfl⟩, ⟨by decide, hhead⟩, by decide, rfl⟩

/-- The texts of a rejection. -/
theorem text_data {k : String} {text : PyStr} (hk : (py k).all isScalar = true)
    (htext : text.all isScalar = true) : ∀ kv ∈ [(py k, Json.str text)],
      kv.1.all isScalar = true ∧ kv.2.scalar = true ∧ kv.2.printable = true ∧ kv.2.WF :=
  List.forall_mem_singleton.2 ⟨hk, htext, rfl, .str text⟩

/-- **The handler accepts a checkpoint of the same chain, and rejects any other one.** -/
theorem handler_wp (hkeys : Keyed cfg sign)
    (hck : CheckpointOf cfg.sha sign src (sinceOf last) ck)
    (hmarked : last = none ∨ ∃ g, Marks cfg.sha g last) (hlast : s.daemon_last = last)
    (hrec : Recorded cfg s last) : ∃ new, Marks cfg.sha src new ∧
      wp (handling cfg src last new) (handler ck) (body cfg (handler ck)) (fun r t =>
        Accepted cfg src last new r t ∨ Rejected cfg src last r t) s := by
  obtain ⟨verify, hverify, hverifies⟩ := hkeys.verifier
  obtain ⟨b, hb, hsig⟩ := hck.signed
  obtain ⟨h, hhead, hlinked⟩ := hck.head
  have hdec : b64u_dec (.str (b64u (sign b))) = .ok (sign b) := by
    rw [b64u_dec, b64uDec_b64u]
    rfl
  have htext : h.all isScalar = true := head_text hkeys.hash_text hlinked
  refine ⟨some (.int src.length, .str h), ⟨h, rfl, hlinked⟩, ?_⟩
  show wpE _ _ (record_daemon_checkpoint cfg (py "observer_broker") ck) _ s
  unfold record_daemon_checkpoint
  simp only [hverify, hb, orRaise, compute_ok, hsig, hdec, hverifies, Bool.not_true,
    Bool.false_eq_true, if_false]
  apply wpE_bind
  apply wp_bind
  apply wp_step
  rintro t ⟨htlast, htrec⟩ hwindow r t' ⟨_, rfl, rfl⟩
  refine ⟨hwindow, id, ?_⟩
  rintro u ⟨hulast, hurec⟩ _ v ⟨hvlast, hvrec⟩ _
  have hrec' : Recorded cfg v last := hvrec _ (hurec _ (htrec _ hrec))
  have hlast' : v.daemon_last = last := by rw [hvlast, hulast, htlast, hlast]
  rw [show t'.daemon_last = last by rw [htlast, hlast]]
  rcases checkpointProblem_spec hkeys hck hmarked with ⟨hacc, hproblem⟩ |
    ⟨hrej, text, hproblem, hplain⟩
  · simp only [hproblem, compute_ok, hck.seq, hhead]
    apply wpE_bind
    apply wp_bind
    apply wp_step
    rintro w ⟨hwlast, hwrec⟩ ⟨hgood, _⟩ _ _ ⟨_, rfl⟩
    have hset : Recorded cfg { w with daemon_last := some (.int src.length, .str h) } last :=
      (hwrec _ hrec').same rfl rfl rfl
    have hgood' : Good cfg { w with daemon_last := some (.int src.length, .str h) } ∧
        Grows w { w with daemon_last := some (.int src.length, .str h) } :=
      good_of_eq hgood rfl rfl rfl rfl rfl rfl
    refine ⟨⟨hgood'.1, .inl hset⟩, fun hnew => hnew.same rfl rfl rfl, ?_⟩
    rintro x ⟨hxlast, hxrec⟩ _ y ⟨hylast, hyrec⟩ _
    obtain ⟨hwf, hdata⟩ := checkpoint_data true hck.printable htext
      (List.forall_mem_nil _)
    have hafter : checkpointAfter (py "observe_checkpoint") (Json.mkObj ([(py "seq",
        .int src.length), (py "head", .str h), (py "accepted", .bool true)] ++ [])) last =
        .ok (some (.int src.length, .str h)) := rfl
    refine wpE_handler_append hkeys rfl (by decide) hwf hdata hafter (.inr ⟨hacc, rfl⟩)
      (hyrec _ (hxrec _ hset)) fun a t htlast htrec => ?_
    rintro z ⟨hzlast, hzrec⟩ _
    refine .inl ⟨hacc, ⟨a, rfl⟩, ?_, hzrec _ htrec⟩
    rw [hzlast, htlast, hylast, hxlast]
  · simp only [hproblem, compute_ok, hck.seq, hhead]
    obtain ⟨hwf, hdata⟩ := checkpoint_data false hck.printable htext
      (text_data (k := "problem") (by decide) hplain)
    have hwhat := text_data (k := "what") (by decide) hplain
    refine wpE_handler_append hkeys rfl (by decide)
      (Json.wf_mkObj fun kv hkv => (hwhat kv hkv).2.2.2)
      ⟨Json.printable_mkObj fun kv hkv => (hwhat kv hkv).2.2.1,
        Json.scalar_mkObj fun kv hkv => ⟨(hwhat kv hkv).1, (hwhat kv hkv).2.1⟩⟩ rfl (.inl ⟨rfl, rfl⟩) hrec'
      fun _ w hwlast hwrec => ?_
    have hafter : checkpointAfter (py "observe_checkpoint") (Json.mkObj ([(py "seq",
        .int src.length), (py "head", .str h), (py "accepted", .bool false)] ++
        [(py "problem", .str text)])) last = .ok last := rfl
    refine wpE_handler_append hkeys rfl (by decide) hwf hdata hafter (.inl ⟨rfl, rfl⟩) hwrec
      fun _ x hxlast hxrec => ?_
    rintro y ⟨hylast, hyrec⟩ _
    refine .inr ⟨hrej, ⟨_, rfl⟩, ?_, hyrec _ hxrec⟩
    rw [hylast, hxlast, hwlast, hlast']

/-- The operations of the handler on a checkpoint that it accepts. -/
theorem handler_steps (hkeys : Keyed cfg sign)
    (hck : CheckpointOf cfg.sha sign src (sinceOf last) ck)
    (hmarked : last = none ∨ ∃ g, Marks cfg.sha g last) (hacc : Accepts cfg.sha src last) :
    ∃ h, LinkedEntries cfg.sha GENESIS src h ∧
    ∃ k, body cfg (handler ck) = .step .read_daemon_last k ∧
    ∃ k1, k last = .step (.set_daemon_last (.int src.length, .str h)) k1 ∧
    ∃ k2, k1 () = .step (.append (py "observer_broker") (py "observe_checkpoint") .null
      (acceptedData (.int src.length, .str h)) .null) k2 ∧
    ∀ a, k2 (.ok a) = .ret (.ok (.ack a)) := by
  obtain ⟨verify, hverify, hverifies⟩ := hkeys.verifier
  obtain ⟨b, hb, hsig⟩ := hck.signed
  obtain ⟨h, hhead, hlinked⟩ := hck.head
  have hdec : b64u_dec (.str (b64u (sign b))) = .ok (sign b) := by
    rw [b64u_dec, b64uDec_b64u]
    rfl
  have hproblem : checkpointProblem cfg ck last = .ok none := by
    rcases checkpointProblem_spec hkeys hck hmarked with ⟨_, hnone⟩ | ⟨hrej, _⟩
    · exact hnone
    · exact absurd hacc hrej
  refine ⟨h, hlinked, ?_⟩
  show ∃ k, (record_daemon_checkpoint cfg (py "observer_broker") ck).run = _ ∧ _
  unfold record_daemon_checkpoint
  simp only [hverify, hb, orRaise, compute_ok, hsig, hdec, hverifies, Bool.not_true,
    Bool.false_eq_true, if_false]
  refine ⟨_, rfl, ?_⟩
  show ∃ k1, ExceptT.run (compute (checkpointProblem cfg ck last) >>= _) = _ ∧ _
  simp only [hproblem, compute_ok, hck.seq, hhead]
  exact ⟨_, rfl, _, rfl, fun _ => rfl⟩

end Handler

end Valops.Observer
