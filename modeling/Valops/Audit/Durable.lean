import Valops.Audit.Recovery

/-!
# Appends that fail

`_append` writes through a buffered file. A write, a flush or an fsync that raises leaves a part of
the line in the file and may leave the rest in the buffer, where the next flush finds it. `seq` and
`head` do not move. When the process stops, what is in the buffer is flushed or lost, and the next
one reads whatever the file holds.

A torn line keeps the sequencer from starting (`torn_append`). Main result: `appends_durable`, with
the condition under which failed appends do no harm.
-/

set_option autoImplicit false

namespace Valops.Audit

open Py HashChain Conc

/-! ## The file and its writer -/

/-- The sequencer with its writer. The file is `seqr.file`, which ends with the last acknowledged
entry, and then `left`, what failed appends have written since. `failed` (their entries) and `acks`
(what appends have returned, in every process) are records that the code does not keep. -/
structure Durable where
  seqr : Sequencer
  left : Bytes := []
  buffer : Bytes := []
  failed : List Json := []
  acks : List Ack := []

/-- The chain file. -/
def Durable.file (x : Durable) : Bytes := x.seqr.file ++ x.left

/-- What a call that raises does with the line: `p` reaches the file and `rest` stays in the
buffer. -/
inductive Raised (buffer line : Bytes) : Bytes → Bytes → Prop
  /-- `flush` or `fsync` raises: nothing is lost. -/
  | flush {p rest : Bytes} : p ++ rest = buffer ++ line → Raised buffer line p rest
  /-- `write` raises while it makes room: the line is not taken. -/
  | room {p rest : Bytes} : p ++ rest = buffer → Raised buffer line p rest
  /-- `write` raises while it writes a line that is longer than the buffer. -/
  | long {p : Bytes} : p <+: line → Raised buffer line (buffer ++ p) []

section Durable

variable (cfg : SeqConfig)

/-- `_append` on a file that may fail. -/
inductive Appends (c : Label) (x : Durable) (ts : Double) (actor event : PyStr)
    (episode_id data payload_ref : Json) : Except Exc Ack → Durable → Prop
  /-- `canonical` raises. -/
  | unprintable : canonical (entry x.seqr ts actor event episode_id data payload_ref) = none →
      Appends c x ts actor event episode_id data payload_ref (.error (.other .valueError)) x
  /-- The buffer and the line are in the file. -/
  | done {b : Bytes} :
      canonical (entry x.seqr ts actor event episode_id data payload_ref) = some b →
      Appends c x ts actor event episode_id data payload_ref
        (.ok ⟨x.seqr.seq + 1, cfg.sha b, payload_ref⟩)
        { x with
          seqr := { x.seqr with
            file := x.file ++ (x.buffer ++ (b ++ [10]))
            seq := x.seqr.seq + 1
            head := cfg.sha b
            history := x.seqr.history ++
              [(some c, entry x.seqr ts actor event episode_id data payload_ref)] }
          left := []
          buffer := []
          failed := []
          acks := x.acks ++ [⟨x.seqr.seq + 1, cfg.sha b, payload_ref⟩] }
  /-- `write`, `flush` or `fsync` raises. -/
  | raised {b p rest : Bytes} :
      canonical (entry x.seqr ts actor event episode_id data payload_ref) = some b →
      Raised x.buffer (b ++ [10]) p rest →
      Appends c x ts actor event episode_id data payload_ref (.error (.other .osError))
        { x with
          left := x.left ++ p
          buffer := rest
          failed := x.failed ++ [entry x.seqr ts actor event episode_id data payload_ref] }

/-- What an operation does. Only an append touches the writer. -/
def durableExec (c : Label) (x : Durable) : (o : Op) → Res o → Durable → Prop
  | .append actor event episode_id data payload_ref, r, x' =>
    ∃ ts, Appends cfg c x ts actor event episode_id data payload_ref r x'
  | o, r, x' => ∃ s', exec cfg c x.seqr o r s' ∧ x' = { x with seqr := s' }

/-- The process stops, with `p` of its buffer flushed, and a new object is built on the file. -/
def reopen (x : Durable) (p : Bytes) : Except Exc Durable := do
  let file := x.file ++ p
  let l ← loadLines cfg 1 (splitLines file) .init
  let seqr := { x.seqr with
    file := file
    seq := l.seq
    head := l.head
    last_anchor_ts := l.last_anchor_ts
    daemon_last := l.daemon_last
    integrity_error := l.integrity_error
    history := ((splitLines file).filterMap loadsBytes).map fun e => (none, e) }
  pure ⟨seqr, [], [], [], x.acks⟩

/-- `_load` finds what it looks for in an entry. -/
def Loads (event : PyStr) (data : Json) : Prop :=
  accepting event data = true → ∃ seq head, index data "seq" = .ok seq ∧ index data "head" = .ok head

/-- The condition on an operation: a submission can be loaded, and an append returns only when failed
ones have left nothing, in the file or in the buffer. -/
def Tidy (c : Label) (x : Durable) : (o : Op) → Res o → Prop
  | .append _ event _ data _, r =>
    (c.2.Submits → Loads event data) ∧ ∀ a, r = .ok a → x.left = [] ∧ x.buffer = []
  | _, _ => True

/-- The condition on a stop: failed appends have left nothing in the file, or one whole line. -/
def Whole (x : Durable) (p : Bytes) : Prop :=
  x.left ++ p = [] ∨ ∃ e ∈ x.failed, entryLine e = some (x.left ++ p)

/-- A pool of the sequencer's threads. -/
abbrev DurablePool := Pool Durable Label Op Res (Except Exc Reply)

/-- A run of threads from a sequencer that has just started. -/
def DurableRuns (x : Durable) (P : DurablePool) : Prop :=
  Pool.Reach (limited (durableExec cfg) Tidy) (body cfg) x P

/-- A sequencer can start in this state: new, or after such a run has stopped. -/
inductive Survivor : Durable → Prop
  | fresh : Survivor ⟨.fresh, [], [], [], []⟩
  | again {x y : Durable} {P : DurablePool} {p : Bytes} : Survivor x → DurableRuns cfg x P →
      p <+: P.state.buffer → Whole P.state p → reopen cfg P.state p = .ok y → Survivor y

end Durable

/-! ## The invariant -/

/-- The entry is one that this state appends next. -/
def Next (s : Sequencer) (e : Json) : Prop :=
  ∃ (c : Label) (ts : Double) (event : PyStr) (episode_id data payload_ref : Json),
    Decoded episode_id data payload_ref ∧ Loads event data ∧
      e = entry s ts c.2.principal event episode_id data payload_ref

/-- The chain can be loaded. -/
def Loadable (cfg : SeqConfig) (s : Sequencer) : Prop :=
  ∃ ts d, loadEntries cfg 1 s.entries .init = .ok ⟨s.seq, s.head, ts, d, none⟩

/-- The entry that was acknowledged is in its place. -/
def InPlace (cfg : SeqConfig) (s : Sequencer) (a : Ack) : Prop :=
  0 < a.seq ∧ ∃ e, s.entries[a.seq - 1]? = some e ∧ hashOf cfg.sha e = some a.hash

/-- The invariant: the acknowledged part of the file is a chain that can be loaded, failed appends
were for its next place, and acknowledged entries are in theirs. -/
structure Sound (cfg : SeqConfig) (x : Durable) : Prop where
  good : Good cfg x.seqr
  loads : Loadable cfg x.seqr
  failed : ∀ e ∈ x.failed, Next x.seqr e
  acks : ∀ a ∈ x.acks, InPlace cfg x.seqr a

section Durable

variable {cfg : SeqConfig} {c : Label} {κ : Known} {x x' y : Durable} {s s' : Sequencer} {o : Op}
  {r : Res o}

theorem entry_congr {ts : Double} {actor event : PyStr} {episode_id data payload_ref : Json}
    (hseq : s'.seq = s.seq) (hhead : s'.head = s.head) :
    entry s' ts actor event episode_id data payload_ref =
      entry s ts actor event episode_id data payload_ref := by
  rw [entry, entry, hseq, hhead]

theorem Next.congr {e : Json} (h : Next s e) (hseq : s'.seq = s.seq) (hhead : s'.head = s.head) :
    Next s' e := by
  obtain ⟨c, ts, event, episode_id, data, payload_ref, hdec, hloads, rfl⟩ := h
  exact ⟨c, ts, event, episode_id, data, payload_ref, hdec, hloads, (entry_congr hseq hhead).symm⟩

theorem Loadable.congr (h : Loadable cfg s) (hentries : s'.entries = s.entries)
    (hseq : s'.seq = s.seq) (hhead : s'.head = s.head) : Loadable cfg s' := by
  obtain ⟨ts, d, hload⟩ := h
  exact ⟨ts, d, by rw [hentries, hload, hseq, hhead]⟩

theorem InPlace.grows {a : Ack} (h : InPlace cfg s a) (hgrows : Grows s s') : InPlace cfg s' a := by
  obtain ⟨hpos, e, he, hhash⟩ := h
  obtain ⟨new, hnew⟩ := hgrows.history
  refine ⟨hpos, e, ?_, hhash⟩
  rw [Sequencer.entries, ← hnew, List.map_append, ← Sequencer.entries]
  exact List.getElem?_append_left (List.getElem?_eq_some_iff.1 he).1 ▸ he

/-- An entry is loaded if `_load` finds what it looks for. -/
theorem Loads.checkpointAfter {event : PyStr} {data : Json} (h : Loads event data)
    (d : Option (Json × Json)) : ∃ d', checkpointAfter event data d = .ok d' := by
  unfold Audit.checkpointAfter
  by_cases hacc : accepting event data = true
  · obtain ⟨seq, head, hseq, hhead⟩ := h hacc
    rw [if_pos hacc, hseq, hhead]
    exact ⟨_, rfl⟩
  · rw [if_neg hacc]
    exact ⟨d, rfl⟩

/-- The state after the next entry is in the file. -/
def Sequencer.extended (s : Sequencer) (cfg : SeqConfig) (c : Label) (e : Json) (b : Bytes) :
    Sequencer :=
  { s with
    file := s.file ++ (b ++ [10])
    seq := s.seq + 1
    head := cfg.sha b
    history := s.history ++ [(some c, e)] }

/-- **The next entry extends the chain.** -/
theorem extend (hgood : Good cfg s) (hload : Loadable cfg s) {ts : Double} {event : PyStr}
    {episode_id data payload_ref : Json} {b : Bytes} (hdec : Decoded episode_id data payload_ref)
    (hloads : Loads event data)
    (hb : canonical (entry s ts c.2.principal event episode_id data payload_ref) = some b) :
    let e := entry s ts c.2.principal event episode_id data payload_ref
    exec cfg c s (.append c.2.principal event episode_id data payload_ref)
      (.ok ⟨s.seq + 1, cfg.sha b, payload_ref⟩) (s.extended cfg c e b) ∧
    Good cfg (s.extended cfg c e b) ∧ Loadable cfg (s.extended cfg c e b) ∧
    (s.extended cfg c e b).entries = s.entries ++ [e] := by
  intro e
  have hexec : exec cfg c s (.append c.2.principal event episode_id data payload_ref)
      (.ok ⟨s.seq + 1, cfg.sha b, payload_ref⟩) (s.extended cfg c e b) := ⟨ts, append_eq hb⟩
  have hentries : (s.extended cfg c e b).entries = s.entries ++ [e] := List.map_append
  refine ⟨hexec, (append_spec hgood rfl hdec.1 hdec.2 hdec.3 hexec).1, ?_, hentries⟩
  obtain ⟨t, d, hl⟩ := hload
  obtain ⟨d', hd'⟩ := hloads.checkpointAfter d
  refine ⟨if event = py "anchor" then .float ts else t, d', ?_⟩
  rw [hentries, loadEntries_snoc, hl, ok_bind, Nat.add_comm 1, ← hgood.seq,
    loadEntry_entry hdec.object hb, hd']
  rfl

/-- What is warranted and can be loaded if it was submitted can be loaded. -/
theorem Tidy.loads {actor event : PyStr} {episode_id data payload_ref : Json}
    {r : Except Exc Ack} (h : Tidy c x (.append actor event episode_id data payload_ref) r)
    (hw : Warranted c κ event data) : Loads event data := by
  rcases hw with hsubmits | hplain | ⟨hevent, _⟩ | ⟨last, _, _, hdata⟩
  · exact h.1 hsubmits
  · exact fun hacc => absurd hplain.2 (by rw [hacc]; exact Bool.noConfusion)
  · intro hacc
    rw [accepting, decide_eq_false (by rw [hevent]; decide), Bool.false_and] at hacc
    cases hacc
  · exact fun _ => ⟨last.1, last.2, by rw [hdata]; rfl, by rw [hdata]; rfl⟩

/-- An operation other than an append. -/
theorem Sound.quiet (h : Sound cfg x) (hκ : Knows cfg κ x.seqr) (hpre : demands cfg c κ o)
    (hexec : exec cfg c x.seqr o r s') (hquiet : ¬ o.Appends) : Sound cfg { x with seqr := s' } := by
  obtain ⟨hgood, hgrows, _⟩ := exec_good h.good hκ hpre hexec
  obtain ⟨_, hseq, hhead, hhistory⟩ := exec_quiet hexec hquiet
  exact ⟨hgood, h.loads.congr (congrArg (List.map Prod.snd) hhistory) hseq hhead,
    fun e he => (h.failed e he).congr hseq hhead, fun a ha => (h.acks a ha).grows hgrows⟩

/-- An append that meets the condition. -/
theorem durable_append (h : Sound cfg x) (hκ : Knows cfg κ x.seqr) {ts : Double}
    {actor event : PyStr} {episode_id data payload_ref : Json} {r : Except Exc Ack}
    (hpre : demands cfg c κ (.append actor event episode_id data payload_ref))
    (hok : Tidy c x (.append actor event episode_id data payload_ref) r)
    (happ : Appends cfg c x ts actor event episode_id data payload_ref r x') :
    Sound cfg x' ∧ Knows cfg (learned cfg κ (.append actor event episode_id data payload_ref) r)
      x'.seqr ∧ Grows x.seqr x'.seqr ∧ x.seqr.anchors ⊆ x'.seqr.anchors := by
  obtain ⟨rfl, hdec, hwarrant⟩ := hpre
  have hdemand : demands cfg c κ (.append c.2.principal event episode_id data payload_ref) :=
    ⟨rfl, hdec, hwarrant⟩
  have hloads := hok.loads hwarrant
  cases happ with
  | unprintable hnone => exact ⟨h, hκ, .refl _, fun j hj => hj⟩
  | raised hb hraised =>
    refine ⟨⟨h.good, h.loads, List.forall_mem_append.2 ⟨h.failed, List.forall_mem_singleton.2 ?_⟩,
      h.acks⟩, hκ, .refl _, fun j hj => hj⟩
    exact ⟨c, ts, event, episode_id, data, payload_ref, hdec, hloads, rfl⟩
  | @done b hb =>
    -- nothing of a failed append lies between the chain and the line
    obtain ⟨hleft, hbuffer⟩ := hok.2 _ rfl
    obtain ⟨hexec, hgood, hload, hentries⟩ := extend h.good h.loads hdec hloads hb
    have hsame : ({ x.seqr with
        file := x.file ++ (x.buffer ++ (b ++ [10]))
        seq := x.seqr.seq + 1
        head := cfg.sha b
        history := x.seqr.history ++
          [(some c, entry x.seqr ts c.2.principal event episode_id data payload_ref)] } :
        Sequencer) = x.seqr.extended cfg c
          (entry x.seqr ts c.2.principal event episode_id data payload_ref) b := by
      rw [Sequencer.extended, Durable.file, hleft, hbuffer, List.append_nil, List.nil_append]
    obtain ⟨_, hgrows, hanchors⟩ := exec_good h.good hκ hdemand hexec
    have hknows := exec_knows h.good hκ hdemand hexec
    simp only [hsame]
    refine ⟨⟨hgood, hload, nofun, List.forall_mem_append.2
      ⟨fun a ha => (h.acks a ha).grows hgrows, List.forall_mem_singleton.2 ⟨Nat.succ_pos _, ?_⟩⟩⟩,
      hknows, hgrows, hanchors⟩
    refine ⟨entry x.seqr ts c.2.principal event episode_id data payload_ref, ?_, ?_⟩
    · rw [hentries, h.good.seq, Nat.add_sub_cancel, List.getElem?_concat_length]
    · rw [hashOf, hb, Option.map_some]

/-- **Every operation** keeps the invariant and what the threads know. -/
theorem durable_step (h : Sound cfg x) (hκ : Knows cfg κ x.seqr) (hpre : demands cfg c κ o)
    (hexec : limited (durableExec cfg) Tidy c x o r x') :
    Kept (Sound cfg) (fun _ κ x => Knows cfg κ x.seqr) c (learned cfg κ o r) x x' := by
  obtain ⟨hok, hexec⟩ := hexec
  by_cases happend : o.Appends
  · cases o with
    | append actor event episode_id data payload_ref =>
      obtain ⟨ts, happ⟩ := hexec
      obtain ⟨hsound, hknows, hgrows, hanchors⟩ := durable_append h hκ hpre hok happ
      exact ⟨hsound, hknows, fun _ _ _ hother => hother.grows hgrows hanchors⟩
    | _ => exact absurd happend id
  · have hseqr : ∃ s', exec cfg c x.seqr o r s' ∧ x' = { x with seqr := s' } := by
      cases o with
      | append actor event episode_id data payload_ref => exact absurd trivial happend
      | _ => exact hexec
    obtain ⟨s', hs', rfl⟩ := hseqr
    obtain ⟨_, hgrows, hanchors⟩ := exec_good h.good hκ hpre hs'
    exact ⟨h.quiet hκ hpre hs' happend, exec_knows h.good hκ hpre hs',
      fun _ _ _ hother => hother.grows hgrows hanchors⟩

/-! ## Stopping and starting -/

theorem sound_fresh : Sound cfg ⟨.fresh, [], [], [], []⟩ :=
  ⟨good_fresh, ⟨.null, none, rfl⟩, nofun, nofun⟩

/-- A file that holds a chain that can be loaded. -/
theorem reopen_chain {p : Bytes} (hgood : Good cfg s) (hload : Loadable cfg s)
    (hs : s = { x.seqr with file := s.file, seq := s.seq, head := s.head, history := s.history })
    (hfile : s.file = x.file ++ p) : ∃ y, reopen cfg x p = .ok y ∧
      Good cfg y.seqr ∧ Loadable cfg y.seqr ∧ y.seqr.entries = s.entries ∧ y.file = s.file ∧
      y.seqr.anchors = x.seqr.anchors ∧ y.seqr.integrity_error = none ∧ y.failed = [] ∧
      y.left = [] ∧ y.acks = x.acks := by
  obtain ⟨ts, d, hl⟩ := hload
  have hparse := splitLines_chainFile hgood.wf hgood.file
  have hlines : loadLines cfg 1 (splitLines s.file) .init = .ok ⟨s.seq, s.head, ts, d, none⟩ :=
    (loadLines_eq hparse).trans hl
  let s' : Sequencer := { s with
    last_anchor_ts := ts
    daemon_last := d
    integrity_error := none
    history := s.history.map fun x => (none, x.2) }
  have hrestart : restart cfg s = .ok s' := by
    rw [restart, show loadLines cfg 1 (splitLines s.file) ⟨0, GENESIS, .null, none, none⟩ = _ from
      hlines]
    rfl
  have hgood' : Good cfg s' := good_restart hgood hrestart
  have hread : (splitLines s.file).filterMap loadsBytes = s.entries := by
    have hfilter := congrArg (List.filterMap id) hparse
    rwa [List.filterMap_map, List.filterMap_map, Function.id_comp, Function.id_comp,
      List.filterMap_some] at hfilter
  have hhistory : (((splitLines s.file).filterMap loadsBytes).map fun e => (none, e)) =
      s'.history := by
    rw [hread, Sequencer.entries, List.map_map]
    rfl
  have hentries : s'.entries = s.entries := by
    rw [Sequencer.entries, Sequencer.entries, List.map_map]
    rfl
  have hanchors : s.anchors = x.seqr.anchors := by rw [hs]
  refine ⟨⟨s', [], [], [], x.acks⟩, ?_, hgood', ⟨ts, d, ?_⟩, hentries, List.append_nil _, hanchors,
    rfl, rfl, rfl, rfl⟩
  · rw [reopen, ← hfile, hlines, ok_bind, hhistory, pure_eq_ok]
    congr 1
    show _ = s'
    rw [show s' = { s with
      last_anchor_ts := ts, daemon_last := d, integrity_error := none, history := s'.history } from
      rfl, hs]
  · show loadEntries cfg 1 s'.entries .init = _
    rw [hentries, hl]

/-- What a new process finds: the chain, with all or nothing of the entry whose append failed. -/
structure Reopened (cfg : SeqConfig) (x y : Durable) : Prop where
  sound : Sound cfg y
  entries : y.seqr.entries = x.seqr.entries ∨
    ∃ e ∈ x.failed, y.seqr.entries = x.seqr.entries ++ [e]
  integrity_error : y.seqr.integrity_error = none
  anchors : y.seqr.anchors = x.seqr.anchors
  left : y.left = []
  acks : y.acks = x.acks

theorem InPlace.of_prefix {a : Ack} {more : List Json} (h : InPlace cfg s a)
    (hentries : s'.entries = s.entries ++ more) : InPlace cfg s' a := by
  obtain ⟨hpos, e, he, hhash⟩ := h
  refine ⟨hpos, e, ?_, hhash⟩
  rw [hentries]
  exact List.getElem?_append_left (List.getElem?_eq_some_iff.1 he).1 ▸ he

/-- **A process can start after one that stopped.** -/
theorem Sound.reopens (h : Sound cfg x) {p : Bytes} (hwhole : Whole x p) :
    ∃ y, reopen cfg x p = .ok y ∧ Reopened cfg x y := by
  rcases hwhole with hnone | ⟨e, he, hline⟩
  · have hfile : x.seqr.file = x.file ++ p := by
      rw [Durable.file, List.append_assoc, hnone, List.append_nil]
    obtain ⟨y, hy, hgood, hload, hentries, _, hanchors, herr, hfailed, hleft, hacks⟩ :=
      reopen_chain h.good h.loads rfl hfile
    refine ⟨y, hy, ⟨hgood, hload, ?_, ?_⟩, .inl hentries, herr, hanchors, hleft, hacks⟩
    · rw [hfailed]
      exact nofun
    · rw [hacks]
      exact fun a ha => InPlace.of_prefix (h.acks a ha) (hentries.trans (List.append_nil _).symm)
  · obtain ⟨c, ts, event, episode_id, data, payload_ref, hdec, hloads, rfl⟩ := h.failed e he
    obtain ⟨b, hb, hbytes⟩ := Option.map_eq_some_iff.1 hline
    obtain ⟨_, hgood', hload', hentries'⟩ := extend h.good h.loads hdec hloads hb
    have hfile : x.seqr.file ++ (b ++ [10]) = x.file ++ p := by
      rw [Durable.file, List.append_assoc, hbytes]
    obtain ⟨y, hy, hgood, hload, hentries, _, hanchors, herr, hfailed, hleft, hacks⟩ :=
      reopen_chain hgood' hload' rfl hfile
    rw [hentries'] at hentries
    refine ⟨y, hy, ⟨hgood, hload, ?_, ?_⟩, .inr ⟨_, he, hentries⟩, herr, hanchors, hleft, hacks⟩
    · rw [hfailed]
      exact nofun
    · rw [hacks]
      exact fun a ha => InPlace.of_prefix (h.acks a ha) hentries

/-! ## Every run -/

theorem runs_sound {P : DurablePool} (h : Sound cfg x) (hP : DurableRuns cfg x P) :
    Sound cfg P.state :=
  (Pool.local_sound (knowledge cfg) (fun _ _ _ _ _ _ => durable_step) body_local
    (fun _ _ _ => .empty) h hP).1

theorem survivor_sound (h : Survivor cfg x) : Sound cfg x := by
  induction h with
  | fresh => exact sound_fresh
  | again _ hP _ hwhole hy ih =>
    obtain ⟨y, hy', hreopened⟩ := (runs_sound ih hP).reopens hwhole
    cases hy'.symm.trans hy
    exact hreopened.sound

/-- The entry that was acknowledged is a line of the file, in its place. -/
def Acknowledged (cfg : SeqConfig) (file : Bytes) (a : Ack) : Prop :=
  0 < a.seq ∧ ∃ e, ((splitLines file)[a.seq - 1]?).map loadsBytes = some (some e) ∧
    hashOf cfg.sha e = some a.hash

/-- Acknowledged entries are in the file whatever failed appends have left after them. -/
theorem Sound.acknowledged (h : Sound cfg x) {a : Ack} (ha : a ∈ x.acks) (p : Bytes) :
    Acknowledged cfg (x.file ++ p) a := by
  obtain ⟨hpos, e, he, hhash⟩ := h.acks a ha
  have hparse := splitLines_chainFile h.good.wf h.good.file
  refine ⟨hpos, e, ?_, hhash⟩
  rw [Durable.file, List.append_assoc, splitLines_chainFile_append _ h.good.file,
    ← List.getElem?_map, List.map_append, hparse]
  have hlt : a.seq - 1 < (x.seqr.entries.map some).length := by
    rw [List.length_map]
    exact (List.getElem?_eq_some_iff.1 he).1
  rw [List.getElem?_append_left hlt, List.getElem?_map, he, Option.map_some]

/-- **Failed appends leave a usable chain**, over any number of processes, if an append returns only
when failed ones have left nothing in the file or the buffer, and at each stop they have left nothing
in the file or one whole line. In every state of every interleaving: each entry that was ever
acknowledged is in its place; `verify_chain` accepts the file against all anchors once the failed
appends are over; a new process starts, with all or nothing of a failed entry, and `verify_chain`
accepts the file it starts on. -/
theorem appends_durable {P : DurablePool} {keys : PyStr → Option Verify} {verify : Verify}
    (hkey : keys cfg.key_id = some verify) (hsign : ∀ m, verify (cfg.sign m) m = true)
    (hx : Survivor cfg x) (hP : DurableRuns cfg x P) :
    (∀ a ∈ P.state.acks, ∀ p, Acknowledged cfg (P.state.file ++ p) a) ∧
    (P.state.left = [] → ∃ r, verify_chain cfg.sha (some P.state.file) P.state.seqr.anchors keys =
      .ok r ∧ r.ok = true) ∧
    ∀ p, p <+: P.state.buffer → Whole P.state p → ∃ y, reopen cfg P.state p = .ok y ∧
      y.seqr.integrity_error = none ∧ y.acks = P.state.acks ∧
      (y.seqr.entries = P.state.seqr.entries ∨
        ∃ e ∈ P.state.failed, y.seqr.entries = P.state.seqr.entries ++ [e]) ∧
      ∃ r, verify_chain cfg.sha (some y.file) P.state.seqr.anchors keys = .ok r ∧ r.ok = true := by
  have hsound := runs_sound (survivor_sound hx) hP
  have hverify : ∀ z : Durable, Sound cfg z → z.left = [] →
      ∃ r, verify_chain cfg.sha (some z.file) z.seqr.anchors keys = .ok r ∧ r.ok = true := by
    intro z hz hleft
    rw [Durable.file, hleft, List.append_nil]
    exact verify_good hz.good hkey hsign
  refine ⟨fun a ha p => hsound.acknowledged ha p, hverify _ hsound, fun p _ hwhole => ?_⟩
  obtain ⟨y, hy, hre⟩ := hsound.reopens hwhole
  refine ⟨y, hy, hre.integrity_error, hre.acks, hre.entries, ?_⟩
  rw [← hre.anchors]
  exact hverify y hre.sound hre.left

end Durable

/-! ## A line that is whole and a line that is torn -/

/-- The submission of `exampleSubmit` to a new sequencer raises. `p` is in the file. -/
def failedState (p rest : Bytes) : Durable := ⟨.fresh, p, rest, [exampleEntry], []⟩

theorem failedRun (p rest : Bytes) (hcut : p ++ rest = exampleBytes ++ [10]) :
    ∃ P, DurableRuns exampleCfg ⟨.fresh, [], [], [], []⟩ P ∧ P.state = failedState p rest := by
  obtain ⟨k, hk⟩ := submit_example
  have hflush : p ++ rest = [] ++ (exampleBytes ++ [10]) := by rw [hcut, List.nil_append]
  have happ : Appends exampleCfg exampleSubmit ⟨.fresh, [], [], [], []⟩ exampleTs (py "controller")
      (py "hook") .null (.obj []) .null (.error (.other .osError)) (failedState p rest) :=
    .raised canonical_exampleEntry (.flush hflush)
  have hstep : limited (durableExec exampleCfg) Tidy exampleSubmit ⟨.fresh, [], [], [], []⟩
      (.append (py "controller") (py "hook") .null (.obj []) .null) (.error (.other .osError))
      (failedState p rest) := by
    refine ⟨⟨fun _ hacc => ?_, nofun⟩, exampleTs, happ⟩
    rw [accepting, decide_eq_false (by decide), Bool.false_and] at hacc
    cases hacc
  refine ⟨⟨failedState p rest, [⟨exampleSubmit, k (.error (.other .osError))⟩]⟩, ?_, rfl⟩
  refine .head (.spawn (⟨.fresh, [], [], [], []⟩ : Durable) [] exampleSubmit
    fun _ h => absurd h List.not_mem_nil) ?_
  rw [hk]
  exact .single (.run _ _ [] [] _ _ k _ hstep)

/-- The fsync of a submission raises: the next process starts with its entry. -/
theorem appends_durable_example : ∃ P, DurableRuns exampleCfg ⟨.fresh, [], [], [], []⟩ P ∧
    P.state.failed = [exampleEntry] ∧ ∃ y, reopen exampleCfg P.state [] = .ok y ∧
      ∃ r, verify_chain exampleCfg.sha (some y.file) P.state.seqr.anchors exampleKeys = .ok r ∧
        r.ok = true := by
  have hcut : exampleBytes ++ [10] ++ [] = exampleBytes ++ [10] := by
    rw [List.append_nil]
  obtain ⟨P, hP, hstate⟩ := failedRun _ _ hcut
  have hfailed : P.state.failed = [exampleEntry] := by rw [hstate, failedState]
  have hleft : P.state.left = exampleBytes ++ [10] := by rw [hstate, failedState]
  have hline : entryLine exampleEntry = some (P.state.left ++ []) := by
    rw [entryLine, canonical_exampleEntry, Option.map_some, hleft, List.append_nil]
  have hwhole : Whole P.state [] := .inr ⟨exampleEntry, by rw [hfailed]; exact .head _, hline⟩
  obtain ⟨_, _, hreopen⟩ := appends_durable exampleKeys_trusts exampleVerify_sign .fresh hP
  obtain ⟨y, hy, _, _, _, hv⟩ := hreopen [] List.nil_prefix hwhole
  exact ⟨P, hP, hfailed, y, hy, hv⟩

/-- One byte of a line that was never acknowledged keeps the sequencer from starting again. -/
theorem torn_append : ∃ P, Pool.Reach (durableExec exampleCfg) (body exampleCfg)
    ⟨.fresh, [], [], [], []⟩ P ∧ P.state.acks = [] ∧
    reopen exampleCfg P.state [] = .error (.other .valueError) := by
  have hfirst : (exampleBytes ++ [10]).take 1 = [123] := by decide +kernel
  have hcut : [123] ++ (exampleBytes ++ [10]).drop 1 = exampleBytes ++ [10] := by
    rw [← hfirst, List.take_append_drop]
  obtain ⟨P, hP, hstate⟩ := failedRun _ _ hcut
  refine ⟨P, hP.mono fun _ _ _ _ _ h => h.2, congrArg Durable.acks hstate, ?_⟩
  rw [hstate]
  rfl

end Valops.Audit
