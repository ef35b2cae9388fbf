import Valops.Audit.Knowledge

/-!
# What a restart recovers

`_load` takes `last_anchor_ts` from the entries whose event is `anchor` and `daemon_last` from the
accepted ones whose event is `observe_checkpoint`. Both are written by the sequencer itself; but
`submit` takes these events from anybody (`poisoned_restart`).

A checkpoint is accepted in one operation and recorded in another. `unrecorded` says which threads
are in between, in the order in which they accepted.

Main result: `restart_reproduces`.
-/

set_option autoImplicit false

namespace Valops.Audit

open Py HashChain Conc

/-! ## Loading entries -/

section Load

variable {cfg : SeqConfig} {s : Sequencer} {e : Json} {es : List Json} {l l' : Loaded}

/-- `_load` on entries. -/
def loadEntries (cfg : SeqConfig) : Nat → List Json → Loaded → Except Exc Loaded
  | _, [], st => .ok st
  | n, e :: rest, st => do
    let st ← loadEntry cfg n e st
    loadEntries cfg (n + 1) rest st

theorem loadLines_eq : ∀ {lines : List Bytes} {es : List Json} {n : Nat} {st : Loaded},
    lines.map loadsBytes = es.map some → loadLines cfg n lines st = loadEntries cfg n es st
  | [], [], _, _, _ => rfl
  | [], _ :: _, _, _, h => by cases h
  | _ :: _, [], _, _, h => by cases h
  | line :: lines, e :: es, n, st, h => by
    simp only [List.map_cons, List.cons.injEq] at h
    rw [loadLines, loadEntries, h.1]
    show loadEntry cfg n e st >>= _ = _
    cases loadEntry cfg n e st with
    | ok st' => exact loadLines_eq h.2
    | error x => rfl

theorem loadEntries_snoc : ∀ {es : List Json} {n : Nat} {st : Loaded},
    loadEntries cfg n (es ++ [e]) st = loadEntries cfg n es st >>= loadEntry cfg (n + es.length) e
  | [], n, st => by
    show loadEntry cfg n e st >>= (fun st => .ok st) = loadEntry cfg n e st
    cases loadEntry cfg n e st <;> rfl
  | x :: es, n, st => by
    rw [List.cons_append, loadEntries, loadEntries]
    cases loadEntry cfg n x st with
    | ok st' =>
      show loadEntries cfg (n + 1) (es ++ [e]) st' = loadEntries cfg (n + 1) es st' >>= _
      rw [loadEntries_snoc, List.length_cons, Nat.add_right_comm, Nat.add_assoc]
    | error y => rfl

/-- Before the first entry. -/
def Loaded.init : Loaded := ⟨0, GENESIS, .null, none, none⟩

/-- `daemon_last` after an entry with this event and these data. -/
def checkpointAfter (event : PyStr) (data : Json) (last : Option (Json × Json)) :
    Except Exc (Option (Json × Json)) :=
  if accepting event data then do
    let seq ← index data "seq"
    let head ← index data "head"
    pure (some (seq, head))
  else pure last

/-- `_load` on an entry of the sequencer. -/
theorem loadEntry_entry {ts : Double} {actor event : PyStr} {episode_id data payload_ref : Json}
    {b : Bytes} {t : Json} {d : Option (Json × Json)} (hobj : ∃ kvs, data = .obj kvs)
    (hb : canonical (entry s ts actor event episode_id data payload_ref) = some b) :
    loadEntry cfg (s.seq + 1) (entry s ts actor event episode_id data payload_ref)
      ⟨s.seq, s.head, t, d, none⟩ = (checkpointAfter event data d).map fun d' =>
        ⟨s.seq + 1, cfg.sha b, if event = py "anchor" then .float ts else t, d', none⟩ := by
  obtain ⟨kvs, hkvs⟩ := hobj
  have hhash : entry_hash cfg.sha (entry s ts actor event episode_id data payload_ref) =
      .ok (cfg.sha b) := by
    rw [entry_hash, hashOf, hb]
    rfl
  have hts : loadAnchorTs (entry s ts actor event episode_id data payload_ref) (.str event) t =
      .ok (if event = py "anchor" then .float ts else t) := by
    unfold loadAnchorTs
    by_cases hevent : event = py "anchor"
    · rw [if_pos hevent, if_pos (Json.eqStr_iff.2 (congrArg Json.str hevent))]
      rfl
    · rw [if_neg hevent, if_neg fun h => hevent (Json.str.inj (Json.eqStr_iff.1 h))]
      rfl
  have hlast : loadCheckpoint (entry s ts actor event episode_id data payload_ref) (.str event) d =
      checkpointAfter event data d := by
    unfold loadCheckpoint checkpointAfter accepting
    by_cases hevent : event = py "observe_checkpoint"
    · rw [if_pos (Json.eqStr_iff.2 (congrArg Json.str hevent)), decide_eq_true hevent,
        Bool.true_and, hkvs]
      rfl
    · rw [if_neg fun h => hevent (Json.str.inj (Json.eqStr_iff.1 h)), decide_eq_false hevent,
        Bool.false_and]
      rfl
  unfold loadEntry
  have hprev : index (entry s ts actor event episode_id data payload_ref) "prev" = .ok (.str s.head) :=
    rfl
  have hseq : index (entry s ts actor event episode_id data payload_ref) "seq" =
      .ok (.int (s.seq + 1 : Nat)) := rfl
  have hev : index (entry s ts actor event episode_id data payload_ref) "event" = .ok (.str event) :=
    rfl
  have hnat : asNat (.int (s.seq + 1 : Nat)) = some (s.seq + 1) := rfl
  have hhead : (Json.str s.head).eqStr s.head = true := Json.eqStr_iff.2 rfl
  have hnum : (Json.int (s.seq + 1 : Nat)).eqInt (s.seq + 1 : Nat) = true := decide_eq_true rfl
  rw [hprev, ok_bind, hseq, ok_bind, hhash, ok_bind, hnat, hev]
  simp only [orRaise, ok_bind, hts, hlast, hhead, hnum]
  cases checkpointAfter event data d <;> rfl

end Load

/-! ## Accepting and recording -/

/-- The sequencer, and the threads that have accepted a checkpoint and not recorded it yet, the
oldest first. -/
structure Live where
  seqr : Sequencer
  unrecorded : List Label := []

/-- `unrecorded` after an operation. -/
def unrecordedAfter (c : Label) (waiting : List Label) : (o : Op) → Res o → List Label
  | .set_daemon_last _, _ => waiting ++ [c]
  | .append _ event _ data _, .ok _ =>
    if accepting event data ∧ waiting.head? = some c then waiting.tail else waiting
  | _, _ => waiting

/-- What an operation does. -/
def liveExec (cfg : SeqConfig) (c : Label) (x : Live) (o : Op) (r : Res o) (x' : Live) : Prop :=
  exec cfg c x.seqr o r x'.seqr ∧ x'.unrecorded = unrecordedAfter c x.unrecorded o r

/-- The condition on an operation: nothing that `_load` looks for is submitted, and accepted
checkpoints are recorded in the order in which they were accepted. -/
def Proper (c : Label) (x : Live) : (o : Op) → Res o → Prop
  | .append _ event _ data _, r =>
    (c.2.Submits → Plain event data) ∧
      (¬ c.2.Submits → accepting event data = true →
        x.unrecorded.head? = some c ∧ ∃ a, r = .ok a)
  | _, _ => True

/-- A pool of the sequencer's threads. -/
abbrev LivePool := Pool Live Label Op Res (Except Exc Reply)

/-- A run of threads from a sequencer that has just started. -/
def Runs (cfg : SeqConfig) (s : Sequencer) (P : LivePool) : Prop :=
  Pool.Reach (limited (liveExec cfg) Proper) (body cfg) ⟨s, []⟩ P

/-- A sequencer can start in this state: new, or restarted after such a run. -/
inductive Lawful (cfg : SeqConfig) : Sequencer → Prop
  | fresh : Lawful cfg .fresh
  | again {s s' : Sequencer} {P : LivePool} : Lawful cfg s → Runs cfg s P →
      restart cfg P.state.seqr = .ok s' → Lawful cfg s'

/-- The entry records an anchor that was put. -/
def RecordsPut (s : Sequencer) (e : Json) : Prop :=
  get e "event" = .ok (.str (py "anchor")) ∧
    ∃ data, get e "data" = .ok data ∧ ∃ a ∈ s.anchors, Records data a

/-- What the chain says of `last_anchor_ts`. -/
def AnchorTime (s : Sequencer) (ts : Json) : Prop :=
  (ts = .null ∧ ∀ e ∈ s.entries, get e "event" ≠ .ok (.str (py "anchor"))) ∨
    ∃ e ∈ s.entries, get e "ts" = .ok ts ∧ RecordsPut s e

/-- The invariant: the chain can be loaded, and gives what the object holds. -/
structure Recoverable (cfg : SeqConfig) (x : Live) : Prop where
  good : Good cfg x.seqr
  loads : ∃ ts d, loadEntries cfg 1 x.seqr.entries .init =
      .ok ⟨x.seqr.seq, x.seqr.head, ts, d, none⟩ ∧ AnchorTime x.seqr ts ∧
    (x.unrecorded = [] → d = x.seqr.daemon_last)

/-- A thread has accepted a checkpoint and not recorded it. If it is the last in line, its checkpoint
is the last one accepted. -/
def Waits (c : Label) (last : Json × Json) (x : Live) : Prop :=
  c ∈ x.unrecorded ∧ (x.unrecorded.getLast? = some c → x.seqr.daemon_last = some last)

/-- What a thread knows, of the object and of `unrecorded`. -/
structure LiveKnows (cfg : SeqConfig) (c : Label) (κ : Known) (x : Live) : Prop where
  knows : Knows cfg κ x.seqr
  accepted : ∀ last, κ.accepted = some last → Waits c last x

section Recovery

variable {cfg : SeqConfig} {c : Label} {κ : Known} {x x' : Live} {s s' : Sequencer} {o : Op}
  {r : Res o}

theorem AnchorTime.grows {ts : Json} (h : AnchorTime s ts) (hentries : s'.entries = s.entries)
    (hanchors : s.anchors ⊆ s'.anchors) : AnchorTime s' ts := by
  rcases h with ⟨hnull, hnone⟩ | ⟨e, he, hts, hevent, data, hdata, a, ha, hrec⟩
  · exact .inl ⟨hnull, hentries ▸ hnone⟩
  · exact .inr ⟨e, hentries ▸ he, hts, hevent, data, hdata, a, hanchors ha, hrec⟩

/-- An operation that appends nothing. -/
theorem Recoverable.quiet (h : Recoverable cfg x) (hgood : Good cfg x'.seqr)
    (hentries : x'.seqr.entries = x.seqr.entries) (hseq : x'.seqr.seq = x.seqr.seq)
    (hhead : x'.seqr.head = x.seqr.head) (hanchors : x.seqr.anchors ⊆ x'.seqr.anchors)
    (hlast : x'.unrecorded = [] → x.unrecorded = [] ∧ x'.seqr.daemon_last = x.seqr.daemon_last) :
    Recoverable cfg x' := by
  obtain ⟨ts, d, hload, htime, hd⟩ := h.loads
  refine ⟨hgood, ts, d, ?_, htime.grows hentries hanchors, fun hnone => ?_⟩
  · rw [hentries, hseq, hhead]
    exact hload
  · obtain ⟨hbefore, hsame⟩ := hlast hnone
    rw [hsame, hd hbefore]

theorem unrecordedAfter_plain {waiting : List Label} {actor event : PyStr}
    {episode_id data payload_ref : Json} {r : Except Exc Ack} (h : accepting event data = false) :
    unrecordedAfter c waiting (.append actor event episode_id data payload_ref) r = waiting := by
  cases r with
  | ok a => exact if_neg fun hb => Bool.false_ne_true (h.symm.trans hb.1)
  | error e => rfl

/-- What an append may add, under the condition on it. -/
theorem Proper.warranted {actor event : PyStr} {episode_id data payload_ref : Json}
    {r : Except Exc Ack} (hok : Proper c x (.append actor event episode_id data payload_ref) r)
    (h : Warranted c κ event data) :
    Plain event data ∨ (event = py "anchor" ∧ accepting event data = false ∧
        ∃ a ∈ κ.put, Records data a) ∨
      ∃ last, κ.accepted = some last ∧ event = py "observe_checkpoint" ∧ data = acceptedData last ∧
        x.unrecorded.head? = some c ∧ ∃ a, r = .ok a := by
  by_cases hsubmits : c.2.Submits
  · exact .inl (hok.1 hsubmits)
  rcases h with h | hplain | ⟨hevent, a, ha, hrec⟩ | ⟨last, hlast, hevent, hdata⟩
  · exact absurd h hsubmits
  · exact .inl hplain
  · refine .inr (.inl ⟨hevent, ?_, a, ha, hrec⟩)
    rw [accepting, decide_eq_false (by rw [hevent]; decide), Bool.false_and]
  · have hacc : accepting event data = true := by
      rw [hevent, hdata]
      rfl
    exact .inr (.inr ⟨last, hlast, hevent, hdata, hok.2 hsubmits hacc⟩)

/-- What an append does to what can be loaded. -/
theorem Recoverable.append (h : Recoverable cfg x) (hκ : LiveKnows cfg c κ x)
    {actor event : PyStr} {episode_id data payload_ref : Json} {r : Except Exc Ack}
    (hpre : demands cfg c κ (.append actor event episode_id data payload_ref))
    (hok : Proper c x (.append actor event episode_id data payload_ref) r)
    (hexec : liveExec cfg c x (.append actor event episode_id data payload_ref) r x') :
    Recoverable cfg x' := by
  obtain ⟨hgood, _, hanchors⟩ := exec_good h.good hκ.knows hpre hexec.1
  obtain ⟨⟨ts, hts⟩, hwaiting⟩ := hexec
  obtain ⟨_, hdec, hwarrant⟩ := hpre
  have hcases := hok.warranted hwarrant
  simp only [Audit.append] at hts
  split at hts
  · obtain ⟨rfl, hsame⟩ := Prod.mk.inj hts
    exact h.quiet hgood (by rw [← hsame]) (by rw [← hsame]) (by rw [← hsame]) hanchors
      fun hnone => ⟨hwaiting.symm.trans hnone, by rw [← hsame]⟩
  · rename_i b hb
    obtain ⟨rfl, hsame⟩ := Prod.mk.inj hts
    obtain ⟨t, d, hload, htime, hd⟩ := h.loads
    have hlast : x'.seqr.daemon_last = x.seqr.daemon_last := by rw [← hsame]
    have hentries : x'.seqr.entries = x.seqr.entries ++
        [entry x.seqr ts actor event episode_id data payload_ref] := by
      rw [← hsame]
      exact List.map_append
    have hstep : ∀ d', checkpointAfter event data d = .ok d' →
        loadEntries cfg 1 x'.seqr.entries .init = .ok ⟨x'.seqr.seq, x'.seqr.head,
          if event = py "anchor" then .float ts else t, d', none⟩ := by
      intro d' hd'
      rw [hentries, loadEntries_snoc, hload, ok_bind, Nat.add_comm 1, ← h.good.seq,
        loadEntry_entry hdec.object hb, hd', ← hsame]
      rfl
    have hold : event ≠ py "anchor" → AnchorTime x'.seqr t := by
      intro hne
      rcases htime with ⟨hnull, hnone⟩ | ⟨e, he, hrest, hevent, data', hdata', a, ha, hrec⟩
      · refine .inl ⟨hnull, hentries ▸ List.forall_mem_append.2 ⟨hnone,
          List.forall_mem_singleton.2 fun hev => ?_⟩⟩
        rw [entry_event] at hev
        exact hne (Json.str.inj (Except.ok.inj hev))
      · refine .inr ⟨e, hentries ▸ List.mem_append_left _ he, hrest, hevent, data', hdata', a,
          hanchors ha, hrec⟩
    have hkeep : accepting event data = false → x'.unrecorded = [] → d = x'.seqr.daemon_last := by
      intro hplain hnone
      rw [hwaiting, unrecordedAfter_plain hplain] at hnone
      rw [hlast, hd hnone]
    have hsame' : accepting event data = false → checkpointAfter event data d = .ok d := by
      intro hplain
      rw [checkpointAfter, hplain]
      rfl
    refine ⟨hgood, ?_⟩
    rcases hcases with ⟨hne, hplain⟩ | ⟨hevent, hplain, a, ha, hrec⟩ |
      ⟨last, haccepted, hevent, hdata, hfirst, _⟩
    · refine ⟨t, d, ?_, hold hne, hkeep hplain⟩
      rw [hstep d (hsame' hplain), if_neg hne]
    · refine ⟨.float ts, d, ?_, .inr ⟨entry x.seqr ts actor event episode_id data payload_ref, ?_,
        rfl, ?_, data, rfl, a, hanchors (hκ.knows.put a ha), hrec⟩, hkeep hplain⟩
      · rw [hstep d (hsame' hplain), if_pos hevent]
      · rw [hentries]
        exact List.mem_append_right _ (List.mem_singleton_self _)
      · rw [entry_event, hevent]
    · -- the thread is first in line, and alone if nobody is left
      have hne : event ≠ py "anchor" := by
        rw [hevent]
        decide
      have hafter : checkpointAfter event data d = .ok (some last) := by
        rw [hevent, hdata]
        rfl
      have hacc : accepting event data = true := by
        rw [hevent, hdata]
        rfl
      refine ⟨t, some last, ?_, hold hne, fun hnone => ?_⟩
      · rw [hstep _ hafter, if_neg hne]
      · have htail : x.unrecorded.tail = [] := by
          rw [← hnone, hwaiting]
          exact (if_pos ⟨hacc, hfirst⟩).symm
        have halone : x.unrecorded = [c] := by
          cases hx : x.unrecorded with
          | nil =>
            rw [hx] at hfirst
            cases hfirst
          | cons y ys =>
            rw [hx] at hfirst htail
            cases hfirst
            rw [show ys = [] from htail]
        rw [hlast, (hκ.accepted last haccepted).2 (by rw [halone]; rfl)]

/-! ## Every operation -/

/-- Only one operation changes the last checkpoint, and only two change the line. -/
theorem liveExec_last (h : liveExec cfg c x o r x') :
    (∃ last, o = .set_daemon_last last ∧ x'.seqr.daemon_last = some last ∧
      x'.unrecorded = x.unrecorded ++ [c]) ∨
    ((∀ last, o ≠ .set_daemon_last last) ∧ x'.seqr.daemon_last = x.seqr.daemon_last ∧
      (x'.unrecorded = x.unrecorded ∨ (o.Appends ∧ x.unrecorded = c :: x'.unrecorded ∧
        (learned cfg κ o r).accepted = none))) := by
  obtain ⟨hexec, hwaiting⟩ := h
  cases o with
  | append actor event episode_id data payload_ref =>
    refine .inr ⟨by simp, ?_, ?_⟩
    · obtain ⟨ts, hts⟩ := hexec
      simp only [Audit.append] at hts
      split at hts <;> obtain ⟨_, hsame⟩ := Prod.mk.inj hts <;> rw [← hsame]
    · cases r with
      | error e => exact .inl hwaiting
      | ok a =>
        have hwaiting : x'.unrecorded = if accepting event data ∧ x.unrecorded.head? = some c then
          x.unrecorded.tail else x.unrecorded := hwaiting
        by_cases hfirst : accepting event data = true ∧ x.unrecorded.head? = some c
        · rw [if_pos hfirst] at hwaiting
          refine .inr ⟨trivial, ?_, ?_⟩
          · rw [hwaiting]
            exact (List.cons_head?_tail hfirst.2).symm
          · show (if accepting event data = true then _ else κ).accepted = none
            rw [if_pos hfirst.1]
        · rw [if_neg hfirst] at hwaiting
          exact .inl hwaiting
  | store_payload raw =>
    have hexec : store_payload cfg x.seqr raw = (r, x'.seqr) := hexec
    refine .inr ⟨by simp, ?_, .inl hwaiting⟩
    unfold store_payload at hexec
    split at hexec <;> obtain ⟨_, hsame⟩ := Prod.mk.inj hexec <;> rw [← hsame]
  | read_head => exact .inr ⟨by simp, by rw [hexec.2], .inl hwaiting⟩
  | ts_ms => exact .inr ⟨by simp, by rw [show x'.seqr = x.seqr from hexec], .inl hwaiting⟩
  | sign a body => exact .inr ⟨by simp, by rw [hexec.2], .inl hwaiting⟩
  | put a =>
    refine .inr ⟨by simp, ?_, .inl hwaiting⟩
    cases r with
    | ok u => rw [show x'.seqr = { x.seqr with anchors := x.seqr.anchors ++ [a] } from hexec]
    | error e => rw [show x'.seqr = x.seqr from hexec]
  | set_anchor_ts =>
    obtain ⟨_, hsame⟩ := hexec
    exact .inr ⟨by simp, by rw [hsame], .inl hwaiting⟩
  | read_daemon_last => exact .inr ⟨by simp, by rw [hexec.2], .inl hwaiting⟩
  | set_daemon_last last =>
    refine .inl ⟨last, rfl, ?_, hwaiting⟩
    rw [show x'.seqr = { x.seqr with daemon_last := some last } from hexec]

/-- A thread keeps waiting whatever the others do. -/
theorem Waits.other {c' : Label} {last : Json × Json} (h : Waits c' last x) (hne : c' ≠ c)
    (hexec : liveExec cfg c x o r x') : Waits c' last x' := by
  rcases liveExec_last (κ := {}) hexec with ⟨_, _, _, hline⟩ | ⟨_, hlast, hline | ⟨_, hline, _⟩⟩
  · refine ⟨?_, fun hend => absurd ?_ hne⟩
    · rw [hline]
      exact List.mem_append_left _ h.1
    · rw [hline, List.getLast?_concat] at hend
      exact (Option.some.inj hend).symm
  · rw [Waits, hline, hlast]
    exact h
  · obtain ⟨hmem, hend⟩ := h
    rw [hline] at hmem hend
    have htail : c' ∈ x'.unrecorded := (List.mem_cons.1 hmem).resolve_left hne
    refine ⟨htail, fun h' => ?_⟩
    rw [hlast]
    refine hend ?_
    rw [List.getLast?_cons_of_ne_nil (List.ne_nil_of_mem htail)]
    exact h'

/-- A thread waits for what it has accepted itself. -/
theorem LiveKnows.waits (h : LiveKnows cfg c κ x) (hexec : liveExec cfg c x o r x')
    {last : Json × Json} (haccepted : (learned cfg κ o r).accepted = some last) :
    Waits c last x' := by
  rcases liveExec_last (κ := κ) hexec with
    ⟨last', rfl, hlast, hline⟩ | ⟨hne, hlast, hline | ⟨_, _, hnone⟩⟩
  · obtain rfl : last' = last := Option.some.inj haccepted
    refine ⟨?_, fun _ => hlast⟩
    rw [hline]
    exact List.mem_append_right _ (List.mem_singleton_self c)
  · have hbefore : κ.accepted = some last := by
      cases o with
      | set_daemon_last l => exact absurd rfl (hne l)
      | append actor event episode_id data payload_ref =>
        cases r with
        | error e => exact haccepted
        | ok a =>
          have haccepted : (if accepting event data = true then { κ with accepted := none }
            else κ).accepted = some last := haccepted
          split at haccepted
          · cases haccepted
          · exact haccepted
      | put a => cases r <;> exact haccepted
      | _ => exact haccepted
    rw [Waits, hline, hlast]
    exact h.accepted last hbefore
  · cases hnone.symm.trans haccepted

/-- **Every operation** keeps the invariant and what the threads know. -/
theorem live_step (h : Recoverable cfg x) (hκ : LiveKnows cfg c κ x) (hpre : demands cfg c κ o)
    (hexec : limited (liveExec cfg) Proper c x o r x') :
    Kept (Recoverable cfg) (LiveKnows cfg) c (learned cfg κ o r) x x' := by
  obtain ⟨hok, hlive⟩ := hexec
  obtain ⟨hgood, hgrows, hanchors⟩ := exec_good h.good hκ.knows hpre hlive.1
  refine ⟨?_, ⟨exec_knows h.good hκ.knows hpre hlive.1, fun last => hκ.waits hlive⟩, ?_⟩
  · by_cases happend : o.Appends
    · cases o with
      | append actor event episode_id data payload_ref => exact h.append hκ hpre hok hlive
      | _ => exact absurd happend id
    · obtain ⟨_, hseq, hhead, hhistory⟩ := exec_quiet hlive.1 happend
      refine h.quiet hgood (congrArg (List.map Prod.snd) hhistory) hseq hhead hanchors
        fun hnone => ?_
      rcases liveExec_last (κ := κ) hlive with
        ⟨_, _, _, hline⟩ | ⟨_, hlast, hline | ⟨h', _⟩⟩
      · rw [hline] at hnone
        exact absurd hnone (List.append_ne_nil_of_right_ne_nil _ (List.cons_ne_nil _ _))
      · exact ⟨hline.symm.trans hnone, hlast⟩
      · exact absurd h' happend
  · exact fun c' κ' hne hknows => ⟨hknows.knows.grows hgrows hanchors,
      fun last hlast => (hknows.accepted last hlast).other hne hlive⟩

/-! ## Every run -/

theorem LiveKnows.start : LiveKnows cfg c {} x := ⟨.empty, nofun⟩

theorem recoverable_fresh : Recoverable cfg ⟨.fresh, []⟩ :=
  ⟨good_fresh, .null, none, rfl, .inl ⟨rfl, nofun⟩, fun _ => rfl⟩

/-- **The invariant holds in every interleaving.** -/
theorem runs_recoverable {P : LivePool} (h : Recoverable cfg ⟨s, []⟩) (hP : Runs cfg s P) :
    Recoverable cfg P.state :=
  (Pool.local_sound (knowledge cfg) (fun _ _ _ _ _ _ => live_step) body_local
    (fun _ _ _ => .start) h hP).1

/-- A restarted sequencer holds what the one before it held. -/
structure Reproduced (s s' : Sequencer) : Prop where
  seq : s'.seq = s.seq
  head : s'.head = s.head
  daemon_last : s'.daemon_last = s.daemon_last
  integrity_error : s'.integrity_error = none
  last_anchor_ts : AnchorTime s s'.last_anchor_ts

/-- A restart on a chain that can be loaded. -/
theorem Recoverable.restarts (h : Recoverable cfg x) : ∃ s', restart cfg x.seqr = .ok s' ∧
    Recoverable cfg ⟨s', []⟩ ∧ (x.unrecorded = [] → Reproduced x.seqr s') := by
  obtain ⟨ts, d, hload, htime, hd⟩ := h.loads
  have hlines : loadLines cfg 1 (splitLines x.seqr.file) ⟨0, GENESIS, .null, none, none⟩ =
      .ok ⟨x.seqr.seq, x.seqr.head, ts, d, none⟩ :=
    (loadLines_eq (splitLines_chainFile h.good.wf h.good.file)).trans hload
  have hrestart : ∃ s', restart cfg x.seqr = .ok s' ∧ s' = { x.seqr with
      last_anchor_ts := ts
      daemon_last := d
      integrity_error := none
      history := x.seqr.history.map fun x => (none, x.2) } := by
    refine ⟨_, ?_, rfl⟩
    rw [restart, hlines]
    rfl
  obtain ⟨s', hs', heq⟩ := hrestart
  have hentries : s'.entries = x.seqr.entries := by
    rw [heq, Sequencer.entries, Sequencer.entries, List.map_map]
    rfl
  refine ⟨s', hs', ⟨good_restart h.good hs', ts, d, ?_, ?_, ?_⟩, fun hnone => ?_⟩
  · show loadEntries cfg 1 s'.entries .init = .ok ⟨s'.seq, s'.head, ts, d, none⟩
    rw [hentries, hload, heq]
  · refine htime.grows hentries ?_
    rw [heq]
    exact fun j hj => hj
  · show [] = [] → d = s'.daemon_last
    rw [heq]
    exact fun _ => rfl
  · rw [heq]
    exact ⟨rfl, rfl, hd hnone, rfl, htime⟩

theorem lawful_recoverable (h : Lawful cfg s) : Recoverable cfg ⟨s, []⟩ := by
  induction h with
  | fresh => exact recoverable_fresh
  | again _ hP hr ih =>
    obtain ⟨s', hs', hrec, _⟩ := (runs_recoverable ih hP).restarts
    cases hs'.symm.trans hr
    exact hrec

/-- **A restart reproduces the live state.** After any run, over any number of restarts, in which
nothing that `_load` looks for was submitted and accepted checkpoints were recorded in the order in
which they were accepted: unless an accepted checkpoint is still unrecorded, a new sequencer on the
chain file starts with the same `seq`, `head` and `daemon_last`, and `last_anchor_ts` is the time of
an entry that records an anchor in the store. -/
theorem restart_reproduces {P : LivePool} (hs : Lawful cfg s) (hP : Runs cfg s P)
    (hnone : P.state.unrecorded = []) :
    ∃ s', restart cfg P.state.seqr = .ok s' ∧ Reproduced P.state.seqr s' := by
  obtain ⟨s', hs', _, hsame⟩ := (runs_recoverable (lawful_recoverable hs) hP).restarts
  exact ⟨s', hs', hsame hnone⟩

end Recovery

/-! ## A run -/

/-- The first checkpoint of a validator host, signed with the key of 32 zero bytes. -/
def checkpointSig : Bytes := [158, 20, 36, 188, 18, 43, 77, 188, 145, 115, 1, 117, 234, 11, 18, 218,
  4, 23, 212, 64, 169, 30, 72, 177, 173, 37, 51, 159, 125, 154, 100, 235, 121, 110, 22, 235, 17,
  161, 226, 254, 71, 237, 188, 238, 49, 157, 38, 56, 71, 36, 75, 100, 164, 48, 139, 225, 28, 234,
  81, 12, 59, 150, 247, 8]

def checkpoint : Params := .ofFields [(py "seq", .int 0), (py "head", .str GENESIS),
  (py "ts", .float exampleTs), (py "since_seq", .null), (py "since_head", .null),
  (py "sig", .str (b64u checkpointSig))] (by
    simp only [List.forall_mem_cons, List.not_mem_nil, false_imp_iff, implies_true, and_true]
    exact ⟨.int _, .str _, .float _, .null, .null, .str _⟩)

/-- `GENESIS` as bytes. -/
def zeros : Bytes := List.replicate 64 48

def checkpointBody : Bytes := ascii "\x7b\"head\":\"" ++ zeros ++
  ascii "\",\"seq\":0,\"since_head\":null," ++ ascii "\"since_seq\":null,\"ts\":1700000000.5\x7d"

/-- The entry that records it, in a new chain. -/
def checkpointEntry : Json := entry .fresh exampleTs (py "observer_broker") (py "observe_checkpoint")
  .null (acceptedData (.int 0, .str GENESIS)) .null

def checkpointBytes : Bytes := ascii "\x7b\"actor\":\"observer_broker\"," ++
  ascii "\"data\":\x7b\"accepted\":true,\"head\":\"" ++ zeros ++
  ascii "\",\"seq\":0\x7d,\"episode_id\":null," ++ ascii "\"event\":\"observe_checkpoint\"," ++
  ascii "\"payload_ref\":null,\"prev\":\"" ++ zeros ++ ascii "\",\"seq\":1,\"ts\":1700000000.5\x7d"

/-- The data of a submission with the event of a checkpoint. -/
def poisonData : Json := Json.mkObj [(py "accepted", .bool true)]

theorem poisonData_wf : poisonData.WF := Json.wf_mkObj (List.forall_mem_singleton.2 (.bool true))

/-- Its entry, in a new chain. -/
def poisonEntry : Json := entry .fresh exampleTs (py "model_broker") (py "observe_checkpoint")
  .null poisonData .null

def poisonBytes : Bytes := ascii "\x7b\"actor\":\"model_broker\"," ++
  ascii "\"data\":\x7b\"accepted\":true\x7d,\"episode_id\":null," ++
  ascii "\"event\":\"observe_checkpoint\"," ++ ascii "\"payload_ref\":null,\"prev\":\"" ++ zeros ++
  ascii "\",\"seq\":1,\"ts\":1700000000.5\x7d"

/-- SHA-256 and the daemon's key as tables of what the two runs ask them. -/
def checkpointCfg : SeqConfig where
  sha := fun b =>
    if b = checkpointBytes then py "cee4792728f2d5f5ccf3973a5450f9ab0602c63d9b1532c8e26422bf5871f8a3"
    else if b = poisonBytes then
      py "41f5c7a20bec8fb92fbf01af9888405d090009b26efd5b64711f82eaefd226fc"
    else []
  key_id := py "chain-1"
  sign := fun _ => []
  daemon_verifier := some fun sig m => decide (sig = checkpointSig ∧ m = checkpointBody)
  str := fun _ => []

set_option maxRecDepth 10000 in
theorem canonical_checkpoint : canonical (Json.mkObj
    (["seq", "head", "ts", "since_seq", "since_head"].map fun k => (py k, checkpoint.get k))) =
    some checkpointBody := by
  decide +kernel

set_option maxRecDepth 10000 in
theorem canonical_checkpointEntry : canonical checkpointEntry = some checkpointBytes := by
  decide +kernel

set_option maxRecDepth 10000 in
theorem canonical_poisonEntry : canonical poisonEntry = some poisonBytes := by
  decide +kernel

theorem compute_ok {α β : Type} {a : α} {f : α → Method β} : (compute (.ok a) >>= f) = f a := rfl

/-- The operations of a checkpoint that is accepted, with none recorded before. -/
theorem checkpoint_steps {cfg : SeqConfig} (n : Nat) {ckpt : Params} {verify : Verify} {b sig : Bytes}
    {sigText seq head : Json} (hverify : cfg.daemon_verifier = some verify)
    (hb : canonical (Json.mkObj (["seq", "head", "ts", "since_seq", "since_head"].map fun k =>
      (py k, ckpt.get k))) = some b)
    (htext : getD (.obj ckpt.fields) "sig" (.str []) = .ok sigText) (hsig : b64u_dec sigText = .ok sig)
    (hok : verify sig b = true) (hseq : index (.obj ckpt.fields) "seq" = .ok seq)
    (hhead : index (.obj ckpt.fields) "head" = .ok head) :
    ∃ k, body cfg (n, .record_daemon_checkpoint ckpt) = .step .read_daemon_last k ∧
    ∃ k1, k none = .step (.set_daemon_last (seq, head)) k1 ∧
    ∃ k2, k1 () = .step (.append (py "observer_broker") (py "observe_checkpoint") .null
      (acceptedData (seq, head)) .null) k2 := by
  show ∃ k, (record_daemon_checkpoint cfg (py "observer_broker") ckpt).run = _ ∧ _
  unfold record_daemon_checkpoint
  simp only [hverify, hb, orRaise, compute_ok, htext, hsig, hok, hseq, hhead]
  exact ⟨_, rfl, _, rfl, _, rfl⟩

def checkpointLabel : Label := (0, .record_daemon_checkpoint checkpoint)

/-- A new sequencer that has accepted the checkpoint. -/
def acceptedState : Sequencer := { Sequencer.fresh with
  daemon_last := some (.int 0, .str GENESIS) }

/-- The same with the checkpoint recorded. -/
def recordedState : Sequencer := { acceptedState with
  file := acceptedState.file ++ (checkpointBytes ++ [10])
  seq := acceptedState.seq + 1
  head := checkpointCfg.sha checkpointBytes
  history := acceptedState.history ++ [(some checkpointLabel, checkpointEntry)] }

/-- A run: the first checkpoint of a validator host is accepted and recorded. -/
theorem checkpointRun : ∃ P, Runs checkpointCfg .fresh P ∧ P.state.unrecorded = [] ∧
    P.state.seqr = recordedState := by
  have hsig : b64u_dec (.str (b64u checkpointSig)) = .ok checkpointSig := by
    rw [b64u_dec, b64uDec_b64u]
    rfl
  have hseq : index (.obj checkpoint.fields) "seq" = .ok (.int 0) := rfl
  have hhead : index (.obj checkpoint.fields) "head" = .ok (.str GENESIS) := rfl
  obtain ⟨k, hk, k1, hk1, k2, hk2⟩ := checkpoint_steps 0
    (show checkpointCfg.daemon_verifier = some _ from rfl) canonical_checkpoint rfl hsig
    (decide_eq_true ⟨rfl, rfl⟩) hseq hhead
  have happ : append checkpointCfg checkpointLabel acceptedState exampleTs (py "observer_broker")
      (py "observe_checkpoint") .null (acceptedData (.int 0, .str GENESIS)) .null =
      (.ok ⟨1, checkpointCfg.sha checkpointBytes, .null⟩, recordedState) :=
    append_eq canonical_checkpointEntry
  refine ⟨⟨⟨recordedState, []⟩, [⟨checkpointLabel,
    k2 (.ok ⟨1, checkpointCfg.sha checkpointBytes, .null⟩)⟩]⟩, ?_, rfl, rfl⟩
  have hread : limited (liveExec checkpointCfg) Proper checkpointLabel ⟨.fresh, []⟩
      .read_daemon_last none ⟨.fresh, []⟩ := ⟨trivial, ⟨rfl, rfl⟩, rfl⟩
  have haccept : limited (liveExec checkpointCfg) Proper checkpointLabel ⟨.fresh, []⟩
      (.set_daemon_last (.int 0, .str GENESIS)) () ⟨acceptedState, [checkpointLabel]⟩ :=
    ⟨trivial, rfl, rfl⟩
  have hrecord : limited (liveExec checkpointCfg) Proper checkpointLabel
      ⟨acceptedState, [checkpointLabel]⟩ (.append (py "observer_broker") (py "observe_checkpoint")
        .null (acceptedData (.int 0, .str GENESIS)) .null)
      (.ok ⟨1, checkpointCfg.sha checkpointBytes, .null⟩) ⟨recordedState, []⟩ :=
    ⟨⟨(by rintro ⟨_, _, h⟩; cases h), fun _ _ => ⟨rfl, _, rfl⟩⟩, ⟨exampleTs, happ⟩, rfl⟩
  refine .head (.spawn (⟨.fresh, []⟩ : Live) [] checkpointLabel (by simp)) ?_
  rw [show body checkpointCfg checkpointLabel = _ from hk]
  refine .head (.run _ _ [] [] _ _ k none hread) ?_
  rw [hk1]
  refine .head (.run _ _ [] [] _ _ k1 () haccept) ?_
  rw [hk2]
  exact .single (.run _ _ [] [] _ _ k2 _ hrecord)

theorem restart_reproduces_example : ∃ P, Runs checkpointCfg .fresh P ∧
    P.state.seqr.daemon_last = some (.int 0, .str GENESIS) ∧
    ∃ s', restart checkpointCfg P.state.seqr = .ok s' ∧ Reproduced P.state.seqr s' := by
  obtain ⟨P, hP, hnone, hstate⟩ := checkpointRun
  exact ⟨P, hP, by rw [hstate]; rfl, restart_reproduces .fresh hP hnone⟩

/-- The submission. -/
def poisonLabel : Label := (0, .submit (py "model_broker") (.ofFields
  [(py "event", .str (py "observe_checkpoint")), (py "data", poisonData)] (by
    simp only [List.forall_mem_cons, List.not_mem_nil, false_imp_iff, implies_true, and_true]
    exact ⟨.str _, poisonData_wf⟩)))

/-- The state after it. -/
def poisonState : Sequencer := { Sequencer.fresh with
  file := Sequencer.fresh.file ++ (poisonBytes ++ [10])
  seq := Sequencer.fresh.seq + 1
  head := checkpointCfg.sha poisonBytes
  history := Sequencer.fresh.history ++ [(some poisonLabel, poisonEntry)] }

/-- One submission, which is acknowledged, keeps the sequencer from starting again: `_load` looks for
a `seq` that is not there. -/
theorem poisoned_restart : ∃ P ack, Pool.Reach (exec checkpointCfg) (body checkpointCfg) .fresh P ∧
    P.threads = [⟨poisonLabel, .ret (.ok (.ack ack))⟩] ∧
    restart checkpointCfg P.state = .error (.other .keyError) := by
  have hbody : ∃ k, body checkpointCfg poisonLabel = .step (.append (py "model_broker")
      (py "observe_checkpoint") .null poisonData .null) k ∧
      ∀ a, k (.ok a) = .ret (.ok (.ack a)) := ⟨_, rfl, fun _ => rfl⟩
  obtain ⟨k, hk, hret⟩ := hbody
  have happ : append checkpointCfg poisonLabel .fresh exampleTs (py "model_broker")
      (py "observe_checkpoint") .null poisonData .null =
      (.ok ⟨1, checkpointCfg.sha poisonBytes, .null⟩, poisonState) :=
    append_eq canonical_poisonEntry
  have hexec : exec checkpointCfg poisonLabel .fresh (.append (py "model_broker")
      (py "observe_checkpoint") .null poisonData .null)
      (.ok ⟨1, checkpointCfg.sha poisonBytes, .null⟩) poisonState := ⟨exampleTs, happ⟩
  let P : Pool Sequencer Label Op Res (Except Exc Reply) :=
    ⟨poisonState, [⟨poisonLabel, k (.ok ⟨1, checkpointCfg.sha poisonBytes, .null⟩)⟩]⟩
  have hP : Pool.Reach (exec checkpointCfg) (body checkpointCfg) .fresh P := by
    refine .head (.spawn Sequencer.fresh [] poisonLabel fun _ h => absurd h List.not_mem_nil) ?_
    rw [hk]
    exact .single (.run _ _ [] [] _ _ k _ hexec)
  have hgood : Good checkpointCfg P.state := reach_good .fresh hP
  have hlines : (splitLines P.state.file).map loadsBytes = [poisonEntry].map some :=
    splitLines_chainFile hgood.wf hgood.file
  have hload : loadEntry checkpointCfg 1 poisonEntry .init = .error (.other .keyError) :=
    loadEntry_entry ⟨_, rfl⟩ canonical_poisonEntry
  refine ⟨P, ⟨1, checkpointCfg.sha poisonBytes, .null⟩, hP, by rw [← hret], ?_⟩
  rw [restart, loadLines_eq hlines, loadEntries]
  show (loadEntry checkpointCfg 1 poisonEntry .init >>= _) >>= _ = _
  rw [hload]
  rfl

end Valops.Audit
