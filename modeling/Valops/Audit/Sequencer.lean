import Valops.Audit.Chain
import Valops.Conc.Prog

/-!
# The audit sequencer

`AuditSequencer` as threads over one shared object. The operations of a thread are the pieces the
source runs without interruption: an append (under the lock), reading `seq` and `head` (under the
lock), storing a payload, signing, putting an anchor, and the unlocked reads and writes of
`daemon_last` and `last_anchor_ts`. Any number of threads run `submit`, `anchor_now` and
`record_daemon_checkpoint`; a restart loads the object from the chain file.

The clock is arbitrary, and putting an anchor may fail. The state carries two records that the code
does not keep: which call appended each entry, and which anchors were signed.

Main results: `Good` (the invariant of the chain) is kept by every operation, and `reach_good`
extends it to every interleaving and restart.
-/

set_option autoImplicit false

namespace Valops.Audit

open Py HashChain Conc

/-- `EVENTS`. -/
def EVENTS : List PyStr :=
  [py "tool_call", py "tool_result", py "tool_denied", py "state_change", py "integrity_fail",
    py "alert", py "observe_request", py "observe_result", py "observe_checkpoint",
    py "verification", py "anchor", py "store_write", py "model_request", py "model_refusal",
    py "token_minted", py "token_revoked", py "step", py "bundle", py "hook", py "sentinel"]

/-- `MAX_PAYLOAD`. -/
def MAX_PAYLOAD : Nat := 8 * 1024 * 1024

/-- What a sequencer is built with. `str` is the built-in function on JSON values. -/
structure SeqConfig where
  sha : Bytes → PyStr
  key_id : PyStr
  sign : Bytes → Bytes
  daemon_verifier : Option Verify
  str : Json → PyStr

/-- A call that arrives on a socket: the socket's principal and the request. `anchor_now` is also
what the anchor loop runs. -/
inductive Call where
  | submit (principal : PyStr) (params : Params)
  | anchor_now
  | record_daemon_checkpoint (ckpt : Params)
  deriving DecidableEq

/-- The `actor` of what a call appends. -/
def Call.principal : Call → PyStr
  | .submit principal _ => principal
  | .anchor_now => py "audit_sequencer"
  | .record_daemon_checkpoint _ => py "observer_broker"

/-- A thread's label: a number of its own, and the call. -/
abbrev Label := Nat × Call

/-- The unsigned part of an anchor that differs from anchor to anchor. -/
structure Anchor where
  chain_head : PyStr
  seq : Nat
  ts_ms : Int

/-- The anchor before it is signed. -/
def Anchor.unsigned (a : Anchor) (key_id : PyStr) : Json :=
  Json.mkObj [(py "chain_head", .str a.chain_head), (py "seq", .int a.seq),
    (py "ts_ms", .int a.ts_ms), (py "key_id", .str key_id)]

/-- The anchor as it is put into the store. -/
def Anchor.signed (a : Anchor) (key_id : PyStr) (sig : Bytes) : Json :=
  Json.mkObj [(py "chain_head", .str a.chain_head), (py "seq", .int a.seq),
    (py "ts_ms", .int a.ts_ms), (py "key_id", .str key_id), (py "sig", .str (b64u sig))]

/-- The object, its files and its anchor store. `history` and `made` record who appended what and
what was signed. -/
structure Sequencer where
  file : Bytes
  seq : Nat
  head : PyStr
  last_anchor_ts : Json
  daemon_last : Option (Json × Json)
  integrity_error : Option Msg
  payloads : List (PyStr × Bytes)
  anchors : List Json
  history : List (Option Label × Json)
  made : List Anchor

/-- The entries of the chain file. -/
def Sequencer.entries (s : Sequencer) : List Json := s.history.map Prod.snd

/-- `{"seq": ..., "hash": ..., "payload_ref": ...}`. -/
structure Ack where
  seq : Nat
  hash : PyStr
  payload_ref : Json

/-- What a call returns: where its entry is, or the anchor it made. -/
inductive Reply where
  | ack (a : Ack)
  | anchor (a : Json)

/-- The operations. -/
inductive Op where
  | append (actor event : PyStr) (episode_id data payload_ref : Json)
  | store_payload (raw : Bytes)
  | read_head
  | ts_ms
  | sign (a : Anchor) (body : Bytes)
  | put (a : Json)
  | set_anchor_ts
  | read_daemon_last
  | set_daemon_last (last : Json × Json)

/-- What an operation returns. -/
abbrev Res : Op → Type
  | .append .. => Except Exc Ack
  | .store_payload _ => Except Exc PyStr
  | .read_head => Nat × PyStr
  | .ts_ms => Int
  | .sign .. => Bytes
  | .put _ => Except Exc Unit
  | .set_anchor_ts => Unit
  | .read_daemon_last => Option (Json × Json)
  | .set_daemon_last _ => Unit

/-! ## Appending -/

/-- The entry `_append` builds. -/
def entry (s : Sequencer) (ts : Double) (actor event : PyStr) (episode_id data payload_ref : Json) :
    Json :=
  Json.mkObj [(py "seq", .int (s.seq + 1 : Nat)), (py "ts", .float ts), (py "prev", .str s.head),
    (py "actor", .str actor), (py "event", .str event), (py "episode_id", episode_id),
    (py "data", data), (py "payload_ref", payload_ref)]

section Threads

variable (cfg : SeqConfig)

/-- `_append`, with the lock held: an entry without a canonical form raises before the write. -/
def append (c : Label) (s : Sequencer) (ts : Double) (actor event : PyStr)
    (episode_id data payload_ref : Json) : Except Exc Ack × Sequencer :=
  let e := entry s ts actor event episode_id data payload_ref
  match canonical e with
  | none => (.error (.other .valueError), s)
  | some b =>
    (.ok ⟨s.seq + 1, cfg.sha b, payload_ref⟩,
      { s with
        file := s.file ++ (b ++ [10])
        seq := s.seq + 1
        head := cfg.sha b
        history := s.history ++ [(some c, e)] })

/-- `_store_payload`. -/
def store_payload (s : Sequencer) (raw : Bytes) : Except Exc PyStr × Sequencer :=
  if MAX_PAYLOAD < raw.length then
    (.error (rpcError .too_large (msg "payload exceeds cap")), s)
  else
    let h := cfg.sha raw
    let payloads := if (s.payloads.lookup h).isSome then s.payloads else s.payloads ++ [(h, raw)]
    (.ok (py "sha256:" ++ h), { s with payloads := payloads })

/-- What an operation does. -/
def exec (c : Label) (s : Sequencer) : (o : Op) → Res o → Sequencer → Prop
  | .append actor event episode_id data payload_ref, r, s' =>
    ∃ ts, append cfg c s ts actor event episode_id data payload_ref = (r, s')
  | .store_payload raw, r, s' => store_payload cfg s raw = (r, s')
  | .read_head, r, s' => r = (s.seq, s.head) ∧ s' = s
  | .ts_ms, _, s' => s' = s
  | .sign a body, r, s' => r = cfg.sign body ∧ s' = { s with made := s.made ++ [a] }
  | .put a, r, s' =>
    match r with
    | .ok _ => s' = { s with anchors := s.anchors ++ [a] }
    | .error _ => s' = s
  | .set_anchor_ts, _, s' => ∃ t : Double, s' = { s with last_anchor_ts := .float t }
  | .read_daemon_last, r, s' => r = s.daemon_last ∧ s' = s
  | .set_daemon_last last, _, s' => s' = { s with daemon_last := some last }

/-! ## The three calls -/

/-- A method: a thread that may raise. -/
abbrev Method := ExceptT Exc (Prog Op Res)

/-- A computation without operations. -/
def compute {α : Type} (x : Except Exc α) : Method α := ExceptT.mk (.ret x)

/-- An operation that cannot raise. -/
def run (o : Op) : Method (Res o) := ExceptT.lift (perform o)

/-- `self._append(...)`. -/
def run_append (actor event : PyStr) (episode_id data payload_ref : Json) : Method Ack :=
  ExceptT.mk (perform (Op.append actor event episode_id data payload_ref))

/-- `self._store_payload(raw)`. -/
def run_store_payload (raw : Bytes) : Method PyStr :=
  ExceptT.mk (perform (Op.store_payload raw))

/-- `self.anchors.put(a)`. -/
def run_put (a : Json) : Method Unit := ExceptT.mk (perform (Op.put a))

/-- `event not in EVENTS`. -/
def checkEvent (event : Json) : Except Exc PyStr := do
  require event.hashable (.other .typeError)
  match event with
  | .str s =>
    if s ∈ EVENTS then pure s
    else throw (rpcError .invalid [.text (py "unknown event "), .repr event])
  | _ => throw (rpcError .invalid [.text (py "unknown event "), .repr event])

/-- `params.get("data") or {}`, which must be an object. -/
def checkData (data : Json) : Except Exc Json :=
  match orEmpty data with
  | .obj kvs => .ok (.obj kvs)
  | _ => .error (rpcError .invalid (msg "data must be an object"))

/-- `base64.b64decode` of a value. -/
def b64decode_value (v : Json) : Except Exc Bytes :=
  match v with
  | .str s => orRaise (b64decode s) (.other .valueError)
  | _ => .error (.other .typeError)

/-- The payload of a submission, if it has one. -/
def payload (p : Params) : Except Exc (Option Bytes) :=
  if p.get "payload_b64" ≠ .null then do
    let raw ← b64decode_value (p.get "payload_b64")
    pure (some raw)
  else if p.get "payload_json" ≠ .null then do
    let raw ← orRaise (canonical (p.get "payload_json")) (.other .valueError)
    pure (some raw)
  else pure none

/-- `submit`. -/
def submit (actor : PyStr) (p : Params) : Method Reply := do
  let event ← compute (checkEvent (p.get "event"))
  let data ← compute (checkData (p.get "data"))
  let raw ← compute (payload p)
  match raw with
  | none => Reply.ack <$> run_append actor event (p.get "episode_id") data .null
  | some raw => do
    let ref ← run_store_payload raw
    Reply.ack <$> run_append actor event (p.get "episode_id") data (.str ref)

/-- `anchor_now`. -/
def anchor_now : Method Reply := do
  let (seq, head) ← run .read_head
  let ts_ms ← run .ts_ms
  let a : Anchor := ⟨head, seq, ts_ms⟩
  let body ← compute (anchor_body (a.unsigned cfg.key_id))
  let sig ← run (.sign a body)
  run_put (a.signed cfg.key_id sig)
  run .set_anchor_ts
  let data := Json.mkObj [(py "anchored_seq", .int seq), (py "chain_head", .str head)]
  let _ ← run_append (py "audit_sequencer") (py "anchor") .null data .null
  pure (.anchor (a.signed cfg.key_id sig))

/-- The problem with a signed checkpoint, as text. -/
def checkpointProblem (ckpt : Params) (last : Option (Json × Json)) :
    Except Exc (Option PyStr) :=
  match last with
  | none => pure none
  | some (lastSeq, lastHead) => do
    let seq ← index (.obj ckpt.fields) "seq"
    let lower ← orRaise (Json.pyLt seq lastSeq) (.other .typeError)
    if lower then
      pure (some (py "daemon chain truncated: seq " ++ cfg.str seq ++ py " < recorded " ++
        cfg.str lastSeq))
    else if !(ckpt.get "since_seq").pyEq lastSeq || !(ckpt.get "since_head").pyEq lastHead then
      pure (some (py "daemon chain rewritten: hash at last recorded seq differs"))
    else pure none

/-- `record_daemon_checkpoint`. -/
def record_daemon_checkpoint (actor : PyStr) (ckpt : Params) : Method Reply := do
  let verify ← compute (orRaise cfg.daemon_verifier
    (rpcError .unavailable (msg "no daemon key configured")))
  let body ← compute (orRaise (canonical (Json.mkObj
    (["seq", "head", "ts", "since_seq", "since_head"].map fun k => (py k, ckpt.get k))))
    (.other .valueError))
  let sigText ← compute (getD (.obj ckpt.fields) "sig" (.str []))
  let sig ← compute (b64u_dec sigText)
  if !verify sig body then do
    let what := Json.mkObj [(py "what", .str (py "daemon checkpoint signature invalid"))]
    let _ ← run_append actor (py "integrity_fail") .null what .null
    throw (rpcError .integrity (msg "daemon checkpoint signature invalid"))
  else do
    let last ← run .read_daemon_last
    let problem ← compute (checkpointProblem cfg ckpt last)
    let seq ← compute (index (.obj ckpt.fields) "seq")
    let head ← compute (index (.obj ckpt.fields) "head")
    let fields := [(py "seq", seq), (py "head", head), (py "accepted", .bool problem.isNone)]
    match problem with
    | some text => do
      let what := Json.mkObj [(py "what", .str text)]
      let _ ← run_append actor (py "integrity_fail") .null what .null
      let data := Json.mkObj (fields ++ [(py "problem", .str text)])
      let _ ← run_append actor (py "observe_checkpoint") .null data .null
      throw (rpcError .integrity [.text text])
    | none => do
      run (.set_daemon_last (seq, head))
      Reply.ack <$> run_append actor (py "observe_checkpoint") .null (Json.mkObj fields) .null

/-- The thread of a call. -/
def body (c : Label) : Prog Op Res (Except Exc Reply) :=
  match c.2 with
  | .submit principal params => (submit principal params).run
  | .anchor_now => (anchor_now cfg).run
  | .record_daemon_checkpoint ckpt =>
    (record_daemon_checkpoint cfg (Call.record_daemon_checkpoint ckpt).principal ckpt).run

/-! ## Starting -/

/-- What `_load` reads from the chain file. -/
structure Loaded where
  seq : Nat
  head : PyStr
  last_anchor_ts : Json
  daemon_last : Option (Json × Json)
  integrity_error : Option Msg

/-- `daemon_last` after an entry. -/
def loadCheckpoint (e event : Json) (last : Option (Json × Json)) :
    Except Exc (Option (Json × Json)) :=
  if event.eqStr (py "observe_checkpoint") then do
    let data ← index e "data"
    let accepted ← get data "accepted"
    if accepted.truthy then do
      let seq ← index data "seq"
      let head ← index data "head"
      pure (some (seq, head))
    else pure last
  else pure last

/-- `last_anchor_ts` after an entry. -/
def loadAnchorTs (e event ts : Json) : Except Exc Json :=
  if event.eqStr (py "anchor") then index e "ts" else pure ts

/-- A sequence number read back; a chain numbered with anything else is not modelled. -/
def asNat : Json → Option Nat
  | .int (.ofNat n) => some n
  | _ => none

/-- One line of `_load`. -/
def loadEntry (n : Nat) (e : Json) (st : Loaded) : Except Exc Loaded := do
  let prev ← index e "prev"
  let seq ← index e "seq"
  let broken := !prev.eqStr st.head || !seq.eqInt n
  let h ← entry_hash cfg.sha e
  let seq ← orRaise (asNat seq) (.other .typeError)
  let event ← index e "event"
  let ts ← loadAnchorTs e event st.last_anchor_ts
  let last ← loadCheckpoint e event st.daemon_last
  pure ⟨seq, h, ts, last, if broken then
    some [.text (py "chain broken at line "), .str (.int n)] else st.integrity_error⟩

/-- The lines of `_load`. -/
def loadLines : Nat → List Bytes → Loaded → Except Exc Loaded
  | _, [], st => .ok st
  | n, line :: rest, st => do
    let e ← orRaise (loadsBytes line) (.other .valueError)
    let st ← loadEntry cfg n e st
    loadLines (n + 1) rest st

/-- A new object on a new chain file. -/
def Sequencer.fresh : Sequencer := ⟨[], 0, GENESIS, .null, none, none, [], [], [], []⟩

/-- A new object on the chain file another one left. Who appended what is not recorded in it. -/
def restart (s : Sequencer) : Except Exc Sequencer := do
  let l ← loadLines cfg 1 (splitLines s.file) ⟨0, GENESIS, .null, none, none⟩
  pure { s with
    seq := l.seq
    head := l.head
    last_anchor_ts := l.last_anchor_ts
    daemon_last := l.daemon_last
    integrity_error := l.integrity_error
    history := s.history.map fun x => (none, x.2) }

/-- The states a sequencer can start in: new, or restarted after any run. -/
inductive Started : Sequencer → Prop
  | fresh : Started .fresh
  | again {s s' : Sequencer} {P : Pool Sequencer Label Op Res (Except Exc Reply)} : Started s →
      Pool.Reach (exec cfg) (body cfg) s P → restart cfg P.state = .ok s' → Started s'

/-! ## The invariant -/

/-- The chain file holds numbered and linked entries, each with the actor of its call, and every
anchor made is the hash of its entry. -/
structure Good (s : Sequencer) : Prop where
  wf : ∀ e ∈ s.entries, e.WF
  file : chainFile s.entries = some s.file
  linked : LinkedEntries cfg.sha GENESIS s.entries s.head
  numbered : Numbered 0 s.entries
  seq : s.seq = s.entries.length
  actor : ∀ c e, (some c, e) ∈ s.history → get e "actor" = .ok (.str c.2.principal)
  made : ∀ a ∈ s.made, ∃ front back, s.entries = front ++ back ∧ front.length = a.seq ∧
    LinkedEntries cfg.sha GENESIS front a.chain_head
  anchors : ∀ j ∈ s.anchors, ∃ a ∈ s.made, ∃ b, anchor_body (a.unsigned cfg.key_id) = .ok b ∧
    j = a.signed cfg.key_id (cfg.sign b)

/-- What may happen between two operations of a thread: entries are added, anchors are made. -/
structure Grows (s t : Sequencer) : Prop where
  history : s.history <+: t.history
  made : ∀ a ∈ s.made, a ∈ t.made

theorem Grows.refl (s : Sequencer) : Grows s s := ⟨List.prefix_refl _, fun _ h => h⟩

theorem Grows.trans {s t u : Sequencer} (h : Grows s t) (h' : Grows t u) : Grows s u :=
  ⟨h.history.trans h'.history, fun a ha => h'.made a (h.made a ha)⟩

/-- The proof discipline of the sequencer's threads. -/
def discipline : Discipline Sequencer Label Op Res where
  exec := exec cfg
  inv := Good cfg
  rely := Grows
  guar := fun _ s _ s' => Grows s s'
  refl := Grows.refl
  trans := Grows.trans

end Threads

end Valops.Audit
