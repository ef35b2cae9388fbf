import Valops.Audit.SingleWriter
import Valops.Conc.TempFile

/-!
# Payloads by content

`_store_payload` runs outside the lock. Its steps are the existence test, the opening of the temporary
file, the writes and the rename; between them other submissions go on, and the process may stop. The
temporary name depends on the payload alone, so submissions of one payload share it.

Main result: `content_addressed`. Where no submission opens a temporary file while another one has it
open, every `payload_ref` of the chain names a file with that hash, and no rename fails.
-/

set_option autoImplicit false

namespace Valops.Audit.Payloads

open Py Conc

/-! ## Submissions in parts -/

/-- A submission that has a payload: its thread, and what `submit` has worked out. -/
structure Submission where
  label : Label
  actor : PyStr
  params : Params
  event : PyStr
  data : Json

/-- What `submit` does before it touches a file: the event, the data, and the payload, within the cap. -/
def prepare (p : Params) : Except Exc (PyStr × Json × Option Bytes) := do
  let event ← checkEvent (p.get "event")
  let data ← checkData (p.get "data")
  let raw ← payload p
  require (decide (∀ r ∈ raw, r.length ≤ MAX_PAYLOAD)) (rpcError .too_large (msg "payload exceeds cap"))
  pure (event, data, raw)

/-- The sequencer, and the payload directory with the submissions that are under way. -/
structure Archive where
  seqr : Sequencer
  store : TempFile.State Submission PyStr UInt8

/-- What a file-system step needs from `submit`: a payload to store, and a process that goes on. -/
def Stores : TempFile.Act Submission UInt8 → Prop
  | .test sub raw => prepare sub.params = .ok (sub.event, sub.data, some raw)
  | .stop => False
  | _ => True

/-- The operations that have nothing to do with payloads. -/
def Plain : Op → Prop
  | .append _ _ _ _ payload_ref => payload_ref = .null
  | .store_payload _ => False
  | _ => True

inductive Act where
  | file (x : TempFile.Act Submission UInt8)
  | append (w : TempFile.Writer Submission UInt8)
  | other (c : Label) (o : Op)
  | restart

variable (cfg : SeqConfig)

/-- `"sha256:" + h`. -/
def refOf (h : PyStr) : Json := .str (py "sha256:" ++ h)

/-- One step: of a submission on the files, its append, what other threads do, or a restart. -/
inductive Step : Archive → Act → Archive → Prop
  | file {s : Archive} {x : TempFile.Act Submission UInt8} {store : TempFile.State Submission PyStr UInt8}
      (hx : Stores x) (h : TempFile.Step cfg.sha s.store x store) : Step s (.file x) ⟨s.seqr, store⟩
  | append {seqr seqr' : Sequencer} {fs : TempFile.Files PyStr UInt8}
      {front back : List (TempFile.Writer Submission UInt8)} {sub : Submission} {raw : Bytes}
      {r : Except Exc Ack}
      (h : exec cfg sub.label seqr (.append sub.actor sub.event (sub.params.get "episode_id") sub.data
        (refOf (cfg.sha raw))) r seqr') :
      Step ⟨seqr, ⟨fs, front ++ ⟨sub, raw, .present⟩ :: back⟩⟩ (.append ⟨sub, raw, .present⟩)
        ⟨seqr', ⟨fs, front ++ back⟩⟩
  | other {s : Archive} {c : Label} {o : Op} {r : Res o} {seqr' : Sequencer} (ho : Plain o)
      (h : exec cfg c s.seqr o r seqr') : Step s (.other c o) ⟨seqr', s.store⟩
  | restart {s : Archive} {seqr' : Sequencer} (h : Audit.restart cfg s.seqr = .ok seqr') :
      Step s .restart ⟨seqr', ⟨s.store.files, []⟩⟩

/-- Nothing has been submitted yet. -/
def Archive.Fresh (s : Archive) : Prop := s.seqr = .fresh ∧ s.store = ⟨⟨fun _ => none, []⟩, []⟩

/-- The condition on the steps: no temporary file is opened while a submission has it open. -/
def Meets (s : Archive) : Act → Prop
  | .file x => TempFile.Alone cfg.sha s.store x
  | _ => True

/-! ## What is asked of a run -/

/-- A `payload_ref` names a file with this hash. -/
def Addressed (fs : TempFile.Files PyStr UInt8) (e : Json) : Prop :=
  ∀ h, get e "payload_ref" = .ok (refOf h) → ∃ raw, fs.stored h = some raw ∧ cfg.sha raw = h

/-- **The payloads of the chain**, and no submission fails because of another one: its rename finds the
file. -/
structure ContentAddressed (s : Archive) : Prop where
  entries : ∀ e ∈ s.seqr.entries, Addressed cfg s.store.files e
  renames : ∀ w ∈ s.store.writers, ∀ fd off, w.phase = .writing fd off →
    (s.store.files.rename (.temp (cfg.sha w.value)) (.final (cfg.sha w.value))).isSome = true

/-! ## One submission -/

section Alone

variable {cfg} {fs : TempFile.Files PyStr UInt8} {s : Sequencer} {raw : Bytes}

/-- `_store_payload` on the files, with nothing in between. -/
def storeFiles (cfg : SeqConfig) (fs : TempFile.Files PyStr UInt8) (raw : Bytes) :
    TempFile.Files PyStr UInt8 :=
  match fs.names (.final (cfg.sha raw)) with
  | some _ => fs
  | none =>
    let opened := fs.openTo (.temp (cfg.sha raw))
    let written := opened.2.write opened.1 0 raw
    (written.rename (.temp (cfg.sha raw)) (.final (cfg.sha raw))).getD written

/-- The files hold the payloads. -/
def Mirrors (fs : TempFile.Files PyStr UInt8) (s : Sequencer) : Prop :=
  ∀ h, s.payloads.lookup h = fs.stored h

/-- **With nothing in between, the steps are `store_payload`.** -/
theorem storeFiles_mirrors (htree : TempFile.Tree cfg.sha fs) (h : Mirrors fs s)
    (hlen : raw.length ≤ MAX_PAYLOAD) :
    store_payload cfg s raw =
      (.ok (py "sha256:" ++ cfg.sha raw), (store_payload cfg s raw).2) ∧
    Mirrors (storeFiles cfg fs raw) (store_payload cfg s raw).2 := by
  rw [store_payload, if_neg (not_lt.2 hlen)]
  refine ⟨rfl, fun k => ?_⟩
  have hsome : (s.payloads.lookup (cfg.sha raw)).isSome = (fs.names (.final (cfg.sha raw))).isSome := by
    rw [h (cfg.sha raw)]
    cases hname : fs.names (.final (cfg.sha raw)) with
    | none => rw [TempFile.Files.stored, hname]; rfl
    | some i =>
      obtain ⟨c, hc, _⟩ := htree.hashed _ i hname
      rw [TempFile.Files.stored, hname, Option.bind_some, hc]
      rfl
  dsimp only
  rw [hsome, storeFiles]
  cases hname : fs.names (.final (cfg.sha raw)) with
  | some i => exact h k
  | none =>
    obtain ⟨htree1, hopen, hempty, hother1⟩ := htree.openTo cfg.sha (cfg.sha raw)
    obtain ⟨htree2, hnames, hself, hother2⟩ := htree1.write cfg.sha hopen 0 raw
    have hwritten := TempFile.overlay_take raw 0 raw.length (Nat.zero_le _)
    rw [List.take_zero, List.drop_zero, List.take_length, Nat.zero_add, List.take_length] at hwritten
    rw [hempty, Option.map_some, hwritten] at hself
    obtain ⟨fs', hrename, _, hsame, hfinal, hother3⟩ :=
      htree2.rename cfg.sha (hnames ▸ hopen) hself rfl
    dsimp only
    rw [hrename, Option.getD_some]
    have hlookup : (s.payloads ++ [(cfg.sha raw, raw)]).lookup k =
        if k = cfg.sha raw then some raw else s.payloads.lookup k := by
      rw [List.lookup_append]
      split
      · rename_i heq
        rw [heq, h, TempFile.Files.stored, hname, List.lookup_cons_self]
        rfl
      · rename_i hne
        have hlast : List.lookup k [(cfg.sha raw, raw)] = none := by
          rw [List.lookup_cons, beq_false_of_ne hne]
          rfl
        rw [hlast, Option.or_none]
    rw [Option.isSome_none, if_neg Bool.false_ne_true, hlookup]
    split
    · rename_i heq
      rw [heq, TempFile.Files.stored, hfinal, Option.bind_some, hsame, hself]
    · rename_i hne
      have hfinal' : TempFile.Name.final k ≠ .final (cfg.sha raw) := fun heq =>
        hne (TempFile.Name.final.inj heq)
      obtain ⟨hname1, hcontent1⟩ := hother1 (.final k) (by simp)
      have hname2 := (congrFun hnames (.final k)).trans hname1
      rw [h k]
      refine (TempFile.stored_congr ((hother3 (.final k) (by simp) hfinal').trans hname2) fun i hi => ?_).symm
      rw [hsame, hother2 (.final k) i (by simp) (hname1.trans hi), hcontent1 i hi]

end Alone

/-! ## Runs -/

section Runs

variable {cfg} {s s' : Archive} {x : Act} {fs fs' : TempFile.Files PyStr UInt8} {e : Json}

theorem entry_payload_ref (q : Sequencer) (ts : Double) (actor event : PyStr)
    (episode_id data payload_ref : Json) :
    get (entry q ts actor event episode_id data payload_ref) "payload_ref" = .ok payload_ref := rfl

/-- What the operations do to the entries. -/
theorem exec_entries {c : Label} {q q' : Sequencer} : ∀ {o : Op} {r : Res o}, exec cfg c q o r q' →
    q'.entries = q.entries ∨ ∃ ts actor event episode_id data payload_ref,
      o = .append actor event episode_id data payload_ref ∧
        q'.entries = q.entries ++ [entry q ts actor event episode_id data payload_ref]
  | .append actor event episode_id data payload_ref, r, h => by
    obtain ⟨ts, h⟩ := h
    unfold Audit.append at h
    dsimp only at h
    split at h
    · obtain ⟨_, rfl⟩ := Prod.mk.inj h
      exact .inl rfl
    · obtain ⟨_, rfl⟩ := Prod.mk.inj h
      refine .inr ⟨ts, actor, event, episode_id, data, payload_ref, rfl, ?_⟩
      rw [Sequencer.entries, List.map_append]
      rfl
  | .store_payload raw, r, h => by
    have hsnd : (store_payload cfg q raw).2 = q' := by rw [show store_payload cfg q raw = (r, q') from h]
    rw [← hsnd, store_payload]
    split
    · exact .inl rfl
    · exact .inl rfl
  | .read_head, r, h => .inl (by rw [h.2])
  | .ts_ms, r, h => .inl (by rw [show q' = q from h])
  | .sign a body, r, h => .inl (by rw [h.2]; rfl)
  | .put a, .ok u, h => .inl (by rw [show q' = _ from h]; rfl)
  | .put a, .error e, h => .inl (by rw [show q' = q from h])
  | .set_anchor_ts, r, h => by
    obtain ⟨t, rfl⟩ := h
    exact .inl rfl
  | .read_daemon_last, r, h => .inl (by rw [h.2])
  | .set_daemon_last last, r, h => .inl (by rw [show q' = _ from h]; rfl)

/-- The chain and the files. -/
structure Kept (cfg : SeqConfig) (s : Archive) : Prop where
  store : TempFile.Sound cfg.sha s.store
  refs : ∀ e ∈ s.seqr.entries, ∀ h, get e "payload_ref" = .ok (refOf h) →
    (s.store.files.names (.final h)).isSome = true

theorem refOf_inj {h h' : PyStr} (heq : refOf h = refOf h') : h = h' :=
  List.append_cancel_left (Json.str.inj heq)

theorem restart_entries {q q' : Sequencer} (h : Audit.restart cfg q = .ok q') : q'.entries = q.entries := by
  obtain ⟨l, _, hl⟩ := bind_eq_ok.1 h
  rw [← pure_eq_ok.1 hl, Sequencer.entries, List.map_map]
  rfl

theorem Kept.file (h : Kept cfg s) {a : TempFile.Act Submission UInt8}
    {store : TempFile.State Submission PyStr UInt8} (hok : TempFile.Alone cfg.sha s.store a)
    (hstep : TempFile.Step cfg.sha s.store a store) : Kept cfg ⟨s.seqr, store⟩ :=
  ⟨h.store.step hok hstep, fun e he k hk => hstep.final_mono (h.refs e he k hk)⟩

/-- **One step.** -/
theorem Kept.step (h : Kept cfg s) (hok : Meets cfg s x) (hstep : Step cfg s x s') : Kept cfg s' := by
  cases hstep with
  | file hx hstep => exact h.file hok hstep
  | @append seqr seqr' fs front back sub raw r hexec =>
    refine ⟨h.store.leave, fun e he k hk => ?_⟩
    have hpresent : (fs.names (.final (cfg.sha raw))).isSome = true :=
      h.store.writers _ (List.mem_append_right _ List.mem_cons_self)
    rcases exec_entries hexec with hsame | ⟨ts, _, _, _, _, _, heq, hentries⟩
    · exact h.refs e (hsame ▸ he) k hk
    · cases heq
      rcases List.mem_append.1 (hentries ▸ he) with he | he
      · exact h.refs e he k hk
      · rw [List.mem_singleton.1 he, entry_payload_ref] at hk
        exact refOf_inj (Except.ok.inj hk) ▸ hpresent
  | @other s c o r seqr' ho hexec =>
    refine ⟨h.store, fun e he k hk => ?_⟩
    rcases exec_entries hexec with hsame | ⟨ts, _, _, _, _, _, rfl, hentries⟩
    · exact h.refs e (hsame ▸ he) k hk
    · rcases List.mem_append.1 (hentries ▸ he) with he | he
      · exact h.refs e he k hk
      · rw [List.mem_singleton.1 he, entry_payload_ref, show _ = Json.null from ho] at hk
        cases hk
  | @restart s seqr' hrestart =>
    exact ⟨⟨h.store.tree, nofun, List.Pairwise.nil⟩, fun e he k hk =>
      h.refs e (restart_entries hrestart ▸ he) k hk⟩

theorem Kept.contentAddressed (h : Kept cfg s) : ContentAddressed cfg s := by
  refine ⟨fun e he k hk => h.store.tree.stored (h.refs e he k hk), fun w hw fd off hphase => ?_⟩
  obtain ⟨seqr, fs, writers⟩ := s
  obtain ⟨front, back, rfl⟩ := List.append_of_mem hw
  exact h.store.renames hphase

theorem Archive.Fresh.kept (h : s.Fresh) : Kept cfg s := by
  obtain ⟨seqr, store⟩ := s
  obtain ⟨hseqr, hstore⟩ := h
  cases hseqr
  cases hstore
  exact ⟨⟨⟨nofun, nofun, nofun⟩, nofun, List.Pairwise.nil⟩, nofun⟩

end Runs

/-- The runs whose steps meet the condition. -/
abbrev Reached (cfg : SeqConfig) : Archive → Prop :=
  Conc.Reachable Archive.Fresh (Step cfg) (Meets cfg)

/-- **Payloads are content addressed**, in every state of every run in which no two submissions have one
temporary file open. -/
theorem content_addressed {cfg : SeqConfig} {s : Archive} (h : Reached cfg s) : ContentAddressed cfg s :=
  (Conc.Reachable.inv (I := Kept cfg) (fun _ hfresh => hfresh.kept)
    (fun _ _ _ hk hok hstep => hk.step hok hstep) h).contentAddressed

/-! ### One payload -/

/-- Hashes that never collide. -/
def listCfg : SeqConfig where
  sha b := b.map UInt8.toNat
  key_id := py "chain-1"
  sign := id
  daemon_verifier := none
  str v := v.text .compact

/-- A request with the payload `a`. -/
def sampleParams : Params :=
  Params.ofFields [(py "event", .str (py "tool_call")), (py "payload_b64", .str (py "YQ=="))] (by simp)

/-- Its submission by the thread of this number. -/
def submission (n : Nat) : Submission :=
  ⟨(n, .submit (py "broker") sampleParams), py "broker", sampleParams, py "tool_call", .obj []⟩

/-- A submission that is so far. -/
def writer (n : Nat) (phase : TempFile.Phase) : TempFile.Writer Submission UInt8 :=
  ⟨submission n, [97], phase⟩

def emptyDir : TempFile.Files PyStr UInt8 := ⟨fun _ => none, []⟩

/-- The directory when the temporary file is open, -/
def openedDir : TempFile.Files PyStr UInt8 := (emptyDir.openTo (.temp [97])).2

/-- when it is written, -/
def writtenDir : TempFile.Files PyStr UInt8 := openedDir.write 0 0 [97]

/-- and after the rename of a directory. -/
def renamedDir (fs : TempFile.Files PyStr UInt8) : TempFile.Files PyStr UInt8 :=
  (fs.rename (.temp [97]) (.final [97])).getD fs

/-- The append of a submission. -/
def appending (n : Nat) : Except Exc Ack × Sequencer :=
  append listCfg (submission n).label .fresh .zero (submission n).actor (submission n).event
    ((submission n).params.get "episode_id") (submission n).data (refOf (listCfg.sha [97]))

theorem sample_prepared : prepare sampleParams = .ok (py "tool_call", .obj [], some [97]) := by
  decide +kernel

theorem append_exec (cfg : SeqConfig) (c : Label) (q : Sequencer) (ts : Double) (actor event : PyStr)
    (episode_id data payload_ref : Json) :
    exec cfg c q (.append actor event episode_id data payload_ref)
      (append cfg c q ts actor event episode_id data payload_ref).1
      (append cfg c q ts actor event episode_id data payload_ref).2 := ⟨ts, rfl⟩

theorem appending_step (n : Nat) {fs : TempFile.Files PyStr UInt8}
    (front : List (TempFile.Writer Submission UInt8)) :
    Step listCfg ⟨.fresh, ⟨fs, front ++ [writer n .present]⟩⟩ (.append (writer n .present))
      ⟨(appending n).2, ⟨fs, front ++ []⟩⟩ :=
  .append (append_exec listCfg (submission n).label .fresh .zero _ _ _ _ _)

theorem stopped {q q' : Sequencer} {store : TempFile.State Submission PyStr UInt8}
    (h : Conc.Reachable Archive.Fresh (Step listCfg) Conc.anyAct ⟨q, store⟩)
    (hq : restart listCfg q = .ok q') :
    Conc.Reachable Archive.Fresh (Step listCfg) Conc.anyAct ⟨q', ⟨store.files, []⟩⟩ :=
  h.next (a := .restart) trivial (.restart hq)

theorem appending_refs : (appending 0).2.entries.map (fun e => (get e "payload_ref").toOption) =
    [some (refOf [97])] := by decide +kernel

theorem opening_step (n : Nat) (q : Sequencer) (fs : TempFile.Files PyStr UInt8)
    (front back : List (TempFile.Writer Submission UInt8)) :
    Step listCfg ⟨q, ⟨fs, front ++ writer n .absent :: back⟩⟩ (.file (.openTemp (writer n .absent)))
      ⟨q, ⟨(fs.openTo (.temp [97])).2, front ++ writer n (.writing (fs.openTo (.temp [97])).1 0) :: back⟩⟩ :=
  .file trivial .openTemp

theorem writing_step (n fd : Nat) (q : Sequencer) (fs : TempFile.Files PyStr UInt8)
    (front back : List (TempFile.Writer Submission UInt8)) :
    Step listCfg ⟨q, ⟨fs, front ++ writer n (.writing fd 0) :: back⟩⟩
      (.file (.write (writer n (.writing fd 0)) 1))
      ⟨q, ⟨fs.write fd 0 [97], front ++ writer n (.writing fd 1) :: back⟩⟩ :=
  .file trivial (.write (le_refl 1))

theorem renaming_step (n fd : Nat) (q : Sequencer) {fs fs' : TempFile.Files PyStr UInt8}
    (front back : List (TempFile.Writer Submission UInt8))
    (h : fs.rename (.temp [97]) (.final [97]) = some fs') :
    Step listCfg ⟨q, ⟨fs, front ++ writer n (.writing fd 1) :: back⟩⟩
      (.file (.rename (writer n (.writing fd 1)))) ⟨q, ⟨fs', front ++ writer n .present :: back⟩⟩ :=
  .file trivial (.rename h)

/-- After one submission. -/
theorem stored_reached : Reached listCfg ⟨(appending 0).2, ⟨renamedDir writtenDir, []⟩⟩ := by
  have hstart : Reached listCfg ⟨.fresh, ⟨emptyDir, []⟩⟩ := .start ⟨rfl, rfl⟩
  have htest : Reached listCfg ⟨.fresh, ⟨emptyDir, [writer 0 .absent]⟩⟩ :=
    hstart.next (a := .file (.test (submission 0) [97])) trivial
      (.file sample_prepared (.absent rfl))
  have hopen : Reached listCfg ⟨.fresh, ⟨openedDir, [writer 0 (.writing 0 0)]⟩⟩ := by
    refine htest.next (a := .file (.openTemp (writer 0 .absent))) ?_
      (opening_step 0 .fresh emptyDir [] [])
    intro v hv hholds
    cases List.mem_singleton.1 hv
    obtain ⟨_, _, _, hphase⟩ := hholds
    cases hphase
  have hwrite : Reached listCfg ⟨.fresh, ⟨writtenDir, [writer 0 (.writing 0 1)]⟩⟩ :=
    hopen.next (a := .file (.write (writer 0 (.writing 0 0)) 1)) trivial
      (writing_step 0 0 .fresh openedDir [] [])
  have hrename : Reached listCfg ⟨.fresh, ⟨renamedDir writtenDir, [writer 0 .present]⟩⟩ :=
    hwrite.next (a := .file (.rename (writer 0 (.writing 0 1)))) trivial
      (renaming_step 0 0 .fresh [] [] rfl)
  exact hrename.next (a := .append (writer 0 .present)) trivial (appending_step 0 [])

theorem content_addressed_sample :
    ContentAddressed listCfg ⟨(appending 0).2, ⟨renamedDir writtenDir, []⟩⟩ ∧
    (appending 0).2.entries.map (fun e => (get e "payload_ref").toOption) = [some (refOf [97])] ∧
    (renamedDir writtenDir).stored [97] = some [97] :=
  ⟨content_addressed stored_reached, appending_refs, by decide +kernel⟩

/-- **Two submissions of one payload**: the second opens the temporary file that the first has written, the
first takes the empty file for its payload and is acknowledged, and the process stops. -/
theorem truncated_payload : ∃ s, Conc.Reachable Archive.Fresh (Step listCfg) Conc.anyAct s ∧
    ¬ ContentAddressed listCfg s := by
  let run : Archive → Prop := Conc.Reachable Archive.Fresh (Step listCfg) Conc.anyAct
  have hstart : run ⟨.fresh, ⟨emptyDir, []⟩⟩ := .start ⟨rfl, rfl⟩
  have hfirst : run ⟨.fresh, ⟨emptyDir, [writer 0 .absent]⟩⟩ :=
    hstart.next (a := .file (.test (submission 0) [97])) trivial
      (.file sample_prepared (.absent rfl))
  have hsecond : run ⟨.fresh, ⟨emptyDir, [writer 1 .absent, writer 0 .absent]⟩⟩ :=
    hfirst.next (a := .file (.test (submission 1) [97])) trivial
      (.file sample_prepared (.absent rfl))
  have hopen : run ⟨.fresh, ⟨openedDir, [writer 1 .absent, writer 0 (.writing 0 0)]⟩⟩ :=
    hsecond.next (a := .file (.openTemp (writer 0 .absent))) trivial
      (opening_step 0 .fresh emptyDir [writer 1 .absent] [])
  have hwrite : run ⟨.fresh, ⟨writtenDir, [writer 1 .absent, writer 0 (.writing 0 1)]⟩⟩ :=
    hopen.next (a := .file (.write (writer 0 (.writing 0 0)) 1)) trivial
      (writing_step 0 0 .fresh openedDir [writer 1 .absent] [])
  have hcut : run ⟨.fresh, ⟨(writtenDir.openTo (.temp [97])).2,
      [writer 1 (.writing 0 0), writer 0 (.writing 0 1)]⟩⟩ :=
    hwrite.next (a := .file (.openTemp (writer 1 .absent))) trivial
      (opening_step 1 .fresh writtenDir [] [writer 0 (.writing 0 1)])
  have hrename : run ⟨.fresh, ⟨renamedDir (writtenDir.openTo (.temp [97])).2,
      [writer 1 (.writing 0 0), writer 0 .present]⟩⟩ :=
    hcut.next (a := .file (.rename (writer 0 (.writing 0 1)))) trivial
      (renaming_step 0 0 .fresh [writer 1 (.writing 0 0)] [] rfl)
  have happend : run ⟨(appending 0).2, ⟨renamedDir (writtenDir.openTo (.temp [97])).2,
      [writer 1 (.writing 0 0)]⟩⟩ :=
    hrename.next (a := .append (writer 0 .present)) trivial
      (appending_step 0 [writer 1 (.writing 0 0)])
  have hload : (restart listCfg (appending 0).2).toOption.isSome = true := by decide +kernel
  obtain ⟨q, hq⟩ := Option.isSome_iff_exists.1 hload
  have hrestart : restart listCfg (appending 0).2 = .ok q := toOption_eq_some.1 hq
  have hstop : run ⟨q, ⟨renamedDir (writtenDir.openTo (.temp [97])).2, []⟩⟩ :=
    stopped happend hrestart
  refine ⟨_, hstop, fun h => ?_⟩
  obtain ⟨e, hes, heq⟩ := List.map_eq_singleton_iff.1 appending_refs
  have hmem : e ∈ q.entries := by
    rw [restart_entries hrestart, hes]
    exact List.mem_singleton_self e
  obtain ⟨raw, hraw, hhash⟩ := h.entries e hmem _ (toOption_eq_some.1 heq)
  have hempty : (renamedDir (writtenDir.openTo (.temp [97])).2).stored [97] = some [] := by
    decide +kernel
  rw [hempty] at hraw
  cases hraw
  cases hhash

end Valops.Audit.Payloads
