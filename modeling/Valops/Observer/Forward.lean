import Valops.Observer.Checkpoint

/-!
# Runs of the checkpoint protocol

An invariant of the three parties, for any `Frame`: what holds of the chain the daemon has, of the
checkpoint the sequencer's chain records, and of a checkpoint on its way. Two frames give the two
directions: while the file is only appended to, every chain is a prefix of the next (`Growing`);
once a chain is recorded, whatever is accepted begins with it (`Beginning`).

Main results: `checkpoints_guarded`, and `regrown_accepted`: a chain that is cut off and grows back is
accepted.
-/

set_option autoImplicit false

namespace Valops.Observer

open Py Audit HashChain Conc

/-! ## The invariant -/

/-- What an invariant says of the daemon's chain, of a recorded checkpoint, and of a chain whose
checkpoint is on its way. -/
structure Frame where
  held : List Json → Prop
  mark : Last → Prop
  sent : List Json → Last → Prop

/-- The protocol keeps the frame. -/
structure Frame.Lawful (F : Frame) (sha : Bytes → PyStr) : Prop where
  marked : ∀ {d}, F.mark d → d = none ∨ ∃ g, Marks sha g d
  fetch : ∀ {src d h}, F.held src → LinkedEntries sha GENESIS src h → F.mark d → F.sent src d
  accept : ∀ {src last new}, F.sent src last → Accepts sha src last → Marks sha src new → F.mark new

section Protocol

variable {cfg : SeqConfig} {sign : Bytes → Bytes} {F F' : Frame} {x x' y : Site} {a : SiteAct}
  {s s' : Sequencer} {d : Last} {p : Phase} {src g es : List Json}

/-- Where the broker is, with the recorded checkpoint. -/
def PhaseOk (cfg : SeqConfig) (sign : Bytes → Bytes) (F : Frame) (s : Sequencer) (d : Last) :
    Phase → Prop
  | .idle => s.daemon_last = d
  | .asked since => s.daemon_last = d ∧ since = sinceOf d
  | .fetched src ck => s.daemon_last = d ∧ CheckpointOf cfg.sha sign src (sinceOf d) ck ∧ F.sent src d
  | .recording src last ck p => F.sent src last ∧ ∃ new, Marks cfg.sha src new ∧
      (d = last ∨ Accepts cfg.sha src last ∧ d = new) ∧
      wp (handling cfg src last new) (handler ck) p (fun r t =>
        Accepted cfg src last new r t ∨ Rejected cfg src last r t) s

/-- The invariant of the three parties. -/
structure SiteOk (cfg : SeqConfig) (sign : Bytes → Bytes) (F : Frame) (x : Site) : Prop where
  chain : ∀ c, x.chain = some c → Holds cfg.sha c ∧ F.held c.entries
  good : Good cfg x.seqr
  phase : ∃ d, Recorded cfg x.seqr d ∧ F.mark d ∧ PhaseOk cfg sign F x.seqr d x.phase

theorem siteOk_start (hmark : F.mark none) : SiteOk cfg sign F {} where
  chain := nofun
  good := good_fresh
  phase := ⟨none, recorded_fresh, hmark, rfl⟩

theorem PhaseOk.mono (h : PhaseOk cfg sign F s d p) (hsent : ∀ src d, F.sent src d → F'.sent src d) :
    PhaseOk cfg sign F' s d p := by
  cases p with
  | idle => exact h
  | asked since => exact h
  | fetched src ck => exact ⟨h.1, h.2.1, hsent _ _ h.2.2⟩
  | recording src last ck p => exact ⟨hsent _ _ h.1, h.2⟩

/-- Other threads do not disturb the broker. -/
theorem PhaseOk.rely (h : PhaseOk cfg sign F s d p) (hlast : s'.daemon_last = s.daemon_last)
    (hrec : ∀ d, Recorded cfg s d → Recorded cfg s' d) : PhaseOk cfg sign F s' d p := by
  cases p with
  | idle => exact hlast.trans h
  | asked since => exact ⟨hlast.trans h.1, h.2⟩
  | fetched src ck => exact ⟨hlast.trans h.1, h.2⟩
  | recording src last ck p =>
    obtain ⟨hsent, new, hnew, hd, hwp⟩ := h
    exact ⟨hsent, new, hnew, hd, wp_rely hwp ⟨hlast, hrec⟩⟩

/-- Nothing but the handler is lost when the sequencer dies. -/
theorem PhaseOk.cut (h : PhaseOk cfg sign F s d p) (hlast : s'.daemon_last = d) :
    PhaseOk cfg sign F s' d p.cut := by
  cases p with
  | idle => exact hlast
  | asked since => exact ⟨hlast, h.2⟩
  | fetched src ck => exact ⟨hlast, h.2⟩
  | recording src last ck p => exact hlast

/-! ## One step -/

/-- What became of a checkpoint of this chain, when that checkpoint was the last one. -/
def Outcome.Fair (sha : Bytes → PyStr) (o : Outcome) (last : Last) : Prop :=
  Accepts sha o.src last ∧ (∃ a, o.result = .ok (.ack a)) ∨
    ¬ Accepts sha o.src last ∧ ∃ m, o.result = .error (rpcError .integrity m)

/-- The outcomes after a step. -/
def OutcomesAfter (sha : Bytes → PyStr) (F : Frame) (x x' : Site) : Prop :=
  x'.outcomes = x.outcomes ∨
    ∃ o last, x'.outcomes = x.outcomes ++ [o] ∧ F.sent o.src last ∧ o.Fair sha last

/-- A step of the daemon. -/
def SiteAct.Daemon : SiteAct → Prop
  | .start => True
  | .stop => True
  | .serve => True
  | .replace _ => True
  | _ => False

/-- The daemon does not touch the sequencer. -/
theorem SiteStep.daemon (hstep : SiteStep cfg sign x a x') (ha : a.Daemon) :
    x'.seqr = x.seqr ∧ x'.phase = x.phase ∧ x'.outcomes = x.outcomes ∧ x.seen <+: x'.seen := by
  cases hstep with
  | start => exact ⟨rfl, rfl, rfl, List.prefix_append _ _⟩
  | stop => exact ⟨rfl, rfl, rfl, List.prefix_refl _⟩
  | serve => exact ⟨rfl, rfl, rfl, List.prefix_append _ _⟩
  | replace => exact ⟨rfl, rfl, rfl, List.prefix_refl _⟩
  | _ => exact ha.elim

theorem SiteOk.daemon (h : SiteOk cfg sign F x) (hstep : SiteStep cfg sign x a x') (ha : a.Daemon)
    (hmark : ∀ d, F.mark d → F'.mark d) (hsent : ∀ src d, F.sent src d → F'.sent src d)
    (hchain : ∀ c, x'.chain = some c → Holds cfg.sha c ∧ F'.held c.entries) :
    SiteOk cfg sign F' x' := by
  obtain ⟨hseqr, hphase, _, _⟩ := hstep.daemon ha
  obtain ⟨d, hrec, hd, hok⟩ := h.phase
  refine ⟨hchain, hseqr ▸ h.good, d, hseqr ▸ hrec, hmark d hd, ?_⟩
  rw [hseqr, hphase]
  exact hok.mono hsent

/-- A step of the handler. -/
theorem SiteOk.handle (hF : F.Lawful cfg.sha) {last : Last} {ck : Params} {o : Op}
    {k : Res o → Prog Op Res (Except Exc Reply)} {r : Res o} (hgood : Good cfg s)
    (hrec : Recorded cfg s d) (hmark : F.mark d)
    (hok : PhaseOk cfg sign F s d (.recording src last ck (.step o k))) (hshort : Short s)
    (hexec : exec cfg (handler ck) s o r s') : Good cfg s' ∧ ∃ d', Recorded cfg s' d' ∧ F.mark d' ∧
      PhaseOk cfg sign F s' d' (.recording src last ck (k r)) := by
  obtain ⟨hsent, new, hnew, hd, hwp⟩ := hok
  have hwindow : Window cfg src last new s := by
    rcases hd with rfl | ⟨hacc, rfl⟩
    · exact ⟨hgood, .inl hrec⟩
    · exact ⟨hgood, .inr ⟨hacc, hrec⟩⟩
  obtain ⟨⟨hgood', hwindow'⟩, hguar, hwp'⟩ :=
    hwp s ((handling cfg src last new).refl s) hwindow r s' ⟨hshort, hexec⟩
  refine ⟨hgood', ?_⟩
  rcases hwindow' with hlast | ⟨hacc, hrec'⟩
  · refine ⟨last, hlast, ?_, hsent, new, hnew, .inl rfl, hwp'⟩
    rcases hd with rfl | ⟨_, rfl⟩
    · exact hmark
    · rw [hlast.unique (hguar hrec)]
      exact hmark
  · exact ⟨new, hrec', hF.accept hsent hacc hnew, hsent, new, hnew, .inr ⟨hacc, rfl⟩, hwp'⟩

/-- The handler has returned. -/
theorem SiteOk.reply {last : Last} {ck : Params} {r : Except Exc Reply} (hgood : Good cfg s)
    (hrec : Recorded cfg s d)
    (hok : PhaseOk cfg sign F s d (.recording src last ck (.ret r))) :
    s.daemon_last = d ∧ F.sent src last ∧ Outcome.Fair cfg.sha ⟨src, r⟩ last := by
  obtain ⟨hsent, new, hnew, hd, hwp⟩ := hok
  have hwindow : Window cfg src last new s := by
    rcases hd with rfl | ⟨hacc, rfl⟩
    · exact ⟨hgood, .inl hrec⟩
    · exact ⟨hgood, .inr ⟨hacc, hrec⟩⟩
  rcases hwp s ((handling cfg src last new).refl s) hwindow with hdone | hdone
  · exact ⟨hdone.daemon_last.trans (hdone.recorded.unique hrec), hsent,
      .inl ⟨hdone.accepts, hdone.result⟩⟩
  · exact ⟨hdone.daemon_last.trans (hdone.recorded.unique hrec), hsent,
      .inr ⟨hdone.accepts, hdone.result⟩⟩

/-- **A step of the broker or of the sequencer keeps the invariant.** -/
theorem SiteOk.relay (hkeys : Keyed cfg sign) (hF : F.Lawful cfg.sha) (h : SiteOk cfg sign F x)
    (hstep : SiteStep cfg sign x a x') (ha : ¬ a.Daemon) : SiteOk cfg sign F x' ∧
      x'.file = x.file ∧ x'.chain = x.chain ∧ x'.seen = x.seen ∧ OutcomesAfter cfg.sha F x x' := by
  obtain ⟨hchain, hgood, d, hrec, hmark, hok⟩ := h
  cases hstep with
  | start | stop | serve | replace => exact absurd trivial ha
  | elsewhere hother =>
    obtain ⟨hgood', hlast, hkept⟩ := hother.spec hgood
    exact ⟨⟨hchain, hgood', d, hkept d hrec, hmark, hok.rely hlast hkept⟩, rfl, rfl, rfl, .inl rfl⟩
  | ask hidle =>
    rw [hidle] at hok
    have hok : x.seqr.daemon_last = d := hok
    exact ⟨⟨hchain, hgood, d, hrec, hmark, hok, by rw [hok]⟩, rfl, rfl, rfl, .inl rfl⟩
  | fetch hasked hup hmade =>
    rw [hasked] at hok
    obtain ⟨hlast, rfl⟩ := hok
    obtain ⟨hholds, hheld⟩ := hchain _ hup
    exact ⟨⟨hchain, hgood, d, hrec, hmark, hlast, checkpoint_spec hholds hmade,
      hF.fetch hheld hholds.linked hmark⟩, rfl, rfl, rfl, .inl rfl⟩
  | giveUp hwaiting =>
    have hlast : x.seqr.daemon_last = d := by
      cases hphase : x.phase with
      | recording src last ck p => exact absurd hphase (hwaiting src last ck p)
      | _ =>
        rw [hphase] at hok
        first | exact hok | exact hok.1
    exact ⟨⟨hchain, hgood, d, hrec, hmark, hlast⟩, rfl, rfl, rfl, .inl rfl⟩
  | send hfetched =>
    rw [hfetched] at hok
    obtain ⟨rfl, hck, hsent⟩ := hok
    obtain ⟨new, hnew, hwp⟩ := handler_wp hkeys hck (hF.marked hmark) rfl hrec
    exact ⟨⟨hchain, hgood, _, hrec, hmark, hsent, new, hnew, .inl rfl, hwp⟩, rfl, rfl, rfl, .inl rfl⟩
  | handle hop hshort hrun =>
    rw [hop] at hok
    obtain ⟨hgood', hphase⟩ := SiteOk.handle hF hgood hrec hmark hok hshort hrun
    exact ⟨⟨hchain, hgood', hphase⟩, rfl, rfl, rfl, .inl rfl⟩
  | reply hend =>
    rw [hend] at hok
    obtain ⟨hlast, hsent, hfair⟩ := SiteOk.reply hgood hrec hok
    exact ⟨⟨hchain, hgood, d, hrec, hmark, hlast⟩, rfl, rfl, rfl, .inr ⟨_, _, rfl, hsent, hfair⟩⟩
  | restart hup =>
    obtain ⟨hgood', hlast, hrec'⟩ := hrec.restart hgood hup
    exact ⟨⟨hchain, hgood', d, hrec', hmark, hok.cut hlast⟩, rfl, rfl, rfl, .inl rfl⟩

/-! ## A file that is only appended to -/

/-- The daemon has this chain, and whatever was recorded or sent is a prefix of it. -/
def growing (sha : Bytes → PyStr) (es : List Json) : Frame where
  held src := src = es
  mark d := (d = none ∨ ∃ g, Marks sha g d) ∧ Accepts sha es d
  sent src d := src <+: es ∧ Accepts sha src d

theorem Accepts.append {last : Last} (h : Accepts cfg.sha src last) (hle : src <+: es) :
    Accepts cfg.sha es last := by
  obtain ⟨more, rfl⟩ := hle
  rcases h with rfl | ⟨k, h, rfl, hk, hhead⟩
  · exact .inl rfl
  · refine .inr ⟨k, h, rfl, ?_, ?_⟩
    · rw [List.length_append]
      exact Nat.le_add_right_of_le hk
    · rw [headAt_append _ _ hk]
      exact hhead

/-- A chain goes on from its own checkpoint. -/
theorem Marks.accepts (h : Marks cfg.sha src d) : Accepts cfg.sha src d := by
  obtain ⟨h, rfl, hlinked⟩ := h
  have hhead := headAt_prefix [] hlinked
  rw [List.append_nil] at hhead
  exact .inr ⟨src.length, h, rfl, le_refl _, hhead⟩

theorem growing_lawful : (growing cfg.sha es).Lawful cfg.sha where
  marked h := h.1
  fetch := by
    rintro src d h rfl _ hmark
    exact ⟨List.prefix_refl _, hmark.2⟩
  accept hsent _ hnew := ⟨.inr ⟨_, hnew⟩, hnew.accepts.append hsent.1⟩

/-- The invariant of the runs in which the file is not replaced. -/
structure Growing (cfg : SeqConfig) (sign : Bytes → Bytes) (x : Site) (es : List Json) : Prop where
  wf : ∀ e ∈ es, e.WF
  file : chainFile es = some x.file
  ok : SiteOk cfg sign (growing cfg.sha es) x
  outcomes : ∀ o ∈ x.outcomes, ∃ a, o.result = .ok (.ack a)

/-- The daemon has one more entry, or the same ones. -/
theorem Growing.extend (h : Growing cfg sign x es) (hstep : SiteStep cfg sign x a x')
    (ha : a.Daemon) {es' : List Json} (hle : es <+: es') (hwf : ∀ e ∈ es', e.WF)
    (hfile : chainFile es' = some x'.file)
    (hchain : ∀ c, x'.chain = some c → Holds cfg.sha c ∧ c.entries = es') :
    Growing cfg sign x' es' where
  wf := hwf
  file := hfile
  ok := h.ok.daemon hstep ha (fun _ hd => ⟨hd.1, hd.2.append hle⟩)
    (fun _ _ hs => ⟨hs.1.trans hle, hs.2⟩) hchain
  outcomes := by
    rw [(hstep.daemon ha).2.2.1]
    exact h.outcomes

/-- The condition on a run: the file is not replaced. -/
def Unreplaced (_ : Site) : SiteAct → Prop
  | .replace _ => False
  | _ => True

/-- **Every step keeps it.** -/
theorem Growing.step (hkeys : Keyed cfg sign) (h : Growing cfg sign x es) (hok : Unreplaced x a)
    (hstep : SiteStep cfg sign x a x') : ∃ es', Growing cfg sign x' es' := by
  by_cases ha : a.Daemon
  · have hdaemon := hstep
    cases hstep with
    | start _ up =>
      refine ⟨es, h.extend hdaemon ha (List.prefix_refl _) h.wf h.file fun c hc => ?_⟩
      cases hc
      exact ⟨loadChain_spec up, loadChain_chainFile h.wf h.file up⟩
    | stop => exact ⟨es, h.extend hdaemon ha (List.prefix_refl _) h.wf h.file nofun⟩
    | @serve c ts served up =>
      obtain ⟨hholds, hentries⟩ := h.ok.chain _ up
      have hentries : c.entries = es := hentries
      rcases append_cases x.file ts served hholds with hsame |
        ⟨b, hb, hfile, happended, hwf, hholds'⟩
      · refine ⟨es, h.extend hdaemon ha (List.prefix_refl _) h.wf ?_ fun c' hc => ?_⟩
        · simp only [hsame]
          exact h.file
        · cases hc
          rw [hsame]
          exact ⟨hholds, hentries⟩
      · rw [hentries] at happended
        refine ⟨es ++ [c.entry ts served], h.extend hdaemon ha (List.prefix_append _ _) ?_ ?_
          fun c' hc => ?_⟩
        · exact List.forall_mem_append.2 ⟨h.wf, List.forall_mem_singleton.2 hwf⟩
        · have hline : entryLine (c.entry ts served) = some (b ++ [10]) := by
            rw [entryLine, hb]
            rfl
          simp only [hfile]
          exact chainFile_snoc hline h.file
        · cases hc
          exact ⟨hholds', happended⟩
    | replace => exact hok.elim
    | _ => exact ha.elim
  · obtain ⟨hok', hfile, hchain, _, houtcomes⟩ := h.ok.relay hkeys growing_lawful hstep ha
    refine ⟨es, h.wf, hfile ▸ h.file, hok', ?_⟩
    rcases houtcomes with hsame | ⟨o, last, hnew, hsent, hfair⟩
    · rw [hsame]
      exact h.outcomes
    · rw [hnew]
      refine List.forall_mem_append.2 ⟨h.outcomes, List.forall_mem_singleton.2 ?_⟩
      rcases hfair with ⟨_, hresult⟩ | ⟨hrej, _⟩
      · exact hresult
      · exact absurd hsent.2 hrej

/-! ## A chain that was recorded -/

/-- Different entries of these have different hashes. -/
def CollisionFree (sha : Bytes → PyStr) (seen : List Json) : Prop :=
  ∀ e ∈ seen, ∀ e' ∈ seen, ∀ b b', canonical e = some b → canonical e' = some b' →
    sha b = sha b' → b = b'

theorem CollisionFree.mono {seen seen' : List Json} (h : CollisionFree cfg.sha seen')
    (hle : seen ⊆ seen') : CollisionFree cfg.sha seen :=
  fun e he e' he' => h e (hle he) e' (hle he')

/-- The chain of a recorded checkpoint is one the daemon has had. -/
def held (sha : Bytes → PyStr) (seen : List Json) : Frame where
  held src := src ⊆ seen
  mark d := d = none ∨ ∃ g, g ⊆ seen ∧ Marks sha g d
  sent src _ := src ⊆ seen

theorem held_lawful {seen : List Json} : (held cfg.sha seen).Lawful cfg.sha where
  marked := Or.imp_right fun ⟨g, hg⟩ => ⟨g, hg.2⟩
  fetch hsrc _ _ := hsrc
  accept hsrc _ hnew := .inr ⟨_, hsrc, hnew⟩

/-- The chain of the recorded checkpoint begins with this one, and so does whatever is accepted. -/
def beginning (sha : Bytes → PyStr) (g seen : List Json) : Frame where
  held src := src ⊆ seen
  mark d := ∃ g', g' ⊆ seen ∧ g <+: g' ∧ Marks sha g' d
  sent src last := src ⊆ seen ∧ (Accepts sha src last → g <+: src)

section Seen

variable {seen seen' : List Json} (hwf : ∀ e ∈ seen, e.WF) (hsha : CollisionFree cfg.sha seen)
include hwf hsha

/-- Chains of one length with the same last hash are equal. -/
theorem linked_eq {h : PyStr} (hg : g ⊆ seen) (hsrc : src ⊆ seen)
    (hlinked : LinkedEntries cfg.sha GENESIS g h) (hlinked' : LinkedEntries cfg.sha GENESIS src h)
    (hlen : g.length = src.length) : g = src := by
  refine Linked.determined ?_ hlinked hlinked' hlen
  intro e he e' he' k hk hk'
  obtain ⟨b, hb, rfl⟩ := Option.map_eq_some_iff.1 hk
  obtain ⟨b', hb', heq⟩ := Option.map_eq_some_iff.1 hk'
  obtain rfl := hsha e (hg he) e' (hsrc he') b b' hb hb' heq.symm
  exact canonical_injective (hwf e (hg he)) (hwf e' (hsrc he')) hb hb'

/-- **A chain that goes on from a checkpoint begins with the chain of that checkpoint.** -/
theorem Accepts.begins {h : PyStr} (hg : g ⊆ seen) (hsrc : src ⊆ seen) (hmarks : Marks cfg.sha g d)
    (hlinked : LinkedEntries cfg.sha GENESIS src h) (hacc : Accepts cfg.sha src d) : g <+: src := by
  obtain ⟨last, rfl, hlast⟩ := hmarks
  rcases hacc with hnone | ⟨k, h', heq, hk, hhead⟩
  · cases hnone
  obtain ⟨hlen, rfl⟩ : g.length = k ∧ last = h' := by
    simpa using heq
  have hcut := hlinked
  rw [← List.take_append_drop k src] at hcut
  obtain ⟨m, htake, _⟩ := hcut.split
  have hlen' : (src.take k).length = k := List.length_take_of_le hk
  have hm := headAt_prefix (src.drop k) htake
  rw [List.take_append_drop, hlen', hhead] at hm
  cases hm
  rw [linked_eq hwf hsha hg (fun e he => hsrc (List.mem_of_mem_take he)) hlast htake
    (hlen.trans hlen'.symm)]
  exact List.take_prefix k src

theorem Marks.unique (hg : g ⊆ seen) (hsrc : src ⊆ seen) (hmarks : Marks cfg.sha g d)
    (hmarks' : Marks cfg.sha src d) : g = src := by
  obtain ⟨h, rfl, hlinked⟩ := hmarks
  obtain ⟨h', heq, hlinked'⟩ := hmarks'
  obtain ⟨hlen, rfl⟩ : g.length = src.length ∧ h = h' := by
    simpa using heq
  exact linked_eq hwf hsha hg hsrc hlinked hlinked' hlen

theorem beginning_lawful : (beginning cfg.sha g seen).Lawful cfg.sha where
  marked := by
    rintro d ⟨g', _, _, hmarks⟩
    exact .inr ⟨g', hmarks⟩
  fetch := by
    rintro src d h hsrc hlinked ⟨g', hg', hle, hmarks⟩
    exact ⟨hsrc, fun hacc => hle.trans (hacc.begins hwf hsha hg' hsrc hmarks hlinked)⟩
  accept := by
    rintro src last new ⟨hsrc, hbegins⟩ hacc hnew
    exact ⟨src, hsrc, hbegins hacc, hnew⟩

/-- From now on what is accepted begins with the recorded chain. -/
theorem SiteOk.beginning (h : SiteOk cfg sign (held cfg.sha seen) x) (hg : g ⊆ seen)
    (hmarks : Marks cfg.sha g d) (hrec : Recorded cfg x.seqr d) :
    SiteOk cfg sign (Observer.beginning cfg.sha g seen) x := by
  obtain ⟨hchain, hgood, d', hrec', _, hok⟩ := h
  obtain rfl := hrec.unique hrec'
  refine ⟨hchain, hgood, d, hrec, ⟨g, hg, List.prefix_refl g, hmarks⟩, ?_⟩
  cases hphase : x.phase with
  | idle =>
    rw [hphase] at hok
    exact hok
  | asked since =>
    rw [hphase] at hok
    exact hok
  | fetched src ck =>
    rw [hphase] at hok
    obtain ⟨hlast, hck, hsrc⟩ := hok
    obtain ⟨h, _, hlinked⟩ := hck.head
    exact ⟨hlast, hck, hsrc, fun hacc => hacc.begins hwf hsha hg hsrc hmarks hlinked⟩
  | recording src last ck p =>
    rw [hphase] at hok
    obtain ⟨hsrc, new, hnew, hd, hwp⟩ := hok
    refine ⟨⟨hsrc, fun hacc => ?_⟩, new, hnew, hd, hwp⟩
    rcases hd with rfl | ⟨_, rfl⟩
    · obtain ⟨h, _, hlinked⟩ := hnew
      exact hacc.begins hwf hsha hg hsrc hmarks hlinked
    · rw [hmarks.unique hwf hsha hg hsrc hnew]

end Seen

/-! ## All runs -/

/-- What the daemon has after one of its steps. -/
theorem daemon_chain (hstep : SiteStep cfg sign x a x') (ha : a.Daemon)
    (hchain : ∀ c, x.chain = some c → Holds cfg.sha c) (hwf : ∀ e ∈ x.seen, e.WF) :
    (∀ c, x'.chain = some c → Holds cfg.sha c ∧ c.entries ⊆ x'.seen) ∧ ∀ e ∈ x'.seen, e.WF := by
  cases hstep with
  | start _ up =>
    have hholds := loadChain_spec up
    refine ⟨?_, List.forall_mem_append.2 ⟨hwf, hholds.wf⟩⟩
    rintro c hc
    cases hc
    exact ⟨hholds, List.subset_append_right _ _⟩
  | stop => exact ⟨nofun, hwf⟩
  | @serve c ts served up =>
    have hholds : Holds cfg.sha (c.append cfg.sha x.file ts served).1 := by
      rcases append_cases x.file ts served (hchain c up) with hsame |
        ⟨_, _, _, _, _, hholds⟩
      · rw [hsame]
        exact hchain c up
      · exact hholds
    refine ⟨?_, List.forall_mem_append.2 ⟨hwf, hholds.wf⟩⟩
    rintro c' hc
    cases hc
    exact ⟨hholds, List.subset_append_right _ _⟩
  | replace down =>
    refine ⟨fun c hc => ?_, hwf⟩
    cases down.symm.trans hc
  | _ => exact ha.elim

/-- The invariant of all runs. -/
structure Seen (cfg : SeqConfig) (sign : Bytes → Bytes) (x : Site) : Prop where
  wf : ∀ e ∈ x.seen, e.WF
  ok : SiteOk cfg sign (held cfg.sha x.seen) x

theorem Seen.step (hkeys : Keyed cfg sign) (h : Seen cfg sign x) (hstep : SiteStep cfg sign x a x') :
    Seen cfg sign x' := by
  by_cases ha : a.Daemon
  · obtain ⟨_, _, _, hle⟩ := hstep.daemon ha
    obtain ⟨hchain, hwf⟩ := daemon_chain hstep ha (fun c hc => (h.ok.chain c hc).1) h.wf
    refine ⟨hwf, h.ok.daemon hstep ha (fun d hd => ?_) (fun src d hs => ?_) hchain⟩
    · rcases hd with rfl | ⟨g, hg, hmarks⟩
      · exact .inl rfl
      · exact .inr ⟨g, fun e he => hle.subset (hg he), hmarks⟩
    · exact fun e he => hle.subset (hs he)
  · obtain ⟨hok, _, _, hseen, _⟩ := h.ok.relay hkeys held_lawful hstep ha
    refine ⟨hseen ▸ h.wf, ?_⟩
    rw [hseen]
    exact hok

/-- The invariant after a chain has been recorded, with the number of outcomes by then. -/
structure Following (cfg : SeqConfig) (sign : Bytes → Bytes) (g : List Json) (n : Nat) (x : Site) :
    Prop where
  seen : g ⊆ x.seen
  wf : ∀ e ∈ x.seen, e.WF
  ok : SiteOk cfg sign (beginning cfg.sha g x.seen) x
  outcomes : ∀ o ∈ x.outcomes.drop n, g <+: o.src ∨ ∃ m, o.result = .error (rpcError .integrity m)

theorem Following.step (hkeys : Keyed cfg sign) {n : Nat} (h : Following cfg sign g n x)
    (hsha : CollisionFree cfg.sha x.seen) (hstep : SiteStep cfg sign x a x') :
    Following cfg sign g n x' := by
  by_cases ha : a.Daemon
  · obtain ⟨_, _, houtcomes, hle⟩ := hstep.daemon ha
    obtain ⟨hchain, hwf⟩ := daemon_chain hstep ha (fun c hc => (h.ok.chain c hc).1) h.wf
    refine ⟨fun e he => hle.subset (h.seen he), hwf, h.ok.daemon hstep ha ?_ ?_ hchain, ?_⟩
    · rintro d ⟨g', hg', hbegins⟩
      exact ⟨g', fun e he => hle.subset (hg' he), hbegins⟩
    · rintro src d ⟨hsrc, hbegins⟩
      exact ⟨fun e he => hle.subset (hsrc he), hbegins⟩
    · rw [houtcomes]
      exact h.outcomes
  · obtain ⟨hok, _, _, hseen, houtcomes⟩ :=
      h.ok.relay hkeys (beginning_lawful h.wf hsha) hstep ha
    refine ⟨hseen ▸ h.seen, hseen ▸ h.wf, by rw [hseen]; exact hok, ?_⟩
    rcases houtcomes with hsame | ⟨o, last, hnew, hsent, hfair⟩
    · rw [hsame]
      exact h.outcomes
    · intro o' ho'
      rw [hnew, List.drop_append] at ho'
      rcases List.mem_append.1 ho' with hold | hlast
      · exact h.outcomes o' hold
      · cases List.mem_singleton.1 (List.mem_of_mem_drop hlast)
        rcases hfair with ⟨hacc, _⟩ | ⟨_, herror⟩
        · exact .inl (hsent.2 hacc)
        · exact .inr herror

/-- A run from a new sequencer, with no daemon yet and no file. -/
abbrev SiteRun (cfg : SeqConfig) (sign : Bytes → Bytes) (ok : Site → SiteAct → Prop) : Site → Prop :=
  Reachable (· = {}) (SiteStep cfg sign) ok

theorem SiteRun.growing (hkeys : Keyed cfg sign) (h : SiteRun cfg sign Unreplaced x) :
    ∃ es, Growing cfg sign x es := by
  refine Reachable.inv (I := fun x => ∃ es, Growing cfg sign x es) ?_ ?_ h
  · rintro _ rfl
    exact ⟨[], nofun, rfl, siteOk_start ⟨.inl rfl, .inl rfl⟩, nofun⟩
  · rintro x a x' ⟨es, hes⟩ hok hstep
    exact hes.step hkeys hok hstep

theorem SiteRun.seen (hkeys : Keyed cfg sign) (h : SiteRun cfg sign anyAct x) : Seen cfg sign x := by
  refine Reachable.inv ?_ (fun _ _ _ hx _ => hx.step hkeys) h
  rintro _ rfl
  exact ⟨nofun, siteOk_start (.inl rfl)⟩

theorem SiteStep.seen_prefix (hstep : SiteStep cfg sign x a x') : x.seen <+: x'.seen := by
  cases hstep with
  | start | serve => exact List.prefix_append _ _
  | _ => exact List.prefix_refl _

/-- What is accepted after a chain has been recorded begins with it. -/
theorem Following.run (hkeys : Keyed cfg sign) (hx : Seen cfg sign x) (hg : g ⊆ x.seen)
    (hmarks : Marks cfg.sha g d) (hrec : Recorded cfg x.seqr d)
    (h : Reachable (· = x) (SiteStep cfg sign) anyAct y) :
    CollisionFree cfg.sha y.seen → Following cfg sign g x.outcomes.length y := by
  induction h with
  | start heq =>
    rintro hsha
    subst heq
    refine ⟨hg, hx.wf, hx.ok.beginning hx.wf hsha hg hmarks hrec, ?_⟩
    rw [List.drop_length]
    exact nofun
  | next _ _ hstep ih =>
    intro hsha
    have hsha' := hsha.mono hstep.seen_prefix.subset
    exact (ih hsha').step hkeys hsha' hstep

theorem SiteStep.op {last : Last} {ck : Params} {o : Op} {k : Res o → Prog Op Res (Except Exc Reply)}
    {q : Prog Op Res (Except Exc Reply)} {r : Res o} (hphase : x.phase = .recording src last ck q)
    (hq : q = .step o k) (hshort : Short x.seqr) (hexec : exec cfg (handler ck) x.seqr o r s') :
    SiteStep cfg sign x .handle { x with seqr := s', phase := .recording src last ck (k r) } :=
  .handle (hphase.trans (congrArg _ hq)) hshort hexec

/-- A checkpoint of the chain that was recorded can be forwarded, and is accepted. -/
theorem forward_accepted (hkeys : Keyed cfg sign) {c : LocalChain} {kvs : Fields} {ts : Double}
    (hidle : x.phase = .idle) (hup : x.chain = some c) (hholds : Holds cfg.sha c)
    (hgood : Good cfg x.seqr) (hlast : x.seqr.daemon_last = d) (hrec : Recorded cfg x.seqr d)
    (hmarked : d = none ∨ ∃ g, Marks cfg.sha g d) (hacc : Accepts cfg.sha c.entries d)
    (hmade : c.checkpoint sign (sinceOf d) ts = .ok kvs) (hshort : Short x.seqr) :
    ∃ s ack, Reachable (· = x) (SiteStep cfg sign) Unreplaced { x with
        seqr := s, outcomes := x.outcomes ++ [⟨c.entries, .ok (.ack ack)⟩] } ∧
      Good cfg s ∧ s.seq = x.seqr.seq + 1 ∧
      ∃ new, Marks cfg.sha c.entries new ∧ s.daemon_last = new ∧ Recorded cfg s new := by
  subst hlast
  have hck := checkpoint_spec hholds hmade
  obtain ⟨h, hlinked, k, hk, k1, hk1, k2, hk2, hret⟩ := handler_steps hkeys hck hmarked hacc
  obtain ⟨hwf, hdata⟩ := checkpoint_data true hck.printable
    (head_text hkeys.hash_text hlinked) (List.forall_mem_nil _)
  -- the sequencer between its two operations
  let s : Sequencer := { x.seqr with daemon_last := some (.int c.entries.length, .str h) }
  have hgood' : Good cfg s ∧ Grows x.seqr s := good_of_eq hgood rfl rfl rfl rfl rfl rfl
  have hentry : canonical (entry s ts (py "observer_broker") (py "observe_checkpoint") .null
      (acceptedData (.int c.entries.length, .str h)) .null) ≠ none :=
    canonical_entry hkeys hgood'.1 hshort ts (by decide) (by decide) hdata
  obtain ⟨b, hb⟩ := Option.ne_none_iff_exists'.1 hentry
  have hexec : exec cfg (handler (Params.ofFields kvs (checkpoint_wf hmade))) s (.append
    (py "observer_broker") (py "observe_checkpoint") .null
    (acceptedData (.int c.entries.length, .str h)) .null) _ _ := ⟨ts, append_eq hb⟩
  obtain ⟨hgood'', _, _⟩ := append_spec hgood'.1 rfl .null hwf .null hexec
  have hset : Recorded cfg s x.seqr.daemon_last := hrec.same rfl rfl rfl
  have hafter : checkpointAfter (py "observe_checkpoint")
      (acceptedData (.int c.entries.length, .str h)) x.seqr.daemon_last =
      .ok (some (.int c.entries.length, .str h)) := rfl
  obtain ⟨_, hfailed | ⟨hrec', _⟩⟩ := hset.append hgood'.1 ⟨_, rfl⟩ hafter hexec
  · obtain ⟨_, ⟨_, herror⟩, _⟩ := hfailed
    cases herror
  refine ⟨_, ⟨s.seq + 1, cfg.sha b, .null⟩, ?_, hgood'', rfl, _, ⟨h, rfl, hlinked⟩, rfl, hrec'⟩
  have hstart : Reachable (· = x) (SiteStep cfg sign) Unreplaced x := .start rfl
  have hasked := hstart.next (show Unreplaced _ .ask from trivial) (.ask hidle)
  have hfetch : SiteStep cfg sign { x with phase := .asked (sinceOf x.seqr.daemon_last) } .fetch
      { x with phase := .fetched c.entries (Params.ofFields kvs (checkpoint_wf hmade)) } :=
    .fetch rfl (by exact hup) hmade
  have hfetched := hasked.next (show Unreplaced _ .fetch from trivial) hfetch
  have hsent := hfetched.next (show Unreplaced _ .send from trivial) (.send rfl)
  have hread := hsent.next (show Unreplaced _ .handle from trivial)
    (.op rfl hk hshort (show exec cfg _ x.seqr .read_daemon_last _ x.seqr from ⟨rfl, rfl⟩))
  have hstored := hread.next (show Unreplaced _ .handle from trivial)
    (.op rfl hk1 hshort (show exec cfg _ x.seqr (.set_daemon_last _) () s from rfl))
  have happended := hstored.next (show Unreplaced _ .handle from trivial) (.op rfl hk2 hshort hexec)
  have hdone := happended.next (show Unreplaced _ .reply from trivial) (.reply (congrArg _ (hret _)))
  rw [hidle]
  exact hdone

/-- **Checkpoints are accepted exactly from the chain that was recorded.** While the file of the daemon
is only appended to, every forwarded checkpoint is accepted. Once the sequencer's chain records a
checkpoint, it is the checkpoint of a chain that the daemon has had, and every later checkpoint of a
chain that does not begin with that one is rejected for integrity, whatever happens to the daemon's
file. -/
theorem checkpoints_guarded (hkeys : Keyed cfg sign) :
    (∀ x, SiteRun cfg sign Unreplaced x → ∀ o ∈ x.outcomes, ∃ a, o.result = .ok (.ack a)) ∧
    ∀ x last, SiteRun cfg sign anyAct x → Recorded cfg x.seqr (some last) →
      ∃ g, Marks cfg.sha g (some last) ∧ g ⊆ x.seen ∧
        ∀ y, Reachable (· = x) (SiteStep cfg sign) anyAct y → CollisionFree cfg.sha y.seen →
          ∀ o ∈ y.outcomes.drop x.outcomes.length, ¬ g <+: o.src →
            ∃ m, o.result = .error (rpcError .integrity m) := by
  constructor
  · intro x hx
    obtain ⟨es, hes⟩ := hx.growing hkeys
    exact hes.outcomes
  · intro x last hx hrec
    have hseen := hx.seen hkeys
    obtain ⟨d, hrec', hmark, _⟩ := hseen.ok.phase
    obtain rfl := hrec.unique hrec'
    rcases hmark with hnone | ⟨g, hg, hmarks⟩
    · cases hnone
    refine ⟨g, hmarks, hg, fun y hy hsha o ho hbegins => ?_⟩
    rcases (Following.run hkeys hseen hg hmarks hrec hy hsha).outcomes o ho with hyes | hno
    · exact absurd hyes hbegins
    · exact hno

end Protocol

/-! ## A chain that grows back -/

/-- Hashes that never collide; a signature is the signed text. -/
def sampleCfg : SeqConfig where
  sha b := b.map UInt8.toNat
  key_id := py "chain-1"
  sign := id
  daemon_verifier := some fun sig m => decide (sig = m)
  str v := v.text .compact

theorem sample_keyed : Keyed sampleCfg id where
  verifier := ⟨_, rfl, fun _ => decide_eq_true rfl⟩
  hash_text b := by
    rw [List.all_eq_true]
    intro n hn
    obtain ⟨u, _, rfl⟩ := List.mem_map.1 hn
    have := u.toNat_lt
    simp only [isScalar, isSurrogate, Bool.and_eq_true, decide_eq_true_eq, Bool.not_eq_true',
      Bool.and_eq_false_iff, decide_eq_false_iff_not]
    omega
  int_text z := by
    have hq : CharClosed fun c => isScalar c = true := by
      refine ⟨fun c _ h => isScalar_of_lt (by omega), ?_⟩
      intro c hc d hd
      rcases mem_charText hd with ⟨_, h⟩ | ⟨rfl, _⟩
      · exact isScalar_of_lt h
      · exact hc
    exact List.all_eq_true.2 (text_closed hq (.int z) rfl)

theorem sample_collisionFree (seen : List Json) : CollisionFree sampleCfg.sha seen := by
  intro e _ e' _ b b' _ _ heq
  exact List.map_injective_iff.2 (fun u v h => UInt8.toNat_inj.1 h) heq

/-- A request that was served. -/
def sampleServed : Served where
  request_id := .str (py "r1")
  command_id := .str (py "uptime")
  status := py "ok"
  output_hash := []
  elapsed_ms := exampleTs
  decoded := ⟨.str _, .str _⟩

/-- The daemon's chain with the one entry. -/
def grown : LocalChain := (LocalChain.new.append sampleCfg.sha [] exampleTs sampleServed).1

theorem grown_holds : Holds sampleCfg.sha grown ∧ grown.entries.length = 1 ∧ grown.seq = 1 := by
  have hsome : (canonical (LocalChain.new.entry exampleTs sampleServed)).isSome = true :=
    canonical_isSome (by decide +kernel) (by decide +kernel)
  rcases append_cases [] exampleTs sampleServed
    (show Holds sampleCfg.sha .new from holds_new) with hsame | ⟨b, _, _, hentries, _, hholds⟩
  · obtain ⟨b, hb⟩ := Option.isSome_iff_exists.1 hsome
    rw [LocalChain.append, hb] at hsame
    have hfile : ([] : Bytes) ++ (b ++ [10]) = [] := congrArg Prod.snd hsame
    rw [List.nil_append] at hfile
    exact absurd hfile (List.append_ne_nil_of_right_ne_nil b (List.cons_ne_nil _ _))
  · have hlen : grown.entries.length = 1 := by
      rw [grown, hentries]
      rfl
    have hgrown : Holds sampleCfg.sha grown := hholds
    exact ⟨hgrown, hlen, hgrown.seq.trans hlen⟩

/-- A checkpoint of the one entry can be made. -/
theorem grown_checkpoint {n : Option Nat} (hn : n = none ∨ n = some 1) :
    ∃ kvs, grown.checkpoint id n exampleTs = .ok kvs := by
  obtain ⟨hholds, _, hseq⟩ := grown_holds
  have hhead : grown.head.all isScalar = true := head_text sample_keyed.hash_text hholds.linked
  have hlast : grown.hashes[1]? = some grown.head := by
    have hlt : 1 < grown.hashes.length := by
      rw [hholds.length, hseq]
      exact Nat.one_lt_two
    rw [LocalChain.head, hseq, List.getD_eq_getElem?_getD, List.getElem?_eq_getElem hlt,
      Option.getD_some]
  have hsince : (n.filter fun k => decide (k ≤ grown.seq)) = n := by
    rw [hseq]
    rcases hn with rfl | rfl <;> rfl
  have hbody : (canonical (Json.mkObj (grown.unsigned n exampleTs))).isSome = true := by
    rw [LocalChain.unsigned, hsince, hseq]
    refine canonical_isSome (Json.printable_mkObj ?_) (Json.scalar_mkObj ?_)
    · rcases hn with rfl | rfl
      · simp only [List.forall_mem_cons, List.not_mem_nil, false_imp_iff, implies_true, and_true]
        exact ⟨by decide, rfl, rfl, rfl, rfl⟩
      · simp only [List.forall_mem_cons, List.not_mem_nil, false_imp_iff, implies_true, and_true,
          Option.bind_some, hlast]
        exact ⟨by decide, rfl, rfl, by decide, rfl⟩
    · rcases hn with rfl | rfl
      · simp only [List.forall_mem_cons, List.not_mem_nil, false_imp_iff, implies_true, and_true]
        exact ⟨⟨by decide, rfl⟩, ⟨by decide, hhead⟩, ⟨by decide, rfl⟩, ⟨by decide, rfl⟩, by decide,
          rfl⟩
      · simp only [List.forall_mem_cons, List.not_mem_nil, false_imp_iff, implies_true, and_true,
          Option.bind_some, hlast]
        exact ⟨⟨by decide, rfl⟩, ⟨by decide, hhead⟩, ⟨by decide, rfl⟩, ⟨by decide, rfl⟩, by decide,
          hhead⟩
  obtain ⟨b, hb⟩ := Option.isSome_iff_exists.1 hbody
  refine ⟨grown.unsigned n exampleTs ++ [(py "sig", .str (b64u (id b)))], ?_⟩
  rw [LocalChain.checkpoint, hb]
  rfl

/-- The daemon comes up on an empty file, serves the request, and the checkpoint is forwarded. -/
theorem grown_forwarded {x : Site} {d : Last} (hfile : x.file = []) (hdown : x.chain = none)
    (hidle : x.phase = .idle) (hgood : Good sampleCfg x.seqr) (hlast : x.seqr.daemon_last = d)
    (hrec : Recorded sampleCfg x.seqr d) (hshort : Short x.seqr)
    (hd : d = none ∨ Marks sampleCfg.sha grown.entries d) : ∃ y z ack,
      SiteStep sampleCfg id x .start y ∧ y.chain = some .new ∧ y.phase = .idle ∧
      y.outcomes = x.outcomes ∧ y.seqr = x.seqr ∧
      Reachable (· = y) (SiteStep sampleCfg id) Unreplaced z ∧ z.phase = .idle ∧
      z.outcomes = x.outcomes ++ [⟨grown.entries, .ok (.ack ack)⟩] ∧ Good sampleCfg z.seqr ∧
      z.seqr.seq = x.seqr.seq + 1 ∧ ∃ new, Marks sampleCfg.sha grown.entries new ∧
        z.seqr.daemon_last = new ∧ Recorded sampleCfg z.seqr new := by
  obtain ⟨hholds, hlen, _⟩ := grown_holds
  have hup : loadChain sampleCfg.sha x.file = .ok .new := by
    rw [hfile]
    rfl
  let y : Site := { x with chain := some .new, seen := x.seen ++ LocalChain.new.entries }
  let w : Site := { y with
    chain := some (LocalChain.new.append sampleCfg.sha y.file exampleTs sampleServed).1
    file := (LocalChain.new.append sampleCfg.sha y.file exampleTs sampleServed).2
    seen := y.seen ++ (LocalChain.new.append sampleCfg.sha y.file exampleTs sampleServed).1.entries }
  have hserve : SiteStep sampleCfg id y .serve w := .serve rfl
  have hchain : w.chain = some grown := by
    show some (LocalChain.new.append sampleCfg.sha x.file exampleTs sampleServed).1 = some grown
    rw [hfile, grown]
  have hsince : sinceOf d = none ∨ sinceOf d = some 1 := by
    rcases hd with rfl | ⟨h, rfl, _⟩
    · exact .inl rfl
    · rw [hlen]
      exact .inr rfl
  obtain ⟨kvs, hmade⟩ := grown_checkpoint hsince
  have hmarked : d = none ∨ ∃ g, Marks sampleCfg.sha g d := hd.imp_right fun h => ⟨_, h⟩
  have hacc : Accepts sampleCfg.sha grown.entries d := hd.elim .inl Marks.accepts
  obtain ⟨s, ack, hrun, hgood', hseq, hnew⟩ := forward_accepted (x := w) sample_keyed hidle hchain
    hholds hgood hlast hrec hmarked hacc hmade hshort
  have hstart : Reachable (· = y) (SiteStep sampleCfg id) Unreplaced y := .start rfl
  have hserved := hstart.next (show Unreplaced y .serve from trivial) hserve
  exact ⟨y, _, ack, .start hdown hup, rfl, hidle, rfl, rfl, hserved.append hrun, hidle, rfl, hgood',
    hseq, hnew⟩

/-- The first forwarded checkpoint of a new site. -/
theorem first_forwarded : ∃ x o, SiteRun sampleCfg id Unreplaced x ∧ x.phase = .idle ∧ x.outcomes = [o] ∧
    Good sampleCfg x.seqr ∧ Short x.seqr ∧ ∃ h, Marks sampleCfg.sha grown.entries (some (.int 1, h)) ∧
      x.seqr.daemon_last = some (.int 1, h) ∧ Recorded sampleCfg x.seqr (some (.int 1, h)) := by
  obtain ⟨y, x, ack, hstart, _, _, _, _, hrun, hidle, houtcomes, hgood, hseq, new, hnew, hlast, hrec⟩ :=
    grown_forwarded (x := {}) rfl rfl rfl good_fresh rfl recorded_fresh (by decide) (.inl rfl)
  have hempty : SiteRun sampleCfg id Unreplaced {} := .start rfl
  have hfirst := hempty.next (show Unreplaced {} .start from trivial) hstart
  have hshort : Short x.seqr := by
    rw [Short, hseq]
    decide
  have hmarks := hnew
  obtain ⟨h, rfl, _⟩ := hnew
  rw [grown_holds.2.1] at hmarks hlast hrec
  exact ⟨x, _, hfirst.append hrun, hidle, houtcomes, hgood, hshort, .str h, hmarks, hlast, hrec⟩

/-- With the chain of one entry accepted, the file is replaced by an empty one. The daemon appends the
same entry again, and its next checkpoint is accepted. -/
theorem regrown_accepted : ∃ (x y z : Site) (h : Json) (o : Outcome),
    SiteRun sampleCfg id anyAct x ∧ Recorded sampleCfg x.seqr (some (.int 1, h)) ∧ x.phase = .idle ∧
    Reachable (· = x) (SiteStep sampleCfg id) anyAct y ∧ y.chain = some .new ∧ y.phase = .idle ∧
      y.outcomes = x.outcomes ∧
    Reachable (· = y) (SiteStep sampleCfg id) Unreplaced z ∧ CollisionFree sampleCfg.sha z.seen ∧
      z.outcomes = y.outcomes ++ [o] ∧ ∃ a, o.result = .ok (.ack a) := by
  obtain ⟨x, _, hx, hidle, _, hgood, hshort, h, hmarks, hlast, hrec⟩ := first_forwarded
  let stopped : Site := { x with chain := none }
  let replaced : Site := { stopped with file := [] }
  obtain ⟨y, z, ack, hstart, hnew, hyidle, houtcomes, _, hrun, _, hz, _⟩ :=
    grown_forwarded (x := replaced) rfl rfl hidle hgood hlast hrec hshort (.inr hmarks)
  have hbegin : Reachable (· = x) (SiteStep sampleCfg id) anyAct x := .start rfl
  have hstopped := hbegin.next trivial (show SiteStep sampleCfg id x .stop stopped from .stop)
  have hreplaced := hstopped.next trivial
    (show SiteStep sampleCfg id stopped (.replace []) replaced from .replace rfl)
  exact ⟨x, y, z, h, _, hx.mono fun _ _ _ => trivial, hrec, hidle, hreplaced.next trivial hstart, hnew,
    hyidle, houtcomes, hrun, sample_collisionFree _, by rw [houtcomes]; exact hz, ack, rfl⟩

theorem checkpoints_guarded_sample : ∃ x o h, SiteRun sampleCfg id Unreplaced x ∧ x.outcomes = [o] ∧
    (∃ a, o.result = .ok (.ack a)) ∧ Recorded sampleCfg x.seqr (some (.int 1, h)) ∧
    ∃ g, Marks sampleCfg.sha g (some (.int 1, h)) ∧ g ⊆ x.seen ∧
      ∀ y, Reachable (· = x) (SiteStep sampleCfg id) anyAct y →
        ∀ o ∈ y.outcomes.drop 1, ¬ g <+: o.src → ∃ m, o.result = .error (rpcError .integrity m) := by
  obtain ⟨x, o, hx, _, houtcomes, _, _, h, _, _, hrec⟩ := first_forwarded
  obtain ⟨haccepted, hrejected⟩ := checkpoints_guarded sample_keyed
  obtain ⟨g, hmarks, hg, hlater⟩ := hrejected x _ (hx.mono fun _ _ _ => trivial) hrec
  have hlen : x.outcomes.length = 1 := by rw [houtcomes]; rfl
  rw [hlen] at hlater
  exact ⟨x, o, h, hx, houtcomes, haccepted x hx o (by rw [houtcomes]; exact List.mem_singleton_self o),
    hrec, g, hmarks, hg, fun y hy => hlater y hy (sample_collisionFree _)⟩

end Valops.Observer
