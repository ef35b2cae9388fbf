import Valops.Observer.CommandLine
import Valops.Observer.Daemon

/-!
# Every observation is chained

The daemon answers a request and writes one entry for it, which the answer names, exactly if the
request is served steadily (`observe_recorded_iff`): what it echoes can be encoded, and nothing on the
way raises anything but an `OSError`.
-/

set_option autoImplicit false

namespace Valops.Observer.Daemon

open Py Conc Audit

section Recorded

variable {sha : Bytes → PyStr}

/-- A step of a request that has been made. -/
abbrev Happened (sha : Bytes → PyStr) := Event (State sha) Op Res

/-- No entry is written. -/
def Unwritten (tr : List (Happened sha)) : Prop := ∀ ev ∈ tr, ∀ x, ev.op ≠ .append x

/-- The request is answered and one entry is written for it, the next one of the chain, and the answer
names it. -/
def Recorded (req : Request) (tr : List (Happened sha)) (r : Except Exc Observation) : Prop :=
  ∃ o front s x s' ts back, r = .ok o ∧
    tr = front ++ ⟨s, .append x, .ok (s.chain.seq + 1), s'⟩ :: back ∧ Unwritten (front ++ back) ∧
    o.audit_ref = auditRef (s.chain.seq + 1) ∧
    s'.chain.entries = s.chain.entries ++ [s.chain.entry ts x] ∧ s'.chain.seq = s.chain.seq + 1 ∧
    x.request_id = req.request_id ∧ x.command_id = req.command_id ∧ x.status = o.status.text

/-! ## Steady requests -/

/-- The values that the daemon echoes can be written to the chain. -/
structure Encodable (req : Request) : Prop where
  request_id : req.request_id.printable = true ∧ req.request_id.scalar = true
  command_id : req.command_id.printable = true ∧ req.command_id.scalar = true

/-- The number of the entry is short enough to print. -/
def Roomy (ev : Happened sha) : Prop :=
  match ev.op with
  | .append _ => (Json.int (ev.before.chain.seq + 1 : Nat)).printable = true
  | _ => True

variable (b : Builtins) (u : UnicodeData) (d : Config)

/-- The command line of a process can be assembled and passed on. -/
def Prepared (cmd : Command) (vargs : Fields) : Prop :=
  cmd.kind ≠ .builtin → ∃ argv, assemble_argv b cmd vargs d.local_ = .ok argv ∧ spawnable argv = true

/-- The step lets the command go on: what is run under the lock can be prepared, a builtin raises
nothing but an `OSError` on this host, and the output of a process is parsed. -/
def Benign (cmd : Command) (vargs : Fields) (ev : Happened sha) : Prop :=
  match ev with
  | ⟨_, .acquire _, free, _⟩ => free = true → Prepared b d cmd vargs
  | ⟨_, .host, h, _⟩ => ∀ e, runBuiltin b u h cmd.id vargs d.local_ ≠ .error (.other e)
  | ⟨_, .spawn _ _, x, _⟩ => ∀ ran, x = .ok ran →
      ∃ v, structuredOf b u d cmd (_exec cmd ran).1 (decodeReplace (_exec cmd ran).2.1) = .ok v
  | _ => True

/-- What a request needs to be served to its end. -/
structure Steady (req : Request) (tr : List (Happened sha)) : Prop where
  ids : Encodable req
  room : ∀ ev ∈ tr, Roomy ev
  args : ∀ cmd, d.command req.command_id = some cmd → ∀ e, validate_args cmd req.args ≠ .error (.exc e)
  served : ∀ cmd vargs, d.command req.command_id = some cmd → validate_args cmd req.args = .ok vargs →
    ∀ ev ∈ tr, Benign b u d cmd vargs ev

end Recorded

/-! ## The entry -/

section Entry

variable {sha : Bytes → PyStr} {s : State sha} {ts : Double} {x : Served}

theorem genesis_scalar : ScalarText GENESIS := by
  intro c hc
  rw [List.eq_of_mem_replicate (hc : c ∈ List.replicate 64 48)]
  rfl

/-- The head of the chain is a hash. -/
theorem head_scalar (hsha : ∀ bs, ScalarText (sha bs)) (s : State sha) : ScalarText s.chain.head := by
  have hhead := s.holds.hashes s.chain.seq (le_refl _)
  intro c hc
  rw [LocalChain.head, List.getD_eq_getElem?_getD, hhead] at hc
  generalize s.chain.entries = es at hc
  cases hk : s.chain.seq with
  | zero =>
    rw [hk] at hc
    exact genesis_scalar c hc
  | succ k =>
    rw [hk] at hc
    cases he : es[k]? with
    | none =>
      rw [headAt, he] at hc
      cases hc
    | some e =>
      rw [headAt, he, Option.bind_some, hashOf] at hc
      cases hb : canonical e with
      | none =>
        rw [hb] at hc
        cases hc
      | some bs =>
        rw [hb] at hc
        exact hsha bs c hc

/-- The fields of a value with a canonical form. -/
theorem canonical_field {kvs : Fields} {k : PyStr} {w : Json}
    (h : (canonical (Json.mkObj kvs)).isSome = true) (hk : Json.lookup k (Json.mkFields kvs) = some w) :
    w.printable = true ∧ w.scalar = true := by
  obtain ⟨bs, hbs⟩ := Option.isSome_iff_exists.1 h
  obtain ⟨hp, hs⟩ := scalar_of_canonical hbs
  rw [Json.mkObj, Json.printable, Json.printableFields_iff] at hp
  rw [Json.mkObj, Json.scalar, Json.scalarFields_iff] at hs
  exact ⟨hp _ (Json.lookup_mem hk), (hs _ (Json.lookup_mem hk)).2⟩

/-- **The entry has a canonical form** exactly if what it echoes has one and its number can be
printed. -/
theorem entry_canonical_iff (hsha : ∀ bs, ScalarText (sha bs)) (hstatus : ScalarText x.status)
    (hhash : ScalarText x.output_hash) : (canonical (s.chain.entry ts x)).isSome = true ↔
      ((x.request_id.printable = true ∧ x.request_id.scalar = true) ∧
        x.command_id.printable = true ∧ x.command_id.scalar = true) ∧
      (Json.int (s.chain.seq + 1 : Nat)).printable = true := by
  constructor
  · intro h
    obtain ⟨hrp, hrs⟩ := canonical_field (k := py "request_id") (w := x.request_id) h rfl
    obtain ⟨hcp, hcs⟩ := canonical_field (k := py "command_id") (w := x.command_id) h rfl
    exact ⟨⟨⟨hrp, hrs⟩, hcp, hcs⟩, (canonical_field (k := py "seq") h rfl).1⟩
  · rintro ⟨⟨⟨hrp, hrs⟩, hcp, hcs⟩, hseq⟩
    have hall : ∀ {t : PyStr}, ScalarText t → t.all isScalar = true := fun h => List.all_eq_true.2 h
    have hkeys : ["seq", "ts", "prev", "request_id", "command_id", "status", "output_hash",
        "elapsed_ms"].all (fun k => (py k).all isScalar) = true := by decide +kernel
    simp only [List.all_cons, List.all_nil, Bool.and_true, Bool.and_eq_true] at hkeys
    apply canonical_isSome
    · apply Json.printable_mkObj
      simp only [List.forall_mem_cons]
      exact ⟨hseq, rfl, rfl, hrp, hcp, rfl, rfl, rfl, List.forall_mem_nil _⟩
    · apply Json.scalar_mkObj
      simp only [List.forall_mem_cons]
      obtain ⟨h1, h2, h3, h4, h5, h6, h7, h8⟩ := hkeys
      exact ⟨⟨h1, rfl⟩, ⟨h2, rfl⟩, ⟨h3, hall (head_scalar hsha s)⟩, ⟨h4, hrs⟩, ⟨h5, hcs⟩,
        ⟨h6, hall hstatus⟩, ⟨h7, hall hhash⟩, ⟨h8, rfl⟩, List.forall_mem_nil _⟩

end Entry

/-! ## The end of a request -/

section Finish

variable {b : Builtins} {u : UnicodeData} {sha : Bytes → PyStr} {d : Config} {base : Base}
  {req : Request} {status : Status} {structured : Json} {text : PyStr} {truncated : Bool}
  {tr front back : List (Happened sha)} {r : Except Exc Observation} {cmd : Command} {vargs : Fields}

theorem status_scalar (status : Status) : ScalarText status.text := by
  have hall : ∀ s : Status, s.text.all isScalar = true := by
    intro s
    cases s <;> decide +kernel
  exact List.all_eq_true.1 (hall status)

/-- Nothing is written before or after the part of a request that writes. -/
theorem recorded_within (hfront : Unwritten front) (hback : Unwritten back) :
    Recorded req (front ++ (tr ++ back)) r ↔ Recorded req tr r := by
  constructor
  · rintro ⟨o, pre, s, x, s', ts, post, rfl, heq, hun, hrest⟩
    have hwritten : ∀ {part : List (Happened sha)}, Unwritten part →
        (⟨s, .append x, .ok (s.chain.seq + 1), s'⟩ : Happened sha) ∉ part := fun h hmem => h _ hmem x rfl
    obtain ⟨mid, rfl, hmid⟩ : ∃ mid, pre = front ++ mid ∧
        tr ++ back = mid ++ ⟨s, .append x, .ok (s.chain.seq + 1), s'⟩ :: post := by
      rcases List.append_eq_append_iff.1 heq with ⟨mid, hpre, hmid⟩ | ⟨mid, hpre, hmid⟩
      · exact ⟨mid, hpre, hmid⟩
      · cases mid with
        | nil => exact ⟨[], by simpa using hpre.symm, hmid.symm⟩
        | cons y mid =>
          rw [← (List.cons.inj hmid).1] at hpre
          exact absurd (by simp [hpre]) (hwritten hfront)
    rcases List.append_eq_append_iff.1 hmid with ⟨rest, hfst, hsnd⟩ | ⟨rest, hfst, hsnd⟩
    · exact absurd (by simp [hsnd]) (hwritten hback)
    · cases rest with
      | nil =>
        rw [List.nil_append] at hsnd
        exact absurd (hsnd ▸ List.mem_cons_self) (hwritten hback)
      | cons y rest =>
        obtain ⟨rfl, rfl⟩ := List.cons.inj hsnd
        refine ⟨o, mid, s, x, s', ts, rest, rfl, hfst, fun ev hev => hun ev ?_, hrest⟩
        rcases List.mem_append.1 hev with hev | hev <;> simp [hev]
  · rintro ⟨o, pre, s, x, s', ts, post, rfl, rfl, hun, hrest⟩
    refine ⟨o, front ++ pre, s, x, s', ts, post ++ back, rfl, by simp, fun ev hev => ?_, hrest⟩
    simp only [List.mem_append] at hev
    rcases hev with (hev | hev) | hev | hev
    · exact hfront ev hev
    · exact hun ev (List.mem_append_left _ hev)
    · exact hun ev (List.mem_append_right _ hev)
    · exact hback ev hev

theorem recorded_cons {ev : Happened sha} (hev : ∀ x, ev.op ≠ .append x) :
    Recorded req (ev :: tr) r ↔ Recorded req tr r := by
  have h : Recorded req ([ev] ++ (tr ++ [])) r ↔ Recorded req tr r :=
    recorded_within (List.forall_mem_singleton.2 hev) (fun _ hmem => absurd hmem List.not_mem_nil)
  rwa [List.append_nil] at h

theorem not_recorded (h : Unwritten tr) : ¬ Recorded req tr r := by
  rintro ⟨o, pre, s, x, s', ts, post, -, rfl, -⟩
  exact h ⟨s, .append x, .ok (s.chain.seq + 1), s'⟩ (by simp) x rfl

theorem not_recorded_error {e : Exc} : ¬ Recorded req tr (.error e) := by
  rintro ⟨o, pre, s, x, s', ts, post, hr, -⟩
  cases hr

/-- **The end of a request**: it takes the time and writes the entry, which is all it does. -/
theorem finish_iff (hsha : ∀ bs, ScalarText (sha bs)) (htext : ScalarText text)
    (h : PathE (Behaves d.rate) (_finish u sha base status structured text truncated) tr r) :
    (∀ ev ∈ tr, ∀ cmd vargs, Benign b u d cmd vargs ev) ∧
      (∀ o, r = .ok o → o.status = status ∧ Recorded base.request tr r) ∧
      (Recorded base.request tr r ↔ Encodable base.request ∧ ∀ ev ∈ tr, Roomy ev) := by
  unfold _finish at h
  obtain ⟨s₀, e, s₀', rest, htr, -, h₁⟩ := pathE_issue_bind.1 h
  obtain ⟨bytes, hbytes⟩ := Option.isSome_iff_exists.1 (encodeUtf8_isSome (redact_scalar (u := u) htext))
  rw [hbytes] at h₁
  rcases pathE_result_bind.1 h₁ with ⟨_, he, -⟩ | ⟨bs, hbs, h₂⟩
  · cases he
  cases hbs
  obtain ⟨s, y, s', last, hrest, ⟨ts, rfl, hy⟩, h₃⟩ := pathE_issue_bind.1 h₂
  let x : Served :=
    { request_id := base.request.request_id, command_id := base.request.command_id
      status := status.text, output_hash := sha bytes, elapsed_ms := e, decoded := base.request.decoded }
  have hcanonical := @entry_canonical_iff sha s ts x hsha (status_scalar status) (hsha bytes)
  -- what is left is pure, so the result is that of the append
  obtain ⟨hlast, hend⟩ : last = [] ∧ ((∃ x, y = .error x ∧ r = .error x) ∨
      ∃ seq o, y = .ok seq ∧ r = .ok o ∧ o.status = status ∧ o.audit_ref = auditRef seq) := by
    rcases pathE_result_bind.1 h₃ with ⟨x, hx, hnil, hr⟩ | ⟨seq, hseq, h₄⟩
    · exact ⟨hnil, .inl ⟨x, hx, hr⟩⟩
    · obtain ⟨hnil, hr⟩ := pathE_pure.1 h₄
      exact ⟨hnil, .inr ⟨seq, _, hseq, hr, rfl, rfl⟩⟩
  rw [hrest, hlast] at htr
  refine ⟨?_, ?_⟩
  · intro ev hev cmd vargs
    rw [htr] at hev
    rcases List.mem_cons.1 hev with rfl | hev
    · trivial
    · rw [List.mem_singleton.1 hev]
      trivial
  split at hy
  · rename_i hc
    obtain ⟨⟨hreq, hcmd⟩, hroom⟩ := hcanonical.1 hc
    obtain ⟨bs, hbs⟩ := Option.isSome_iff_exists.1 hc
    rcases hend with ⟨x, hx, -⟩ | ⟨seq, o, hseq, rfl, hstatus, href⟩
    · cases hy.symm.trans hx
    cases hy.symm.trans hseq
    cases hy
    have hrec : Recorded base.request tr (.ok o) := by
      refine ⟨o, [_], s, _, _, ts, [], rfl, htr, ?_, href, ?_, ?_, rfl, rfl, ?_⟩
      · simp [Unwritten]
      · simp only [State.append, LocalChain.append, hbs]
      · simp only [State.append, LocalChain.append, hbs]
      · rw [hstatus]
    refine ⟨fun o' ho' => ?_, iff_of_true hrec ⟨⟨hreq, hcmd⟩, fun ev hev => ?_⟩⟩
    · cases ho'
      exact ⟨hstatus, hrec⟩
    · rw [htr] at hev
      rcases List.mem_cons.1 hev with rfl | hev
      · trivial
      · rw [List.mem_singleton.1 hev]
        exact hroom
  · rename_i hc
    rcases hend with ⟨x, -, rfl⟩ | ⟨seq, o, hseq, -⟩
    · refine ⟨by simp, iff_of_false not_recorded_error ?_⟩
      rintro ⟨henc, hroom⟩
      refine hc (hcanonical.2 ⟨⟨henc.request_id, henc.command_id⟩, ?_⟩)
      exact hroom _ (htr ▸ List.mem_cons_of_mem _ List.mem_cons_self)
    · cases hy.symm.trans hseq

end Finish

/-! ## Under the lock -/

section Locked

variable {b : Builtins} {u : UnicodeData} {sha : Bytes → PyStr} {d : Config} {base : Base}
  {tr : List (Happened sha)} {cmd : Command} {vargs : Fields}

theorem Unwritten.roomy (h : Unwritten tr) : ∀ ev ∈ tr, Roomy ev := by
  intro ev hev
  obtain ⟨s, o, x, s'⟩ := ev
  cases o with
  | append served => exact absurd rfl (h _ hev served)
  | _ => trivial

/-- How the locked part goes: it raises, and then a step was not benign or the command line could not
be prepared; it has an outcome; or it ends the request because of an `OSError`. -/
inductive Attempted (b : Builtins) (u : UnicodeData) (d : Config) (base : Base) (cmd : Command)
    (vargs : Fields) : List (Happened sha) → Except Exc Attempt → Prop
  | raised {tr : List (Happened sha)} {e : Exc} (quiet : Unwritten tr)
      (bad : ¬ (Prepared b d cmd vargs ∧ ∀ ev ∈ tr, Benign b u d cmd vargs ev)) :
      Attempted b u d base cmd vargs tr (.error e)
  | ran {tr : List (Happened sha)} {status : Status} {structured : Json} {text : PyStr} {truncated : Bool}
      (quiet : Unwritten tr) (good : Prepared b d cmd vargs ∧ ∀ ev ∈ tr, Benign b u d cmd vargs ev)
      (scalar : ScalarText text) :
      Attempted b u d base cmd vargs tr (.ok (.ran status structured text truncated))
  | reported {tr fin : List (Happened sha)} {r : Except Exc Observation} {name : PyStr}
      (quiet : Unwritten tr) (good : Prepared b d cmd vargs ∧ ∀ ev ∈ tr, Benign b u d cmd vargs ev)
      (ends : PathE (Behaves d.rate) (_finish u sha base .error (errorText name) [] false) fin r) :
      Attempted b u d base cmd vargs (tr ++ fin) (Attempt.answered <$> r)

theorem unwritten_nil : Unwritten ([] : List (Happened sha)) := fun _ h => absurd h List.not_mem_nil

theorem unwritten_cons {ev : Happened sha} (hev : ∀ x, ev.op ≠ .append x) (h : Unwritten tr) :
    Unwritten (ev :: tr) := List.forall_mem_cons.2 ⟨hev, h⟩

theorem Unwritten.append {front back : List (Happened sha)} (hf : Unwritten front) (hb : Unwritten back) :
    Unwritten (front ++ back) := List.forall_mem_append.2 ⟨hf, hb⟩

/-- A builtin that has run has an outcome. -/
theorem capped_path (b : Builtins) (u : UnicodeData) (vargs : Fields) {built : Built} {y : Except Exc Attempt} (hbuilt : ScalarText built.text)
    (h : PathE (Behaves d.rate) (capped cmd built) tr y) : Unwritten tr ∧
      (∀ ev ∈ tr, Benign b u d cmd vargs ev) ∧
      ∃ status structured text truncated, y = .ok (.ran status structured text truncated) ∧
        ScalarText text := by
  unfold capped at h
  obtain ⟨bytes, hbytes⟩ := Option.isSome_iff_exists.1 (encodeUtf8_isSome hbuilt)
  rw [hbytes] at h
  rcases pathE_result_bind.1 h with ⟨_, he, -⟩ | ⟨bs, hbs, h₁⟩
  · cases he
  cases hbs
  split at h₁
  · obtain ⟨rfl, rfl⟩ := pathE_pure.1 h₁
    exact ⟨unwritten_nil, fun _ hev => absurd hev List.not_mem_nil, _, _, _, _, rfl, decodeReplace_scalar _⟩
  · obtain ⟨s₁, _, s₁', rest, rfl, -, h₂⟩ := pathE_issue_bind.1 h₁
    obtain ⟨s₂, br, s₂', rest, rfl, -, h₃⟩ := pathE_issue_bind.1 h₂
    obtain ⟨rfl, rfl⟩ := pathE_pure.1 h₃
    refine ⟨?_, ?_, _, _, _, _, rfl, decodeReplace_scalar _⟩
    · exact unwritten_cons (by simp) (unwritten_cons (by simp) unwritten_nil)
    · simp [Benign]

theorem attemptBuiltin_path {y : Except Exc Attempt} (hkind : cmd.kind = .builtin)
    (h : PathE (Behaves d.rate) (attemptBuiltin b u sha d base cmd vargs) tr y) :
    Attempted b u d base cmd vargs tr y := by
  have hprep : Prepared b d cmd vargs := fun hne => absurd hkind hne
  unfold attemptBuiltin at h
  obtain ⟨s, host, s', rest, rfl, -, h₁⟩ := pathE_issue_bind.1 h
  have hquiet : Unwritten [(⟨s, .host, host, s'⟩ : Happened sha)] := unwritten_cons nofun unwritten_nil
  have hbenign : ∀ ev ∈ [(⟨s, .host, host, s'⟩ : Happened sha)], Benign b u d cmd vargs ev ↔
      ∀ e, runBuiltin b u host cmd.id vargs d.local_ ≠ .error (.other e) := by
    intro ev hev
    rw [List.mem_singleton.1 hev]
    exact Iff.rfl
  split at h₁
  · rename_i built hrun
    obtain ⟨hrest, hgood, status, structured, text, truncated, rfl, hscalar⟩ :=
      capped_path b u vargs (runBuiltin_scalar hrun) h₁
    refine .ran (unwritten_cons nofun hrest) ⟨hprep, List.forall_mem_cons.2 ⟨?_, hgood⟩⟩ hscalar
    refine (hbenign _ (List.mem_singleton_self _)).2 fun e he => ?_
    cases hrun.symm.trans he
  · rename_i name hrun
    obtain ⟨r, hr, rfl⟩ := pathE_map.1 h₁
    refine .reported hquiet ⟨hprep, fun ev hev => (hbenign ev hev).2 fun e he => ?_⟩ hr
    cases hrun.symm.trans he
  · rename_i e hrun
    obtain ⟨rfl, rfl⟩ := pathE_throw.1 h₁
    refine .raised hquiet fun hgood => ?_
    exact (hbenign _ (List.mem_singleton_self _)).1 (hgood.2 _ (List.mem_singleton_self _)) e hrun

/-- The command line can be prepared exactly if its tokens are found and can be passed on. -/
theorem argvOf_ok {argv : List PyStr} : argvOf b d cmd vargs = .ok argv ↔
    assemble_argv b cmd vargs d.local_ = .ok argv := by
  unfold argvOf
  split <;> simp_all

theorem attemptExec_path {y : Except Exc Attempt} (hkind : cmd.kind ≠ .builtin)
    (h : PathE (Behaves d.rate) (attemptExec b u sha d base cmd vargs) tr y) :
    Attempted b u d base cmd vargs tr y := by
  unfold attemptExec at h
  rcases pathE_result_bind.1 h with ⟨e, he, rfl, rfl⟩ | ⟨argv, hargv, h₁⟩
  · refine .raised unwritten_nil fun hgood => ?_
    obtain ⟨argv, hargv, -⟩ := hgood.1 hkind
    cases he.symm.trans (argvOf_ok.2 hargv)
  obtain ⟨s, x, s', rest, rfl, ⟨-, hx⟩, h₂⟩ := pathE_issue_bind.1 h₁
  have hquiet : Unwritten [(⟨s, .spawn argv cmd.timeout_s, x, s'⟩ : Happened sha)] :=
    unwritten_cons nofun unwritten_nil
  have hprep : Prepared b d cmd vargs ↔ spawnable argv = true := by
    constructor
    · intro hp
      obtain ⟨argv', hargv', hspawn⟩ := hp hkind
      cases (argvOf_ok.1 hargv).symm.trans hargv'
      exact hspawn
    · exact fun hspawn _ => ⟨argv, argvOf_ok.1 hargv, hspawn⟩
  have hspawned : spawnable argv = true ↔ ∀ e, x ≠ .error (.other e) := by
    split at hx
    · rename_i hspawn
      exact iff_of_true hspawn hx
    · rename_i hspawn
      exact iff_of_false hspawn fun hall => hall _ hx
  split at h₂
  · rename_i ran
    unfold parsed at h₂
    rcases pathE_result_bind.1 h₂ with ⟨e, he, rfl, rfl⟩ | ⟨v, hv, h₃⟩
    · refine .raised hquiet fun hgood => ?_
      obtain ⟨v, hv⟩ := hgood.2 _ (List.mem_singleton_self _) ran rfl
      cases he.symm.trans hv
    · obtain ⟨rfl, rfl⟩ := pathE_pure.1 h₃
      refine .ran hquiet ⟨hprep.2 (hspawned.2 nofun), fun ev hev => ?_⟩ (decodeReplace_scalar _)
      rw [List.mem_singleton.1 hev]
      rintro ran' heq
      cases heq
      exact ⟨v, hv⟩
  · rename_i name
    obtain ⟨r, hr, rfl⟩ := pathE_map.1 h₂
    refine .reported hquiet ⟨hprep.2 (hspawned.2 nofun), fun ev hev => ?_⟩ hr
    rw [List.mem_singleton.1 hev]
    exact fun ran heq => nomatch heq
  · rename_i e
    obtain ⟨rfl, rfl⟩ := pathE_throw.1 h₂
    exact .raised hquiet fun hgood => hspawned.1 (hprep.1 hgood.1) e rfl

theorem attempt_path {y : Except Exc Attempt}
    (h : PathE (Behaves d.rate) (attempt b u sha d base cmd vargs) tr y) :
    Attempted b u d base cmd vargs tr y := by
  unfold attempt at h
  split at h
  · rename_i hkind
    exact attemptBuiltin_path hkind h
  · rename_i hkind
    exact attemptExec_path hkind h

variable {r : Except Exc Observation}

/-- A part of a request is answered and recorded exactly if all goes well on the way. -/
def RecordedIff (b : Builtins) (u : UnicodeData) (d : Config) (req : Request) (cmd : Command)
    (vargs : Fields) (tr : List (Happened sha)) (r : Except Exc Observation) (extra : Prop) : Prop :=
  Recorded req tr r ↔ Encodable req ∧ (∀ ev ∈ tr, Roomy ev) ∧
    (extra ∧ ∀ ev ∈ tr, Benign b u d cmd vargs ev)

/-- The end of a request, between steps that are no part of it. -/
theorem finish_within (hsha : ∀ bs, ScalarText (sha bs)) {front fin back : List (Happened sha)}
    {status : Status} {structured : Json} {text : PyStr} {truncated : Bool} (htext : ScalarText text)
    (hfront : Unwritten front) (hback : Unwritten back) {extra : Prop} (hextra : extra)
    (hgood : ∀ ev ∈ front ++ back, Benign b u d cmd vargs ev)
    (h : PathE (Behaves d.rate) (_finish u sha base status structured text truncated) fin r) :
    RecordedIff b u d base.request cmd vargs (front ++ (fin ++ back)) r extra := by
  obtain ⟨hbenign, -, hiff⟩ := finish_iff (b := b) hsha htext h
  obtain ⟨hgoodFront, hgoodBack⟩ := List.forall_mem_append.1 hgood
  rw [RecordedIff, recorded_within hfront hback, hiff]
  constructor
  · rintro ⟨henc, hroom⟩
    refine ⟨henc, ?_, hextra, ?_⟩
    · exact List.forall_mem_append.2 ⟨hfront.roomy, List.forall_mem_append.2 ⟨hroom, hback.roomy⟩⟩
    · exact List.forall_mem_append.2 ⟨hgoodFront, List.forall_mem_append.2
        ⟨fun ev hev => hbenign ev hev cmd vargs, hgoodBack⟩⟩
  · rintro ⟨henc, hroom, -⟩
    exact ⟨henc, (List.forall_mem_append.1 (List.forall_mem_append.1 hroom).2).1⟩

/-- **The part under the lock.** -/
theorem locked_iff (hsha : ∀ bs, ScalarText (sha bs))
    (h : PathE (Behaves d.rate) (locked b u sha d base cmd vargs) tr r) :
    RecordedIff b u d base.request cmd vargs tr r (Prepared b d cmd vargs) := by
  obtain ⟨front, s, x, s', back, y, rfl, hatt, hend⟩ : ∃ front s x s' back y,
      tr = front ++ (⟨s, .release cmd.id, x, s'⟩ :: back) ∧ Attempted b u d base cmd vargs front y ∧
        ((∃ e, y = .error e ∧ back = [] ∧ r = .error e) ∨
          (∃ o, y = .ok (.answered o) ∧ back = [] ∧ r = .ok o) ∨
          ∃ status structured text truncated, y = .ok (.ran status structured text truncated) ∧
            PathE (Behaves d.rate) (_finish u sha base status structured text truncated) back r) := by
    unfold locked at h
    rcases pathE_bind.1 h with ⟨e, rfl, h₁⟩ | ⟨front, back, a, rfl, h₁, h₂⟩
    · obtain ⟨front, s, x, s', rfl, hp, -⟩ := pathE_finally.1 h₁
      exact ⟨front, s, x, s', [], _, rfl, attempt_path hp, .inl ⟨e, rfl, rfl, rfl⟩⟩
    · obtain ⟨front, s, x, s', rfl, hp, -⟩ := pathE_finally.1 h₁
      refine ⟨front, s, x, s', back, _, by simp, attempt_path hp, .inr ?_⟩
      cases a with
      | answered o =>
        obtain ⟨rfl, rfl⟩ := pathE_pure.1 h₂
        exact .inl ⟨o, rfl, rfl, rfl⟩
      | ran status structured text truncated => exact .inr ⟨_, _, _, _, rfl, h₂⟩
  have hrelease : Unwritten [(⟨s, .release cmd.id, x, s'⟩ : Happened sha)] :=
    unwritten_cons (by simp) unwritten_nil
  cases hatt with
  | raised quiet bad =>
    rcases hend with ⟨e, -, rfl, rfl⟩ | ⟨o, hy, -⟩ | ⟨_, _, _, _, hy, -⟩
    · refine iff_of_false not_recorded_error ?_
      rintro ⟨-, -, hprep, hgood⟩
      exact bad ⟨hprep, (List.forall_mem_append.1 hgood).1⟩
    · cases hy
    · cases hy
  | ran quiet good scalar =>
    rcases hend with ⟨e, hy, -⟩ | ⟨o, hy, -⟩ | ⟨_, _, _, _, hy, hfin⟩
    · cases hy
    · cases hy
    · cases hy
      have hbenign : ∀ ev ∈ (front ++ [⟨s, .release cmd.id, x, s'⟩]) ++ [], Benign b u d cmd vargs ev := by
        rw [List.append_nil]
        exact List.forall_mem_append.2 ⟨good.2, List.forall_mem_singleton.2 trivial⟩
      have := finish_within hsha scalar (quiet.append hrelease) unwritten_nil good.1 hbenign hfin
      simpa using this
  | @reported front fin r' name quiet good ends =>
    have hfin : back = [] ∧ r' = r := by
      rcases hend with ⟨e, hy, rfl, rfl⟩ | ⟨o, hy, rfl, rfl⟩ | ⟨_, _, _, _, hy, -⟩ <;> cases r' <;> cases hy
      · exact ⟨rfl, rfl⟩
      · exact ⟨rfl, rfl⟩
    obtain ⟨rfl, rfl⟩ := hfin
    rw [List.append_assoc]
    refine finish_within hsha (fun _ hc => absurd hc List.not_mem_nil) quiet hrelease good.1 ?_ ends
    exact List.forall_mem_append.2 ⟨good.2, List.forall_mem_singleton.2 trivial⟩

/-- A step before a part of a request that writes nothing itself. -/
theorem RecordedIff.cons {ev : Happened sha} {req : Request} {extra extra' : Prop}
    (h : RecordedIff b u d req cmd vargs tr r extra) (hev : ∀ x, ev.op ≠ .append x)
    (hextra : extra ↔ extra' ∧ Benign b u d cmd vargs ev) :
    RecordedIff b u d req cmd vargs (ev :: tr) r extra' := by
  have hroom : Roomy ev := (unwritten_cons hev unwritten_nil).roomy ev (List.mem_singleton_self ev)
  rw [RecordedIff] at h ⊢
  rw [recorded_cons hev, h, List.forall_mem_cons, List.forall_mem_cons, hextra, and_assoc]
  exact ⟨fun hx => ⟨hx.1, ⟨hroom, hx.2.1⟩, hx.2.2⟩, fun hx => ⟨hx.1, hx.2.1.2, hx.2.2⟩⟩

end Locked

/-! ## The whole request -/

section Observe

variable {b : Builtins} {u : UnicodeData} {sha : Bytes → PyStr} {d : Config} {base : Base}
  {tr : List (Happened sha)} {cmd : Command} {vargs : Fields} {r : Except Exc Observation}

theorem nil_scalar : ScalarText [] := fun _ hc => absurd hc List.not_mem_nil

/-- A request that ends without running anything. -/
theorem ended_iff (hsha : ∀ bs, ScalarText (sha bs)) {status : Status} {structured : Json}
    (h : PathE (Behaves d.rate) (_finish u sha base status structured [] false) tr r) :
    RecordedIff b u d base.request cmd vargs tr r True := by
  have hbenign : ∀ ev ∈ ([] ++ [] : List (Happened sha)), Benign b u d cmd vargs ev :=
    fun ev hev => absurd hev List.not_mem_nil
  have := finish_within hsha nil_scalar unwritten_nil unwritten_nil trivial hbenign h
  simpa using this

theorem concurrency_iff (hsha : ∀ bs, ScalarText (sha bs))
    (h : PathE (Behaves d.rate) (concurrency b u sha d base cmd vargs) tr r) :
    RecordedIff b u d base.request cmd vargs tr r True := by
  unfold concurrency at h
  obtain ⟨s, free, s', rest, rfl, -, h₁⟩ := pathE_issue_bind.1 h
  cases free with
  | true =>
    refine (locked_iff hsha h₁).cons (by simp) ?_
    rw [true_and]
    exact ⟨fun hp _ => hp, fun hp => hp rfl⟩
  | false =>
    refine (ended_iff hsha h₁).cons (by simp) ?_
    rw [true_and]
    exact iff_of_true trivial fun hfree => absurd hfree Bool.false_ne_true

theorem limited_iff (hsha : ∀ bs, ScalarText (sha bs))
    (h : PathE (Behaves d.rate) (limited b u sha d base cmd vargs) tr r) :
    RecordedIff b u d base.request cmd vargs tr r True := by
  unfold limited at h
  obtain ⟨s, ok, s', rest, rfl, -, h₁⟩ := pathE_issue_bind.1 h
  cases ok with
  | true => exact (concurrency_iff hsha h₁).cons (by simp) (iff_of_true trivial ⟨trivial, trivial⟩)
  | false => exact (ended_iff hsha h₁).cons (by simp) (iff_of_true trivial ⟨trivial, trivial⟩)

theorem backed_iff (hsha : ∀ bs, ScalarText (sha bs))
    (h : PathE (Behaves d.rate) (backed b u sha d base cmd vargs) tr r) :
    RecordedIff b u d base.request cmd vargs tr r True := by
  unfold backed at h
  obtain ⟨s, br, s', rest, rfl, -, h₁⟩ := pathE_issue_bind.1 h
  split at h₁
  · obtain ⟨s₂, br₂, s₂', rest, rfl, -, h₂⟩ := pathE_issue_bind.1 h₁
    refine RecordedIff.cons ?_ (by simp) (iff_of_true trivial ⟨trivial, trivial⟩)
    exact (ended_iff hsha h₂).cons (by simp) (iff_of_true trivial ⟨trivial, trivial⟩)
  · exact (limited_iff hsha h₁).cons (by simp) (iff_of_true trivial ⟨trivial, trivial⟩)

theorem serve_iff (hsha : ∀ bs, ScalarText (sha bs))
    (h : PathE (Behaves d.rate) (serve b u sha d base cmd vargs) tr r) :
    RecordedIff b u d base.request cmd vargs tr r True := by
  unfold serve at h
  split at h
  · exact ended_iff hsha h
  split at h
  · exact backed_iff hsha h
  · exact limited_iff hsha h

/-- **When a request is chained.** On every execution of `observe`, whatever other requests do in
between, the daemon answers and writes the one entry that the answer names exactly if the request is
served steadily. -/
theorem observe_recorded_iff (hsha : ∀ bs, ScalarText (sha bs)) {req : Request}
    (h : PathE (Behaves d.rate) (observe b u sha d req) tr r) :
    Recorded req tr r ↔ Steady b u d req tr := by
  unfold observe at h
  obtain ⟨s, t0, s', rest, rfl, -, h₁⟩ := pathE_issue_bind.1 h
  obtain ⟨s₂, at_, s₂', rest, rfl, -, h₂⟩ := pathE_issue_bind.1 h₁
  have hstart : ∀ {tr : List (Happened sha)} {P : Happened sha → Prop}, (P ⟨s, .monotonic, t0, s'⟩) →
      P ⟨s₂, .now, at_, s₂'⟩ → ((∀ ev ∈ (⟨s, .monotonic, t0, s'⟩ : Happened sha) ::
        ⟨s₂, .now, at_, s₂'⟩ :: tr, P ev) ↔ ∀ ev ∈ tr, P ev) := by
    intro tr P hfst hsnd
    rw [List.forall_mem_cons, List.forall_mem_cons]
    exact ⟨fun hx => hx.2.2, fun hx => ⟨hfst, hsnd, hx⟩⟩
  rw [recorded_cons (by simp), recorded_cons (by simp)]
  split at h₂
  · rename_i hcmd
    rw [(finish_iff (b := b) hsha nil_scalar h₂).2.2]
    constructor
    · rintro ⟨henc, hroom⟩
      refine ⟨henc, (hstart trivial trivial).2 hroom, fun cmd hc => ?_, fun cmd vargs hc => ?_⟩ <;>
        cases hcmd.symm.trans hc
    · exact fun hs => ⟨hs.ids, (hstart trivial trivial).1 hs.room⟩
  rename_i cmd hcmd
  split at h₂
  · rename_i vargs hvargs
    refine (serve_iff hsha h₂).trans ?_
    constructor
    · rintro ⟨henc, hroom, -, hgood⟩
      refine ⟨henc, (hstart trivial trivial).2 hroom, fun cmd' hc e he => ?_, fun cmd' vargs' hc hv => ?_⟩
      · cases hcmd.symm.trans hc
        cases hvargs.symm.trans he
      · cases hcmd.symm.trans hc
        cases hvargs.symm.trans hv
        exact (hstart trivial trivial).2 hgood
    · exact fun hs => ⟨hs.ids, (hstart trivial trivial).1 hs.room, trivial,
        (hstart trivial trivial).1 (hs.served cmd vargs hcmd hvargs)⟩
  · rename_i text hvargs
    rw [(finish_iff (b := b) hsha nil_scalar h₂).2.2]
    constructor
    · rintro ⟨henc, hroom⟩
      refine ⟨henc, (hstart trivial trivial).2 hroom, fun cmd' hc e he => ?_, fun cmd' vargs' hc hv => ?_⟩
      · cases hcmd.symm.trans hc
        cases hvargs.symm.trans he
      · cases hcmd.symm.trans hc
        cases hvargs.symm.trans hv
    · exact fun hs => ⟨hs.ids, (hstart trivial trivial).1 hs.room⟩
  · rename_i e he
    obtain ⟨rfl, rfl⟩ := pathE_throw.1 h₂
    exact iff_of_false not_recorded_error fun hs => hs.args cmd hcmd e he

end Observe

/-! ## Two requests for one command -/

/-- The hash of the examples. -/
def sampleHash (_ : Bytes) : PyStr := []

/-- The state of a daemon that has just started. -/
def freshState : State sampleHash where
  chain := .new
  holds := holds_new
  file := []
  breaker := { threshold_ms := .zero, recover := 1 }
  calls := fun _ => []
  held := []

/-- A host that answers nothing. -/
def silentHost : Host where
  file _ := .error (.os [])
  disk_usage _ := .error (.os [])
  meminfo := .error (.os [])
  is_active _ := .error (.os [])
  loadavg := .error (.os [])
  sshd_config := .error (.os [])
  ss := .error (.os [])
  fail2ban := false
  updates := none
  glob _ _ := .ok []
  mtime _ := .error (.os [])
  health _ _ := (.zero, false, none)
  percent _ _ := .ok .zero
  gib _ := .ok .zero

/-- Every process ends at once with exit code 0 and without output. -/
def answers (rate : Nat) (s : State sampleHash) : (o : Op) → Res o × State sampleHash
  | .now => (.zero, s)
  | .monotonic => (0, s)
  | .elapsed _ => (.zero, s)
  | .breaker => (s.breaker, s)
  | .rate_ok cid => ((_rate_ok rate s.calls cid 0).1, { s with calls := (_rate_ok rate s.calls cid 0).2 })
  | .acquire cid => (decide (cid ∉ s.held), { s with held := if cid ∈ s.held then s.held else cid :: s.held })
  | .release cid => ((), { s with held := s.held.erase cid })
  | .host => (silentHost, s)
  | .sample ms ok => ((), { s with breaker := s.breaker.sample ⟨ms, ok, .zero⟩ })
  | .spawn argv _ => (if spawnable argv then .ok ⟨some 0, []⟩ else .error (.other (.other .valueError)), s)
  | .append x => (if (canonical (s.chain.entry .zero x)).isSome then .ok (s.chain.seq + 1)
      else .error (.other .valueError), s.append .zero x)

theorem answers_behave (rate : Nat) (s : State sampleHash) (o : Op) :
    Behaves rate s o (answers rate s o).1 (answers rate s o).2 := by
  cases o with
  | rate_ok cid => exact ⟨0, rfl, rfl⟩
  | sample ms ok => exact ⟨.zero, rfl⟩
  | append x => exact ⟨.zero, rfl, rfl⟩
  | breaker => exact ⟨rfl, rfl⟩
  | acquire cid => exact ⟨rfl, rfl⟩
  | spawn argv t =>
    refine ⟨rfl, ?_⟩
    cases hs : spawnable argv with
    | true => simp [answers, hs]
    | false => simp [answers, hs]
  | now => exact rfl
  | monotonic => exact rfl
  | elapsed t0 => exact rfl
  | release cid => exact rfl
  | host => exact rfl

/-- `solana epoch-info`. -/
def epochInfo : List PyStr := [py "solana", py "epoch-info"]

/-- A daemon with this command. -/
def sampleDaemon : Config where
  table := ⟨1, [(py "epoch_info", commandOf "epoch_info" epochInfo)]⟩
  local_ := []
  rate := 10

/-- A request for it. -/
def requestFor (request_id : PyStr) : Request where
  command_id := .str (py "epoch_info")
  args := .null
  request_id := .str request_id
  decoded := ⟨.str _, .str _⟩

/-- How it is served. -/
def served (request_id : PyStr) : List (Happened sampleHash) × Except Exc Observation × State sampleHash :=
  drive (answers sampleDaemon.rate)
    (observe sampleBuiltins asciiData sampleHash sampleDaemon (requestFor request_id)).run freshState

theorem served_path (request_id : PyStr) : PathE (Behaves sampleDaemon.rate)
    (observe sampleBuiltins asciiData sampleHash sampleDaemon (requestFor request_id))
    (served request_id).1 (served request_id).2.1 :=
  drive_path (answers_behave sampleDaemon.rate) _ freshState

/-- **A request id with a lone surrogate**: the process has been run, and the entry cannot be written. -/
theorem surrogate_id_unrecorded :
    ¬ ∀ (b : Builtins) (u : UnicodeData) (sha : Bytes → PyStr) (d : Config) (data : Json) (req : Request)
      (tr : List (Happened sha)) (r : Except Exc Observation), (∀ bs, ScalarText (sha bs)) →
      load_table_data b u data = .ok d.table →
      PathE (Behaves d.rate) (observe b u sha d req) tr r → Recorded req tr r := by
  intro h
  have hload : load_table_data sampleBuiltins asciiData (tableOf "epoch_info" epochInfo) =
      .ok sampleDaemon.table := by decide +kernel
  have hfails : (served [0xD800]).2.1.isOk = false := by decide +kernel
  obtain ⟨o, _, _, _, _, _, _, ho, -⟩ := h sampleBuiltins asciiData sampleHash sampleDaemon _ _ _ _
    (fun _ => nil_scalar) hload (served_path [0xD800])
  rw [ho] at hfails
  cases hfails

/-- With an id that can be encoded it is written. -/
theorem ascii_id_recorded : Recorded (requestFor (py "r")) (served (py "r")).1 (served (py "r")).2.1 := by
  have hanswers : ∀ ev ∈ (served (py "r")).1,
      (ev.result, ev.after) = answers sampleDaemon.rate ev.before ev.op := drive_answers _ freshState
  have hsteps : ((served (py "r")).1.all fun ev => match ev.op with
      | .host => false
      | .append _ => decide (ev.before.chain.seq = 0)
      | _ => true) = true := by decide +kernel
  have hcmd : ∀ cmd, sampleDaemon.command (requestFor (py "r")).command_id = some cmd →
      cmd = commandOf "epoch_info" epochInfo := by
    intro cmd hc
    have hfound : sampleDaemon.command (requestFor (py "r")).command_id =
        some (commandOf "epoch_info" epochInfo) := by decide +kernel
    exact (Option.some.inj (hfound.symm.trans hc)).symm
  refine (observe_recorded_iff (fun _ => nil_scalar) (served_path (py "r"))).2 ⟨⟨?_, ?_⟩, ?_, ?_, ?_⟩
  · decide +kernel
  · decide +kernel
  · intro ev hev
    have hstep := List.all_eq_true.1 hsteps ev hev
    obtain ⟨s, o, x, s'⟩ := ev
    cases o with
    | append y =>
      have hseq : s.chain.seq = 0 := of_decide_eq_true hstep
      show (Json.int (s.chain.seq + 1 : Nat)).printable = true
      rw [hseq]
      decide +kernel
    | _ => trivial
  · intro cmd hc e he
    rw [hcmd cmd hc] at he
    cases he
  · intro cmd vargs hc hv ev hev
    cases hcmd cmd hc
    cases hv
    have hstep := List.all_eq_true.1 hsteps ev hev
    have hanswer := hanswers ev hev
    obtain ⟨s, o, x, s'⟩ := ev
    cases o with
    | acquire cid => exact fun _ _ => ⟨epochInfo, rfl, by decide +kernel⟩
    | host => cases hstep
    | spawn argv t => exact fun ran _ => ⟨notParsed, rfl⟩
    | _ => trivial

end Valops.Observer.Daemon
