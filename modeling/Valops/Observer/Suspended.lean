import Valops.Observer.Recorded

/-!
# Requests while the breaker is open

The breaker is a function of the samples (`breaker_history`). While it is open, a valid request for a
command that uses the RPC service ends in `suspended` and runs nothing, if the daemon can write its
entry (`suspended_iff`).
-/

set_option autoImplicit false

namespace Valops.Observer.Daemon

open Py Conc

section Suspended

variable {b : Builtins} {u : UnicodeData} {sha : Bytes → PyStr} {d : Config} {base : Base}
  {tr : List (Happened sha)} {cmd : Command} {vargs : Fields} {r : Except Exc Observation} {req : Request}

/-- The steps that run something. -/
def Runs : Op → Prop
  | .host => True
  | .spawn _ _ => True
  | .sample _ _ => True
  | _ => False

/-- The request is answered `suspended`, and nothing is run for it. -/
def Suspended (tr : List (Happened sha)) (r : Except Exc Observation) : Prop :=
  (∃ o, r = .ok o ∧ o.status = .suspended) ∧ ∀ ev ∈ tr, ¬ Runs ev.op

theorem issues_issue {P : Op → Prop} {o : Op} (h : P o) : IssuesE P (ask o : Act (Res o)) :=
  ⟨h, fun _ => trivial⟩

theorem issues_result {α : Type} {P : Op → Prop} {x : Except Exc α} : IssuesE P (result x : Act α) := trivial

/-- The end of a request runs nothing. -/
theorem issues_finish {status : Status} {structured : Json} {text : PyStr} {truncated : Bool} :
    IssuesE (fun o => ¬ Runs o) (_finish u sha base status structured text truncated) := by
  refine issuesE_bind (issues_issue id) fun e => ?_
  refine issuesE_bind issues_result fun bytes => ?_
  refine issuesE_bind (issues_issue id) fun y => ?_
  exact issuesE_bind issues_result fun seq => issuesE_pure

/-- **A request while the breaker is open** is suspended exactly if its entry can be written. -/
theorem suspended_iff (hsha : ∀ bs, ScalarText (sha bs)) (hcmd : d.command req.command_id = some cmd)
    (hvargs : validate_args cmd req.args = .ok vargs) (hbacked : cmd.rpc_backed = true)
    (hkind : cmd.kind ≠ .unavailable) (h : PathE (Behaves d.rate) (observe b u sha d req) tr r)
    (hopen : ∀ ev ∈ tr, ev.before.breaker.open_ = true) :
    Suspended tr r ↔ Encodable req ∧ ∀ ev ∈ tr, Roomy ev := by
  unfold observe at h
  obtain ⟨s, t0, s', rest, rfl, -, h₁⟩ := pathE_issue_bind.1 h
  obtain ⟨s₂, at_, s₂', rest, rfl, -, h₂⟩ := pathE_issue_bind.1 h₁
  simp only [hcmd, hvargs] at h₂
  rw [serve, if_neg hkind, if_pos hbacked, backed] at h₂
  obtain ⟨s₃, br, s₃', rest, rfl, ⟨hbr, -⟩, h₃⟩ := pathE_issue_bind.1 h₂
  rw [hbr, if_pos (hopen ⟨s₃, .breaker, br, s₃'⟩ (by simp))] at h₃
  obtain ⟨s₄, br', s₄', rest, rfl, -, h₄⟩ := pathE_issue_bind.1 h₃
  obtain ⟨-, hok, hiff⟩ := finish_iff (b := b) hsha nil_scalar h₄
  have hidle : ∀ ev ∈ rest, ¬ Runs ev.op := h₄.issues issues_finish
  have hroom : (∀ ev ∈ (⟨s, .monotonic, t0, s'⟩ : Happened sha) :: ⟨s₂, .now, at_, s₂'⟩ ::
      ⟨s₃, .breaker, br, s₃'⟩ :: ⟨s₄, .breaker, br', s₄'⟩ :: rest, Roomy ev) ↔ ∀ ev ∈ rest, Roomy ev := by
    simp only [List.forall_mem_cons]
    exact ⟨fun hx => hx.2.2.2.2, fun hx => ⟨trivial, trivial, trivial, trivial, hx⟩⟩
  rw [hroom]
  constructor
  · rintro ⟨⟨o, rfl, -⟩, -⟩
    exact hiff.1 (hok o rfl).2
  · intro hgood
    obtain ⟨o, _, _, _, _, _, _, rfl, -⟩ := hiff.2 hgood
    refine ⟨⟨o, rfl, (hok o rfl).1⟩, ?_⟩
    simp only [List.forall_mem_cons]
    exact ⟨id, id, id, id, hidle⟩

/-- The breaker has been fed some samples that leave it open. -/
def OpenBy (threshold_ms : Double) (recover : Int) (ev : Happened sha) : Prop :=
  ∃ xs, ev.before.breaker = breakerAfter threshold_ms recover xs ∧ Tripped threshold_ms recover xs

/-- **The breaker and what it suspends.** After any samples the state is a function of them, and while
it is open a valid request for a command that uses the RPC service is suspended, without anything being
run, exactly if its entry can be written. -/
theorem breaker_suspends_iff {threshold_ms : Double} {recover : Int} (hr : 1 ≤ recover)
    (hsha : ∀ bs, ScalarText (sha bs)) :
    (∀ xs, ((breakerAfter threshold_ms recover xs).open_ = true ↔ Tripped threshold_ms recover xs) ∧
      (breakerAfter threshold_ms recover xs).trips = (tripsIn threshold_ms recover xs).length ∧
      ((breakerAfter threshold_ms recover xs).opened_at.isSome = true ↔
        (breakerAfter threshold_ms recover xs).open_ = true) ∧
      ∀ t, (breakerAfter threshold_ms recover xs).opened_at = some t →
        OpenedAt threshold_ms recover xs t) ∧
    ∀ (req : Request) (cmd : Command) (vargs : Fields) (tr : List (Happened sha))
      (r : Except Exc Observation), d.command req.command_id = some cmd →
      validate_args cmd req.args = .ok vargs → cmd.rpc_backed = true → cmd.kind ≠ .unavailable →
      PathE (Behaves d.rate) (observe b u sha d req) tr r →
      (∀ ev ∈ tr, OpenBy threshold_ms recover ev) →
      (Suspended tr r ↔ Encodable req ∧ ∀ ev ∈ tr, Roomy ev) := by
  refine ⟨breaker_history hr, fun req cmd vargs tr r hcmd hvargs hbacked hkind h hopen => ?_⟩
  refine suspended_iff hsha hcmd hvargs hbacked hkind h fun ev hev => ?_
  obtain ⟨xs, hxs, htripped⟩ := hopen ev hev
  rw [hxs]
  exact (breaker_history hr xs).1.2 htripped

end Suspended

/-! ## A command that uses the RPC service -/

/-- `epoch_info`, marked as one. -/
def backedTable : Json :=
  .obj [(py "commands", .obj [(py "epoch_info", .obj [(py "kind", .str (py "exec")),
    (py "read_only", .bool true), (py "argv", .arr (epochInfo.map Json.str)),
    (py "rpc_backed", .bool true)])])]

/-- The daemon with this command. -/
def backedDaemon : Config where
  table := ⟨1, [(py "epoch_info", { commandOf "epoch_info" epochInfo with rpc_backed := true })]⟩
  local_ := []
  rate := 10

/-- A sample of an unhealthy service. -/
def unhealthy : RpcSample := ⟨.zero, false, .zero⟩

/-- The state after it. -/
def openState : State sampleHash := { freshState with breaker := breakerAfter .zero 1 [unhealthy] }

/-- How a request is served then. -/
def servedOpen (request_id : PyStr) :
    List (Happened sampleHash) × Except Exc Observation × State sampleHash :=
  drive (answers backedDaemon.rate)
    (observe sampleBuiltins asciiData sampleHash backedDaemon (requestFor request_id)).run openState

theorem servedOpen_path (request_id : PyStr) : PathE (Behaves backedDaemon.rate)
    (observe sampleBuiltins asciiData sampleHash backedDaemon (requestFor request_id))
    (servedOpen request_id).1 (servedOpen request_id).2.1 :=
  drive_path (answers_behave backedDaemon.rate) _ openState

deriving instance DecidableEq for Breaker

theorem openBy_of_all {tr : List (Happened sampleHash)}
    (h : (tr.all fun ev => decide (ev.before.breaker = breakerAfter .zero 1 [unhealthy])) = true) :
    ∀ ev ∈ tr, OpenBy .zero 1 ev := fun ev hev =>
  ⟨[unhealthy], of_decide_eq_true (List.all_eq_true.1 h ev hev), [], ⟨[], unhealthy, rfl, rfl, nofun⟩, by decide⟩

/-- **With a lone surrogate in its id a request is not suspended**: it ends in an exception. -/
theorem surrogate_id_not_suspended :
    ¬ ∀ (b : Builtins) (u : UnicodeData) (sha : Bytes → PyStr) (d : Config) (data : Json)
      (threshold_ms : Double) (recover : Int) (req : Request) (cmd : Command) (vargs : Fields)
      (tr : List (Happened sha)) (r : Except Exc Observation), 1 ≤ recover →
      (∀ bs, ScalarText (sha bs)) → load_table_data b u data = .ok d.table →
      d.command req.command_id = some cmd → validate_args cmd req.args = .ok vargs →
      cmd.rpc_backed = true → cmd.kind ≠ .unavailable →
      PathE (Behaves d.rate) (observe b u sha d req) tr r →
      (∀ ev ∈ tr, OpenBy threshold_ms recover ev) → Suspended tr r := by
  intro h
  have hload : load_table_data sampleBuiltins asciiData backedTable = .ok backedDaemon.table := by
    decide +kernel
  have hfails : (servedOpen [0xD800]).2.1.isOk = false := by decide +kernel
  obtain ⟨⟨o, ho, -⟩, -⟩ := h sampleBuiltins asciiData sampleHash backedDaemon backedTable .zero 1
    (requestFor [0xD800]) _ [] _ _ (le_refl 1) (fun _ => nil_scalar) hload rfl rfl rfl nofun
    (servedOpen_path [0xD800]) (openBy_of_all (by decide +kernel))
  rw [ho] at hfails
  cases hfails

/-- With an id that can be encoded it is. -/
theorem ascii_id_suspended : (breakerAfter .zero 1 [unhealthy]).open_ = true ∧
    Suspended (servedOpen (py "r")).1 (servedOpen (py "r")).2.1 := by
  obtain ⟨hhistory, hsuspends⟩ := @breaker_suspends_iff sampleBuiltins asciiData sampleHash backedDaemon
    .zero 1 (le_refl 1) (fun _ => nil_scalar)
  refine ⟨(hhistory [unhealthy]).1.2 ⟨[], ⟨[], unhealthy, rfl, rfl, nofun⟩, by decide⟩, ?_⟩
  refine (hsuspends (requestFor (py "r")) _ [] _ _ rfl rfl rfl nofun (servedOpen_path (py "r"))
    (openBy_of_all (by decide +kernel))).2 ⟨⟨by decide +kernel, by decide +kernel⟩, ?_⟩
  have hseq : ((servedOpen (py "r")).1.all fun ev => decide (ev.before.chain.seq = 0)) = true := by
    decide +kernel
  intro ev hev
  have hzero := of_decide_eq_true (List.all_eq_true.1 hseq ev hev)
  unfold Roomy
  split
  · rw [hzero]
    decide +kernel
  · trivial

end Valops.Observer.Daemon
