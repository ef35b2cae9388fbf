import Valops.Conc.Trace
import Valops.Controller.Runner

/-!
# The clean-up of a step

The clean-up of `run_step` is complete on exactly the executions that are `Orderly`. An exception
that is no `RpcError` passes the handlers of the `finally` block and skips what is left of it; one
before the `try` block skips all of it; and a home is forgotten when building it fails half-way.

Main results: `cleanUp_path` (what the `finally` block has done), `clean_up_complete_iff`.
-/

set_option autoImplicit false

namespace Valops.Controller

open Py Store Conc

/-! ## Executions -/

/-- An operation that has been performed. The state is whether a home of this step is on disk. -/
abbrev Happened := Event Bool Op Res

/-- Any operation may return or raise anything. A home that is built is on disk; building it may also
fail after the directory has been made, and removing it may leave some of it. -/
def Behaves : Bool → (o : Op) → Res o → Bool → Prop
  | s, .build_home _ _, r, s' => (s = true → s' = true) ∧ (r = .ok () → s' = true)
  | s, .remove_home _, _, s' => s = false → s' = false
  | s, _, _, s' => s' = s

section Rules

variable {exec : Bool → (o : Op) → Res o → Bool → Prop} {tr : List Happened} {α : Type}

theorem pathE_compute {x : Except Exc α} {r : Except Raised α} :
    PathE exec (compute x) tr r ↔ tr = [] ∧ r = raising x := path_ret

theorem pathE_pure {a : α} {r : Except Raised α} :
    PathE exec (pure a) tr r ↔ tr = [] ∧ r = .ok a := path_ret

theorem pathE_call {p : Prog Op Res (Except Exc α)} {r : Except Raised α} :
    PathE exec (call p) tr r ↔ ∃ x, Path exec p tr x ∧ r = raising x := path_map

theorem pathE_reading {p : Prog Op Res α} {r : Except Raised α} :
    PathE exec (reading p) tr r ↔ ∃ a, Path exec p tr a ∧ r = .ok a := path_map

/-- What a call with a handler for `RpcError` gives. -/
def guarded (a : α) : Except Exc α → Except Raised α
  | .ok v => .ok v
  | .error (.rpc _ _ _) => .ok a
  | .error (.other e) => .error (.exc (.other e))

theorem pathE_guarded {p : Prog Op Res (Except Exc α)} {a : α} {r : Except Raised α} :
    PathE exec (orRpc (call p) fun _ _ => pure a) tr r ↔ ∃ x, Path exec p tr x ∧ r = guarded a x := by
  refine path_bind.trans ?_
  constructor
  · rintro ⟨front, back, y, rfl, hp, hb⟩
    obtain ⟨x, hx, rfl⟩ := pathE_call.1 hp
    refine ⟨x, ?_⟩
    match x with
    | .ok v | .error (.rpc code text data) | .error (.other e) =>
      obtain ⟨rfl, rfl⟩ := path_ret.1 hb
      rw [List.append_nil]
      exact ⟨hx, rfl⟩
  · rintro ⟨x, hx, rfl⟩
    refine ⟨tr, [], raising x, (List.append_nil tr).symm, pathE_call.2 ⟨x, hx, rfl⟩, ?_⟩
    match x with
    | .ok v | .error (.rpc code text data) | .error (.other e) => exact path_ret.2 ⟨rfl, rfl⟩

end Rules

/-! ## What has happened -/

/-- The operation was performed, whatever came of it. -/
def Attempted (o : Op) : List Happened → Prop := Has fun ev => ev.op = o

/-- The session that the model broker has opened. -/
def opened : (o : Op) → Res o → Option Json
  | .open_session _ _ _ _, r => Except.toOption r
  | _, _ => none

/-- The model broker returned this session. -/
def Opened (ms : Json) : List Happened → Prop := Has fun ev => opened ev.op ev.result = some ms

/-- The meter that closing the session has returned. -/
def metered : (o : Op) → Res o → Option Decoded
  | .close_session _, r => Except.toOption r
  | _, _ => none

/-- Closing the session returned this meter. -/
def Metered (m : Decoded) : List Happened → Prop :=
  Has fun ev => metered ev.op ev.result = some m ∧ m.value.truthy = true

/-- A cost was sent to the store. -/
def Charged : List Happened → Prop := Has fun ev => ∃ p, ev.op = .store .append_cost p

/-- A home was left on disk when it was built. -/
def Created : List Happened → Prop :=
  Has fun ev => (∃ spec prompt, ev.op = .build_home spec prompt) ∧ ev.after = true

/-- A home has been built. -/
def built : (o : Op) → Res o → Option Unit
  | .build_home _ _, r => Except.toOption r
  | _, _ => none

/-- A home was built. -/
def Built : List Happened → Prop := Has fun ev => built ev.op ev.result = some ()

/-- Removing a home left some of it. -/
def Remains : List Happened → Prop :=
  Has fun ev => (∃ i, ev.op = .remove_home i) ∧ ev.after = true

/-- The operation raised something that no handler around it catches. -/
def escapes : (o : Op) → Res o → Prop
  | .mint _ _ _ _ _, r => ∃ e, r = .error e
  | .submit _ _ _, r => ∃ e, r = .error (.other e)
  | .open_session _ _ _ _, r => ∃ e, r = .error (.other e)
  | .revoke_session _ _, r => ∃ e, r = .error (.other e)
  | .close_session _, r => ∃ e, r = .error (.other e)
  | .store _ _, r => ∃ e, r = .error (.other e)
  | _, _ => False

/-- The operations, by what the clean-up has to do with them. -/
inductive Kind where
  | starts | opens | builds | revokes | closes | finishes | charges | removes | aside
  deriving DecidableEq

/-- The kind of an operation. -/
def kind : Op → Kind
  | .mint _ _ _ _ _ => .starts
  | .submit event _ _ =>
    if event = py "token_minted" then .starts
    else if event = py "token_revoked" then .finishes
    else .aside
  | .open_session _ _ _ _ => .opens
  | .build_home _ _ => .builds
  | .revoke_session _ _ => .revokes
  | .close_session _ => .closes
  | .store m _ => if m = .append_cost then .charges else .aside
  | .remove_home _ => .removes
  | _ => .aside

section Kinds

variable {e : PyStr} {data : Fields}

@[simp] theorem kind_minted : kind (.submit (py "token_minted") e data) = .starts := by
  rw [kind, if_pos rfl]

@[simp] theorem kind_revoked : kind (.submit (py "token_revoked") e data) = .finishes := by
  rw [kind, if_neg (by decide), if_pos rfl]

@[simp] theorem kind_step : kind (.submit (py "step") e data) = .aside := by
  rw [kind, if_neg (by decide), if_neg (by decide)]

end Kinds

/-- An operation of one of these kinds raised past its handler. -/
def Escaped (ks : List Kind) : List Happened → Prop :=
  Has fun ev => kind ev.op ∈ ks ∧ escapes ev.op ev.result

/-- The operations before the record `token_revoked` whose exceptions end the clean-up. -/
def early : List Kind := [.starts, .opens, .revokes, .closes]

/-- `float(meter.get("usd", 0.0))` and `int(meter.get("requests", 0))` are numbers. -/
def Chargeable (b : Builtins) (m : Decoded) : Prop :=
  ∃ usd turns, (getD m.value "usd" (.float .zero) >>= b.float) = .ok usd ∧
    (getD m.value "requests" (.int 0) >>= b.int) = .ok turns

/-- **The clean-up is complete**: the session is revoked at every broker and closed if it was opened,
the record and the cost are sent, and no home is left. -/
structure CleanedUp (admins : List PyStr) (episode_id session : PyStr) (tr : List Happened)
    (home : Bool) : Prop where
  revoked : ∀ name ∈ admins, Attempted (.revoke_session name session) tr
  closed : ∀ ms, Opened ms tr → Attempted (.close_session session) tr
  audited : Attempted (.submit (py "token_revoked") episode_id [(py "session_id", .str session)]) tr
  charged : ∀ m, Metered m tr → Charged tr
  removed : home = false

/-- **No exception gets in the way of the clean-up.** -/
structure Orderly (b : Builtins) (bundle : Bundle) (role : Role) (tr : List Happened) : Prop where
  configured : ∃ c, configuration_for bundle role = .ok c
  limited : ∃ ttl, floatThreshold b bundle "P-10" = .ok ttl
  early : ¬ Escaped early tr
  session : ∀ ms, Opened ms tr → ms.truthy = true
  meter : ∀ m, Metered m tr → ¬ Escaped [.finishes] tr ∧ Chargeable b m
  home : Created tr → Built tr ∧ ¬ Escaped [.finishes] tr ∧ ¬ Escaped [.charges] tr ∧ ¬ Remains tr

/-! ## The parts of a step -/

section Parts

variable {b : Builtins} {rec : Record} {role : Role} {bundle : Bundle} {kd : ReportKind}
  {session : PyStr} {m : Minted} {tr : List Happened} {α : Type}

/-- Every event is of one of these kinds. -/
def Within (ks : List Kind) (tr : List Happened) : Prop := ∀ ev ∈ tr, kind ev.op ∈ ks

theorem within_nil {ks : List Kind} : Within ks [] := fun _ h => absurd h List.not_mem_nil

theorem Within.append {ks : List Kind} {front back : List Happened} (hf : Within ks front)
    (hb : Within ks back) : Within ks (front ++ back) := List.forall_mem_append.2 ⟨hf, hb⟩

theorem within_of_issues {ks : List Kind} {p : Prog Op Res α} {a : α}
    (h : Path Behaves p tr a) (hp : Issues (fun o => kind o ∈ ks) p) : Within ks tr := h.issues hp

/-- One operation. -/
theorem path_ask {o : Op} {x : Res o} (h : Path Behaves (ask o) tr x) :
    ∃ s s', tr = [⟨s, o, x, s'⟩] ∧ Behaves s o x s' := path_perform.1 h

/-- The record before the `try` block. -/
theorem audit_path {event e : PyStr} {data : Fields} {r : Except Raised Unit}
    (h : PathE Behaves (_audit event e data) tr r) : ∃ s s' x,
      tr = [⟨s, .submit event e data, x, s'⟩] ∧ r = guarded () x := by
  obtain ⟨x, hx, rfl⟩ := pathE_guarded.1 h
  obtain ⟨s, s', rfl, -⟩ := path_ask hx
  exact ⟨s, s', x, rfl, rfl⟩

/-- A call with a handler ends in an exception exactly when that exception passes the handler. -/
theorem guarded_error {a : α} {x : Except Exc α} {e : Raised} (h : guarded a x = .error e) :
    ∃ y, x = .error (.other y) := by
  match x with
  | .error (.other y) => exact ⟨y, rfl⟩
  | .ok v | .error (.rpc code text data) => cases h

theorem guarded_ok {a v : α} {x : Except Exc α} (h : guarded a x = .ok v) :
    ¬ ∃ y, x = .error (.other y) := by
  rintro ⟨y, rfl⟩
  cases h

theorem raising_ok {x : Except Exc α} {a : α} (h : raising x = .ok a) : x = .ok a := by
  cases x with
  | ok v =>
    cases h
    rfl
  | error e => cases h

theorem raising_error {x : Except Exc α} {e : Raised} (h : raising x = .error e) :
    ∃ y, x = .error y := by
  cases x with
  | ok v => cases h
  | error y => exact ⟨y, rfl⟩

/-- **Before the `try` block**: it is reached, or the step has raised without any clean-up. -/
theorem begin_step_path {r : Except Raised Minted}
    (h : PathE Behaves (begin_step b rec role bundle session) tr r) : Within [.starts] tr ∧
      ((∃ m, r = .ok m ∧ m.session = session ∧ (∃ c, configuration_for bundle role = .ok c) ∧
          (∃ ttl, floatThreshold b bundle "P-10" = .ok ttl) ∧ ¬ Escaped early tr) ∨
        (∃ e, r = .error e) ∧ (¬ (∃ c, configuration_for bundle role = .ok c) ∨
          ¬ (∃ ttl, floatThreshold b bundle "P-10" = .ok ttl) ∨ Escaped early tr)) := by
  rcases pathE_bind.1 h with ⟨e, rfl, pconf⟩ | ⟨_, tr, conf, rfl, pconf, h₁⟩
  · obtain ⟨rfl, herr⟩ := pathE_compute.1 pconf
    obtain ⟨y, hy⟩ := raising_error herr.symm
    refine ⟨within_nil, .inr ⟨⟨e, rfl⟩, .inl ?_⟩⟩
    rintro ⟨c, hc⟩
    cases hc.symm.trans hy
  obtain ⟨rfl, hconf⟩ := pathE_compute.1 pconf
  have hconf := raising_ok hconf.symm
  obtain ⟨conf_name, conf⟩ := conf
  rw [List.nil_append]
  rcases pathE_bind.1 h₁ with ⟨e, rfl, pttl⟩ | ⟨_, tr, ttl, rfl, pttl, h₂⟩
  · obtain ⟨rfl, herr⟩ := pathE_compute.1 pttl
    obtain ⟨y, hy⟩ := raising_error herr.symm
    refine ⟨within_nil, .inr ⟨⟨e, rfl⟩, .inr (.inl ?_)⟩⟩
    rintro ⟨c, hc⟩
    cases hc.symm.trans hy
  obtain ⟨rfl, httl⟩ := pathE_compute.1 pttl
  have httl := raising_ok httl.symm
  rw [List.nil_append]
  rcases pathE_bind.1 h₂ with ⟨e, rfl, pmint⟩ | ⟨minted, tr, token, rfl, pmint, h₃⟩
  · obtain ⟨x, hx, herr⟩ := pathE_call.1 pmint
    obtain ⟨y, rfl⟩ := raising_error herr.symm
    obtain ⟨s, s', rfl, -⟩ := path_ask hx
    refine ⟨by simp [Within, kind], .inr ⟨⟨e, rfl⟩, .inr (.inr ?_)⟩⟩
    exact ⟨_, List.mem_cons_self, List.mem_cons_self, y, rfl⟩
  obtain ⟨x, hx, hok⟩ := pathE_call.1 pmint
  cases raising_ok hok.symm
  obtain ⟨s, s', rfl, -⟩ := path_ask hx
  rcases pathE_bind.1 h₃ with ⟨e, rfl, paudit⟩ | ⟨audited, _, _, rfl, paudit, h₄⟩
  · obtain ⟨t, t', x, rfl, herr⟩ := audit_path paudit
    obtain ⟨y, rfl⟩ := guarded_error herr.symm
    refine ⟨by simp [Within, kind], .inr ⟨⟨e, rfl⟩, .inr (.inr ?_)⟩⟩
    exact ⟨_, List.mem_cons_of_mem _ List.mem_cons_self, by simp [early], y, rfl⟩
  · obtain ⟨t, t', x, rfl, hok⟩ := audit_path paudit
    have hx := guarded_ok hok.symm
    obtain ⟨rfl, rfl⟩ := pathE_pure.1 h₄
    refine ⟨by simp [Within, kind], .inl ⟨_, rfl, rfl, ⟨_, hconf⟩, ⟨ttl, httl⟩, ?_⟩⟩
    rintro ⟨ev, hev, -, hesc⟩
    rcases List.mem_cons.1 hev with rfl | hev
    · obtain ⟨y, hy⟩ := hesc
      cases hy
    · cases List.mem_singleton.1 hev
      exact hx hesc

/-! ### The `try` block -/

theorem issues_calls {ks : List Kind} {o : Op} (h : kind o ∈ ks) :
    Issues (fun o => kind o ∈ ks) (ask o : Prog Op Res (Res o)) := issues_perform h

theorem issues_call {ks : List Kind} {p : Prog Op Res (Except Exc α)}
    (h : Issues (fun o => kind o ∈ ks) p) : IssuesE (fun o => kind o ∈ ks) (call p) :=
  issues_bind h fun _ => trivial

theorem issues_compute {ks : List Kind} {x : Except Exc α} :
    IssuesE (fun o => kind o ∈ ks) (compute x) := trivial

theorem issues_audit {ks : List Kind} {event e : PyStr} {data : Fields}
    (h : kind (.submit event e data) ∈ ks) : IssuesE (fun o => kind o ∈ ks) (_audit event e data) := by
  refine issuesE_tryCatch (issues_call (issues_calls h)) fun e => ?_
  match e with
  | .exc (.rpc _ _ _) | .exc (.other _) | .isolation _ => trivial

theorem issues_record {ks : List Kind} {e : PyStr} (h : Kind.aside ∈ ks) :
    IssuesE (fun o => kind o ∈ ks) (record e) :=
  issuesE_bind (issues_call (issues_calls h)) fun _ => issues_compute

/-- A part of the `try` block that neither builds a home nor is looked at by the clean-up. -/
abbrev Apart (p : Calls α) : Prop := IssuesE (fun o => kind o ∈ [Kind.aside]) p

theorem apart_input_view : Apart (input_view rec role) := by
  unfold input_view
  split
  · refine issuesE_bind (issues_call (issues_calls List.mem_cons_self)) fun r => ?_
    refine issuesE_bind issues_compute fun v => ?_
    exact issuesE_bind trivial fun _ => trivial
  · exact issuesE_bind (issues_call (issues_calls List.mem_cons_self)) fun r => issues_compute

theorem apart_gather : Apart (gather b rec role bundle kd m) := by
  refine issuesE_bind apart_input_view fun view => ?_
  refine issuesE_bind issues_compute fun inlined => ?_
  refine issuesE_bind issues_compute fun spec => ?_
  exact issuesE_bind (issues_call (issues_calls List.mem_cons_self)) fun prompt => trivial

theorem apart_launch {ms : Json} : Apart (launch b rec role bundle m ms) := by
  refine issuesE_bind issues_compute fun socket_path => ?_
  refine issuesE_bind issues_compute fun adapter => ?_
  refine issuesE_bind issues_compute fun timeout_s => ?_
  refine issuesE_bind (issues_call (issues_calls List.mem_cons_self)) fun launched => ?_
  cases launched with
  | unavailable why => trivial
  | result res => exact issuesE_bind (issues_audit (by simp)) fun _ => trivial

theorem Within.mono {ks ks' : List Kind} (h : Within ks tr) (hks : ∀ k ∈ ks, k ∈ ks') : Within ks' tr :=
  fun ev hev => hks _ (h ev hev)

theorem kind_of_built {o : Op} {x : Res o} {u : Unit} (h : built o x = some u) : kind o = .builds := by
  cases o with
  | build_home spec prompt => rfl
  | _ => cases h

theorem not_built (h : Within [.aside] tr) : ¬ Built tr := by
  rintro ⟨ev, hev, hb⟩
  have := h ev hev
  rw [kind_of_built hb] at this
  cases List.mem_singleton.1 this

theorem prepare_path {r : Except Raised Unit} (h : PathE Behaves (prepare b rec role bundle kd m) tr r) :
    Within [.builds, .aside] tr ∧ (Built tr ↔ r = .ok ()) := by
  rcases pathE_bind.1 h with ⟨e, rfl, hgather⟩ | ⟨front, back, home, rfl, hgather, hhome⟩
  · have hfront := within_of_issues hgather apart_gather
    exact ⟨hfront.mono (by simp), iff_of_false (not_built hfront) nofun⟩
  · have hfront := within_of_issues hgather apart_gather
    obtain ⟨x, hx, rfl⟩ := pathE_call.1 hhome
    obtain ⟨s, s', rfl, -⟩ := path_ask hx
    refine ⟨(hfront.mono (by simp)).append (by simp [Within, kind]), ?_⟩
    have hno := not_built hfront
    unfold Built at hno ⊢
    rw [has_append, or_iff_right hno, has_cons, or_iff_left has_nil.1]
    match x with
    | .ok _ => exact iff_of_true rfl rfl
    | .error e => exact iff_of_false nofun nofun

/-- **The `try` block**: one event that opens the session, and what follows it. -/
theorem tryBlock_path {left : Left} (h : Path Behaves (tryBlock b rec role bundle kd m) tr left) :
    ∃ first back, tr = first :: back ∧ Within [.opens] [first] ∧ Within [.builds, .aside] back ∧
      (left.ms = none ↔ Escaped early [first]) ∧
      (∀ ms, Opened ms [first] ↔ left.ms = some (some ms)) ∧ (Built back ↔ left.home = true) := by
  obtain ⟨front, back, x, rfl, hopen, hrest⟩ := path_bind.1 h
  obtain ⟨s, s', rfl, -⟩ := path_ask hopen
  refine ⟨_, back, rfl, by simp [Within, kind], ?_⟩
  have hesc : Escaped early [⟨s, .open_session m.session rec.episode_id role bundle.id, x, s'⟩] ↔
      ∃ e, x = .error (.other e) := by
    unfold Escaped
    rw [has_cons, or_iff_left has_nil.1]
    exact and_iff_right (by simp [early, kind])
  have hopened : ∀ ms, Opened ms [⟨s, .open_session m.session rec.episode_id role bundle.id, x, s'⟩] ↔
      Except.toOption (x : Except Exc Json) = some ms := by
    intro ms
    unfold Opened
    rw [has_cons, or_iff_left has_nil.1]
    exact Iff.rfl
  rw [hesc]
  simp only [hopened]
  match x with
  | .error (.rpc code text data) =>
    obtain ⟨rfl, rfl⟩ := path_ret.1 hrest
    exact ⟨within_nil, iff_of_false nofun nofun, fun _ => iff_of_false nofun nofun, by simp [Built]⟩
  | .error (.other e) =>
    obtain ⟨rfl, rfl⟩ := path_ret.1 hrest
    exact ⟨within_nil, iff_of_true rfl ⟨e, rfl⟩, fun _ => iff_of_false nofun nofun, by simp [Built]⟩
  | .ok ms =>
    obtain ⟨work, back, y, rfl, hprep, hlast⟩ := path_bind.1 hrest
    obtain ⟨hwork, hbuilt⟩ := prepare_path hprep
    match y with
    | .error e =>
      obtain ⟨rfl, rfl⟩ := path_ret.1 hlast
      rw [List.append_nil]
      exact ⟨hwork, iff_of_false nofun nofun, fun _ => ⟨congrArg some, Option.some.inj⟩, by simp [hbuilt]⟩
    | .ok _ =>
      obtain ⟨z, hlaunch, rfl⟩ := path_map.1 hlast
      have hback := within_of_issues hlaunch apart_launch
      have hhome : ∀ z, (Left.launched ms z).home = true ∧ (Left.launched ms z).ms = some (some ms) := by
        rintro (e | early | res) <;> exact ⟨rfl, rfl⟩
      rw [(hhome z).2]
      refine ⟨hwork.append (hback.mono (by simp)), iff_of_false nofun nofun,
        fun _ => ⟨congrArg some, Option.some.inj⟩, ?_⟩
      exact iff_of_true (has_append.2 (.inl (hbuilt.2 rfl))) (hhome z).1

/-! ### The `finally` block -/

/-- A call with a handler: one event, which escapes exactly when the call ends in an exception. -/
theorem revokes_path {names : List PyStr} : ∀ {tr : List Happened} {r : Except Raised Unit},
    PathE Behaves (revokes session names) tr r → Within [.revokes] tr ∧
      (r = .ok () ∧ (∀ name ∈ names, Attempted (.revoke_session name session) tr) ∧
          ¬ Escaped early tr ∨
        (∃ e, r = .error e) ∧ Escaped early tr) := by
  induction names with
  | nil =>
    intro tr r h
    obtain ⟨rfl, rfl⟩ := pathE_pure.1 h
    exact ⟨within_nil, .inl ⟨rfl, fun _ hn => absurd hn List.not_mem_nil, has_nil.1⟩⟩
  | cons name names ih =>
    intro tr r h
    rcases pathE_bind.1 h with ⟨e, rfl, hfirst⟩ | ⟨front, back, u, rfl, hfirst, hrest⟩
    · obtain ⟨x, hx, herr⟩ := pathE_guarded.1 hfirst
      obtain ⟨y, rfl⟩ := guarded_error herr.symm
      obtain ⟨s, s', rfl, -⟩ := path_ask hx
      refine ⟨by simp [Within, kind], .inr ⟨⟨e, rfl⟩, ?_⟩⟩
      exact ⟨_, List.mem_cons_self, by simp [kind, early], y, rfl⟩
    · obtain ⟨x, hx, hok⟩ := pathE_guarded.1 hfirst
      have hx' := guarded_ok hok.symm
      obtain ⟨s, s', rfl, -⟩ := path_ask hx
      obtain ⟨hwithin, hcases⟩ := ih hrest
      have hfront : Within [.revokes] [⟨s, .revoke_session name session, x, s'⟩] := by
        simp [Within, kind]
      refine ⟨hfront.append hwithin, ?_⟩
      rcases hcases with ⟨rfl, hall, hno⟩ | ⟨herr, hesc⟩
      · refine .inl ⟨rfl, List.forall_mem_cons.2 ⟨has_append.2 (.inl ?_), fun n hn => ?_⟩, ?_⟩
        · exact ⟨_, List.mem_cons_self, rfl⟩
        · exact has_append.2 (.inr (hall n hn))
        · rintro ⟨ev, hev, hk, hesc⟩
          rcases List.mem_append.1 hev with hev | hev
          · cases List.mem_singleton.1 hev
            exact hx' hesc
          · exact hno ⟨ev, hev, hk, hesc⟩
      · exact .inr ⟨herr, has_append.2 (.inr hesc)⟩

theorem closing_path {ms : Option (Option Json)} {r : Except Raised Decoded}
    (h : PathE Behaves (closing session ms) tr r) : Within [.closes] tr ∧
      ((∃ e, r = .error e) ∧ (ms = none ∨ Escaped early tr) ∨
        ∃ meter, r = .ok meter ∧ ms ≠ none ∧ ¬ Escaped early tr ∧
          (Attempted (.close_session session) tr ↔ ∃ v, ms = some (some v) ∧ v.truthy = true) ∧
          ∀ x, Metered x tr ↔ x = meter ∧ meter.value.truthy = true) := by
  have hnone : ∀ x, Metered x [] ↔ x = noMeter ∧ noMeter.value.truthy = true := fun x =>
    iff_of_false has_nil.1 (fun hx => absurd hx.2 (by decide))
  match ms with
  | none =>
    obtain ⟨rfl, rfl⟩ := path_ret.1 h
    exact ⟨within_nil, .inl ⟨⟨_, rfl⟩, .inl rfl⟩⟩
  | some none =>
    obtain ⟨rfl, rfl⟩ := pathE_pure.1 h
    refine ⟨within_nil, .inr ⟨_, rfl, nofun, has_nil.1, iff_of_false has_nil.1 ?_, hnone⟩⟩
    rintro ⟨v, hv, -⟩
    cases hv
  | some (some v) =>
    rw [closing] at h
    split at h
    · rename_i hv
      obtain ⟨x, hx, rfl⟩ := pathE_guarded.1 h
      obtain ⟨s, s', rfl, -⟩ := path_ask hx
      refine ⟨by simp [Within, kind], ?_⟩
      have hmetered : ∀ y, Metered y [⟨s, .close_session session, x, s'⟩] ↔
          Except.toOption (x : Except Exc Decoded) = some y ∧ y.value.truthy = true := by
        intro y
        unfold Metered
        rw [has_cons, or_iff_left has_nil.1]
        exact Iff.rfl
      have hclosed : Attempted (.close_session session) [⟨s, .close_session session, x, s'⟩] ↔
          ∃ w, some (some v) = some (some w) ∧ w.truthy = true :=
        iff_of_true ⟨_, List.mem_cons_self, rfl⟩ ⟨v, rfl, hv⟩
      have hesc : Escaped early [⟨s, .close_session session, x, s'⟩] ↔
          ∃ e, x = .error (.other e) := by
        unfold Escaped
        rw [has_cons, or_iff_left has_nil.1]
        exact and_iff_right (by simp [early, kind])
      rw [hclosed, hesc]
      simp only [hmetered]
      match x with
      | .error (.other e) => exact .inl ⟨⟨_, rfl⟩, .inr ⟨e, rfl⟩⟩
      | .error (.rpc code text data) =>
        refine .inr ⟨noMeter, rfl, nofun, nofun, trivial, fun y => ?_⟩
        exact iff_of_false (fun hy => nomatch hy.1) fun hy => absurd hy.2 (by decide)
      | .ok meter =>
        refine .inr ⟨meter, rfl, nofun, nofun, trivial, fun y => ?_⟩
        constructor
        · rintro ⟨heq, hy⟩
          cases heq
          exact ⟨rfl, hy⟩
        · rintro ⟨rfl, hy⟩
          exact ⟨rfl, hy⟩
    · rename_i hv
      obtain ⟨rfl, rfl⟩ := pathE_pure.1 h
      refine ⟨within_nil, .inr ⟨_, rfl, nofun, has_nil.1, iff_of_false has_nil.1 ?_, hnone⟩⟩
      rintro ⟨w, hw, hwt⟩
      cases hw
      exact hv hwt

theorem get_isOk {v : Decoded} {kvs : Fields} (h : v.value = .obj kvs) (k : String) :
    ∃ w, v.get k = .ok w := by
  unfold Decoded.get
  split
  · exact ⟨_, rfl⟩
  · rename_i e herr
    rw [h] at herr
    cases herr

theorem costParams_isOk {e : PyStr} {meter : Decoded} :
    (∃ p, costParams b e role m meter = .ok p) ↔ Chargeable b meter := by
  unfold costParams Chargeable
  constructor
  · rintro ⟨p, hp⟩
    obtain ⟨v, hv, hp⟩ := bind_eq_ok.1 hp
    obtain ⟨usd, husd, hp⟩ := bind_eq_ok.1 hp
    obtain ⟨w, hw, hp⟩ := bind_eq_ok.1 hp
    obtain ⟨turns, hturns, hp⟩ := bind_eq_ok.1 hp
    exact ⟨usd, turns, bind_eq_ok.2 ⟨v, hv, husd⟩, bind_eq_ok.2 ⟨w, hw, hturns⟩⟩
  · rintro ⟨usd, turns, husd, hturns⟩
    obtain ⟨v, hv, husd⟩ := bind_eq_ok.1 husd
    obtain ⟨w, hw, hturns⟩ := bind_eq_ok.1 hturns
    obtain ⟨kvs, hkvs⟩ : ∃ kvs, meter.value = .obj kvs := by
      cases hmeter : meter.value with
      | obj kvs => exact ⟨kvs, rfl⟩
      | _ =>
        rw [hmeter] at hv
        cases hv
    obtain ⟨input, hinput⟩ := get_isOk hkvs "input_tokens"
    obtain ⟨output, houtput⟩ := get_isOk hkvs "output_tokens"
    refine ⟨_, bind_eq_ok.2 ⟨v, hv, bind_eq_ok.2 ⟨usd, husd, bind_eq_ok.2 ⟨w, hw, bind_eq_ok.2
      ⟨turns, hturns, bind_eq_ok.2 ⟨input, hinput, bind_eq_ok.2 ⟨output, houtput, rfl⟩⟩⟩⟩⟩⟩⟩

theorem charging_path {e : PyStr} {meter : Decoded} {r : Except Raised Unit}
    (h : PathE Behaves (charging b e role m meter) tr r) : Within [.charges] tr ∧
      (meter.value.truthy = false ∧ tr = [] ∧ r = .ok () ∨
        meter.value.truthy = true ∧ ¬ Chargeable b meter ∧ tr = [] ∧ (∃ x, r = .error x) ∨
        meter.value.truthy = true ∧ Chargeable b meter ∧ Charged tr ∧
          (r = .ok () ∧ ¬ Escaped [.charges] tr ∨ (∃ x, r = .error x) ∧ Escaped [.charges] tr)) := by
  unfold charging at h
  split at h
  · rename_i ht
    rcases pathE_bind.1 h with ⟨x, rfl, hparams⟩ | ⟨front, back, p, rfl, hparams, hcall⟩
    · obtain ⟨rfl, herr⟩ := pathE_compute.1 hparams
      obtain ⟨y, hy⟩ := raising_error herr.symm
      refine ⟨within_nil, .inr (.inl ⟨ht, ?_, rfl, _, rfl⟩)⟩
      intro hchargeable
      obtain ⟨p, hp⟩ := costParams_isOk.2 hchargeable
      cases hp.symm.trans hy
    · obtain ⟨rfl, hok⟩ := pathE_compute.1 hparams
      have hchargeable := costParams_isOk.1 ⟨p, raising_ok hok.symm⟩
      obtain ⟨y, hy, rfl⟩ := pathE_guarded.1 hcall
      obtain ⟨x, hx, rfl⟩ := path_map.1 hy
      obtain ⟨s, s', rfl, -⟩ := path_ask hx
      have hesc : Escaped [.charges] [⟨s, .store .append_cost p, x, s'⟩] ↔
          ∃ e, x = .error (.other e) := by
        unfold Escaped
        rw [has_cons, or_iff_left has_nil.1]
        exact and_iff_right (by simp [kind])
      rw [List.nil_append, hesc]
      refine ⟨by simp [Within, kind], .inr (.inr ⟨ht, hchargeable, ⟨_, List.mem_cons_self, p, rfl⟩, ?_⟩)⟩
      match x with
      | .error (.other e) => exact .inr ⟨⟨_, rfl⟩, e, rfl⟩
      | .error (.rpc code text data) | .ok v => exact .inl ⟨rfl, nofun⟩
  · rename_i ht
    obtain ⟨rfl, rfl⟩ := pathE_pure.1 h
    exact ⟨within_nil, .inl ⟨by simpa using ht, rfl, rfl⟩⟩

theorem removing_path {home : Bool} {r : Except Raised Unit}
    (h : PathE Behaves (removing session home) tr r) :
    home = false ∧ tr = [] ∨ home = true ∧ ∃ ev, tr = [ev] ∧ ev.op = .remove_home session := by
  unfold removing at h
  split at h
  · rename_i hh
    obtain ⟨x, hx, -⟩ := pathE_call.1 h
    obtain ⟨s, s', rfl, -⟩ := path_ask hx
    exact .inr ⟨hh, _, rfl, rfl⟩
  · rename_i hh
    obtain ⟨rfl, -⟩ := pathE_pure.1 h
    exact .inl ⟨by simpa using hh, rfl⟩

/-- What is done with the home once the record and the cost are through. -/
def Removal (session : PyStr) (home : Bool) (tr : List Happened) : Prop :=
  home = false ∧ tr = [] ∨ home = true ∧ ∃ ev, tr = [ev] ∧ ev.op = .remove_home session

/-- What follows the record, for a meter: nothing where the record escaped, and no removal where the
cost could not be computed or escaped. -/
def Ending (b : Builtins) (session : PyStr) (left : Left) (meter : Decoded)
    (finish charge removal : List Happened) : Prop :=
  Escaped [.finishes] finish ∧ charge = [] ∧ removal = [] ∨
    ¬ Escaped [.finishes] finish ∧
      (meter.value.truthy = false ∧ charge = [] ∧ Removal session left.home removal ∨
        meter.value.truthy = true ∧ ¬ Chargeable b meter ∧ charge = [] ∧ removal = [] ∨
        meter.value.truthy = true ∧ Chargeable b meter ∧ Charged charge ∧
          (Escaped [.charges] charge ∧ removal = [] ∨
            ¬ Escaped [.charges] charge ∧ Removal session left.home removal))

/-- The `finally` block from the record on. -/
theorem ending_path {e : PyStr} {left : Left} {meter : Decoded} {r : Except Raised Decoded}
    (h : PathE Behaves (do
      _audit (py "token_revoked") e [(py "session_id", .str m.session)]
      charging b e role m meter
      removing m.session left.home
      pure meter) tr r) : ∃ finish charge removal, tr = finish ++ (charge ++ removal) ∧
        Within [.finishes] finish ∧ Within [.charges] charge ∧ Within [.removes] removal ∧
        Attempted (.submit (py "token_revoked") e [(py "session_id", .str m.session)]) finish ∧
        Ending b m.session left meter finish charge removal := by
  rcases pathE_bind.1 h with ⟨x, rfl, paudit⟩ | ⟨finish, back, u, rfl, paudit, h₁⟩
  · obtain ⟨s, s', y, rfl, herr⟩ := audit_path paudit
    obtain ⟨z, rfl⟩ := guarded_error herr.symm
    refine ⟨[_], [], [], rfl, by simp [Within], within_nil, within_nil,
      ⟨_, List.mem_cons_self, rfl⟩, .inl ⟨⟨_, List.mem_cons_self, by simp, z, rfl⟩, rfl, rfl⟩⟩
  obtain ⟨s, s', y, rfl, hok⟩ := audit_path paudit
  have hfinish : ¬ Escaped [.finishes] [⟨s, .submit (py "token_revoked") e
      [(py "session_id", .str m.session)], y, s'⟩] := by
    rintro ⟨ev, hev, -, hesc⟩
    cases List.mem_singleton.1 hev
    exact guarded_ok hok.symm hesc
  rcases pathE_bind.1 h₁ with ⟨x, rfl, pcharge⟩ | ⟨charge, back, u, rfl, pcharge, h₂⟩
  · obtain ⟨hcharge, hcases⟩ := charging_path pcharge
    refine ⟨[_], back, [], by simp, by simp [Within], hcharge, within_nil,
      ⟨_, List.mem_cons_self, rfl⟩, .inr ⟨hfinish, .inr ?_⟩⟩
    rcases hcases with ⟨-, -, hr⟩ | ⟨ht, hno, rfl, -⟩ | ⟨ht, hyes, hsent, ⟨hr, -⟩ | ⟨-, hesc⟩⟩
    · cases hr
    · exact .inl ⟨ht, hno, rfl, rfl⟩
    · cases hr
    · exact .inr ⟨ht, hyes, hsent, .inl ⟨hesc, rfl⟩⟩
  · obtain ⟨hcharge, hcases⟩ := charging_path pcharge
    have hremoval : Within [.removes] back ∧ Removal m.session left.home back := by
      have hpath : ∃ r, PathE Behaves (removing m.session left.home) back r := by
        rcases pathE_bind.1 h₂ with ⟨x, rfl, premove⟩ | ⟨front, back, u, rfl, premove, h₃⟩
        · exact ⟨_, premove⟩
        · obtain ⟨rfl, -⟩ := pathE_pure.1 h₃
          rw [List.append_nil]
          exact ⟨_, premove⟩
      obtain ⟨r, hr⟩ := hpath
      have hremoval := removing_path hr
      refine ⟨?_, hremoval⟩
      rcases hremoval with ⟨-, rfl⟩ | ⟨-, ev, rfl, hev⟩
      · exact within_nil
      · simp [Within, hev, kind]
    refine ⟨[_], charge, back, rfl, by simp [Within], hcharge, hremoval.1,
      ⟨_, List.mem_cons_self, rfl⟩, .inr ⟨hfinish, ?_⟩⟩
    rcases hcases with ⟨ht, rfl, -⟩ | ⟨-, -, -, x, hx⟩ | ⟨ht, hyes, hsent, ⟨-, hesc⟩ | ⟨⟨x, hx⟩, -⟩⟩
    · exact .inl ⟨ht, rfl, hremoval.2⟩
    · cases hx
    · exact .inr (.inr ⟨ht, hyes, hsent, .inr ⟨hesc, hremoval.2⟩⟩)
    · cases hx

/-- **What the `finally` block has done**: it ended at a broker or at the model session, or it went on
to the record, the cost and the home. -/
theorem cleanUp_path {admins : List PyStr} {e : PyStr} {left : Left} {r : Except Raised Decoded}
    (h : PathE Behaves (cleanUp b admins e role m left) tr r) :
    (∃ x, r = .error x) ∧ Within [.revokes, .closes] tr ∧ (left.ms = none ∨ Escaped early tr) ∨
      ∃ revoke close finish charge removal meter,
        tr = revoke ++ (close ++ (finish ++ (charge ++ removal))) ∧
        Within [.revokes] revoke ∧ Within [.closes] close ∧ Within [.finishes] finish ∧
        Within [.charges] charge ∧ Within [.removes] removal ∧
        (∀ name ∈ admins, Attempted (.revoke_session name m.session) revoke) ∧ left.ms ≠ none ∧
        ¬ Escaped early revoke ∧ ¬ Escaped early close ∧
        (Attempted (.close_session m.session) close ↔
          ∃ v, left.ms = some (some v) ∧ v.truthy = true) ∧
        (∀ x, Metered x close ↔ x = meter ∧ meter.value.truthy = true) ∧
        Attempted (.submit (py "token_revoked") e [(py "session_id", .str m.session)]) finish ∧
        Ending b m.session left meter finish charge removal := by
  rcases pathE_bind.1 h with ⟨x, rfl, prevoke⟩ | ⟨revoke, back, u, rfl, prevoke, h₁⟩
  · obtain ⟨hwithin, ⟨hr, -⟩ | ⟨-, hesc⟩⟩ := revokes_path prevoke
    · cases hr
    · exact .inl ⟨⟨x, rfl⟩, hwithin.mono (by simp), .inr hesc⟩
  obtain ⟨hrevoke, ⟨-, hall, hno⟩ | ⟨⟨x, hx⟩, -⟩⟩ := revokes_path prevoke
  swap
  · cases hx
  rcases pathE_bind.1 h₁ with ⟨x, rfl, pclose⟩ | ⟨close, back, meter, rfl, pclose, h₂⟩
  · obtain ⟨hwithin, ⟨-, hesc⟩ | ⟨meter, hr, -⟩⟩ := closing_path pclose
    · refine .inl ⟨⟨x, rfl⟩, (hrevoke.mono (by simp)).append (hwithin.mono (by simp)), ?_⟩
      exact hesc.imp_right fun hesc => has_append.2 (.inr hesc)
    · cases hr
  obtain ⟨hclose, ⟨⟨x, hx⟩, -⟩ | ⟨meter', hr, hms, hnoc, hattempted, hmetered⟩⟩ := closing_path pclose
  · cases hx
  cases hr
  obtain ⟨finish, charge, removal, rfl, hfinish, hcharge, hremoval, hsent, hend⟩ := ending_path h₂
  exact .inr ⟨revoke, close, finish, charge, removal, meter, rfl, hrevoke, hclose, hfinish, hcharge,
    hremoval, hall, hms, hno, hnoc, hattempted, hmetered, hsent, hend⟩

/-! ### After the clean-up -/

theorem apart_conclude {rec : Record} {left : Left} {meter : Decoded} :
    Apart (conclude b rec role bundle kd m left meter) := by
  have hcall : ∀ {α : Type} {o : Op} (f : Res o → Except Exc α), kind o ∈ [Kind.aside] →
      Apart (call ((ask o).bind fun r => .ret (f r))) := fun f h =>
    issues_call (issues_bind (issues_calls h) fun _ => trivial)
  refine issuesE_bind issues_compute fun hit => ?_
  refine issuesE_bind ?_ fun out => ?_
  · unfold stepOutcome
    split
    · trivial
    · split
      · exact issuesE_bind issues_compute fun limit => trivial
      · refine issuesE_bind (issues_record List.mem_cons_self) fun rec => ?_
        refine issuesE_bind ?_ fun v => ?_
        · unfold validation
          cases role with
          | reporter => exact issuesE_bind (issues_call (issues_calls List.mem_cons_self)) fun _ => trivial
          | _ => trivial
        · split
          · trivial
          · exact issuesE_bind issues_compute fun c => trivial
    · trivial
  · exact issuesE_bind (hcall _ List.mem_cons_self) fun _ => trivial

/-! ### The home -/

theorem behaves_keeps {s s' : Bool} {o : Op} {x : Res o} (h : Behaves s o x s')
    (hbuild : kind o ≠ .builds) (hremove : kind o ≠ .removes) : s' = s := by
  cases o with
  | build_home spec prompt => exact absurd rfl hbuild
  | remove_home i => exact absurd rfl hremove
  | _ => exact h

/-- Before anything is removed, a home is on disk exactly if one was created. -/
theorem home_after {tr : List Happened} (hb : ∀ ev ∈ tr, Behaves ev.before ev.op ev.result ev.after)
    (hk : ∀ ev ∈ tr, kind ev.op ≠ .removes) : ∀ {s s' : Bool}, Chained s tr s' →
    (s' = true ↔ s = true ∨ Created tr) := by
  induction tr with
  | nil =>
    rintro s s' rfl
    simp [Created]
  | cons ev tr ih =>
    rintro s s' ⟨rfl, h⟩
    obtain ⟨hev, htr⟩ := List.forall_mem_cons.1 hb
    obtain ⟨hkev, hktr⟩ := List.forall_mem_cons.1 hk
    rw [ih htr hktr h]
    unfold Created
    rw [has_cons, ← or_assoc]
    refine or_congr_left ?_
    by_cases hbuild : kind ev.op = .builds
    · obtain ⟨s, o, x, s'⟩ := ev
      cases o with
      | build_home spec prompt =>
        exact ⟨fun hafter => .inr ⟨⟨spec, prompt, rfl⟩, hafter⟩, fun hcase =>
          hcase.elim hev.1 fun hcreated => hcreated.2⟩
      | submit event e data =>
        rw [kind] at hbuild
        split at hbuild
        · cases hbuild
        · split at hbuild <;> cases hbuild
      | store method p =>
        rw [kind] at hbuild
        split at hbuild <;> cases hbuild
      | _ => cases hbuild
    · rw [behaves_keeps hev hbuild hkev]
      refine (or_iff_left ?_).symm
      rintro ⟨⟨spec, prompt, ho⟩, -⟩
      exact hbuild (by rw [ho]; rfl)

/-- An operation looked at by a property of the trace is of that kind. -/
theorem kind_of_opened {o : Op} {x : Res o} {v : Json} (h : opened o x = some v) : kind o = .opens := by
  cases o with
  | open_session i e r d => rfl
  | _ => cases h

theorem kind_of_metered {o : Op} {x : Res o} {v : Decoded} (h : metered o x = some v) :
    kind o = .closes := by
  cases o with
  | close_session i => rfl
  | _ => cases h

/-- The parts of a step that has reached the record. -/
structure Parts where
  front : List Happened
  first : List Happened
  back : List Happened
  revoke : List Happened
  close : List Happened
  finish : List Happened
  charge : List Happened
  removal : List Happened
  rest : List Happened

/-- The whole trace. -/
def Parts.events (t : Parts) : List Happened :=
  t.front ++ (t.first ++ (t.back ++ ((t.revoke ++ (t.close ++ (t.finish ++ (t.charge ++ t.removal)))) ++
    t.rest)))

/-- What is known of the parts. -/
structure Reached (b : Builtins) (admins : List PyStr) (e session : PyStr) (left : Left)
    (meter : Decoded) (t : Parts) : Prop where
  front : Within [.starts, .aside] t.front
  first : Within [.opens] t.first
  back : Within [.builds, .aside] t.back
  revoke : Within [.revokes] t.revoke
  close : Within [.closes] t.close
  finish : Within [.finishes] t.finish
  charge : Within [.charges] t.charge
  removal : Within [.removes] t.removal
  rest : Within [.aside] t.rest
  begun : ¬ Escaped early t.front
  assigned : left.ms ≠ none
  escaped : left.ms = none ↔ Escaped early t.first
  opened : ∀ ms, Opened ms t.first ↔ left.ms = some (some ms)
  built : Built t.back ↔ left.home = true
  all : ∀ name ∈ admins, Attempted (.revoke_session name session) t.revoke
  revoked : ¬ Escaped early t.revoke
  closed : ¬ Escaped early t.close
  attempted : Attempted (.close_session session) t.close ↔
    ∃ v, left.ms = some (some v) ∧ v.truthy = true
  metered : ∀ x, Metered x t.close ↔ x = meter ∧ meter.value.truthy = true
  sent : Attempted (.submit (py "token_revoked") e [(py "session_id", .str session)]) t.finish
  ending : Ending b session left meter t.finish t.charge t.removal

section Reached

variable {admins : List PyStr} {e : PyStr} {left : Left} {meter : Decoded} {t : Parts}

/-- A property of some kinds of operations is one of the parts that have them. -/
theorem Reached.has (h : Reached b admins e session left meter t) {P : Happened → Prop}
    (ks : List Kind) (hP : ∀ ev, P ev → kind ev.op ∈ ks) : Has P t.events ↔
      Has P (([([.starts, .aside], t.front), ([.opens], t.first), ([.builds, .aside], t.back),
        ([.revokes], t.revoke), ([.closes], t.close), ([.finishes], t.finish), ([.charges], t.charge),
        ([.removes], t.removal), ([.aside], t.rest)].filter fun part : List Kind × List Happened =>
          part.1.any fun k => k ∈ ks).flatMap Prod.snd) := by
  refine Iff.trans ?_ (has_parts hP ?_)
  · simp [Parts.events]
  · simp only [List.forall_mem_cons]
    exact ⟨h.front, h.first, h.back, h.revoke, h.close, h.finish, h.charge, h.removal, h.rest,
      fun part hpart => absurd hpart List.not_mem_nil⟩

theorem kind_of_op {o : Op} {ks : List Kind} (hk : kind o ∈ ks) (ev : Happened) (hev : ev.op = o) :
    kind ev.op ∈ ks := hev ▸ hk

theorem Reached.attempted_iff (h : Reached b admins e session left meter t) (name : PyStr) :
    (Attempted (.revoke_session name session) t.events ↔
      Attempted (.revoke_session name session) t.revoke) ∧
    (Attempted (.close_session session) t.events ↔ Attempted (.close_session session) t.close) ∧
    (Attempted (.submit (py "token_revoked") e [(py "session_id", .str session)]) t.events ↔
      Attempted (.submit (py "token_revoked") e [(py "session_id", .str session)]) t.finish) :=
  ⟨(h.has [.revokes] (kind_of_op (by simp [kind]))).trans (by simp [Attempted]),
    (h.has [.closes] (kind_of_op (by simp [kind]))).trans (by simp [Attempted]),
    (h.has [.finishes] (kind_of_op (by simp))).trans (by simp [Attempted])⟩

theorem Reached.opened_iff (h : Reached b admins e session left meter t) {ms : Json} :
    Opened ms t.events ↔ left.ms = some (some ms) :=
  ((h.has [.opens] fun ev hev => by simp [kind_of_opened hev]).trans (by simp [Opened])).trans
    (h.opened ms)

theorem Reached.metered_iff (h : Reached b admins e session left meter t) {x : Decoded} :
    Metered x t.events ↔ x = meter ∧ meter.value.truthy = true :=
  ((h.has [.closes] fun ev hev => by simp [kind_of_metered hev.1]).trans (by simp [Metered])).trans
    (h.metered x)

theorem Reached.charged_iff (h : Reached b admins e session left meter t) :
    Charged t.events ↔ Charged t.charge :=
  (h.has [.charges] fun ev ⟨p, hev⟩ => by simp [hev, kind]).trans (by simp [Charged])

theorem Reached.built_iff (h : Reached b admins e session left meter t) :
    Built t.events ↔ left.home = true :=
  ((h.has [.builds] fun ev hev => by simp [kind_of_built hev]).trans (by simp [Built])).trans h.built

theorem Reached.created_iff (h : Reached b admins e session left meter t) :
    Created t.events ↔ Created t.back :=
  (h.has [.builds] fun ev ⟨⟨spec, prompt, hev⟩, _⟩ => by simp [hev, kind]).trans (by simp [Created])

theorem Reached.remains_iff (h : Reached b admins e session left meter t) :
    Remains t.events ↔ Remains t.removal :=
  (h.has [.removes] fun ev ⟨⟨i, hev⟩, _⟩ => by simp [hev, kind]).trans (by simp [Remains])

theorem Reached.escaped_iff (h : Reached b admins e session left meter t) :
    (Escaped [.finishes] t.events ↔ Escaped [.finishes] t.finish) ∧
    (Escaped [.charges] t.events ↔ Escaped [.charges] t.charge) ∧ ¬ Escaped early t.events := by
  refine ⟨(h.has [.finishes] fun ev hev => hev.1).trans (by simp [Escaped]),
    (h.has [.charges] fun ev hev => hev.1).trans (by simp [Escaped]), ?_⟩
  have hfirst : ¬ Escaped early t.first := fun hesc => h.assigned (h.escaped.2 hesc)
  intro hesc
  have hesc : Escaped early (t.front ++ (t.first ++ (t.revoke ++ (t.close ++ [])))) :=
    (h.has early fun ev hev => hev.1).1 hesc
  rcases has_append.1 hesc with hesc | hesc
  · exact h.begun hesc
  rcases has_append.1 hesc with hesc | hesc
  · exact hfirst hesc
  rcases has_append.1 hesc with hesc | hesc
  · exact h.revoked hesc
  · exact h.closed (List.append_nil t.close ▸ hesc)

/-- The part before a removal. -/
def Parts.before (t : Parts) : List Happened :=
  t.front ++ (t.first ++ (t.back ++ (t.revoke ++ (t.close ++ (t.finish ++ t.charge)))))

theorem Parts.events_eq (t : Parts) : t.events = t.before ++ (t.removal ++ t.rest) := by
  simp [Parts.events, Parts.before]

theorem Reached.before_keeps (h : Reached b admins e session left meter t) :
    ∀ ev ∈ t.before, kind ev.op ≠ .removes := by
  have hks : ∀ (ks : List Kind) (tr : List Happened), Within ks tr → Kind.removes ∉ ks →
      ∀ ev ∈ tr, kind ev.op ≠ .removes := fun ks tr hw hno ev hev heq => hno (heq ▸ hw ev hev)
  simp only [Parts.before, List.forall_mem_append]
  exact ⟨hks _ _ h.front (by decide), hks _ _ h.first (by decide), hks _ _ h.back (by decide),
    hks _ _ h.revoke (by decide), hks _ _ h.close (by decide), hks _ _ h.finish (by decide),
    hks _ _ h.charge (by decide)⟩

/-- The state in the end: a home is left if one was created, unless a removal has cleared it. -/
theorem Reached.home (h : Reached b admins e session left meter t) {home : Bool}
    (hb : ∀ ev ∈ t.events, Behaves ev.before ev.op ev.result ev.after)
    (hchain : Chained false t.events home) :
    (t.removal = [] → (home = true ↔ Created t.events)) ∧
      ((∃ ev, t.removal = [ev] ∧ ev.op = .remove_home session) →
        (home = true ↔ Created t.events ∧ Remains t.removal)) := by
  have hrest : ∀ ev ∈ t.rest, kind ev.op = .aside := fun ev hev => List.mem_singleton.1 (h.rest ev hev)
  constructor
  · intro hnil
    have hkeeps : ∀ ev ∈ t.events, kind ev.op ≠ .removes := by
      rw [t.events_eq, hnil]
      refine List.forall_mem_append.2 ⟨h.before_keeps, fun ev hev => ?_⟩
      rw [hrest ev hev]
      decide
    rw [home_after hb hkeeps hchain]
    simp
  · rintro ⟨ev, hev, hop⟩
    have hcreated : Created t.events ↔ Created t.before := by
      rw [t.events_eq, Created, has_append]
      refine or_iff_left ?_
      rintro ⟨x, hx, ⟨spec, prompt, ho⟩, -⟩
      have hkind : kind x.op = .removes ∨ kind x.op = .aside :=
        (List.mem_append.1 hx).imp (fun hx => List.mem_singleton.1 (h.removal x hx)) (hrest x)
      rw [ho] at hkind
      rcases hkind with hkind | hkind <;> cases hkind
    rw [t.events_eq] at hchain hb
    obtain ⟨hbefore, hafter⟩ := List.forall_mem_append.1 hb
    obtain ⟨m, hfirst, hlast⟩ := chained_append.1 hchain
    have hm := home_after hbefore h.before_keeps hfirst
    rw [hev] at hlast hafter ⊢
    obtain ⟨rfl, hlast⟩ := hlast
    obtain ⟨hbev, hbrest⟩ := List.forall_mem_cons.1 hafter
    -- nothing after the removal touches the home
    have hhome : home = ev.after := by
      refine Chained.kept (fun x hx => ?_) hlast
      exact behaves_keeps (hbrest x hx) (by rw [hrest x hx]; decide) (by rw [hrest x hx]; decide)
    have hclears : ev.before = false → ev.after = false := by
      obtain ⟨s, o, x, s'⟩ := ev
      cases hop
      exact hbev
    have hremains : Remains [ev] ↔ ev.after = true := by
      rw [Remains, has_cons, or_iff_left has_nil.1]
      exact and_iff_right ⟨session, hop⟩
    rw [hhome, hcreated, hremains]
    constructor
    · intro hafter
      refine ⟨(hm.1 ?_).resolve_left nofun, hafter⟩
      by_contra hno
      rw [hclears (by simpa using hno)] at hafter
      cases hafter
    · exact fun hx => hx.2

/-- **A step that has reached the record**: its clean-up is complete exactly if nothing got in the way
from there on. -/
theorem Reached.complete_iff (h : Reached b admins e session left meter t) {home : Bool}
    (hb : ∀ ev ∈ t.events, Behaves ev.before ev.op ev.result ev.after)
    (hchain : Chained false t.events home) (hconf : ∃ c, configuration_for bundle role = .ok c)
    (httl : ∃ ttl, floatThreshold b bundle "P-10" = .ok ttl) :
    CleanedUp admins e session t.events home ↔ Orderly b bundle role t.events := by
  obtain ⟨-, hclose, hsent⟩ := h.attempted_iff []
  obtain ⟨hfinish, hcharge, hearly⟩ := h.escaped_iff
  have hhome := h.home hb hchain
  have hsession : (∀ ms, Opened ms t.events → Attempted (.close_session session) t.events) ↔
      ∀ ms, Opened ms t.events → ms.truthy = true := by
    refine forall₂_congr fun ms hms => ?_
    have hms := h.opened_iff.1 hms
    rw [hclose, h.attempted, hms]
    constructor
    · rintro ⟨v, hv, ht⟩
      cases hv
      exact ht
    · exact fun ht => ⟨ms, rfl, ht⟩
  -- the cost and the home: the cost comes first, and the home is left when it does not get through
  have hrest : ((∀ m, Metered m t.events → Charged t.events) ∧ home = false) ↔
      (∀ m, Metered m t.events → ¬ Escaped [.finishes] t.events ∧ Chargeable b m) ∧
        (Created t.events → Built t.events ∧ ¬ Escaped [.finishes] t.events ∧
          ¬ Escaped [.charges] t.events ∧ ¬ Remains t.events) := by
    rw [hfinish, hcharge, h.charged_iff, h.built_iff, h.remains_iff]
    have hcost : ∀ {p : Decoded → Prop}, (∀ m, Metered m t.events → p m) ↔
        (meter.value.truthy = true → p meter) := by
      intro p
      refine ⟨fun hall ht => hall meter (h.metered_iff.2 ⟨rfl, ht⟩), fun hp m hm => ?_⟩
      obtain ⟨rfl, ht⟩ := h.metered_iff.1 hm
      exact hp ht
    rw [hcost, hcost, ← Bool.not_eq_true]
    have hnil : ¬ Charged [] ∧ ¬ Escaped [.charges] [] ∧ ¬ Remains [] := ⟨has_nil.1, has_nil.1, has_nil.1⟩
    have hremoval : Removal session left.home t.removal →
        (¬ home = true ↔ (Created t.events → left.home = true ∧ ¬ Remains t.removal)) := by
      rintro (⟨hno, hnone⟩ | ⟨hyes, hsome⟩)
      · rw [hhome.1 hnone, hno]
        simp
      · rw [hhome.2 hsome, hyes]
        simp
    rcases h.ending with ⟨hesc, hc, hr⟩ | ⟨hesc, ⟨ht, hc, hr⟩ | ⟨ht, hno, hc, hr⟩ |
      ⟨ht, hyes, hsentCost, ⟨hchg, hr⟩ | ⟨hchg, hr⟩⟩⟩
    · rw [hhome.1 hr, hc]
      simp [hesc, hnil.1]
    · rw [hremoval hr, hc]
      simp [ht, hesc, hnil.2.1]
    · rw [hc]
      simp [ht, hno, hnil.1]
    · rw [hhome.1 hr]
      simp [ht, hyes, hsentCost, hchg, hesc]
    · rw [hremoval hr]
      simp [ht, hyes, hsentCost, hchg, hesc]
  constructor
  · intro hc
    obtain ⟨hm, hh⟩ := hrest.1 ⟨hc.charged, hc.removed⟩
    exact ⟨hconf, httl, hearly, hsession.1 hc.closed, hm, hh⟩
  · intro ho
    obtain ⟨hm, hh⟩ := hrest.2 ⟨ho.meter, ho.home⟩
    exact ⟨fun name hname => (h.attempted_iff name).1.2 (h.all name hname), hsession.2 ho.session,
      hsent.2 h.sent, hm, hh⟩

end Reached

/-- A step that ends before the record has no complete clean-up. -/
theorem not_cleaned {admins : List PyStr} {e : PyStr} {home : Bool}
    (h : Within [.starts, .opens, .builds, .revokes, .closes, .aside] tr) :
    ¬ CleanedUp admins e session tr home := by
  intro hc
  obtain ⟨ev, hev, hop⟩ := hc.audited
  have := h ev hev
  rw [hop, kind_revoked] at this
  simp at this

theorem Within.left {ks : List Kind} {front back : List Happened} (h : Within ks (front ++ back)) :
    Within ks front := fun ev hev => h ev (List.mem_append_left _ hev)

/-- **When the clean-up is complete.** On every execution of `run_step`, for the session it has drawn,
it is complete exactly if the execution is orderly. -/
theorem clean_up_complete_iff {admins : List PyStr} {r : Except Raised StepOutcome} {home : Bool}
    (h : PathE Behaves (run_step b admins rec role bundle kd) tr r) (hchain : Chained false tr home) :
    ∃ s session s' rest, tr = ⟨s, .uuid4, session, s'⟩ :: rest ∧
      (CleanedUp admins rec.episode_id session tr home ↔ Orderly b bundle role tr) := by
  have hb := h.execs
  rcases pathE_bind.1 h with ⟨x, rfl, pdraw⟩ | ⟨draw, back, session, rfl, pdraw, h₁⟩
  · obtain ⟨a, -, hr⟩ := pathE_reading.1 pdraw
    cases hr
  obtain ⟨a, ha, hr⟩ := pathE_reading.1 pdraw
  cases hr
  obtain ⟨s, s', rfl, -⟩ := path_ask ha
  have hdraw : Within [.starts, .aside] [(⟨s, .uuid4, session, s'⟩ : Happened)] := by
    simp [Within, kind]
  refine ⟨s, session, s', back, rfl, ?_⟩
  rcases pathE_bind.1 h₁ with ⟨x, rfl, pbegin⟩ | ⟨start, back, m, rfl, pbegin, h₂⟩
  · obtain ⟨hstart, ⟨m, hr, -⟩ | ⟨-, hbad⟩⟩ := begin_step_path pbegin
    · cases hr
    refine iff_of_false (not_cleaned ((hdraw.mono (by simp)).append (hstart.mono (by simp)))) ?_
    intro ho
    rcases hbad with hbad | hbad | hbad
    · exact hbad ho.configured
    · exact hbad ho.limited
    · exact ho.early (has_append.2 (.inr hbad))
  obtain ⟨hstart, ⟨m', hr, hsession, hconf, httl, hnostart⟩ | ⟨⟨x, hr⟩, -⟩⟩ := begin_step_path pbegin
  swap
  · cases hr
  cases hr
  subst hsession
  rcases pathE_bind.1 h₂ with ⟨x, rfl, ptry⟩ | ⟨body, back, left, rfl, ptry, h₃⟩
  · obtain ⟨a, -, hr⟩ := pathE_reading.1 ptry
    cases hr
  obtain ⟨a, htry, hr⟩ := pathE_reading.1 ptry
  cases hr
  obtain ⟨first, work, rfl, hfirst, hwork, hesc, hopened, hbuilt⟩ := tryBlock_path htry
  have hnofront : ¬ Escaped early ([⟨s, .uuid4, m.session, s'⟩] ++ start) := by
    rintro ⟨ev, hev, hk, hx⟩
    rcases List.mem_append.1 hev with hev | hev
    · cases List.mem_singleton.1 hev
      exact hx
    · exact hnostart ⟨ev, hev, hk, hx⟩
  -- the clean-up, and what is left of the step behind it
  obtain ⟨clean, rest, y, rfl, pclean, hrest⟩ : ∃ clean rest y, back = clean ++ rest ∧
      PathE Behaves (cleanUp b admins rec.episode_id role m left) clean y ∧ Within [.aside] rest ∧
        ((∃ x, y = .error x) → rest = []) := by
    rcases pathE_bind.1 h₃ with ⟨x, rfl, pclean⟩ | ⟨clean, rest, meter, rfl, pclean, h₄⟩
    · exact ⟨back, [], _, (List.append_nil back).symm, pclean, within_nil, fun _ => rfl⟩
    · refine ⟨clean, rest, _, rfl, pclean, ?_, fun ⟨x, hx⟩ => nomatch hx⟩
      have hapart : Apart (do
          reraise left.raised
          conclude b rec role bundle kd m left meter) := issuesE_bind trivial fun _ => apart_conclude
      exact within_of_issues h₄ hapart
  rcases cleanUp_path pclean with ⟨hx, hclean, hbad⟩ |
    ⟨revoke, close, finish, charge, removal, meter, rfl, hrevoke, hclose, hfinish, hcharge, hremoval,
      hall, hms, hnor, hnoc, hattempted, hmetered, hsent, hend⟩
  · rw [hrest.2 hx, List.append_nil]
    refine iff_of_false (not_cleaned ?_) fun ho => ho.early ?_
    · exact (hdraw.mono (by simp)).append ((hstart.mono (by simp)).append
        (((hfirst.mono (by simp)).append (hwork.mono (by simp))).append (hclean.mono (by simp))))
    · refine has_append.2 (.inr (has_append.2 (.inr ?_)))
      rcases hbad with hbad | hbad
      · obtain ⟨ev, hev, hx⟩ := hesc.1 hbad
        exact ⟨ev, List.mem_append_left _ (List.mem_singleton.1 hev ▸ List.mem_cons_self), hx⟩
      · exact has_append.2 (.inr hbad)
  · let t : Parts := ⟨[⟨s, .uuid4, m.session, s'⟩] ++ start, [first], work, revoke, close, finish,
      charge, removal, rest⟩
    have ht : [⟨s, .uuid4, m.session, s'⟩] ++ (start ++ (first :: work ++
        (revoke ++ (close ++ (finish ++ (charge ++ removal))) ++ rest))) = t.events := by
      simp [t, Parts.events]
    have hreached : Reached b admins rec.episode_id m.session left meter t :=
      { front := hdraw.append (hstart.mono (by simp))
        first := hfirst
        back := hwork
        revoke := hrevoke
        close := hclose
        finish := hfinish
        charge := hcharge
        removal := hremoval
        rest := hrest.1
        begun := hnofront
        assigned := hms
        escaped := hesc
        opened := hopened
        built := hbuilt
        all := hall
        revoked := hnor
        closed := hnoc
        attempted := hattempted
        metered := hmetered
        sent := hsent
        ending := hend }
    rw [ht] at hb hchain ⊢
    exact hreached.complete_iff hb hchain hconf httl

end Parts

/-! ## A step that runs into its time limit -/

/-- The three brokers. -/
def brokers : List PyStr := [py "episode_broker", py "observer_broker", py "report_broker"]

/-- A bundle with one configuration. -/
def stepBundle : Bundle where
  id := py "b"
  thresholds := .ok (.obj [(py "P-05", .obj [(py "diagnostician", .int 1)]),
    (py "P-06", .obj [(py "diagnostician", .int 1)]), (py "P-10", .int 60), (py "P-11", .int 60)])
  deployment := .ok (.obj [])
  providers := .ok (.obj [(py "configurations", .obj [(py "c", .obj [(py "adapter", .str (py "native"))])]),
    (py "roles", .obj [(py "diagnostician", .str (py "c"))])])

/-- A session of the model broker. -/
def stepSession : Json := .obj [(py "socket_path", .str (py "s"))]

/-- A meter without requests. -/
def stepMeter : Decoded where
  value := .obj [(py "requests", .int 0)]
  wf := .obj (List.pairwise_singleton _ _) (by simp)

/-- Everything is answered, and the worker runs into P-11; the brokers time out if they are slow. -/
def stepAnswer (slow : Bool) : Bool → (o : Op) → Res o × Bool
  | s, .store _ _ => (.ok (.view (.record (empty_record (py "e")))), s)
  | s, .system_alert _ => (.ok (), s)
  | s, .alerts_for _ _ => (.ok [], s)
  | s, .submit _ _ _ => (.ok (), s)
  | s, .audit_status => (.ok .null, s)
  | s, .ping _ => (.ok (), s)
  | s, .revoke_session _ _ => (if slow then .error (.other .osError) else .ok (), s)
  | s, .open_session _ _ _ _ => (.ok stepSession, s)
  | s, .close_session _ => (.ok stepMeter, s)
  | s, .active => (.ok none, s)
  | s, .verify _ => (.ok none, s)
  | s, .load _ => (.ok stepBundle, s)
  | s, .superseded_at _ => (.ok .null, s)
  | s, .flag_get => (.ok .null, s)
  | s, .flag_set _ => (.ok (), s)
  | s, .launcher_preflight => (.ok none, s)
  | s, .launch _ _ _ _ => (.ok (.result ⟨none, true, none⟩), s)
  | s, .read_prompt _ _ _ => (.ok [], s)
  | _, .build_home _ _ => (.ok (), true)
  | _, .remove_home _ => (.ok (), false)
  | s, .now => (.zero, s)
  | s, .uuid4 => (py "S", s)
  | s, .mint _ _ _ _ _ => (.ok (py "t"), s)
  | s, .verify_chain => (.ok none, s)

theorem stepAnswer_behaves (slow s : Bool) (o : Op) :
    Behaves s o (stepAnswer slow s o).1 (stepAnswer slow s o).2 := by
  cases o with
  | build_home spec prompt => exact ⟨fun _ => rfl, fun _ => rfl⟩
  | remove_home i => exact fun _ => rfl
  | _ => rfl

/-- The step. -/
def timedOutStep : Calls StepOutcome :=
  run_step sampleBuiltins brokers (empty_record (py "e")) .diagnostician stepBundle .incident

/-- What has happened in the end. -/
def stepTrace (slow : Bool) : List Happened := (drive (stepAnswer slow) timedOutStep.run false).1

/-- **A slow broker**: the first `revoke_session` runs into the read time-out, which is no `RpcError`,
and nothing after it is done. -/
theorem slow_broker_leaves_all :
    ¬ ∀ (b : Builtins) (rec : Record) (role : Role) (bundle : Bundle) (kd : ReportKind)
      (tr : List Happened) (r : Except Raised StepOutcome) (home : Bool),
      PathE Behaves (run_step b brokers rec role bundle kd) tr r → Chained false tr home →
        ∀ s session s' rest, tr = ⟨s, .uuid4, session, s'⟩ :: rest →
          CleanedUp brokers rec.episode_id session tr home := by
  intro h
  have hnone : ∀ ev ∈ stepTrace true, kind ev.op ≠ .finishes := by
    have hall : ((stepTrace true).all fun ev => decide (kind ev.op ≠ .finishes)) = true := by
      decide +kernel
    intro ev hev
    exact of_decide_eq_true (List.all_eq_true.1 hall ev hev)
  have hc := h sampleBuiltins (empty_record (py "e")) .diagnostician stepBundle .incident
    (stepTrace true) _ _ (drive_path (stepAnswer_behaves true) timedOutStep.run false)
    (drive_chained timedOutStep.run false) _ _ _ _ rfl
  obtain ⟨ev, hev, hop⟩ := hc.audited
  exact hnone ev hev (by rw [hop, kind_revoked])

theorem stepAnswer_quiet (s : Bool) (o : Op) : ¬ escapes o (stepAnswer false s o).1 := by
  cases o <;> first
    | exact id
    | rintro ⟨y, hy⟩
      cases hy

theorem stepBundle_ttl : ∃ ttl, floatThreshold sampleBuiltins stepBundle "P-10" = .ok ttl := by
  have hsome : (floatThreshold sampleBuiltins stepBundle "P-10").toOption.isSome = true := by
    decide +kernel
  cases h : floatThreshold sampleBuiltins stepBundle "P-10" with
  | ok ttl => exact ⟨ttl, rfl⟩
  | error e =>
    rw [h] at hsome
    cases hsome

/-- Where every broker answers, everything is cleaned up. -/
theorem clean_up_sample : ∃ home, Chained false (stepTrace false) home ∧
    CleanedUp brokers (py "e") (py "S") (stepTrace false) home := by
  have hanswers : ∀ ev ∈ stepTrace false, (ev.result, ev.after) = stepAnswer false ev.before ev.op :=
    drive_answers timedOutStep.run false
  have hchain : Chained false (stepTrace false) (drive (stepAnswer false) timedOutStep.run false).2.2 :=
    drive_chained timedOutStep.run false
  have hev : ∀ s o x s', (⟨s, o, x, s'⟩ : Happened) ∈ stepTrace false →
      x = (stepAnswer false s o).1 ∧ s' = (stepAnswer false s o).2 := fun s o x s' hev =>
    Prod.mk.inj (hanswers _ hev)
  have hquiet : ∀ ks, ¬ Escaped ks (stepTrace false) := by
    rintro ks ⟨⟨s, o, x, s'⟩, hmem, -, hesc⟩
    obtain ⟨rfl, -⟩ := hev s o x s' hmem
    exact stepAnswer_quiet s o hesc
  have horderly : Orderly sampleBuiltins stepBundle .diagnostician (stepTrace false) := by
    refine ⟨⟨_, rfl⟩, stepBundle_ttl, hquiet _, ?_, ?_, ?_⟩
    · rintro ms ⟨⟨s, o, x, s'⟩, hmem, hms⟩
      obtain ⟨rfl, -⟩ := hev s o x s' hmem
      cases o <;> cases hms
      rfl
    · rintro m ⟨⟨s, o, x, s'⟩, hmem, hm, -⟩
      obtain ⟨rfl, -⟩ := hev s o x s' hmem
      cases o <;> cases hm
      exact ⟨hquiet _, _, _, rfl, rfl⟩
    · rintro ⟨⟨s, o, x, s'⟩, hmem, ⟨spec, prompt, rfl⟩, hafter⟩
      obtain ⟨rfl, -⟩ := hev _ _ _ _ hmem
      refine ⟨⟨_, hmem, rfl⟩, hquiet _, hquiet _, ?_⟩
      rintro ⟨⟨t, o, y, t'⟩, hmem', ⟨i, rfl⟩, hleft⟩
      obtain ⟨-, rfl⟩ := hev _ _ _ _ hmem'
      cases hleft
  obtain ⟨s, session, s', rest, htr, hiff⟩ := clean_up_complete_iff
    (drive_path (stepAnswer_behaves false) timedOutStep.run false) hchain
  have hsession : session = py "S" := by
    have hfirst := hanswers _ (htr ▸ List.mem_cons_self)
    exact (Prod.mk.inj hfirst).1
  rw [hsession] at hiff
  exact ⟨_, hchain, hiff.2 horderly⟩

end Valops.Controller
