import Mathlib.Algebra.BigOperators.Group.List.Basic
import Valops.Conc.Local
import Valops.ModelBroker.Outcome

/-!
# A session and its threads

The connections of a session, each with the requests that it carries one after the other, and the
calls of `close_session`. Connections are accepted while the socket listens; a connection that has been
accepted keeps its thread and the session, whatever happens to the socket.

Beside the session the state records which threads have passed the limits, which have forwarded, and
what has been metered. The record follows the operations and decides nothing.
-/

set_option autoImplicit false

namespace Valops.ModelBroker

open Py Conc

/-! ## Threads -/

/-- What a thread does: it serves a connection, or runs `close_session`. -/
inductive Role where
  | connection (requests : List HttpRequest)
  | close
  deriving DecidableEq

/-- A thread. -/
structure Label where
  number : Nat
  role : Role
  deriving DecidableEq

/-- What `Session.meter` reads, before the cost is rounded. -/
structure Meter (N : Numbers) where
  requests : Int
  input_tokens : Int
  output_tokens : Int
  usd : N.Num
  refusals : List Refusal
  upstream_errors : Nat

/-- What `close_session` finds under the broker's lock. -/
inductive Popped (N : Numbers) where
  | session
  | closed (m : Meter N)
  | missing

/-- The operations on the socket and the broker's maps. -/
inductive SocketOp (N : Numbers) where
  | accept
  | pop
  | shutdown
  | unlink
  | requests
  | input_tokens
  | output_tokens
  | usd
  | refusals
  | upstream_errors
  | store (m : Meter N)

/-- What they return. -/
abbrev SocketRes {N : Numbers} : SocketOp N → Type
  | .accept => Unit
  | .pop => Popped N
  | .shutdown => Unit
  | .unlink => Except Exc Unit
  | .requests => Int
  | .input_tokens => Int
  | .output_tokens => Int
  | .usd => N.Num
  | .refusals => List Refusal
  | .upstream_errors => Nat
  | .store _ => Unit

/-- The operations of the threads of a session. -/
abbrev ServiceOp (N : Numbers) := Op ⊕ SocketOp N

/-- What they return. -/
abbrev ServiceRes (N : Numbers) : ServiceOp N → Type := SumRes Res SocketRes

/-! ## The state -/

/-- A session, its socket, and the record of its requests. -/
structure Service (N : Numbers) where
  session : Session N
  opened : Bool := true
  listening : Bool := true
  closed : Option (Meter N) := none
  /-- The socket is gone and `close_session` reads the meter. -/
  closing : Bool := false
  /-- The threads that have passed the limits and not forwarded yet, and the caps they passed with. -/
  admitted : List Label := []
  cap : Label → Int := fun _ => 0
  /-- The threads that have forwarded and not metered yet. -/
  sent : List Label := []
  /-- What has been metered, and how many requests have been forwarded. -/
  metered : List (Int × Int) := []
  forwarded : Nat := 0
  /-- How many had been forwarded when the meter was stored. -/
  final : Option Nat := none

section Exec

variable {N : Numbers}

/-- The record after an operation of a request. -/
def Service.after (x : Service N) (c : Label) (o : Op) (r : Res o) (s : Session N) : Service N :=
  match o, r with
  | .limits _ _ _, .ok (_, _, clamp) =>
    { x with session := s, admitted := c :: x.admitted, cap := Function.update x.cap c clamp }
  | .forward _ _, _ =>
    { x with
      session := s
      admitted := x.admitted.erase c
      sent := c :: x.sent
      forwarded := x.forwarded + 1 }
  | .meter usage _, _ =>
    { x with session := s, sent := x.sent.erase c, metered := usage :: x.metered }
  | _, _ => { x with session := s }

/-- What an operation on the socket does. -/
def socketExec (x : Service N) (o : SocketOp N) (r : SocketRes o) (x' : Service N) : Prop :=
  match o, r with
  | .accept, _ => x.listening = true ∧ x' = x
  | .pop, r =>
    match x.closed with
    | some m => r = .closed m ∧ x' = x
    | none =>
      if x.opened then r = .session ∧ x' = { x with opened := false } else r = .missing ∧ x' = x
  | .shutdown, _ => x' = { x with listening := false }
  | .unlink, .ok _ => x' = { x with closing := true }
  | .unlink, .error _ => x' = x
  | .requests, n => n = x.session.requests ∧ x' = x
  | .input_tokens, n => n = x.session.input_tokens ∧ x' = x
  | .output_tokens, n => n = x.session.output_tokens ∧ x' = x
  | .usd, n => n = x.session.usd ∧ x' = x
  | .refusals, rs => rs = x.session.refusals ∧ x' = x
  | .upstream_errors, n => n = x.session.upstream_errors ∧ x' = x
  | .store m, _ => x' = { x with closed := some m, final := some x.forwarded }

/-- What an operation does. -/
def serviceExec (b : Builtins) (c : Label) (x : Service N) (o : ServiceOp N) (r : ServiceRes N o)
    (x' : Service N) : Prop :=
  match o, r with
  | .inl o, r => ∃ s, exec N b x.session o r s ∧ x' = x.after c o r s
  | .inr o, r => socketExec x o r x'

end Exec

/-! ## The programs -/

section Programs

variable {N : Numbers} (lib : Library) (key : PyStr) (s : Session N)

/-- The program of a thread of the session. -/
abbrev ServiceProg (N : Numbers) := Prog (ServiceOp N) (ServiceRes N) (Except Exc (Option (Meter N)))

/-- The next operation on the socket. -/
abbrev askSocket (o : SocketOp N) : Prog (ServiceOp N) (ServiceRes N) (SocketRes o) :=
  perform (Sum.inr o)

/-- The requests of a connection, until one of them raises. -/
def serve : List HttpRequest → Prog Op Res (Except Exc Unit)
  | [] => .ret (.ok ())
  | h :: hs => (handle lib key s h).bind fun
    | .ok _ => serve hs
    | .error e => .ret (.error e)

/-- The thread of a connection. -/
def connection (hs : List HttpRequest) : ServiceProg N :=
  (askSocket .accept).bind fun _ => (serve lib key s hs).left.bind fun r => .ret (r.map fun _ => none)

/-- `Session.meter`. -/
def readMeter : Prog (ServiceOp N) (ServiceRes N) (Meter N) :=
  (askSocket .requests).bind fun requests =>
  (askSocket .input_tokens).bind fun input_tokens =>
  (askSocket .output_tokens).bind fun output_tokens =>
  (askSocket .usd).bind fun usd =>
  (askSocket .refusals).bind fun refusals =>
  (askSocket .upstream_errors).bind fun upstream_errors =>
  .ret ⟨requests, input_tokens, output_tokens, usd, refusals, upstream_errors⟩

/-- `close_session`. -/
def close_session : ServiceProg N :=
  (askSocket .pop).bind fun
  | .closed m => .ret (.ok (some m))
  | .missing => .ret (.error (rpcError .not_found (msg "no such session")))
  | .session =>
    (askSocket .shutdown).bind fun _ => (askSocket .unlink).bind fun
    | .error e => .ret (.error e)
    | .ok _ => readMeter.bind fun m => (askSocket (.store m)).bind fun _ => .ret (.ok (some m))

/-- The threads of a session. -/
def body (c : Label) : ServiceProg N :=
  match c.role with
  | .connection hs => connection lib key s hs
  | .close => close_session

end Programs

/-! ## What a thread knows -/

/-- Where a request is. -/
inductive Phase where
  | idle
  | admitted (clamp : Int)
  | sent (clamp : Int) (stream : Bool) (x : Exchange)
  | broken (clamp : Int)

/-- What a thread knows: where its request is, and what it has read of the meter. -/
structure Known (N : Numbers) where
  phase : Phase := .idle
  unlinked : Bool := false
  requests : Option Int := none
  input_tokens : Option Int := none
  output_tokens : Option Int := none
  usd : Option N.Num := none
  upstream_errors : Option Nat := none
  stored : Option (Meter N) := none

/-- The answer reports no more output than the cap. -/
def HonestAnswer {N : Numbers} (lib : Library) (s : Session N) (stream : Bool) (x : Exchange)
    (clamp : Int) : Prop :=
  ∀ u, reported lib s stream (relay stream x).2 = .ok (some u) → u.2 ≤ clamp

section Knowledge

variable {N : Numbers} (lib : Library) (s : Session N)

/-- A thread passes the limits with no request under way, forwards what has passed them, and meters
what it has forwarded, within the cap if the answer is. A call of `close_session` stores what it has
read since the socket was unlinked. -/
def demands (κ : Known N) : ServiceOp N → Prop
  | .inl (.limits _ _ _) => κ.phase = .idle
  | .inl (.forward _ _) => ∃ clamp, κ.phase = .admitted clamp
  | .inl (.meter usage _) => ∃ clamp stream x, κ.phase = .sent clamp stream x ∧
      (HonestAnswer lib s stream x clamp → usage.2 ≤ max 0 clamp)
  | .inr (.store m) => κ.unlinked = true ∧ κ.requests = some m.requests ∧
      κ.input_tokens = some m.input_tokens ∧ κ.output_tokens = some m.output_tokens ∧
      κ.usd = some m.usd ∧ κ.upstream_errors = some m.upstream_errors
  | _ => True

/-- Where the request is after an operation of it. -/
def phaseAfter (p : Phase) (o : Op) (r : Res o) : Phase :=
  match o, r with
  | .limits _ _ _, .ok (_, _, clamp) => .admitted clamp
  | .forward _ stream, .ok x =>
    match p with
    | .admitted clamp => .sent clamp stream x
    | p => p
  | .forward _ _, .error _ =>
    match p with
    | .admitted clamp => .broken clamp
    | p => p
  | .meter _ _, _ => .idle
  | _, _ => p

/-- What a thread learns from an operation. -/
def learns (κ : Known N) (o : ServiceOp N) (r : ServiceRes N o) : Known N :=
  match o, r with
  | .inl o, r => { κ with phase := phaseAfter κ.phase o r }
  | .inr .unlink, .ok _ => { phase := κ.phase, unlinked := true }
  | .inr .pop, .closed m => { κ with stored := some m }
  | .inr (.store m), _ => { κ with stored := some m }
  | .inr .requests, n => { κ with requests := some n }
  | .inr .input_tokens, n => { κ with input_tokens := some n }
  | .inr .output_tokens, n => { κ with output_tokens := some n }
  | .inr .usd, n => { κ with usd := some n }
  | .inr .upstream_errors, n => { κ with upstream_errors := some n }
  | _, _ => κ

/-- The knowledge of the threads of a session. -/
def knowledge : Knowledge (Known N) (ServiceOp N) (ServiceRes N) := ⟨demands lib s, learns⟩

end Knowledge

/-! ## The programs keep to it -/

section Local

variable {N : Numbers} {lib : Library} {key : PyStr} {s : Session N} {h : HttpRequest} {κ : Known N}
  {α : Type}

/-- What is demanded of a request. -/
abbrev requestKnowledge (lib : Library) (s : Session N) : Knowledge (Known N) Op Res := (knowledge lib s).left

theorem local_compute {x : Except Halt α} {Q : Except Halt α → Known N → Prop} (hx : Q x κ) :
    LocalE (requestKnowledge lib s) κ (compute x) Q := hx

theorem local_call {p : Prog Op Res (Except Exc α)} {Q : Except Halt α → Known N → Prop}
    (hp : Local (requestKnowledge lib s) κ p fun r κ' => Q (raising r) κ') :
    LocalE (requestKnowledge lib s) κ (call p) Q := local_bind hp

/-- An operation that says nothing about where the request is. -/
theorem local_quiet {o : Op} {Q : Res o → Known N → Prop} (hpre : demands lib s κ (.inl o))
    (hphase : ∀ p r, phaseAfter p o r = p) (hQ : ∀ r, Q r κ) :
    Local (requestKnowledge lib s) κ (ask o) Q := by
  refine local_perform hpre fun r => ?_
  show Q r { κ with phase := phaseAfter κ.phase o r }
  rw [hphase]
  exact hQ r

theorem local_audit {event : String} {data : Fields} {Q : Except Exc Unit → Known N → Prop}
    (hQ : ∀ r, Q r κ) : Local (requestKnowledge lib s) κ (_audit event data) Q := by
  refine local_bind (local_quiet trivial (fun _ _ => rfl) fun r => ?_)
  rcases r with (_ | _) | _
  · exact hQ _
  · exact hQ _
  · exact hQ _

/-- A charge is within the cap if the answer is. -/
theorem charge_le {stream : Bool} {x : Exchange} {usage : Option (Int × Int)} {est_in clamp : Int}
    (hread : reported lib s stream (relay stream x).2 = .ok usage)
    (honest : HonestAnswer lib s stream x clamp) :
    (charge usage (relay stream x).1 est_in clamp).2 ≤ max 0 clamp := by
  cases usage with
  | some u => exact le_trans (honest u hread) (le_max_right _ _)
  | none =>
    show (unmetered (relay stream x).1 est_in clamp).2 ≤ max 0 clamp
    unfold unmetered
    split
    · exact le_max_right _ _
    · exact le_max_left _ _

theorem local_checkRequest (hidle : κ.phase = .idle) :
    LocalE (requestKnowledge lib s) κ (checkRequest lib s h) fun r κ' => match r with
      | .ok a => κ' = { κ with phase := .admitted a.2.2 }
      | .error _ => κ' = κ := by
  refine localE_bind (local_compute ?_)
  cases contentLength lib h with
  | error e => rfl
  | ok n =>
    show LocalE _ _ (if n ≤ 0 ∨ MAX_REQUEST < n then _ else _) _
    split
    · exact local_compute rfl
    · refine localE_bind (local_call (local_quiet trivial (fun _ _ => rfl) fun raw => ?_))
      cases raw with
      | error e => rfl
      | ok raw =>
        refine localE_bind (local_compute ?_)
        cases checkBody lib s h raw with
        | error e => rfl
        | ok body =>
          refine local_perform hidle fun r => ?_
          cases r with
          | error e => rfl
          | ok a => rfl

theorem local_settle {stream : Bool} {out_body : Bytes} {est_in clamp : Int} {x : Exchange}
    (hsent : κ.phase = .sent clamp stream x) :
    LocalE (requestKnowledge lib s) κ (settle lib s stream out_body est_in clamp x) fun r κ' =>
      (∃ e, r = .error (.raised e)) ∨ κ'.phase = .idle := by
  refine localE_bind (local_compute ?_)
  cases hread : reported lib s stream (relay stream x).2 with
  | error e => exact .inl ⟨_, rfl⟩
  | ok usage =>
  refine localE_bind (local_call (local_perform ⟨clamp, stream, x, hsent, charge_le hread⟩ fun r => ?_))
  cases r with
  | error e => exact .inl ⟨_, rfl⟩
  | ok r => exact local_call (local_audit fun r => .inr rfl)

theorem local_forward {body : Fields} {est_in clamp : Int} (hadm : κ.phase = .admitted clamp) :
    LocalE (requestKnowledge lib s) κ (forward lib key s h body est_in clamp) fun r κ' =>
      (∃ e, r = .error (.raised e)) ∨ κ'.phase = .idle := by
  refine localE_bind (local_compute ?_)
  cases encodeBody body with
  | error e => exact .inl ⟨_, rfl⟩
  | ok out_body =>
  refine localE_bind (local_compute ?_)
  cases outbound lib key s h (is_stream s.provider h.rest body) out_body with
  | error e => exact .inl ⟨_, rfl⟩
  | ok o =>
  refine localE_bind (local_call (local_perform ⟨clamp, hadm⟩ fun x => ?_))
  cases x with
  | error e => exact .inl ⟨_, rfl⟩
  | ok x =>
  have hphase : phaseAfter κ.phase (.forward o (is_stream s.provider h.rest body)) (.ok x) =
      .sent clamp (is_stream s.provider h.rest body) x := by
    rw [hadm]
    rfl
  exact local_settle hphase

theorem local_refusal {r : Refusal} {Q : Except Exc Unit → Known N → Prop} (hQ : ∀ x, Q x κ) :
    Local (requestKnowledge lib s) κ (onRefusal lib s r) Q := by
  refine local_bind (local_quiet trivial (fun _ _ => rfl) fun _ => local_bind (local_audit ?_))
  rintro (e | _)
  · exact hQ _
  · refine local_bind (local_quiet trivial (fun _ _ => rfl) fun x => ?_)
    rcases x with (_ | _ | _ | _ | _ | _) | _ <;> exact hQ _

/-- A request that passes the checks and is forwarded leaves its thread without one. -/
theorem local_passes (hidle : κ.phase = .idle) :
    LocalE (requestKnowledge lib s) κ (do
      let (body, est_in, clamp) ← checkRequest lib s h
      forward lib key s h body est_in clamp) fun r κ' =>
      (∃ e, r = .error (.raised e)) ∨ κ'.phase = .idle := by
  refine localE_bind (local_conseq ?_ (local_checkRequest hidle))
  rintro (e | ⟨body, est_in, clamp⟩) κ' rfl
  · exact .inr hidle
  · exact local_forward rfl

/-- A request that does not raise leaves its thread without one. -/
theorem local_handle (hidle : κ.phase = .idle) :
    Local (requestKnowledge lib s) κ (handle lib key s h) fun r κ' =>
      ∀ u, r = .ok u → κ'.phase = .idle := by
  refine local_bind (local_conseq ?_ (local_passes hidle))
  rintro ((r | e) | _) κ' (⟨e, he⟩ | hκ)
  · cases he
  · exact local_refusal fun _ _ _ => hκ
  · exact fun _ h => by cases h
  · exact fun _ h => by cases h
  · cases he
  · exact fun _ _ => hκ

theorem local_serve {hs : List HttpRequest} : ∀ {κ : Known N}, κ.phase = .idle →
    Local (requestKnowledge lib s) κ (serve lib key s hs) fun _ _ => True := by
  induction hs with
  | nil => exact fun _ => trivial
  | cons h hs ih =>
    intro κ hidle
    refine local_bind (local_conseq ?_ (local_handle hidle))
    rintro (e | u) κ' hκ
    · trivial
    · exact ih (hκ u rfl)

/-- What a thread knows when it has returned a meter. -/
def Returned (r : Except Exc (Option (Meter N))) (κ : Known N) : Prop :=
  ∀ m, r = .ok (some m) → κ.stored = some m

theorem local_close : Local (knowledge lib s) κ close_session Returned := by
  refine local_bind (local_perform trivial fun found => ?_)
  cases found with
  | closed m =>
    rintro _ ⟨⟩
    rfl
  | missing => exact nofun
  | session =>
    refine local_bind (local_perform trivial fun _ => local_bind (local_perform trivial ?_))
    rintro (e | _)
    · exact nofun
    · refine local_bind (local_bind (local_perform trivial fun _ => local_bind (local_perform trivial
        fun _ => local_bind (local_perform trivial fun _ => local_bind (local_perform trivial fun _ =>
        local_bind (local_perform trivial fun _ => local_bind (local_perform trivial fun _ => ?_)))))))
      refine local_bind (local_perform ⟨rfl, rfl, rfl, rfl, rfl, rfl⟩ fun _ => ?_)
      rintro _ ⟨⟩
      rfl

/-- **Every thread of a session keeps to it.** -/
theorem local_body (c : Label) : Local (knowledge lib s) {} (body lib key s c) Returned := by
  unfold body
  split
  · refine local_bind (local_perform trivial fun _ => local_bind (local_conseq ?_
      (local_left (local_serve rfl))))
    rintro (e | _) κ _
    · exact nofun
    · exact nofun
  · exact local_close

end Local

/-! ## The run of one request -/

section Solo

variable {N : Numbers} {b : Builtins} {body : Label → ServiceProg N} {c : Label} {α : Type}

/-- The state after some operations of a request. -/
def Service.afterAll (x : Service N) (c : Label) : List (Performed N) → Service N
  | [] => x
  | ev :: tr => (x.after c ev.op ev.result ev.after).afterAll c tr

theorem Service.after_session (x : Service N) (o : Op) (r : Res o) (s : Session N) :
    (x.after c o r s).session = s := by
  cases o with
  | limits size rest req => cases r <;> rfl
  | _ => rfl

/-- Operations of a request are operations of its thread. -/
theorem segment_left {p q : Prog Op Res α} {tr : List (Performed N)} (h : Segment (exec N b) p tr q) :
    ∀ {x : Service N} {t : Session N}, Chained x.session tr t →
      ∃ tr', Segment (serviceExec b c) p.left tr' q.left ∧ Chained x tr' (x.afterAll c tr) := by
  induction h with
  | nil p => exact fun _ => ⟨[], .nil _, rfl⟩
  | @step s s' o k r tr q h rest ih =>
    intro x t hchain
    obtain ⟨hbefore, hrest⟩ := hchain
    subst hbefore
    have hafter := x.after_session (c := c) o r s'
    obtain ⟨tr', hpart, hchain'⟩ := ih (x := x.after c o r s') (t := t) (by rw [hafter]; exact hrest)
    exact ⟨⟨x, .inl o, r, x.after c o r s'⟩ :: tr', .step ⟨s', h, rfl⟩ hpart, rfl, hchain'⟩

/-- **A part of a request is a run of its thread.** -/
theorem request_runs {p q : Prog Op Res α} {tr : List (Performed N)} (h : Segment (exec N b) p tr q)
    {x : Service N} {t : Session N} (hchain : Chained x.session tr t)
    (f : α → ServiceProg N)
    {before after : List (Thread Label (ServiceOp N) (ServiceRes N) (Except Exc (Option (Meter N))))} :
    Relation.ReflTransGen (Pool.Step (serviceExec b) body)
      ⟨x, before ++ ⟨c, p.left.bind f⟩ :: after⟩
      ⟨x.afterAll c tr, before ++ ⟨c, q.left.bind f⟩ :: after⟩ := by
  obtain ⟨tr', hpart, hchain'⟩ := segment_left (c := c) h hchain
  exact (hpart.bind f).runs hchain'

end Solo

/-! ## What an operation of a request can do -/

/-- What an operation of a request does to the state, and to where the request is. -/
inductive Moves {N : Numbers} (lib : Library) (s : Session N) (c : Label) (p : Phase) (x : Service N) :
    (o : Op) → Res o → Phase → Service N → Prop
  | admits {size : Nat} {rest : PyStr} {req : Fields} {adm : Admission N} (was : p = .idle)
      (limit : limits lib.builtins x.session size rest req = .ok adm) :
      Moves lib s c p x (.limits size rest req) (.ok (adm.body, adm.est_in, adm.clamp))
        (.admitted adm.clamp)
        { x with
          session := adm.session
          admitted := c :: x.admitted
          cap := Function.update x.cap c adm.clamp }
  | forwards {out : Outbound} {stream : Bool} {y : Exchange} {clamp : Int} (was : p = .admitted clamp) :
      Moves lib s c p x (.forward out stream) (.ok y) (.sent clamp stream y)
        { x with
          admitted := x.admitted.erase c
          sent := c :: x.sent
          forwarded := x.forwarded + 1 }
  | fails {out : Outbound} {stream : Bool} {e : Exc} {clamp : Int} (was : p = .admitted clamp) :
      Moves lib s c p x (.forward out stream) (.error e) (.broken clamp)
        { x with
          admitted := x.admitted.erase c
          sent := c :: x.sent
          forwarded := x.forwarded + 1 }
  | meters {clamp : Int} {stream : Bool} {y : Exchange} {usage : Int × Int} {status : Nat}
      {r : Except Exc Unit} (was : p = .sent clamp stream y)
      (bound : HonestAnswer lib s stream y clamp → usage.2 ≤ max 0 clamp) :
      Moves lib s c p x (.meter usage status) r .idle
        { x with
          session := (meter x.session usage status).2
          sent := x.sent.erase c
          metered := usage :: x.metered }
  | refuses (e : Refusal) :
      Moves lib s c p x (.refused e) () p { x with session := x.session.refused e }
  | stays {o : Op} {r : Res o} : Moves lib s c p x o r p x

/-- The record of the requests agrees with the session. -/
structure Counted {N : Numbers} (x : Service N) : Prop where
  admitted_nodup : x.admitted.Nodup
  sent_nodup : x.sent.Nodup
  requests : x.session.requests = x.admitted.length + x.sent.length + x.metered.length
  forwarded : x.forwarded = x.sent.length + x.metered.length
  input_tokens : x.session.input_tokens = (x.metered.map Prod.fst).sum
  output_tokens : x.session.output_tokens = (x.metered.map Prod.snd).sum
  limit : x.session.requests ≤ x.session.max_requests

/-- The record says where the request of a thread is. -/
def Tracks {N : Numbers} (c : Label) (p : Phase) (x : Service N) : Prop :=
  match p with
  | .idle => c ∉ x.admitted ∧ c ∉ x.sent
  | .admitted clamp => c ∈ x.admitted ∧ c ∉ x.sent ∧ x.cap c = clamp
  | .sent clamp _ _ => c ∉ x.admitted ∧ c ∈ x.sent ∧ x.cap c = clamp
  | .broken clamp => c ∉ x.admitted ∧ c ∈ x.sent ∧ x.cap c = clamp

section Moves

variable {N : Numbers} {lib : Library} {s : Session N} {c c' : Label} {p q : Phase}
  {x x' : Service N} {κ : Known N} {o : Op} {r : Res o}

theorem request_moves (hpre : demands lib s κ (.inl o))
    (h : serviceExec lib.builtins c x (.inl o) r x') :
    Moves lib s c κ.phase x o r (phaseAfter κ.phase o r) x' := by
  obtain ⟨t, hexec, rfl⟩ := h
  cases o with
  | read n =>
    obtain rfl : t = x.session := hexec
    exact .stays
  | submit event data =>
    obtain rfl : t = x.session := hexec
    exact .stays
  | reply status body =>
    obtain rfl : t = x.session := hexec
    exact .stays
  | refused e =>
    obtain rfl : t = x.session.refused e := hexec
    exact .refuses e
  | limits size rest req =>
    cases hl : limits lib.builtins x.session size rest req with
    | ok adm =>
      rw [exec_limits, hl] at hexec
      obtain ⟨rfl, rfl⟩ := hexec
      exact .admits hpre hl
    | error e =>
      rw [exec_limits, hl] at hexec
      obtain ⟨rfl, rfl⟩ := hexec
      exact .stays
  | forward o stream =>
    obtain rfl : t = x.session := hexec
    obtain ⟨clamp, hclamp⟩ := hpre
    cases r with
    | ok y =>
      rw [hclamp]
      exact .forwards rfl
    | error e =>
      rw [hclamp]
      exact .fails rfl
  | meter usage status =>
    have hexec : meter x.session usage status = (r, t) := hexec
    obtain rfl : (meter x.session usage status).2 = t := congrArg Prod.snd hexec
    obtain ⟨clamp, stream, y, hclamp, hbound⟩ := hpre
    exact .meters hclamp hbound

/-- The limits of the session stay. -/
theorem meter_max (t : Session N) (usage : Int × Int) (status : Nat) :
    (meter t usage status).2.max_requests = t.max_requests ∧
      (meter t usage status).2.max_output_tokens = t.max_output_tokens := by
  rw [meter_eq]
  cases costOf t usage with
  | error e => exact ⟨rfl, rfl⟩
  | ok cost => exact ⟨rfl, rfl⟩

/-- Forwarding moves a request from the first list to the second. -/
theorem Counted.forward {clamp : Int} (hx : Counted x)
    (ht : c ∈ x.admitted ∧ c ∉ x.sent ∧ x.cap c = clamp) :
    Counted { x with
      admitted := x.admitted.erase c
      sent := c :: x.sent
      forwarded := x.forwarded + 1 } ∧
    c ∉ x.admitted.erase c ∧ c ∈ c :: x.sent ∧ x.cap c = clamp := by
  obtain ⟨hadmitted, hsent, hcap⟩ := ht
  have hlen : (x.admitted.erase c).length + 1 = x.admitted.length := by
    rw [List.length_erase_of_mem hadmitted]
    have := List.length_pos_of_mem hadmitted
    omega
  refine ⟨⟨hx.admitted_nodup.erase c, List.nodup_cons.2 ⟨hsent, hx.sent_nodup⟩, ?_, ?_,
    hx.input_tokens, hx.output_tokens, hx.limit⟩, hx.admitted_nodup.not_mem_erase,
    List.mem_cons_self, hcap⟩
  · have := hx.requests
    simp only [List.length_cons]
    push_cast
    omega
  · have := hx.forwarded
    simp only [List.length_cons]
    omega

theorem Moves.counted (hm : Moves lib s c p x o r q x') (hx : Counted x) (ht : Tracks c p x) :
    Counted x' ∧ Tracks c q x' := by
  cases hm with
  | @admits size rest req adm was limit =>
    subst was
    have hadm := limits_eq_ok limit
    have hsession := hadm.session
    obtain ⟨hadmitted, hsent⟩ := ht
    refine ⟨⟨List.nodup_cons.2 ⟨hadmitted, hx.admitted_nodup⟩, hx.sent_nodup, ?_, hx.forwarded, ?_, ?_, ?_⟩,
      List.mem_cons_self, hsent, Function.update_self c _ _⟩
    · have := hx.requests
      simp only [hsession, List.length_cons]
      push_cast
      omega
    · simp only [hsession]
      exact hx.input_tokens
    · simp only [hsession]
      exact hx.output_tokens
    · have := hadm.requests
      simp only [hsession]
      omega
  | forwards was =>
    subst was
    exact hx.forward ht
  | fails was =>
    subst was
    exact hx.forward ht
  | @meters clamp stream y usage status r was bound =>
    subst was
    obtain ⟨hadmitted, hsent, hcap⟩ := ht
    obtain ⟨hrequests, hinput, houtput⟩ := meter_tokens x.session usage status
    have hlen : (x.sent.erase c).length + 1 = x.sent.length := by
      rw [List.length_erase_of_mem hsent]
      have := List.length_pos_of_mem hsent
      omega
    refine ⟨⟨hx.admitted_nodup, hx.sent_nodup.erase c, ?_, ?_, ?_, ?_, ?_⟩, hadmitted,
      hx.sent_nodup.not_mem_erase⟩
    · have := hx.requests
      simp only [hrequests, List.length_cons]
      push_cast
      omega
    · have := hx.forwarded
      simp only [List.length_cons]
      omega
    · simp only [hinput, List.map_cons, List.sum_cons, hx.input_tokens]
      ring
    · simp only [houtput, List.map_cons, List.sum_cons, hx.output_tokens]
      ring
    · rw [hrequests, (meter_max _ _ _).1]
      exact hx.limit
  | refuses r =>
    exact ⟨⟨hx.admitted_nodup, hx.sent_nodup, hx.requests, hx.forwarded, hx.input_tokens,
      hx.output_tokens, hx.limit⟩, ht⟩
  | stays => exact ⟨hx, ht⟩

/-- The other threads' requests stay where they are. -/
theorem Moves.others {p' : Phase} (hm : Moves lib s c p x o r q x') (hne : c' ≠ c)
    (ht : Tracks c' p' x) : Tracks c' p' x' := by
  have hmem : ∀ {l : List Label}, c' ∈ l.erase c ↔ c' ∈ l := List.mem_erase_of_ne hne
  have hcons : ∀ {l : List Label}, c' ∈ c :: l ↔ c' ∈ l := by simp [hne]
  cases hm with
  | admits was limit => cases p' <;> simpa [Tracks, hcons, Function.update_of_ne hne] using ht
  | forwards was => cases p' <;> simpa [Tracks, hcons, hmem] using ht
  | fails was => cases p' <;> simpa [Tracks, hcons, hmem] using ht
  | meters was bound => cases p' <;> simpa [Tracks, hmem] using ht
  | refuses r => exact ht
  | stays => exact ht

/-- What an operation on the socket leaves. -/
theorem socket_leaves {o : SocketOp N} {r : SocketRes o} (h : socketExec x o r x') :
    x'.session = x.session ∧ x'.admitted = x.admitted ∧ x'.sent = x.sent ∧ x'.cap = x.cap ∧
      x'.metered = x.metered ∧ x'.forwarded = x.forwarded := by
  cases o with
  | accept =>
    obtain ⟨-, rfl⟩ := h
    exact ⟨rfl, rfl, rfl, rfl, rfl, rfl⟩
  | pop =>
    simp only [socketExec] at h
    split at h
    · obtain ⟨-, rfl⟩ := h
      exact ⟨rfl, rfl, rfl, rfl, rfl, rfl⟩
    · split at h
      · obtain ⟨-, rfl⟩ := h
        exact ⟨rfl, rfl, rfl, rfl, rfl, rfl⟩
      · obtain ⟨-, rfl⟩ := h
        exact ⟨rfl, rfl, rfl, rfl, rfl, rfl⟩
  | shutdown =>
    cases h
    exact ⟨rfl, rfl, rfl, rfl, rfl, rfl⟩
  | unlink =>
    cases r with
    | ok _ =>
      cases h
      exact ⟨rfl, rfl, rfl, rfl, rfl, rfl⟩
    | error e =>
      cases h
      exact ⟨rfl, rfl, rfl, rfl, rfl, rfl⟩
  | store m =>
    cases h
    exact ⟨rfl, rfl, rfl, rfl, rfl, rfl⟩
  | _ =>
    obtain ⟨-, rfl⟩ := h
    exact ⟨rfl, rfl, rfl, rfl, rfl, rfl⟩

end Moves

end Valops.ModelBroker
