import Valops.Common.Rpc
import Valops.Py.Base64
import Valops.Conc.Runs

/-!
# The audit client

A buffering client keeps what it could not submit and sends it before the next submission, the
oldest first. An entry leaves the queue when its call returns, so an entry whose reply was lost is
sent again, and an entry that the sequencer refuses stays where it is.

What the sequencer does with each call is arbitrary. Main result: `buffered_once`.
-/

set_option autoImplicit false

namespace Valops.Audit.Client

open Py Conc

/-! ## Calls -/

/-- How a call fails without an answer: an `RpcError` with the code `unavailable`, an `OSError` such
as a time-out, or a reply that cannot be decoded. -/
inductive Failure where
  | unavailable
  | broken
  | garbled
  deriving DecidableEq

/-- What `RpcClient.call` raises. -/
def Failure.exc : Failure → Exc
  | .unavailable => rpcError .unavailable (msg "connection closed without response")
  | .broken => .other .osError
  | .garbled => .other .valueError

/-- What the sequencer does with one call: it accepts the entry and replies, is not reached, accepts
the entry and its reply is lost, or refuses the entry. -/
inductive Behaviour where
  | accepts (result : Json)
  | down (how : Failure)
  | loses (how : Failure)
  | rejects (code : { c : Code // c ≠ .unavailable }) (message : Msg)
  deriving DecidableEq

/-- `payload` of a submission. -/
inductive Payload where
  | none
  | bytes (b : Bytes)
  | json (v : Json)

/-- The arguments of `submit`. -/
structure Submission where
  event : PyStr
  episode_id : Option PyStr
  data : Option Json
  payload : Payload

/-- `base64.b64encode(b).decode()`. -/
def b64encode (b : Bytes) : PyStr :=
  let digits := (b64u b).map fun c => if c = 45 then 43 else if c = 95 then 47 else c
  digits ++ List.replicate ((4 - digits.length % 4) % 4) 61

/-- `AuditClient._params`. -/
def Submission.params (x : Submission) : Json :=
  let p := [(py "event", .str x.event),
    (py "episode_id", (x.episode_id.map Json.str).getD .null),
    (py "data", orEmpty (x.data.getD .null))]
  match x.payload with
  | .none => Json.mkObj p
  | .bytes b => Json.mkObj (p ++ [(py "payload_b64", .str (b64encode b))])
  | .json v => Json.mkObj (p ++ [(py "payload_json", v)])

/-- The client, and of the sequencer the entries it took from it and the number of calls so far. -/
structure AuditClient where
  q : List Json := []
  dropped : Nat := 0
  chain : List Json := []
  calls : Nat := 0

section Functions

variable (sequencer : Nat → Behaviour) (buffer : Bool) (max_buffer : Nat)

/-- `self.rpc.call("submit", **params)`. -/
def call (c : AuditClient) (params : Json) : AuditClient × Except Exc Json :=
  match sequencer c.calls with
  | .accepts result => ({ c with chain := c.chain ++ [params], calls := c.calls + 1 }, .ok result)
  | .down how => ({ c with calls := c.calls + 1 }, .error how.exc)
  | .loses how => ({ c with chain := c.chain ++ [params], calls := c.calls + 1 }, .error how.exc)
  | .rejects code message => ({ c with calls := c.calls + 1 }, .error (rpcError code message))

/-- The loop of `flush` over the queue. -/
def flushLoop : List Json → AuditClient → AuditClient × Except Exc Unit
  | [], c => (c, .ok ())
  | params :: rest, c =>
    match call sequencer c params with
    | (c', .ok _) => flushLoop rest { c' with q := rest }
    | (c', .error e) => (c', .error e)

/-- `AuditClient.flush`. -/
def flush (c : AuditClient) : AuditClient × Except Exc Unit := flushLoop sequencer c.q c

/-- The `try` block of `submit`. -/
def trySubmit (c : AuditClient) (params : Json) : AuditClient × Except Exc Json :=
  match flush sequencer c with
  | (c', .ok _) => call sequencer c' params
  | (c', .error e) => (c', .error e)

/-- `self._q.append(params)` on a queue of bounded length, and the count of what fell out. -/
def AuditClient.push (c : AuditClient) (params : Json) : AuditClient :=
  { c with
    dropped := if c.q.length = max_buffer then c.dropped + 1 else c.dropped
    q := (c.q ++ [params]).drop (c.q.length + 1 - max_buffer) }

/-- `{"pending": True, "queued": n}`. -/
def pending (c : AuditClient) : Json :=
  Json.mkObj [(py "pending", .bool true), (py "queued", .int c.q.length)]

/-- What `submit` makes of its `try` block: an entry that found the sequencer unavailable is kept. -/
def handle (params : Json) : AuditClient × Except Exc Json → AuditClient × Except Exc Json
  | (c, .error (.rpc code message data)) =>
    if !buffer || code ≠ .unavailable then (c, .error (.rpc code message data))
    else (c.push max_buffer params, .ok (pending (c.push max_buffer params)))
  | (c, r) => (c, r)

/-- `AuditClient.submit`. -/
def submit (c : AuditClient) (x : Submission) : AuditClient × Except Exc Json :=
  handle buffer max_buffer x.params (trySubmit sequencer c x.params)

end Functions

/-! ## Runs -/

/-- A buffering client and what its submissions returned. -/
structure Session where
  client : AuditClient := {}
  log : List (Submission × Except Exc Json) := []

/-- One submission. -/
def SubmitStep (sequencer : Nat → Behaviour) (max_buffer : Nat) (s : Session) (x : Submission)
    (s' : Session) : Prop :=
  s' = ⟨(submit sequencer true max_buffer s.client x).1,
    s.log ++ [(x, (submit sequencer true max_buffer s.client x).2)]⟩

/-- The calls of one submission, first for what is queued and then for the new entry, do not do what
the client cannot handle: no entry that was queued is refused or taken without a reply, and the new
entry is not taken with the connection closed before the reply. -/
def CleanCalls (sequencer : Nat → Behaviour) : Nat → Nat → Prop
  | 0, n => sequencer n ≠ .loses .unavailable
  | k + 1, n =>
    match sequencer n with
    | .accepts _ => CleanCalls sequencer k (n + 1)
    | .down _ => True
    | .loses _ => False
    | .rejects .. => False

/-- Fewer than `max_buffer` entries are outstanding, and the calls are clean. -/
def CleanSubmit (sequencer : Nat → Behaviour) (max_buffer : Nat) (s : Session) (_ : Submission) :
    Prop :=
  s.client.q.length < max_buffer ∧ CleanCalls sequencer s.client.q.length s.client.calls

/-- The sessions of the runs whose submissions meet the condition. -/
abbrev ReachableSession (sequencer : Nat → Behaviour) (max_buffer : Nat)
    (ok : Session → Submission → Prop) : Session → Prop :=
  Reachable (· = {}) (SubmitStep sequencer max_buffer) ok

/-- The submissions that returned. -/
def Session.returned (s : Session) : List Json :=
  (s.log.filter fun e => e.2.isOk).map fun e => e.1.params

/-- The submission raised an `RpcError`. -/
def isRefused : Except Exc Json → Bool
  | .error (.rpc ..) => true
  | _ => false

/-- The other submissions. -/
def Session.unrefused (s : Session) : List Json :=
  (s.log.filter fun e => !isRefused e.2).map fun e => e.1.params

section Steps

variable {sequencer : Nat → Behaviour} {max_buffer : Nat} {c : AuditClient} {x : Submission}

/-- What clean calls leave of the queue: the entries that were sent are in the chain, in order. -/
theorem flushLoop_clean {q : List Json} (hq : c.q = q)
    (hclean : CleanCalls sequencer q.length c.calls) :
    ∃ c' r front, flushLoop sequencer q c = (c', r) ∧ q = front ++ c'.q ∧
      c'.chain = c.chain ++ front ∧ c'.dropped = c.dropped ∧
      ((r = .ok () ∧ c'.q = [] ∧ CleanCalls sequencer 0 c'.calls) ∨
        ∃ how : Failure, r = .error how.exc) := by
  induction q generalizing c with
  | nil => exact ⟨c, .ok (), [], rfl, hq.symm, by simp, rfl, .inl ⟨rfl, hq, hclean⟩⟩
  | cons params rest ih =>
    rw [List.length_cons, CleanCalls] at hclean
    cases hb : sequencer c.calls with
    | accepts result =>
      rw [hb] at hclean
      obtain ⟨c', r, front, hloop, hrest, hchain, hdropped, hr⟩ := ih
        (c := { q := rest, dropped := c.dropped, chain := c.chain ++ [params], calls := c.calls + 1 })
        rfl hclean
      refine ⟨c', r, params :: front, ?_, ?_, ?_, hdropped, hr⟩
      · rw [flushLoop, call, hb]
        exact hloop
      · rw [List.cons_append, ← hrest]
      · rw [hchain, List.append_assoc, List.singleton_append]
    | down how =>
      refine ⟨{ c with calls := c.calls + 1 }, .error how.exc, [], ?_, hq.symm, by simp, rfl,
        .inr ⟨how, rfl⟩⟩
      rw [flushLoop, call, hb]
    | loses how =>
      rw [hb] at hclean
      exact hclean.elim
    | rejects code message =>
      rw [hb] at hclean
      exact hclean.elim

/-- What the `try` block of a clean submission comes to. -/
inductive Tried (max_buffer : Nat) (c : AuditClient) (params : Json) (c' : AuditClient) :
    Except Exc Json → Prop
  | accepted {result : Json} (h : c'.chain ++ c'.q = c.chain ++ c.q ++ [params]) :
      Tried max_buffer c params c' (.ok result)
  | unanswered {how : Failure} (hhow : how ≠ .unavailable)
      (h : c'.chain ++ c'.q = c.chain ++ c.q ++ [params]) :
      Tried max_buffer c params c' (.error how.exc)
  | unreached {how : Failure} (h : c'.chain ++ c'.q = c.chain ++ c.q)
      (hroom : c'.q.length < max_buffer) : Tried max_buffer c params c' (.error how.exc)
  | refused {code : { c : Code // c ≠ .unavailable }} {m : Msg}
      (h : c'.chain ++ c'.q = c.chain ++ c.q) (hq : c'.q = []) :
      Tried max_buffer c params c' (.error (rpcError code m))

theorem trySubmit_clean (hroom : c.q.length < max_buffer)
    (hclean : CleanCalls sequencer c.q.length c.calls) :
    ∃ c' r, trySubmit sequencer c x.params = (c', r) ∧ Tried max_buffer c x.params c' r ∧
      c'.dropped = c.dropped := by
  obtain ⟨c₁, r₁, front, hflush, hq, hchain, hdropped, hr₁⟩ := flushLoop_clean rfl hclean
  have hkeep : c₁.chain ++ c₁.q = c.chain ++ c.q := by
    rw [hchain, List.append_assoc, ← hq]
  have hroom₁ : c₁.q.length < max_buffer := by
    rw [hq, List.length_append] at hroom
    omega
  unfold trySubmit flush
  rw [hflush]
  rcases hr₁ with ⟨rfl, hnil, hlast⟩ | ⟨how, rfl⟩
  · -- the queue is empty, so the new entry goes to the end of the chain
    have hadd : c₁.chain ++ [x.params] ++ c₁.q = c.chain ++ c.q ++ [x.params] := by
      rw [← hkeep, hnil, List.append_nil, List.append_nil]
    cases hb : sequencer c₁.calls with
    | accepts result =>
      refine ⟨{ c₁ with chain := c₁.chain ++ [x.params], calls := c₁.calls + 1 }, .ok result, ?_,
        .accepted hadd, hdropped⟩
      simp only [call, hb]
    | down how =>
      refine ⟨{ c₁ with calls := c₁.calls + 1 }, .error how.exc, ?_, .unreached hkeep hroom₁, hdropped⟩
      simp only [call, hb]
    | loses how =>
      have hhow : how ≠ .unavailable := by
        rintro rfl
        exact hlast hb
      refine ⟨{ c₁ with chain := c₁.chain ++ [x.params], calls := c₁.calls + 1 }, .error how.exc, ?_,
        .unanswered hhow hadd, hdropped⟩
      simp only [call, hb]
    | rejects code message =>
      refine ⟨{ c₁ with calls := c₁.calls + 1 }, .error (rpcError code message), ?_,
        .refused hkeep hnil, hdropped⟩
      simp only [call, hb]
  · exact ⟨c₁, .error how.exc, rfl, .unreached hkeep hroom₁, hdropped⟩

/-- What a clean submission comes to. -/
inductive Submitted (c : AuditClient) (params : Json) (c' : AuditClient) : Except Exc Json → Prop
  | returned {result : Json} (h : c'.chain ++ c'.q = c.chain ++ c.q ++ [params]) :
      Submitted c params c' (.ok result)
  | unanswered {e : PyErr} (h : c'.chain ++ c'.q = c.chain ++ c.q ++ [params]) :
      Submitted c params c' (.error (.other e))
  | unreached {e : PyErr} (h : c'.chain ++ c'.q = c.chain ++ c.q) :
      Submitted c params c' (.error (.other e))
  | refused {code : Code} {m : Msg} {d : Json} (h : c'.chain ++ c'.q = c.chain ++ c.q)
      (hq : c'.q = []) : Submitted c params c' (.error (.rpc code m d))

theorem push_room (h : c.q.length < max_buffer) (params : Json) :
    c.push max_buffer params = { c with q := c.q ++ [params] } := by
  unfold AuditClient.push
  rw [if_neg h.ne, Nat.sub_eq_zero_of_le h, List.drop_zero]

/-- **A clean submission** puts its entry behind the others, or nowhere. -/
theorem submit_clean (hroom : c.q.length < max_buffer)
    (hclean : CleanCalls sequencer c.q.length c.calls) :
    ∃ c' r, submit sequencer true max_buffer c x = (c', r) ∧ Submitted c x.params c' r ∧
      c'.dropped = c.dropped := by
  obtain ⟨c', r, htry, htried, hdropped⟩ := trySubmit_clean (x := x) hroom hclean
  unfold submit
  rw [htry]
  cases htried with
  | accepted h => exact ⟨c', _, rfl, .returned h, hdropped⟩
  | unanswered hhow h =>
    rename_i how
    cases how with
    | unavailable => exact absurd rfl hhow
    | broken => exact ⟨c', _, rfl, .unanswered h, hdropped⟩
    | garbled => exact ⟨c', _, rfl, .unanswered h, hdropped⟩
  | unreached h hroom' =>
    rename_i how
    cases how with
    | unavailable =>
      refine ⟨c'.push max_buffer x.params, _, rfl, .returned ?_, ?_⟩
      · rw [push_room hroom', ← List.append_assoc, h]
      · rw [push_room hroom', ← hdropped]
    | broken => exact ⟨c', _, rfl, .unreached h, hdropped⟩
    | garbled => exact ⟨c', _, rfl, .unreached h, hdropped⟩
  | refused h hq =>
    rename_i code m
    refine ⟨c', .error (rpcError code m), ?_, .refused h hq, hdropped⟩
    show (if !true || decide (code.1 ≠ .unavailable) then _ else _) = _
    rw [if_pos (by simp [code.2])]
    rfl

/-- Once every call is accepted, the queue is sent. -/
theorem flushLoop_accepts {q : List Json} (hq : c.q = q)
    (h : ∀ n, c.calls ≤ n → ∃ result, sequencer n = .accepts result) :
    flushLoop sequencer q c =
      (⟨[], c.dropped, c.chain ++ q, c.calls + q.length⟩, .ok ()) := by
  induction q generalizing c with
  | nil =>
    rw [flushLoop, List.append_nil, List.length_nil, Nat.add_zero]
    cases c
    cases hq
    rfl
  | cons params rest ih =>
    obtain ⟨result, hb⟩ := h c.calls (Nat.le_refl _)
    rw [flushLoop, call, hb]
    have hrest := ih
      (c := { q := rest, dropped := c.dropped, chain := c.chain ++ [params], calls := c.calls + 1 })
      rfl fun n hn => h n (Nat.le_of_succ_le hn)
    refine hrest.trans ?_
    rw [List.append_assoc, List.singleton_append, List.length_cons, Nat.add_right_comm, Nat.add_assoc]

/-- Once every call is accepted, a submission is answered by the sequencer and leaves no queue. -/
theorem submit_accepts (h : ∀ n, c.calls ≤ n → ∃ result, sequencer n = .accepts result)
    (x : Submission) : ∃ result calls, sequencer (c.calls + c.q.length) = .accepts result ∧
      submit sequencer true max_buffer c x =
        (⟨[], c.dropped, c.chain ++ c.q ++ [x.params], calls⟩, .ok result) := by
  obtain ⟨result, hb⟩ := h (c.calls + c.q.length) (Nat.le_add_right _ _)
  refine ⟨result, c.calls + c.q.length + 1, hb, ?_⟩
  unfold submit trySubmit flush
  rw [flushLoop_accepts rfl h]
  simp only [call, hb, handle]

end Steps

/-! ## Exactly once, in order -/

/-- What buffering promises. -/
structure InOrder (sequencer : Nat → Behaviour) (max_buffer : Nat) (s : Session) : Prop where
  /-- Every submission that returned is in the chain or in the queue, once and in its place. -/
  returned : s.returned.Sublist (s.client.chain ++ s.client.q)
  /-- Nothing else is, but for submissions that raised an error of the connection. -/
  unrefused : (s.client.chain ++ s.client.q).Sublist s.unrefused
  /-- Nothing was dropped. -/
  dropped : s.client.dropped = 0
  /-- No entry waits behind one that was refused. -/
  unblocked : ∀ front x code m d, s.log = front ++ [(x, .error (.rpc code m d))] → s.client.q = []
  /-- Once the sequencer accepts again, a submission succeeds and the queue is in the chain. -/
  recovers : (∀ n, s.client.calls ≤ n → ∃ result, sequencer n = .accepts result) → ∀ x,
    ∃ result calls, sequencer (s.client.calls + s.client.q.length) = .accepts result ∧
      submit sequencer true max_buffer s.client x =
        (⟨[], 0, s.client.chain ++ s.client.q ++ [x.params], calls⟩, .ok result)

section Log

variable {c : AuditClient} {log : List (Submission × Except Exc Json)} {x : Submission}
  {r : Except Exc Json}

theorem returned_concat : (Session.mk c (log ++ [(x, r)])).returned =
    (Session.mk c log).returned ++ if r.isOk then [x.params] else [] := by
  unfold Session.returned
  rw [List.filter_append, List.map_append]
  cases r <;> rfl

theorem unrefused_concat : (Session.mk c (log ++ [(x, r)])).unrefused =
    (Session.mk c log).unrefused ++ if isRefused r then [] else [x.params] := by
  unfold Session.unrefused
  rw [List.filter_append, List.map_append]
  cases hr : isRefused r <;> simp [hr]

end Log

section Runs

variable {sequencer : Nat → Behaviour} {max_buffer : Nat} {s : Session}

/-- **Buffered entries arrive once and in order.** It holds in every run in which fewer than
`max_buffer` entries are outstanding and the calls are clean. -/
theorem buffered_once
    (h : ReachableSession sequencer max_buffer (CleanSubmit sequencer max_buffer) s) :
    InOrder sequencer max_buffer s := by
  have hlists : s.returned.Sublist (s.client.chain ++ s.client.q) ∧
      (s.client.chain ++ s.client.q).Sublist s.unrefused ∧ s.client.dropped = 0 ∧
      ∀ front x code m d, s.log = front ++ [(x, .error (.rpc code m d))] → s.client.q = [] := by
    induction h with
    | start h =>
      rw [h]
      refine ⟨List.Sublist.refl _, List.Sublist.refl _, rfl, fun front x code m d heq => ?_⟩
      exact absurd (congrArg List.length heq) (by simp)
    | @next s s' x _ hok hstep ih =>
      obtain ⟨hret, hunr, hdrop, _⟩ := ih
      obtain ⟨c', r, hsub, hdone, hdropped⟩ := submit_clean (x := x) hok.1 hok.2
      unfold SubmitStep at hstep
      rw [hsub] at hstep
      rw [hstep, returned_concat, unrefused_concat]
      have hret' : (s.returned ++ []).Sublist (s.client.chain ++ s.client.q) := by
        rwa [List.append_nil]
      refine ⟨?_, ?_, hdropped.trans hdrop, ?_⟩
      · show (s.returned ++ if r.isOk then [x.params] else []).Sublist (c'.chain ++ c'.q)
        cases hdone with
        | returned h =>
          rw [h]
          exact hret.append (List.Sublist.refl _)
        | unanswered h =>
          rw [h]
          exact hret'.trans (List.sublist_append_left _ _)
        | unreached h =>
          rw [h]
          exact hret'
        | refused h hq =>
          rw [h]
          exact hret'
      · show (c'.chain ++ c'.q).Sublist
          (s.unrefused ++ if isRefused r then [] else [x.params])
        cases hdone with
        | returned h =>
          rw [h]
          exact hunr.append (List.Sublist.refl _)
        | unanswered h =>
          rw [h]
          exact hunr.append (List.Sublist.refl _)
        | unreached h =>
          rw [h]
          exact hunr.trans (List.sublist_append_left _ _)
        | refused h hq =>
          rw [h]
          exact hunr.trans (List.sublist_append_left _ _)
      · intro front y code m d heq
        obtain ⟨_, hlast⟩ := List.append_inj' heq rfl
        cases hlast
        cases hdone with
        | refused h hq => exact hq
  obtain ⟨hret, hunr, hdrop, hblock⟩ := hlists
  refine ⟨hret, hunr, hdrop, hblock, fun haccepts x => ?_⟩
  rw [← hdrop]
  exact submit_accepts haccepts x

end Runs

/-! ### Runs -/

/-- The condition of the claim alone: fewer than `max_buffer` entries are outstanding. -/
def Room (max_buffer : Nat) (s : Session) (_ : Submission) : Prop := s.client.q.length < max_buffer

def hook : Submission := ⟨py "hook", none, none, .none⟩
def alert : Submission := ⟨py "alert", none, none, .none⟩

/-- The sequencer is down for one call. -/
def downOnce : Nat → Behaviour
  | 0 => .down .unavailable
  | _ => .accepts .null

/-- The reply to the first call is lost. -/
def losesOnce : Nat → Behaviour
  | 0 => .loses .unavailable
  | _ => .accepts .null

/-- The sequencer is down for two calls and refuses the third one. -/
def refusesOnce : Nat → Behaviour
  | 0 => .down .unavailable
  | 1 => .down .unavailable
  | 2 => .rejects ⟨.invalid, by decide⟩ (msg "unknown event")
  | _ => .accepts .null

/-- The session after some submissions. -/
def afterSubmits (sequencer : Nat → Behaviour) : List Submission → Session → Session
  | [], s => s
  | x :: rest, s => afterSubmits sequencer rest ⟨(submit sequencer true 10 s.client x).1,
      s.log ++ [(x, (submit sequencer true 10 s.client x).2)]⟩

theorem buffered_once_outage :
    ReachableSession downOnce 10 (CleanSubmit downOnce 10) (afterSubmits downOnce [hook, alert] {}) ∧
    InOrder downOnce 10 (afterSubmits downOnce [hook, alert] {}) := by
  have h₁ : ReachableSession downOnce 10 (CleanSubmit downOnce 10)
      (afterSubmits downOnce [hook] {}) :=
    .next (a := hook) (.start rfl) ⟨by decide, nofun⟩ rfl
  have h₂ : ReachableSession downOnce 10 (CleanSubmit downOnce 10)
      (afterSubmits downOnce [hook, alert] {}) :=
    .next (a := alert) h₁ ⟨by decide, nofun⟩ rfl
  exact ⟨h₂, buffered_once h₂⟩

/-- An entry whose reply was lost is in the chain twice, and an entry that is refused once keeps the
entry behind it from being sent and makes the next submission fail. -/
theorem buffered_twice_or_blocked :
    (ReachableSession losesOnce 10 (Room 10) (afterSubmits losesOnce [hook, alert] {}) ∧
      (afterSubmits losesOnce [hook, alert] {}).client.chain =
        [hook.params, hook.params, alert.params] ∧
      ¬ InOrder losesOnce 10 (afterSubmits losesOnce [hook, alert] {})) ∧
    ReachableSession refusesOnce 10 (Room 10) (afterSubmits refusesOnce [hook, alert, alert] {}) ∧
      (afterSubmits refusesOnce [hook, alert, alert] {}).client.q = [hook.params, alert.params] ∧
      ¬ InOrder refusesOnce 10 (afterSubmits refusesOnce [hook, alert, alert] {}) := by
  constructor
  · have h₁ : ReachableSession losesOnce 10 (Room 10) (afterSubmits losesOnce [hook] {}) :=
      .next (a := hook) (.start rfl) (show 0 < 10 by decide) rfl
    have h₂ : ReachableSession losesOnce 10 (Room 10) (afterSubmits losesOnce [hook, alert] {}) :=
      .next (a := alert) h₁ (show 1 < 10 by decide) rfl
    refine ⟨h₂, rfl, fun h => ?_⟩
    -- three entries from two submissions
    exact absurd h.unrefused.length_le (by decide)
  · have h₁ : ReachableSession refusesOnce 10 (Room 10) (afterSubmits refusesOnce [hook] {}) :=
      .next (a := hook) (.start rfl) (show 0 < 10 by decide) rfl
    have h₂ : ReachableSession refusesOnce 10 (Room 10) (afterSubmits refusesOnce [hook, alert] {}) :=
      .next (a := alert) h₁ (show 1 < 10 by decide) rfl
    have h₃ : ReachableSession refusesOnce 10 (Room 10)
        (afterSubmits refusesOnce [hook, alert, alert] {}) :=
      .next (a := alert) h₂ (show 2 < 10 by decide) rfl
    refine ⟨h₃, rfl, fun h => ?_⟩
    exact absurd (h.unblocked _ _ _ _ _ rfl) (by decide)

end Valops.Audit.Client
