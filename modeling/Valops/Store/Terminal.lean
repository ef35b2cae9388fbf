import Valops.Store.StateMachine

/-!
# Finished episodes

What may still be written into an episode after it is resolved or handed off. `append_verification`
looks at the state in one section and writes in another, and the episode can be finished in
between: `verification_after_hand_off` is such a run.

Main result: `terminal_frozen`, for the runs in which no verification is written into a finished
episode that way.
-/

set_option autoImplicit false

namespace Valops.Store

open Py

/-- What may follow a `state` entry into this terminal state. -/
def MayFollow (dst : EpisodeState) (x : Entry) : Prop :=
  match x.body with
  | .recovery_observation _ | .cost _ | .step _ | Body.annotation _ => True
  | .report b => b.kind = .closure ∧ dst = .resolved
  | _ => False

/-- After a terminal `state` entry nothing is written that may not follow it. -/
def Frozen (s : System) : Prop :=
  ∀ e front x mid y back b, s.store.entries e = front ++ x :: mid ++ y :: back →
    x.body = .state b → b.dst ∈ TERMINAL → MayFollow b.dst y

/-- The second section of `append_verification` meets an episode that is not finished. -/
def StillLive (s : System) : Act → Prop
  | .verify _ p => ∀ rec, _record s.store (p.get "episode_id") = .ok rec → rec.Live
  | _ => True

instance (s : System) : ∀ a, Decidable (StillLive s a)
  | .verify _ p =>
    match h : _record s.store (p.get "episode_id") with
    | .ok rec => decidable_of_iff rec.Live (by simp [StillLive, h])
    | .error _ => .isTrue (by simp [StillLive, h])
  | .call _ | .check _ | .restart | .mint _ => .isTrue trivial

section Frozen

variable {cfg : StoreConfig} {strict : Prop} {s x : System} {e : PyStr} {a : Act} {c : Call}
  {new y : Entry}

/-- Only a call of `append_verification` writes a verification. -/
theorem verify_of_kind {x' : System} (hstep : Moves cfg x a x') (hsec : a.section? = some c)
    (hkind : c.method.kind = some .verification) : ∃ w p, a = .verify w p ∧ c = verifyCall w p := by
  cases hstep with
  | call whole fresh =>
    cases hsec
    revert hkind whole
    cases c.method <;> simp [Method.kind]
  | verify pending fresh =>
    cases hsec
    exact ⟨_, _, rfl, rfl⟩
  | _ => cases hsec

/-- What the checks of an operation allow once the episode is finished. -/
theorem Admitted.mayFollow {w : World} {ep : Endpoint} {p : Params} {rec : Record} {b : Body}
    {principal : PyStr} {session : Json} {dst : EpisodeState}
    (h : Admitted cfg w ep p rec b principal session) (hstate : rec.state = some dst)
    (hterm : dst ∈ TERMINAL) (hbody : y.body = b) (hver : y.body.kind ≠ .verification) :
    MayFollow dst y := by
  have htool : ∀ {op : AgentOp} {cap : Capability}, Authority cfg w ep op p cap rec →
      (∀ st ∈ op.tool.states, st ∉ TERMINAL) → False := by
    intro op cap auth hop
    obtain ⟨st, hst, heq⟩ := auth.state
    rw [hstate] at heq
    cases heq
    exact hop dst hst hterm
  unfold MayFollow
  rw [hbody]
  cases h with
  | hypothesis auth => exact (htool auth (by decide)).elim
  | hypothesis_status auth => exact (htool auth (by decide)).elim
  | recommendation auth => exact (htool auth (by decide)).elim
  | no_action auth => exact (htool auth (by decide)).elim
  | verdict auth => exact (htool auth (by decide)).elim
  | @report cap b auth broker need =>
    have heq : dst = b.kind.need := Option.some.inj (hstate.symm.trans need)
    cases hk : b.kind with
    | incident =>
      rw [heq, hk] at hterm
      exact absurd hterm (by decide)
    | closure =>
      rw [heq, hk]
      exact ⟨hk, rfl⟩
  | @state b endpoint frm step requested expected =>
    have heq : dst = b.frm := Option.some.inj (hstate.symm.trans frm)
    rw [heq] at hterm
    exact absurd hterm (table_from step)
  | signal endpoint live => exact absurd hstate (live dst hterm)
  | observation endpoint checked live => exact absurd hstate (live dst hterm)
  | verification => exact absurd (by rw [hbody]; rfl) hver
  | _ => trivial

/-- In these runs a verification is written into a live episode. -/
theorem verification_live (h : Conc.Reachable Initial (Moves cfg) StillLive s) :
    ∀ e front y back, s.store.entries e = front ++ y :: back → y.body.kind = .verification →
      ∀ st ∈ TERMINAL, (replay cfg.rfc3339 (empty_record e) front).state ≠ some st := by
  refine log_inv (Q := fun e front y => y.body.kind = .verification →
    ∀ st ∈ TERMINAL, (replay cfg.rfc3339 (empty_record e) front).state ≠ some st) ?_ h
  intro x a x' c e new hled hok hstep hsec hnew hkind
  obtain ⟨d, row, hdraft, _, _, _, hbody, hid⟩ := hnew.draft
  rw [hbody] at hkind
  rcases hdraft with hdraft | hopened
  · obtain ⟨w, p, rfl, rfl⟩ := verify_of_kind hstep hsec (hdraft.kind.trans (congrArg some hkind))
    obtain ⟨e', hname, hrec⟩ := hdraft.found
    have he : e' = e := (hled.consistent.episode_id hrec).symm.trans hid
    subst he
    rw [← hled.consistent.state hrec]
    refine hok d.record ?_
    rw [show p.get "episode_id" = .str e' from hname]
    exact _record_str hrec
  · obtain ⟨idem, b, _, rfl⟩ := hopened.decided
    cases hkind

/-- The rule for finished episodes, at one place of a log. -/
theorem Ledger.frozen_at (h : Ledger cfg strict s)
    (hver : ∀ e front y back, s.store.entries e = front ++ y :: back →
      y.body.kind = .verification →
      ∀ st ∈ TERMINAL, (replay cfg.rfc3339 (empty_record e) front).state ≠ some st) :
    Frozen s := by
  intro e front x mid y back b hsplit hx hterm
  have hfol := h.followed e
  rw [hsplit] at hfol
  have hstate : (replay cfg.rfc3339 (empty_record e) (front ++ x :: mid)).state = some b.dst :=
    terminal_stays hx hterm hfol.of_append
  obtain ⟨_, _, _, _, _, _, _, _, he, _, hjust⟩ := h.at hsplit
  cases hjust with
  | opened first endpoint body principal => cases front <;> cases first
  | admitted started kind named before exact admitted session =>
    rw [he] at before
    have hanon := congrArg Record.state before
    have hrec := hanon.trans hstate
    exact admitted.mayFollow hrec hterm rfl fun hk => hver e _ y back hsplit hk _ hterm hstate

/-- **Finished episodes are frozen**, in the runs in which no verification is written into one. -/
theorem terminal_frozen (h : Conc.Reachable Initial (Moves cfg) StillLive s) : Frozen s := by
  have hledger : Ledger cfg False s := ledger False.elim h
  exact hledger.frozen_at (verification_live h)

end Frozen

/-- The arguments of a verification. -/
def verificationParams : Params := Params.ofFields
  [(py "episode_id", .str (py "e")), (py "idem_key", .str (py "v")),
    (py "result", .str (py "pass")), (py "rule", .str (py "slots"))] (by simp)

/-- The verification is written before the hand-off. -/
def timelyVerification : List Act :=
  [.call (openCall "e" "k1" "slots" "v"), .check verificationParams,
    .verify (sampleWorld "-") verificationParams, .call (stateCall .control "e" "handed_off" 2)]

theorem terminal_frozen_sample : Frozen (System.run sampleConfig timelyVerification) ∧
    ((System.run sampleConfig timelyVerification).store.entries (py "e")).length = 3 :=
  ⟨terminal_frozen (System.run_reachable (by decide +kernel) (by decide +kernel)), by decide +kernel⟩

/-- The verification passes its check, the controller hands the episode off, and the verification
is written. -/
def lateVerification : List Act :=
  [.call (openCall "e" "k1" "slots" "v"), .check verificationParams,
    .call (stateCall .control "e" "handed_off" 1), .verify (sampleWorld "-") verificationParams]

/-- A hand-off that is followed by something that may not follow it. -/
def lateEntry (es : List Entry) : Bool :=
  match es with
  | [_, x, y] =>
    decide (x.body.kind = .state ∧ y.body.kind = .verification) &&
      match x.body with
      | .state b => decide (b.dst ∈ TERMINAL)
      | _ => false
  | _ => false

/-- The rule for finished episodes does not hold in every run. -/
theorem verification_after_hand_off : ∃ s,
    Conc.Reachable Initial (Moves sampleConfig) Conc.anyAct s ∧ ¬ Frozen s := by
  refine ⟨System.run sampleConfig lateVerification,
    System.run_reachable (by decide +kernel) System.allowed_any, ?_⟩
  intro hfrozen
  have hlate : lateEntry ((System.run sampleConfig lateVerification).store.entries (py "e")) = true := by
    decide +kernel
  unfold lateEntry at hlate
  split at hlate
  · rename_i z x y heq
    rw [Bool.and_eq_true, decide_eq_true_iff] at hlate
    obtain ⟨⟨hx, hy⟩, hterm⟩ := hlate
    cases hb : x.body with
    | state b =>
      rw [hb] at hterm
      have hmay := hfrozen (py "e") [z] x [] y [] b heq hb (of_decide_eq_true hterm)
      cases hyb : y.body with
      | verification b' =>
        unfold MayFollow at hmay
        rw [hyb] at hmay
        exact hmay
      | _ =>
        rw [hyb] at hy
        cases hy
    | _ =>
      rw [hb] at hx
      cases hx
  · cases hlate

end Valops.Store
