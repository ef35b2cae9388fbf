import Mathlib.Algebra.Order.Ring.Rat
import Valops.Conc.SlidingWindow
import Valops.Py.Text

/-!
# The rate limit of the observer daemon

`_rate_ok` keeps for each command the times of the calls it has accepted, and looks at the last
60 seconds of them. Times are rational numbers of seconds of the monotonic clock; the lock makes the
calls of all threads one sequence.
-/

set_option autoImplicit false

namespace Valops.Observer

open Py SlidingWindow

/-- `_calls`. -/
abbrev Calls := PyStr → List ℚ

/-- `_rate_ok` at a time of the monotonic clock. -/
def _rate_ok (rate : Nat) (calls : Calls) (cid : PyStr) (t : ℚ) : Bool × Calls :=
  let x := admits 60 rate t (calls cid)
  (x.1, fun other => if other = cid then x.2 else calls other)

/-- A call of `_rate_ok`. -/
structure RateCall where
  cid : PyStr
  time : ℚ

/-- The calls so far; `accepted` is only recorded. -/
structure Limiter where
  calls : Calls := fun _ => []
  accepted : PyStr → List ℚ := fun _ => []

/-- One more call. -/
def Limiter.call (rate : Nat) (s : Limiter) (c : RateCall) : Limiter :=
  let x := _rate_ok rate s.calls c.cid c.time
  { calls := x.2
    accepted := fun cid =>
      if cid = c.cid ∧ x.1 = true then s.accepted cid ++ [c.time] else s.accepted cid }

/-- After a sequence of calls. -/
def limiter (rate : Nat) (history : List RateCall) : Limiter := history.foldl (Limiter.call rate) {}

/-- For each command the times do not decrease. -/
def Ordered (history : List RateCall) : Prop :=
  history.Pairwise fun c d => c.cid = d.cid → c.time ≤ d.time

section Runs

variable {rate : Nat} {s : Limiter} {c : RateCall} {history : List RateCall}

/-- The calls of other commands change nothing. -/
theorem call_other {cid : PyStr} (h : cid ≠ c.cid) : (s.call rate c).calls cid = s.calls cid ∧
    (s.call rate c).accepted cid = s.accepted cid :=
  ⟨if_neg h, if_neg fun hc => h hc.1⟩

theorem call_self : (s.call rate c).calls c.cid = (admits 60 rate c.time (s.calls c.cid)).2 ∧
    (s.call rate c).accepted c.cid =
      if (admits 60 rate c.time (s.calls c.cid)).1 then s.accepted c.cid ++ [c.time]
      else s.accepted c.cid := by
  refine ⟨if_pos rfl, ?_⟩
  simp [Limiter.call, _rate_ok]

/-- What the limiter keeps of one command, up to a time that no call of it is after. -/
theorem limiter_kept (rate : Nat) (h : Ordered history) (cid : PyStr) {now : ℚ}
    (hnow : ∀ c ∈ history, c.cid = cid → c.time ≤ now) :
    Kept 60 now ((limiter rate history).accepted cid) ((limiter rate history).calls cid) := by
  -- by induction on the history from its end
  induction history using List.reverseRecOn generalizing now with
  | nil => exact kept_nil
  | append_singleton history c ih =>
    obtain ⟨hfront, -, hlast⟩ := List.pairwise_append.1 h
    rw [limiter, List.foldl_append, List.foldl_cons, List.foldl_nil, ← limiter]
    by_cases hc : cid = c.cid
    · subst hc
      have hbefore := ih hfront fun d hd heq => hlast d hd c (List.mem_singleton_self c) heq
      rw [call_self.1, call_self.2]
      have hle : c.time ≤ now := hnow c (List.mem_append_right _ (List.mem_singleton_self c)) rfl
      exact hbefore.admitted.later hle
    · rw [(call_other hc).1, (call_other hc).2]
      exact ih hfront fun d hd => hnow d (List.mem_append_left _ hd)

/-- Every accepted call found fewer than `rate` accepted calls in its window. -/
theorem limiter_accepted (h : Ordered history) (cid : PyStr) :
    ∀ front t back, (limiter rate history).accepted cid = front ++ t :: back →
      (recent 60 t front).length < rate := by
  induction history using List.reverseRecOn with
  | nil =>
    intro front t back heq
    cases front <;> cases heq
  | append_singleton history c ih =>
    obtain ⟨hfront, -, hlast⟩ := List.pairwise_append.1 h
    rw [limiter, List.foldl_append, List.foldl_cons, List.foldl_nil, ← limiter]
    intro front t back heq
    by_cases hc : cid = c.cid
    · subst hc
      rw [call_self.2] at heq
      split at heq
      · rename_i hok
        have hkept := limiter_kept rate hfront c.cid fun d hd heq =>
          hlast d hd c (List.mem_singleton_self c) heq
        rcases List.eq_nil_or_concat back with rfl | ⟨back, u, rfl⟩
        · -- the new one is the last
          obtain ⟨hold, hnew⟩ := List.append_inj' heq rfl
          cases hnew
          rw [← hold]
          exact hkept.admits_iff.1 hok
        · rw [List.concat_eq_append, ← List.cons_append, ← List.append_assoc] at heq
          exact ih hfront front t back (List.append_inj' heq rfl).1
      · exact ih hfront front t back heq
    · rw [(call_other hc).2] at heq
      exact ih hfront front t back heq

end Runs

end Valops.Observer
