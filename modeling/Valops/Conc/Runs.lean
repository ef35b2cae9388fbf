/-!
# Runs of a transition system

States reached from an initial one by steps whose acts meet a condition. The condition is a
parameter: facts about all runs take the trivial one, facts that hold only while something does not
happen take that. `Reachable.inv` is the rule for invariants.
-/

set_option autoImplicit false

namespace Conc

variable {σ α : Type} {init : σ → Prop} {step : σ → α → σ → Prop} {ok ok' : σ → α → Prop}

/-- The states of the runs whose acts meet `ok`. -/
inductive Reachable (init : σ → Prop) (step : σ → α → σ → Prop) (ok : σ → α → Prop) : σ → Prop
  | start {s : σ} (h : init s) : Reachable init step ok s
  | next {s s' : σ} {a : α} (h : Reachable init step ok s) (hok : ok s a) (hstep : step s a s') :
      Reachable init step ok s'

/-- Every act is allowed. -/
def anyAct (_ : σ) (_ : α) : Prop := True

instance (s : σ) (a : α) : Decidable (anyAct s a) := .isTrue trivial

/-- **The rule for invariants.** -/
theorem Reachable.inv {I : σ → Prop} (hinit : ∀ s, init s → I s)
    (hstep : ∀ s a s', I s → ok s a → step s a s' → I s') {s : σ}
    (h : Reachable init step ok s) : I s := by
  induction h with
  | start h => exact hinit _ h
  | next _ hok hs ih => exact hstep _ _ _ ih hok hs

/-- Invariants may be proved one after the other. -/
theorem Reachable.inv_of {I J : σ → Prop} (hI : ∀ s, Reachable init step ok s → I s)
    (hinit : ∀ s, init s → J s) (hstep : ∀ s a s', I s → J s → ok s a → step s a s' → J s') {s : σ}
    (h : Reachable init step ok s) : J s := by
  induction h with
  | start h => exact hinit _ h
  | next hr hok hs ih => exact hstep _ _ _ (hI _ hr) ih hok hs

/-- A weaker condition has more runs. -/
theorem Reachable.mono (hok : ∀ s a, ok s a → ok' s a) {s : σ} (h : Reachable init step ok s) :
    Reachable init step ok' s := by
  induction h with
  | start h => exact .start h
  | next _ ha hs ih => exact .next ih (hok _ _ ha) hs

/-- A run can be continued by another one under the same condition. -/
theorem Reachable.append {s s' : σ} (h : Reachable init step ok s)
    (h' : Reachable (· = s) step ok s') : Reachable init step ok s' := by
  induction h' with
  | start heq =>
    rw [heq]
    exact h
  | next _ ha hs ih => exact ih.next ha hs

/-- A run can be continued by another one. -/
theorem Reachable.trans {s s' : σ} (h : Reachable init step ok s)
    (h' : Reachable (· = s) step ok' s') : Reachable init step anyAct s' :=
  (h.mono fun _ _ _ => trivial).append (h'.mono fun _ _ _ => trivial)

/-! ## Running acts

A step that can be executed is a function; a list of acts is then run by it. -/

section Executable

variable {act : σ → α → Option σ}

/-- The state after some acts; an act that cannot happen leaves it as it is. -/
def after (act : σ → α → Option σ) (x : σ) : List α → σ
  | [] => x
  | a :: rest => after act ((act x a).getD x) rest

/-- Every one of some acts can happen and meets a condition where it happens. -/
def Runs (act : σ → α → Option σ) (ok : σ → α → Prop) (x : σ) : List α → Prop
  | [] => True
  | a :: rest =>
    match act x a with
    | some y => ok x a ∧ Runs act ok y rest
    | none => False

/-- Whether acts can be run, if the condition can. -/
def decRuns (act : σ → α → Option σ) (ok : σ → α → Prop) [hok : ∀ x a, Decidable (ok x a)] :
    ∀ (as : List α) (x : σ), Decidable (Runs act ok x as)
  | [], _ => .isTrue trivial
  | a :: rest, x =>
    match h : act x a with
    | some y =>
      have := decRuns act ok rest y
      decidable_of_iff (ok x a ∧ Runs act ok y rest) (by rw [Runs, h])
    | none => .isFalse (by rw [Runs, h]; exact id)

instance (act : σ → α → Option σ) (ok : σ → α → Prop) [∀ x a, Decidable (ok x a)] (as : List α)
    (x : σ) : Decidable (Runs act ok x as) :=
  decRuns act ok as x

/-- A condition that all the acts meet is met where they happen. -/
theorem Runs.of_all : ∀ {as : List α} {x : σ}, Runs act ok x as → (∀ a ∈ as, ∀ x, ok' x a) →
    Runs act ok' x as
  | [], _, _, _ => trivial
  | a :: rest, x, h, hall => by
    unfold Runs at h ⊢
    split at h
    · exact ⟨hall a List.mem_cons_self x,
        Runs.of_all h.2 fun b hb => hall b (List.mem_cons_of_mem a hb)⟩
    · exact h.elim

/-- Acts that can be run continue a run. -/
theorem Reachable.after (hact : ∀ x a y, act x a = some y → step x a y) : ∀ {as : List α} {x : σ},
    Reachable init step ok x → Runs act ok x as → Reachable init step ok (Conc.after act x as)
  | [], x, hx, _ => hx
  | a :: rest, x, hx, h => by
    unfold Runs at h
    unfold Conc.after
    split at h
    · rename_i y hy
      rw [hy, Option.getD_some]
      exact Reachable.after hact (hx.next h.1 (hact x a y hy)) h.2
    · exact h.elim

theorem step_after (hact : ∀ x a y, act x a = some y → step x a y) {x : σ} {a : α}
    (h : (act x a).isSome = true) : step x a (after act x [a]) := by
  obtain ⟨y, hy⟩ := Option.isSome_iff_exists.1 h
  rw [after, after, hy, Option.getD_some]
  exact hact x a y hy

end Executable

end Conc
