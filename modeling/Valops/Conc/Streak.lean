import Mathlib.Data.List.Basic
import Mathlib.Tactic

/-!
# Streaks

The length of the streak at the end of a history of yes and no, kept by a counter that goes up on yes
and back to zero on no.
-/

set_option autoImplicit false

namespace Streak

/-- The streak at the end. -/
def streak (history : List Bool) : Nat := (history.reverse.takeWhile id).length

/-- The last `k` were all yes. -/
def LastAll (k : Nat) (history : List Bool) : Prop :=
  ∃ front back, history = front ++ back ∧ back.length = k ∧ ∀ x ∈ back, x = true

@[simp] theorem streak_nil : streak [] = 0 := rfl

/-- What the counter does. -/
theorem streak_snoc (history : List Bool) (x : Bool) :
    streak (history ++ [x]) = if x then streak history + 1 else 0 := by
  rw [streak, List.reverse_append, List.reverse_singleton, List.singleton_append]
  cases x <;> rfl

/-- **A streak is at least as long as every run of yes at the end.** -/
theorem le_streak_iff {k : Nat} {history : List Bool} : k ≤ streak history ↔ LastAll k history := by
  induction history using List.reverseRecOn generalizing k with
  | nil =>
    constructor
    · intro h
      exact ⟨[], [], rfl, (Nat.le_zero.1 h).symm, nofun⟩
    · rintro ⟨front, back, heq, rfl, -⟩
      rw [(List.append_eq_nil_iff.1 heq.symm).2]
      exact Nat.le_refl 0
  | append_singleton history x ih =>
    rw [streak_snoc]
    cases k with
    | zero => exact iff_of_true (Nat.zero_le _) ⟨_, [], (List.append_nil _).symm, rfl, nofun⟩
    | succ k =>
      constructor
      · intro h
        cases x with
        | false => exact absurd h (Nat.not_succ_le_zero k)
        | true =>
          obtain ⟨front, back, rfl, rfl, hall⟩ := ih.1 (Nat.le_of_succ_le_succ h)
          refine ⟨front, back ++ [true], by simp, by simp, List.forall_mem_append.2 ⟨hall, ?_⟩⟩
          exact List.forall_mem_singleton.2 rfl
      · rintro ⟨front, back, heq, hlen, hall⟩
        rcases List.eq_nil_or_concat back with rfl | ⟨back, y, rfl⟩
        · cases hlen
        rw [List.concat_eq_append] at heq hlen hall
        rw [← List.append_assoc] at heq
        obtain ⟨rfl, hxy⟩ := List.append_inj' heq rfl
        cases hxy
        obtain ⟨hback, hx⟩ := List.forall_mem_append.1 hall
        rw [hx x (List.mem_singleton_self x)]
        rw [List.length_append, List.length_singleton] at hlen
        exact Nat.succ_le_succ (ih.2 ⟨front, back, rfl, Nat.succ.inj hlen, hback⟩)

end Streak
