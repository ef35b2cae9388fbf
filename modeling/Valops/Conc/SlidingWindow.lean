import Mathlib.Algebra.Order.Group.Defs
import Mathlib.Algebra.Order.Group.Unbundled.Basic
import Mathlib.Data.List.Induction
import Mathlib.Data.List.TakeWhile

/-!
# Sliding windows

A counter that keeps the times it has accepted in order and drops the expired ones from the front
only, when it is asked again. What it keeps is then the end of what it has accepted, and nothing in
front of it is in the window any more (`Kept`).
-/

set_option autoImplicit false

namespace SlidingWindow

variable {T : Type} [AddCommGroup T] [LinearOrder T]

/-- The times up to now that are no further back than the width of the window. -/
def recent (w now : T) (xs : List T) : List T := xs.filter fun s => now - w ≤ s ∧ s ≤ now

/-- The expired times at the front are dropped. -/
def prune (w now : T) (q : List T) : List T := q.dropWhile fun s => w < now - s

/-- Fewer than `r` times are kept: the new one is accepted. -/
def admits (w : T) (r : Nat) (now : T) (q : List T) : Bool × List T :=
  let q := prune w now q
  if r ≤ q.length then (false, q) else (true, q ++ [now])

/-- The times kept are the last ones of all accepted times, and the others have expired. -/
structure Kept (w now : T) (accepted q : List T) : Prop where
  split : ∃ old, accepted = old ++ q ∧ ∀ s ∈ old, w < now - s
  sorted : accepted.Pairwise (· ≤ ·)
  past : ∀ s ∈ accepted, s ≤ now

section Kept

variable {w now : T} {accepted q : List T} {r : Nat}

theorem kept_nil : Kept w now ([] : List T) [] :=
  ⟨⟨[], rfl, fun _ h => absurd h List.not_mem_nil⟩, .nil, fun _ h => absurd h List.not_mem_nil⟩

theorem Kept.pruned (h : Kept w now accepted q) : Kept w now accepted (prune w now q) := by
  obtain ⟨old, rfl, hold⟩ := h.split
  refine ⟨⟨old ++ q.takeWhile fun s => decide (w < now - s), ?_, ?_⟩, h.sorted, h.past⟩
  · rw [List.append_assoc, prune, List.takeWhile_append_dropWhile]
  · refine List.forall_mem_append.2 ⟨hold, fun s hs => ?_⟩
    simpa using List.mem_takeWhile_imp hs

/-- One call keeps the times in order. -/
theorem Kept.admitted (h : Kept w now accepted q) :
    Kept w now (if (admits w r now q).1 then accepted ++ [now] else accepted) (admits w r now q).2 := by
  unfold admits
  dsimp only
  have hp := h.pruned
  split
  · exact hp
  · obtain ⟨old, heq, hold⟩ := hp.split
    refine ⟨⟨old, ?_, hold⟩, ?_, ?_⟩
    · rw [if_pos rfl, heq, List.append_assoc]
    · rw [if_pos rfl]
      refine List.pairwise_append.2 ⟨h.sorted, List.pairwise_singleton _ _, fun x hx y hy => ?_⟩
      rw [List.mem_singleton.1 hy]
      exact h.past x hx
    · rw [if_pos rfl]
      exact List.forall_mem_append.2 ⟨h.past, List.forall_mem_singleton.2 (le_refl now)⟩

variable [IsOrderedAddMonoid T]

/-- What has expired stays expired. -/
theorem Kept.later {t : T} (h : Kept w now accepted q) (hle : now ≤ t) : Kept w t accepted q := by
  obtain ⟨old, rfl, hold⟩ := h.split
  refine ⟨⟨old, rfl, fun s hs => ?_⟩, h.sorted, fun s hs => (h.past s hs).trans hle⟩
  exact (hold s hs).trans_le (sub_le_sub_right hle s)

theorem not_recent_iff {s : T} : w < now - s ↔ ¬ now - w ≤ s := by
  rw [not_le, lt_sub_comm]

/-- Of a sorted list the expired times are the first ones. -/
theorem prune_eq_recent (hs : q.Pairwise (· ≤ ·)) (hpast : ∀ s ∈ q, s ≤ now) :
    prune w now q = recent w now q := by
  induction q with
  | nil => rfl
  | cons s q ih =>
    obtain ⟨hfirst, hrest⟩ := List.pairwise_cons.1 hs
    obtain ⟨hnow, hpast⟩ := List.forall_mem_cons.1 hpast
    by_cases h : w < now - s
    · -- an expired time is dropped by both
      have hout : ¬ (now - w ≤ s ∧ s ≤ now) := fun hin => not_recent_iff.1 h hin.1
      rw [recent, List.filter_cons_of_neg (by simpa using hout), ← recent, ← ih hrest hpast]
      exact List.dropWhile_cons_of_pos (decide_eq_true h)
    · -- and behind one that is not, nothing has expired
      have hin : now - w ≤ s := not_not.1 (mt not_recent_iff.2 h)
      have hall : ∀ x ∈ s :: q, now - w ≤ x ∧ x ≤ now := by
        refine List.forall_mem_cons.2 ⟨⟨hin, hnow⟩, fun x hx => ⟨hin.trans (hfirst x hx), hpast x hx⟩⟩
      rw [recent, List.filter_eq_self.2 fun x hx => decide_eq_true (hall x hx)]
      exact List.dropWhile_cons_of_neg (by simpa using h)

/-- **The times kept are those in the window**, once the front has been dropped. -/
theorem Kept.prune_eq (h : Kept w now accepted q) : prune w now q = recent w now accepted := by
  obtain ⟨old, rfl, hold⟩ := h.split
  have hq := (List.pairwise_append.1 h.sorted).2.1
  have hpast := (List.forall_mem_append.1 h.past).2
  have hnone : recent w now old = [] := by
    apply List.filter_eq_nil_iff.2
    intro s hs hin
    exact not_recent_iff.1 (hold s hs) (of_decide_eq_true hin).1
  rw [recent, List.filter_append, ← recent, ← recent, hnone, List.nil_append]
  exact prune_eq_recent hq hpast

/-- **What one call does.** It is accepted if and only if the window has fewer than `r` of the
accepted times. -/
theorem Kept.admits_iff (h : Kept w now accepted q) :
    (admits w r now q).1 = true ↔ (recent w now accepted).length < r := by
  rw [admits, h.prune_eq]
  split
  · rename_i hle
    exact iff_of_false Bool.false_ne_true (Nat.not_lt.2 hle)
  · rename_i hlt
    exact iff_of_true rfl (Nat.not_le.1 hlt)

end Kept

/-! ## Windows anywhere -/

/-- The times of a closed interval. -/
def between (a b : T) (xs : List T) : List T := xs.filter fun s => a ≤ s ∧ s ≤ b

/-- **No window has more than `r` times**, if each new time found fewer than `r` in its own. -/
theorem between_le [IsOrderedAddMonoid T] {w a : T} {r : Nat} {xs : List T} (hs : xs.Pairwise (· ≤ ·))
    (hnew : ∀ front s back, xs = front ++ s :: back → (recent w s front).length < r) :
    (between a (a + w) xs).length ≤ r := by
  -- from the end: the last time of the interval has all the others in its window
  induction xs using List.reverseRecOn with
  | nil => exact Nat.zero_le r
  | append_singleton xs t ih =>
    obtain ⟨hxs, -, hlast⟩ := List.pairwise_append.1 hs
    have ih := ih hxs fun front s back heq => hnew front s (back ++ [t]) (by simp [heq])
    by_cases hin : a ≤ t ∧ t ≤ a + w
    · have hlt := hnew xs t [] rfl
      have hsub : between a (a + w) xs = (recent w t xs).filter fun s => a ≤ s := by
        rw [between, recent, List.filter_filter]
        refine List.filter_congr fun s hmem => decide_eq_decide.2 ?_ |>.trans (Bool.decide_and _ _)
        have hst : s ≤ t := hlast s hmem t (List.mem_singleton_self t)
        constructor
        · exact fun h => ⟨h.1, (sub_le_iff_le_add.2 hin.2).trans h.1, hst⟩
        · exact fun h => ⟨h.1, hst.trans hin.2⟩
      have hle : (between a (a + w) xs).length ≤ (recent w t xs).length := by
        rw [hsub]
        exact List.length_filter_le _ _
      rw [between, List.filter_append, List.length_append, ← between,
        List.filter_cons_of_pos (by simpa using hin)]
      exact Nat.lt_of_le_of_lt hle hlt
    · rw [between, List.filter_append, ← between, List.filter_cons_of_neg (by simpa using hin)]
      simpa using ih

end SlidingWindow
