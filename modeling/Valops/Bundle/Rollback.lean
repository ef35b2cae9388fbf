import Valops.Bundle.Lifecycle

/-!
# Rolling back

`rollback` takes the last row of the history whose bundle is the current one and that has a
predecessor. In every reachable history that is the last row, whatever its call was: a repeated
activation of the current bundle is a row too, and its predecessor is the bundle itself.

Main result: `rolls_back_iff`, when the bundle before the current one comes back.
-/

set_option autoImplicit false

namespace Valops

open Py Conc

/-- `BundleRegistry.rollback`, with the id that it returns. -/
def rollbackCall (r : BundleRegistry) (keyActive : PyStr → Bool) (l : Lifecycle) (by' : PyStr)
    (ts : Double) : Except Exc (PyStr × Lifecycle) :=
  match (rollbackRow l).bind Activation.previous with
  | some previous => do
    let l' ← activate r keyActive l previous by' ts
    pure (previous, l')
  | none => .error (.other .bundleError)

/-- `b` was active immediately before the current bundle last became the active one. -/
def PrecedesCurrent (l : Lifecycle) (b : PyStr) : Prop :=
  ∃ front row own, l.history = front ++ row :: own ∧ row.active = b ∧ l.active ≠ some b ∧
    ∀ x ∈ own, l.active = some x.active

/-- A rollback activates that bundle and returns its id; where there has been no other bundle, it is
refused. -/
def RollsBack (r : BundleRegistry) (keyActive : PyStr → Bool) (l : Lifecycle) (by' : PyStr)
    (ts : Double) : Prop :=
  (∀ b, PrecedesCurrent l b → rollbackCall r keyActive l by' ts =
    .ok (b, ⟨some b, l.history ++ [⟨ts, b, l.active, by'⟩]⟩)) ∧
  ((∀ row ∈ l.history, l.active = some row.active) →
    ∃ e, rollbackCall r keyActive l by' ts = .error e)

section Rollback

variable {r : BundleRegistry} {keyActive : PyStr → Bool} {l : Lifecycle} {by' b : PyStr} {ts : Double}
  {front : List Activation} {row a : Activation}

/-- Both descriptions of the method agree on what is left. -/
theorem rollback_eq : rollback r keyActive l by' ts =
    (rollbackCall r keyActive l by' ts).map Prod.snd := by
  unfold rollback rollbackCall
  cases (rollbackRow l).bind Activation.previous with
  | none => rfl
  | some previous =>
    show activate r keyActive l previous by' ts =
      (activate r keyActive l previous by' ts >>= fun l' => pure (previous, l')).map Prod.snd
    cases activate r keyActive l previous by' ts with
    | error e => rfl
    | ok l' => rfl

/-- **What a reachable history ends with.** The pointer is the last row's bundle, and its predecessor
is the bundle of the row before. -/
theorem last_row (h : ReachableLifecycle l) :
    l = {} ∨ ∃ front row, l = ⟨some row.active, front ++ [row]⟩ ∧
      row.previous = front.getLast?.map Activation.active := by
  cases h with
  | start h => exact .inl h
  | @next l₀ _ _ hreach _ hstep =>
    obtain ⟨row, hprevious, rfl⟩ := lifecycleStep_spec hstep
    exact .inr ⟨l₀.history, row, rfl, hprevious.trans (active_eq_last hreach)⟩

theorem rollbackRow_last (hprevious : row.previous.isSome = true) :
    rollbackRow ⟨some row.active, front ++ [row]⟩ = some row := by
  unfold rollbackRow
  rw [List.reverse_append, List.reverse_singleton, List.singleton_append, List.find?_cons_of_pos]
  rw [hprevious]
  exact Bool.and_eq_true_iff.2 ⟨decide_eq_true rfl, rfl⟩

/-- After two rows, a rollback activates the bundle of the row before the last one. -/
theorem rollbackCall_two (hprevious : row.previous = some b) :
    rollbackCall r keyActive ⟨some row.active, front ++ [row]⟩ by' ts =
      (activate r keyActive ⟨some row.active, front ++ [row]⟩ b by' ts >>= fun l' => pure (b, l')) := by
  unfold rollbackCall
  rw [rollbackRow_last (Option.isSome_iff_exists.2 ⟨b, hprevious⟩), Option.bind_some, hprevious]

theorem activate_ok (hverify : r.verify (.str b) = .ok none) (hkey : keyActive b = true) :
    activate r keyActive l b by' ts = .ok ⟨some b, l.history ++ [⟨ts, b, l.active, by'⟩]⟩ := by
  unfold activate
  rw [hverify, ok_bind, hkey]
  rfl

/-- Which bundle comes before the current one, by the row before the last. -/
theorem precedes_of_ne (hne : a.active ≠ row.active) :
    PrecedesCurrent ⟨some row.active, front ++ [a, row]⟩ b ↔ b = a.active := by
  constructor
  · rintro ⟨front', row', own, heq, rfl, hrow', hown⟩
    have heq : front ++ [a, row] = front' ++ row' :: own := heq
    rcases List.eq_nil_or_concat own with rfl | ⟨own, z, rfl⟩
    · -- the last row itself is of the current bundle
      have hsplit : (front ++ [a]) ++ [row] = front' ++ [row'] := by
        rw [← heq, List.append_assoc, List.singleton_append]
      obtain ⟨_, hlast⟩ := List.append_inj' hsplit rfl
      cases hlast
      exact absurd rfl hrow'
    · rcases List.eq_nil_or_concat own with rfl | ⟨own, y, rfl⟩
      · have hsplit : front ++ [a, row] = front' ++ [row', z] := heq
        obtain ⟨_, hlast⟩ := List.append_inj' hsplit rfl
        cases hlast
        rfl
      · have hsplit : front ++ [a, row] = (front' ++ row' :: own) ++ [y, z] := by
          rw [heq]
          simp
        obtain ⟨_, hlast⟩ := List.append_inj' hsplit rfl
        cases hlast
        have ha := hown a (by simp)
        exact absurd (Option.some.inj ha).symm hne
  · rintro rfl
    refine ⟨front, a, [row], rfl, rfl, fun h => hne (Option.some.inj h).symm, ?_⟩
    exact List.forall_mem_singleton.2 rfl

/-- **When a rollback leaves the current bundle**: iff the last two calls activated different bundles,
or there were fewer than two. -/
theorem rolls_back_iff (h : ReachableLifecycle l)
    (hgood : ∀ row ∈ l.history, r.verify (.str row.active) = .ok none ∧ keyActive row.active = true) :
    RollsBack r keyActive l by' ts ↔
      ∀ front a row, l.history = front ++ [a, row] → a.active ≠ row.active := by
  rcases last_row h with rfl | ⟨front, row, rfl, hprevious⟩
  · -- no call yet
    refine iff_of_true ⟨?_, fun _ => ⟨.other .bundleError, rfl⟩⟩ ?_
    · rintro b ⟨front, row, own, heq, _⟩
      exact absurd heq (by simp)
    · intro front a row heq
      exact absurd heq (by simp)
  · rcases List.eq_nil_or_concat front with rfl | ⟨front, a, rfl⟩
    · -- one call
      refine iff_of_true ⟨?_, fun _ => ⟨.other .bundleError, ?_⟩⟩ ?_
      · rintro b ⟨front', row', own, heq, rfl, hne, _⟩
        have hmem : row' ∈ [row] := by
          have heq : [row] = front' ++ row' :: own := heq
          rw [heq]
          simp
        rw [List.mem_singleton.1 hmem] at hne
        exact absurd rfl hne
      · have hnone : row.previous = none := hprevious
        simp [rollbackCall, rollbackRow, hnone]
      · intro front' a row' heq
        have hlength := congrArg List.length heq
        simp at hlength
    · have hlast : row.previous = some a.active := by
        rw [hprevious, List.concat_eq_append, List.getLast?_concat]
        rfl
      have hga := hgood a (by simp)
      have hcall : rollbackCall r keyActive ⟨some row.active, front.concat a ++ [row]⟩ by' ts =
          .ok (a.active, ⟨some a.active,
            (front.concat a ++ [row]) ++ [⟨ts, a.active, some row.active, by'⟩]⟩) := by
        rw [rollbackCall_two hlast, activate_ok hga.1 hga.2]
        rfl
      have hhistory : front.concat a ++ [row] = front ++ [a, row] := by simp
      constructor
      · rintro ⟨hback, hrefused⟩ front' a' row' heq hsame
        obtain ⟨_, hrows⟩ := List.append_inj' (hhistory.symm.trans heq) rfl
        cases hrows
        rw [hcall] at hback hrefused
        -- the rollback activates the current bundle again
        by_cases hall : ∀ x ∈ front.concat a ++ [row], some row.active = some x.active
        · obtain ⟨e, he⟩ := hrefused hall
          cases he
        · obtain ⟨x, hx, hne⟩ : ∃ x ∈ front.concat a ++ [row], x.active ≠ row.active := by
            by_contra hnone
            exact hall fun x hx => congrArg some
              (not_not.1 fun hne => hnone ⟨x, hx, Ne.symm hne⟩)
          obtain ⟨before, c, own, hsplit, hc, hown⟩ :=
            exists_last (p := fun x => x.active ≠ row.active) ⟨x, hx, hne⟩
          have hprecedes : PrecedesCurrent ⟨some row.active, front.concat a ++ [row]⟩ c.active :=
            ⟨before, c, own, hsplit, rfl, fun h => hc (Option.some.inj h).symm,
              fun x hx => congrArg some (not_not.1 (hown x hx)).symm⟩
          have hc' := (Prod.mk.inj (Except.ok.inj (hback c.active hprecedes))).1
          exact hc (hc'.symm.trans hsame)
      · intro hdiffer
        have hne := hdiffer front a row hhistory
        refine ⟨fun b hb => ?_, fun hall => ?_⟩
        · rw [hhistory, precedes_of_ne hne] at hb
          rw [hcall, hb]
        · have ha := hall a (by simp)
          exact absurd (Option.some.inj ha).symm hne

end Rollback

/-! ### A repeated activation -/

/-- After `A` and `B`, `B` is activated once more. -/
def repeated : Lifecycle :=
  ⟨some bundleB, upgraded.history ++ [⟨thirdTs, bundleB, some bundleB, []⟩]⟩

theorem repeated_reachable : ReachableLifecycle repeated := by
  have h₃ : LifecycleStep upgraded (.activate exampleRegistry (fun _ => true) bundleB [] thirdTs)
      repeated := rfl
  exact upgraded_reachable.next trivial h₃

theorem rolls_back_upgrade : RollsBack exampleRegistry (fun _ => true) upgraded [] thirdTs ↔
    ∀ front a row, upgraded.history = front ++ [a, row] → a.active ≠ row.active := by
  refine rolls_back_iff upgraded_reachable fun row hrow => ?_
  simp only [upgraded, List.mem_cons, List.not_mem_nil, or_false] at hrow
  rcases hrow with rfl | rfl <;> exact ⟨rfl, rfl⟩

/-- The rollback of a bundle that was activated twice activates it again. -/
theorem rollback_stays : ReachableLifecycle repeated ∧ repeated.active = some bundleB ∧
    PrecedesCurrent repeated bundleA ∧
    rollbackCall exampleRegistry (fun _ => true) repeated [] thirdTs =
      .ok (bundleB, ⟨some bundleB, repeated.history ++ [⟨thirdTs, bundleB, some bundleB, []⟩]⟩) ∧
    ¬ RollsBack exampleRegistry (fun _ => true) repeated [] thirdTs := by
  have hprecedes : PrecedesCurrent repeated bundleA :=
    ⟨[], ⟨firstTs, bundleA, none, []⟩, _, rfl, rfl, by decide, by decide⟩
  have hcall : rollbackCall exampleRegistry (fun _ => true) repeated [] thirdTs =
      .ok (bundleB, ⟨some bundleB, repeated.history ++ [⟨thirdTs, bundleB, some bundleB, []⟩]⟩) := rfl
  refine ⟨repeated_reachable, rfl, hprecedes, hcall, fun hback => ?_⟩
  have hback := hback.1 bundleA hprecedes
  rw [hcall] at hback
  exact absurd (Prod.mk.inj (Except.ok.inj hback)).1 (by decide)

end Valops
