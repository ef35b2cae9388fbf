import Valops.Conc.Runs
import Valops.Bundle.Registry
import Valops.Py.Double

/-!
# Activation, rollback and drain

`active` is a pointer, `active.history` an append-only list of activations. Rolling back activates
the bundle before the current one again, so a bundle may be activated any number of times.
`superseded_at` takes the first activation that follows one of the bundle.

Main result: `superseded_agrees`, when that is the activation that matters.
-/

set_option autoImplicit false

namespace Valops

open Py Conc

/-- A row of `active.history`. -/
structure Activation where
  ts : Double
  active : PyStr
  previous : Option PyStr
  by' : PyStr
  deriving DecidableEq

/-- The two files that `activate` writes. -/
structure Lifecycle where
  active : Option PyStr := none
  history : List Activation := []
  deriving DecidableEq

section Functions

variable (r : BundleRegistry) (keyActive : PyStr → Bool)

/-- `BundleRegistry.activate`. `keyActive` says whether the key that signed a bundle is active. -/
def activate (l : Lifecycle) (bundle_id by' : PyStr) (ts : Double) : Except Exc Lifecycle := do
  let reason ← r.verify (.str bundle_id)
  require reason.isNone (.other .bundleError)
  require (keyActive bundle_id) (.other .bundleError)
  pure ⟨some bundle_id, l.history ++ [⟨ts, bundle_id, l.active, by'⟩]⟩

/-- The row that `rollback` looks for, last first. -/
def rollbackRow (l : Lifecycle) : Option Activation :=
  l.history.reverse.find? fun row => decide (some row.active = l.active) && row.previous.isSome

/-- `BundleRegistry.rollback`. -/
def rollback (l : Lifecycle) (by' : PyStr) (ts : Double) : Except Exc Lifecycle :=
  match (rollbackRow l).bind Activation.previous with
  | some previous => activate r keyActive l previous by' ts
  | none => .error (.other .bundleError)

end Functions

/-- The loop of `superseded_at`. -/
def supersededLoop (bundle_id : PyStr) : Bool → List Activation → Option Double
  | _, [] => none
  | seen, row :: rest =>
    if row.active = bundle_id then supersededLoop bundle_id true rest
    else if seen then some row.ts
    else supersededLoop bundle_id seen rest

/-- `BundleRegistry.superseded_at`. -/
def superseded_at (l : Lifecycle) (bundle_id : PyStr) : Option Double :=
  supersededLoop bundle_id false l.history

/-! ## Runs -/

/-- A call, and what the registry answers in it. -/
inductive LifecycleAct where
  | activate (r : BundleRegistry) (keyActive : PyStr → Bool) (bundle_id by' : PyStr) (ts : Double)
  | rollback (r : BundleRegistry) (keyActive : PyStr → Bool) (by' : PyStr) (ts : Double)

/-- A call that succeeds. -/
def LifecycleStep (l : Lifecycle) : LifecycleAct → Lifecycle → Prop
  | .activate r keyActive bundle_id by' ts, l' => activate r keyActive l bundle_id by' ts = .ok l'
  | .rollback r keyActive by' ts, l' => rollback r keyActive l by' ts = .ok l'

/-- What any number of successful calls leave. -/
abbrev ReachableLifecycle : Lifecycle → Prop := Reachable (· = {}) LifecycleStep anyAct

section Runs

variable {r : BundleRegistry} {keyActive : PyStr → Bool} {l l' : Lifecycle} {bundle_id by' : PyStr}
  {ts : Double}

theorem activate_eq_ok (h : activate r keyActive l bundle_id by' ts = .ok l') :
    l' = ⟨some bundle_id, l.history ++ [⟨ts, bundle_id, l.active, by'⟩]⟩ := by
  unfold activate at h
  obtain ⟨_, _, h⟩ := bind_eq_ok.1 h
  obtain ⟨_, _, h⟩ := bind_eq_ok.1 h
  obtain ⟨_, _, h⟩ := bind_eq_ok.1 h
  exact (pure_eq_ok.1 h).symm

/-- Every successful call activates one bundle. -/
theorem lifecycleStep_spec {a : LifecycleAct} (h : LifecycleStep l a l') :
    ∃ row, row.previous = l.active ∧ l' = ⟨some row.active, l.history ++ [row]⟩ := by
  cases a with
  | activate r keyActive bundle_id by' ts =>
    exact ⟨⟨ts, bundle_id, l.active, by'⟩, rfl, activate_eq_ok h⟩
  | rollback r keyActive by' ts =>
    have h : rollback r keyActive l by' ts = .ok l' := h
    unfold rollback at h
    split at h
    · rename_i previous _
      exact ⟨⟨ts, previous, l.active, by'⟩, rfl, activate_eq_ok h⟩
    · cases h

/-- **The pointer is the last row.** -/
theorem active_eq_last (h : ReachableLifecycle l) :
    l.active = l.history.getLast?.map Activation.active := by
  induction h with
  | start h =>
    rw [h]
    rfl
  | next _ _ hstep _ =>
    obtain ⟨row, _, rfl⟩ := lifecycleStep_spec hstep
    rw [List.getLast?_concat]
    rfl

end Runs

/-! ## When a bundle was replaced -/

section Replaced

variable {b : PyStr} {t t' : Double} {h : List Activation}

/-- The first activation that replaced the bundle came at `t`. -/
def FirstReplaced (b : PyStr) (h : List Activation) (t : Double) : Prop :=
  ∃ front a own next back, h = front ++ a :: own ++ next :: back ∧ (∀ x ∈ front, x.active ≠ b) ∧
    (∀ x ∈ a :: own, x.active = b) ∧ next.active ≠ b ∧ next.ts = t

/-- The activation that most recently replaced the bundle came at `t`. -/
def LastReplaced (b : PyStr) (h : List Activation) (t : Double) : Prop :=
  ∃ front a next back, h = front ++ a :: next :: back ∧ a.active = b ∧
    (∀ x ∈ next :: back, x.active ≠ b) ∧ next.ts = t

theorem supersededLoop_own {own : List Activation} (h : ∀ x ∈ own, x.active = b) {seen : Bool}
    (hne : own ≠ []) (rest : List Activation) :
    supersededLoop b seen (own ++ rest) = supersededLoop b true rest := by
  induction own generalizing seen with
  | nil => exact absurd rfl hne
  | cons x own ih =>
    obtain ⟨hx, hown⟩ := List.forall_mem_cons.1 h
    rw [List.cons_append, supersededLoop, if_pos hx]
    cases own with
    | nil => rfl
    | cons y own => exact ih hown (List.cons_ne_nil y own)

theorem supersededLoop_others {front : List Activation} (h : ∀ x ∈ front, x.active ≠ b)
    (rest : List Activation) :
    supersededLoop b false (front ++ rest) = supersededLoop b false rest := by
  induction front with
  | nil => rfl
  | cons x front ih =>
    obtain ⟨hx, hfront⟩ := List.forall_mem_cons.1 h
    rw [List.cons_append, supersededLoop, if_neg hx, if_neg Bool.false_ne_true, ih hfront]

/-- A list in front of the first element that meets a condition. -/
theorem exists_first {p : Activation → Prop} [DecidablePred p] (hex : ∃ x ∈ h, p x) :
    ∃ front a rest, h = front ++ a :: rest ∧ (∀ x ∈ front, ¬ p x) ∧ p a := by
  induction h with
  | nil => simp at hex
  | cons x xs ih =>
    by_cases hx : p x
    · exact ⟨[], x, xs, rfl, nofun, hx⟩
    · have hrest : ∃ y ∈ xs, p y := by
        obtain ⟨y, hy, hpy⟩ := hex
        rcases List.mem_cons.1 hy with rfl | hy
        · exact absurd hpy hx
        · exact ⟨y, hy, hpy⟩
      obtain ⟨front, a, rest, rfl, hfront, ha⟩ := ih hrest
      exact ⟨x :: front, a, rest, rfl, List.forall_mem_cons.2 ⟨hx, hfront⟩, ha⟩

/-- `superseded_at` gives the first activation that replaced the bundle. -/
theorem superseded_first {l : Lifecycle} :
    superseded_at l b = some t ↔ FirstReplaced b l.history t := by
  constructor
  · intro hsup
    unfold superseded_at at hsup
    by_cases hex : ∃ x ∈ l.history, x.active = b
    · obtain ⟨front, a, rest, heq, hfront, ha⟩ := exists_first hex
      have hown : ∀ x ∈ [a], x.active = b := List.forall_mem_singleton.2 ha
      rw [heq, supersededLoop_others hfront, ← List.singleton_append,
        supersededLoop_own hown (List.cons_ne_nil a [])] at hsup
      by_cases hnext : ∃ x ∈ rest, x.active ≠ b
      · obtain ⟨own, next, back, hrest, hmine, hne⟩ := exists_first hnext
        have hmine' : ∀ x ∈ own, x.active = b := fun x hx => not_not.1 (hmine x hx)
        refine ⟨front, a, own, next, back, ?_, hfront, List.forall_mem_cons.2 ⟨ha, hmine'⟩, hne, ?_⟩
        · rw [heq, hrest, List.append_assoc, List.cons_append]
        · have hloop : supersededLoop b true (own ++ next :: back) = some next.ts := by
            cases own with
            | nil => rw [List.nil_append, supersededLoop, if_neg hne, if_pos rfl]
            | cons y own =>
              rw [supersededLoop_own hmine' (List.cons_ne_nil y own), supersededLoop, if_neg hne,
                if_pos rfl]
          rw [hrest, hloop] at hsup
          exact Option.some.inj hsup
      · have hall : ∀ x ∈ rest, x.active = b := fun x hx => not_not.1 fun hne => hnext ⟨x, hx, hne⟩
        have hloop : supersededLoop b true rest = none := by
          cases rest with
          | nil => rfl
          | cons y rest =>
            have hown : supersededLoop b true (y :: rest ++ []) = supersededLoop b true [] :=
              supersededLoop_own hall (List.cons_ne_nil y rest) []
            rwa [List.append_nil] at hown
        rw [hloop] at hsup
        cases hsup
    · have hnone : ∀ x ∈ l.history, x.active ≠ b := fun x hx heq => hex ⟨x, hx, heq⟩
      have hloop := supersededLoop_others hnone []
      rw [List.append_nil] at hloop
      rw [hloop] at hsup
      cases hsup
  · rintro ⟨front, a, own, next, back, heq, hfront, hown, hne, rfl⟩
    rw [superseded_at, heq, List.append_assoc, supersededLoop_others hfront,
      supersededLoop_own hown (List.cons_ne_nil a own), supersededLoop, if_neg hne, if_pos rfl]

/-- The bundle was activated again after another one had replaced it. -/
def Returned (b : PyStr) (h : List Activation) : Prop :=
  ∃ front a mid next mid' c back, h = front ++ a :: mid ++ next :: mid' ++ c :: back ∧
    a.active = b ∧ next.active ≠ b ∧ c.active = b

theorem exists_last {p : Activation → Prop} [DecidablePred p] (hex : ∃ x ∈ h, p x) :
    ∃ front a rest, h = front ++ a :: rest ∧ p a ∧ ∀ x ∈ rest, ¬ p x := by
  have hrev : ∃ x ∈ h.reverse, p x := by
    obtain ⟨x, hx, hp⟩ := hex
    exact ⟨x, List.mem_reverse.2 hx, hp⟩
  obtain ⟨front, a, rest, heq, hfront, ha⟩ := exists_first hrev
  refine ⟨rest.reverse, a, front.reverse, ?_, ha, fun x hx => hfront x (List.mem_reverse.1 hx)⟩
  rw [← List.reverse_reverse h, heq, List.reverse_append, List.reverse_cons, List.append_assoc,
    List.singleton_append]

theorem lastReplaced_exists (hmem : ∃ x ∈ h, x.active = b)
    (hlast : h.getLast?.map Activation.active ≠ some b) : ∃ t, LastReplaced b h t := by
  obtain ⟨front, a, rest, rfl, ha, hrest⟩ := exists_last hmem
  cases rest with
  | nil =>
    rw [List.getLast?_concat, Option.map_some, ha] at hlast
    exact absurd rfl hlast
  | cons next back => exact ⟨next.ts, front, a, next, back, rfl, ha, hrest, rfl⟩

/-- A bundle that was not activated again was replaced once. -/
theorem firstReplaced_of_last (hlast : LastReplaced b h t) (hret : ¬ Returned b h) :
    FirstReplaced b h t := by
  obtain ⟨front, a, next, back, rfl, ha, hback, rfl⟩ := hlast
  have hmem : ∃ x ∈ front ++ [a], x.active = b := ⟨a, by simp, ha⟩
  obtain ⟨front', a', own, heq, hfront, ha'⟩ := exists_first hmem
  have hsplit : front ++ a :: next :: back = front' ++ a' :: own ++ next :: back := by
    rw [← heq, List.append_assoc, List.singleton_append]
  rw [hsplit] at hret ⊢
  refine ⟨front', a', own, next, back, rfl, hfront, List.forall_mem_cons.2 ⟨ha', ?_⟩,
    hback next List.mem_cons_self, rfl⟩
  -- another bundle among them would lie between `a'` and `a`
  by_contra hother
  have hother : ∃ x ∈ own, x.active ≠ b := by
    by_contra hnone
    exact hother fun x hx => not_not.1 fun hne => hnone ⟨x, hx, hne⟩
  obtain ⟨mid, y, mid', rfl, hmid, hy⟩ := exists_first hother
  obtain ⟨before, hbefore⟩ : ∃ before, mid' = before ++ [a] := by
    have hend := congrArg List.getLast? heq
    rw [List.getLast?_concat] at hend
    rcases List.eq_nil_or_concat mid' with rfl | ⟨before, z, rfl⟩
    · rw [← List.cons_append, ← List.append_assoc, List.getLast?_concat] at hend
      exact absurd (Option.some.inj hend ▸ ha) hy
    · rw [List.concat_eq_append, ← List.cons_append, ← List.cons_append, ← List.append_assoc,
        ← List.append_assoc, List.getLast?_concat] at hend
      exact ⟨before, by rw [List.concat_eq_append, Option.some.inj hend]⟩
  refine hret ⟨front', a', mid, y, before, a, next :: back, ?_, ha', hy, ha⟩
  rw [hbefore]
  simp only [List.append_assoc, List.cons_append, List.nil_append]

/-- A bundle that comes again was replaced before. -/
theorem Returned.replaced (hret : Returned b h) : ∃ t, FirstReplaced b h t := by
  obtain ⟨front, a, mid, next, mid', c, back, rfl, ha, hnext, hc⟩ := hret
  have hmem : ∃ x ∈ front ++ a :: mid, x.active = b := ⟨a, by simp, ha⟩
  obtain ⟨front', a', rest, heq, hfront, ha'⟩ := exists_first hmem
  have hother : ∃ x ∈ rest ++ next :: mid' ++ c :: back, x.active ≠ b := ⟨next, by simp, hnext⟩
  obtain ⟨own, next', back', hrest, hown, hnext'⟩ := exists_first hother
  refine ⟨next'.ts, front', a', own, next', back', ?_, hfront,
    List.forall_mem_cons.2 ⟨ha', fun x hx => not_not.1 (hown x hx)⟩, hnext', rfl⟩
  rw [heq, List.append_assoc, List.append_assoc, List.cons_append, ← List.append_assoc, hrest,
    List.append_assoc, List.cons_append]

theorem returned_of_last (hfirst : FirstReplaced b h t)
    (hlast : h.getLast?.map Activation.active = some b) : Returned b h := by
  obtain ⟨front, a, own, next, back, rfl, _, hown, hne, _⟩ := hfirst
  rcases List.eq_nil_or_concat back with rfl | ⟨mid', c, rfl⟩
  · rw [List.getLast?_concat, Option.map_some] at hlast
    exact absurd (Option.some.inj hlast) hne
  · rw [List.concat_eq_append, ← List.cons_append, ← List.append_assoc, List.getLast?_concat,
      Option.map_some] at hlast
    refine ⟨front, a, own, next, mid', c, [], ?_, hown a List.mem_cons_self, hne,
      Option.some.inj hlast⟩
    simp only [List.concat_eq_append, List.append_assoc, List.cons_append]

end Replaced

/-! ## The rule for a registry -/

/-- The active bundle is not superseded, and every other one since it was last replaced. -/
def SupersededAgrees (l : Lifecycle) : Prop :=
  (∀ b, l.active = some b → superseded_at l b = none) ∧
    ∀ b, (∃ row ∈ l.history, row.active = b) → l.active ≠ some b →
      ∃ t, LastReplaced b l.history t ∧ superseded_at l b = some t

/-- **When the scan agrees with the pointer**: no bundle that came again is active, and each was
first and last replaced at one time. -/
theorem superseded_agrees {l : Lifecycle} (h : ReachableLifecycle l) :
    SupersededAgrees l ↔ ∀ b, Returned b l.history →
      l.active ≠ some b ∧ ∃ t, FirstReplaced b l.history t ∧ LastReplaced b l.history t := by
  have hlast := active_eq_last h
  constructor
  · rintro ⟨hactive, hothers⟩ b hret
    obtain ⟨t, ht⟩ := hret.replaced
    have hne : l.active ≠ some b := fun heq => by
      have hnone := hactive b heq
      rw [superseded_first.2 ht] at hnone
      cases hnone
    have hmem : ∃ row ∈ l.history, row.active = b := by
      obtain ⟨front, a, mid, next, mid', c, back, heq, ha, _⟩ := hret
      exact ⟨a, by simp [heq], ha⟩
    obtain ⟨t', hreplaced, hsup⟩ := hothers b hmem hne
    exact ⟨hne, t', superseded_first.1 hsup, hreplaced⟩
  · intro hcond
    constructor
    · intro b hb
      by_contra hsup
      obtain ⟨t, ht⟩ := Option.ne_none_iff_exists'.1 hsup
      exact (hcond b (returned_of_last (superseded_first.1 ht) (hlast ▸ hb))).1 hb
    · intro b hmem hne
      by_cases hret : Returned b l.history
      · obtain ⟨_, t, hfirst, hreplaced⟩ := hcond b hret
        exact ⟨t, hreplaced, superseded_first.2 hfirst⟩
      · obtain ⟨t, hreplaced⟩ := lastReplaced_exists hmem (hlast ▸ hne)
        exact ⟨t, hreplaced, superseded_first.2 (firstReplaced_of_last hreplaced hret)⟩

/-! ### A rollback -/

def exampleRegistry : BundleRegistry := ⟨[], fun _ => .ok none⟩

def bundleA : PyStr := List.replicate 64 97
def bundleB : PyStr := List.replicate 64 98

def firstTs : Double := .num false ⟨0x41D954FC40200000, Double.exampleTime_lt⟩
def secondTs : Double := .num false ⟨0x41D954FC40300000, by decide⟩
def thirdTs : Double := .num false ⟨0x41D954FC40400000, by decide⟩

/-- `A` is activated, then `B`. -/
def upgraded : Lifecycle :=
  ⟨some bundleB, [⟨firstTs, bundleA, none, []⟩, ⟨secondTs, bundleB, some bundleA, []⟩]⟩

/-- Then `B` is rolled back. -/
def rolledBack : Lifecycle :=
  ⟨some bundleA, upgraded.history ++ [⟨thirdTs, bundleA, some bundleB, []⟩]⟩

theorem upgraded_reachable : ReachableLifecycle upgraded := by
  have h₁ : LifecycleStep {} (.activate exampleRegistry (fun _ => true) bundleA [] firstTs)
      ⟨some bundleA, [⟨firstTs, bundleA, none, []⟩]⟩ := rfl
  have h₂ : LifecycleStep ⟨some bundleA, [⟨firstTs, bundleA, none, []⟩]⟩
      (.activate exampleRegistry (fun _ => true) bundleB [] secondTs) upgraded := rfl
  have hrun : ReachableLifecycle ⟨some bundleA, [⟨firstTs, bundleA, none, []⟩]⟩ :=
    .next (.start rfl) trivial h₁
  exact hrun.next trivial h₂

theorem rolledBack_reachable : ReachableLifecycle rolledBack := by
  have h₃ : LifecycleStep upgraded (.rollback exampleRegistry (fun _ => true) [] thirdTs)
      rolledBack := rfl
  exact upgraded_reachable.next trivial h₃

theorem superseded_agrees_upgrade : ReachableLifecycle upgraded ∧
    (SupersededAgrees upgraded ↔ ∀ b, Returned b upgraded.history →
      upgraded.active ≠ some b ∧
        ∃ t, FirstReplaced b upgraded.history t ∧ LastReplaced b upgraded.history t) :=
  ⟨upgraded_reachable, superseded_agrees upgraded_reachable⟩

/-- The bundle that a rollback activates again is active and superseded. -/
theorem superseded_rollback : ReachableLifecycle rolledBack ∧ rolledBack.active = some bundleA ∧
    superseded_at rolledBack bundleA = some secondTs ∧ ¬ SupersededAgrees rolledBack := by
  have hsup : superseded_at rolledBack bundleA = some secondTs := by decide
  refine ⟨rolledBack_reachable, rfl, hsup, fun hagrees => ?_⟩
  have hnone := hagrees.1 bundleA rfl
  rw [hsup] at hnone
  cases hnone

end Valops
