import Valops.Conc.Loop

/-!
# What is known where a program returns

A thread that works among others often only needs to know something where it returns; where it raises, its
caller starts afresh. `Post` is such a postcondition, and what it says should be `Stable`. Where some
operations are calm, a program that issues no others keeps what is stable (`post_calm`), and what its
results are may be said without any state (`Yields`).
-/

set_option autoImplicit false

namespace Conc

variable {σ C Op : Type} {Res : Op → Type} {α β ε : Type}

/-- What is known where a program returns; an exception says nothing. -/
def Post (R : α → σ → Prop) : Except ε α → σ → Prop
  | .ok a, s => R a s
  | .error _, _ => True

/-- What stays while the others work. -/
def Stable (D : Discipline σ C Op Res) (K : σ → Prop) : Prop := ∀ s s', K s → D.rely s s' → K s'

/-- The operations keep the invariant and stay within the rely. -/
def Calming (D : Discipline σ C Op Res) (calm : Op → Prop) : Prop :=
  ∀ c s o r s', D.inv s → calm o → D.exec c s o r s' → D.inv s' ∧ D.guar c s o s' ∧ D.rely s s'

/-- Every result of the program meets a condition. -/
def Yields (Q : α → Prop) : Prog Op Res α → Prop
  | .ret a => Q a
  | .step _ k => ∀ r, Yields Q (k r)

section Yields

variable {Q : α → Prop} {Q' : β → Prop}

theorem yields_bind {p : Prog Op Res α} {f : α → Prog Op Res β} (hp : Yields Q p)
    (hf : ∀ a, Q a → Yields Q' (f a)) : Yields Q' (p.bind f) := by
  induction p with
  | ret a => exact hf a hp
  | step o k ih => exact fun r => ih r (hp r)

theorem yields_any (p : Prog Op Res α) : Yields (fun _ => True) p := by
  induction p with
  | ret a => trivial
  | step o k ih => exact fun r => ih r

/-- The same for a program that may raise. -/
def YieldsE (Q : α → Prop) (p : ExceptT ε (Prog Op Res) α) : Prop :=
  Yields (fun r : Except ε α => ∀ a, r = .ok a → Q a) p.run

theorem yieldsE_bind {p : ExceptT ε (Prog Op Res) β} {f : β → ExceptT ε (Prog Op Res) α}
    (hf : ∀ b, YieldsE Q (f b)) : YieldsE Q (p >>= f) := by
  refine yields_bind (yields_any p.run) fun r _ => ?_
  cases r with
  | ok b => exact hf b
  | error e => exact nofun

theorem yieldsE_pure {a : α} (h : Q a) : YieldsE Q (pure a : ExceptT ε (Prog Op Res) α) := by
  intro a' ha
  cases ha
  exact h

/-- **A calm program among others**, with what is said of its results. -/
theorem wp_yields {D : Discipline σ C Op Res} {c : C} {calm : Op → Prop} (hcalm : Calming D calm)
    {p : Prog Op Res α} {K : α → σ → Prop} : ∀ {s : σ}, Issues calm p → Yields Q p →
      (∀ a s', Q a → D.rely s s' → D.inv s' → K a s') → wp D c p K s := by
  induction p with
  | ret a => exact fun _ hy hK s' hs' hi => hK a s' hy hs' hi
  | step o k ih =>
    intro s hp hy hK s' hs' hi r s'' hr
    obtain ⟨hinv, hguar, hrely⟩ := hcalm c s' o r s'' hi hp.1 hr
    exact ⟨hinv, hguar, ih r (hp.2 r) (hy r) fun a t hq ht hit =>
      hK a t hq (D.trans hs' (D.trans hrely ht)) hit⟩

end Yields

/-! ## Rules -/

section Rules

variable {D : Discipline σ C Op Res} {c : C} {s : σ} {R : β → σ → Prop} {S : α → σ → Prop}

theorem post_bind {p : ExceptT ε (Prog Op Res) β} {f : β → ExceptT ε (Prog Op Res) α}
    (hp : wpE D c p (Post R) s) (hf : ∀ a s', R a s' → wpE D c (f a) (Post S) s') :
    wpE D c (p >>= f) (Post S) s := by
  refine wpE_bind (wpE_conseq ?_ hp)
  intro r s' hr
  cases r with
  | ok a => exact hf a s' hr
  | error e => exact fun _ _ _ => trivial

/-- A handler starts afresh. -/
theorem post_tryCatch {p : ExceptT ε (Prog Op Res) β} {f : ε → ExceptT ε (Prog Op Res) β}
    (hp : wpE D c p (Post R) s) (hR : ∀ a, Stable D (R a)) (hf : ∀ e s', wpE D c (f e) (Post R) s') :
    wpE D c (tryCatch p f) (Post R) s := by
  refine wpE_tryCatch (wpE_conseq ?_ hp)
  intro r s' hr
  cases r with
  | ok a => exact fun t ht _ => hR a s' t hr ht
  | error e => exact hf e s'

theorem post_pure {a : β} (h : ∀ s', D.rely s s' → D.inv s' → R a s') :
    wpE D c (pure a : ExceptT ε (Prog Op Res) β) (Post R) s := wpE_pure h

theorem post_throw {e : ε} : wpE D c (throw e : ExceptT ε (Prog Op Res) β) (Post R) s :=
  wpE_throw fun _ _ _ => trivial

/-- A calm program keeps what is stable. -/
theorem post_calm {calm : Op → Prop} (hcalm : Calming D calm) {p : ExceptT ε (Prog Op Res) β}
    (hp : IssuesE calm p) (h : ∀ a s', D.rely s s' → D.inv s' → R a s') : wpE D c p (Post R) s := by
  refine wp_calm (hcalm c) hp fun r s' hs' hi => ?_
  cases r with
  | ok a => exact h a s' hs' hi
  | error e => trivial

/-- One operation, whose result may be an exception. -/
theorem post_ask {o : Op} {view : Res o → Except ε β}
    (h : ∀ s₁ r s₂, D.rely s s₁ → D.inv s₁ → D.exec c s₁ o r s₂ → D.inv s₂ ∧ D.guar c s₁ o s₂ ∧
      ∀ a, view r = .ok a → ∀ s₃, D.rely s₂ s₃ → D.inv s₃ → R a s₃) :
    wpE D c (ExceptT.mk ((perform o).bind fun r => .ret (view r))) (Post R) s := by
  intro s₁ h₁ hi r s₂ hr
  obtain ⟨hinv, hguar, hnext⟩ := h s₁ r s₂ h₁ hi hr
  refine ⟨hinv, hguar, fun s₃ h₃ hi₃ => ?_⟩
  show Post R (view r) s₃
  cases hv : view r with
  | ok a => exact hnext a hv s₃ h₃ hi₃
  | error e => trivial

end Rules

end Conc
