import Valops.Conc.Loop

/-!
# Programs with a memory

A program that may raise and writes to a memory of its own; what it wrote stays when it raises.
`wpS` is its precondition, with the rules for sequencing and handlers.
-/

set_option autoImplicit false

namespace Conc

variable {σ C Op μ ε α β : Type} {Res : Op → Type} {D : Discipline σ C Op Res} {c : C}

/-- The precondition of a program that may raise and has a memory. -/
def wpS (D : Discipline σ C Op Res) (c : C) (p : ExceptT ε (StateT μ (Prog Op Res)) α)
    (Q : Except ε α → μ → σ → Prop) (m : μ) (s : σ) : Prop :=
  wp D c ((ExceptT.run p).run m) (fun x s' => Q x.1 x.2 s') s

variable {Q Q' : Except ε α → μ → σ → Prop} {m : μ} {s : σ}

theorem wpS_pure {a : α} (h : ∀ s', D.rely s s' → D.inv s' → Q (.ok a) m s') :
    wpS D c (pure a : ExceptT ε (StateT μ (Prog Op Res)) α) Q m s := h

theorem wpS_conseq {p : ExceptT ε (StateT μ (Prog Op Res)) α}
    (hQ : ∀ r m s, Q r m s → Q' r m s) (h : wpS D c p Q m s) : wpS D c p Q' m s :=
  wp_conseq (fun _ _ h => hQ _ _ _ h) h

theorem wpS_rely {p : ExceptT ε (StateT μ (Prog Op Res)) α} {t : σ} (h : wpS D c p Q m s)
    (hst : D.rely s t) : wpS D c p Q m t := wp_rely h hst

/-- **The rule for sequencing**: an exception skips the rest and keeps the memory. -/
theorem wpS_bind {p : ExceptT ε (StateT μ (Prog Op Res)) α}
    {f : α → ExceptT ε (StateT μ (Prog Op Res)) β} {Q : Except ε β → μ → σ → Prop}
    (h : wpS D c p (fun r m' s' => match r with
      | .ok a => wpS D c (f a) Q m' s'
      | .error e => ∀ t, D.rely s' t → D.inv t → Q (.error e) m' t) m s) :
    wpS D c (p >>= f) Q m s := by
  refine wp_bind (wp_conseq ?_ h)
  rintro ⟨r, m'⟩ s' hr
  cases r with
  | ok a => exact hr
  | error e => exact hr

/-- **The rule for handlers.** -/
theorem wpS_tryCatch {p : ExceptT ε (StateT μ (Prog Op Res)) α}
    {f : ε → ExceptT ε (StateT μ (Prog Op Res)) α}
    (h : wpS D c p (fun r m' s' => match r with
      | .ok a => ∀ t, D.rely s' t → D.inv t → Q (.ok a) m' t
      | .error e => wpS D c (f e) Q m' s') m s) :
    wpS D c (tryCatch p f) Q m s := by
  refine wp_bind (wp_conseq ?_ h)
  rintro ⟨r, m'⟩ s' hr
  cases r with
  | ok a => exact hr
  | error e => exact hr

/-- Two postconditions hold together. -/
theorem wp_and {p : Prog Op Res α} {Q Q' : α → σ → Prop} : ∀ {s : σ}, wp D c p Q s → wp D c p Q' s →
    wp D c p (fun a s => Q a s ∧ Q' a s) s := by
  induction p with
  | ret a => exact fun h h' s' hs hi => ⟨h s' hs hi, h' s' hs hi⟩
  | step o k ih =>
    intro s h h' s' hs hi r s'' hr
    obtain ⟨hinv, hguar, hk⟩ := h s' hs hi r s'' hr
    exact ⟨hinv, hguar, ih r hk (h' s' hs hi r s'' hr).2.2⟩

end Conc
