import Valops.Conc.Prog

/-!
# One looping thread

A thread that starts over when it has returned, in a world that moves, and that may be started anew
at any point: what it knew is then lost, what it did stays done. `Loop.sound` turns a local proof of
the body into a fact about all reachable states.

`Issues` bounds the operations a program may issue. A program whose operations are all within the
rely has any postcondition that the world keeps (`wp_calm`).

Operations may be marked with the place they are issued from (`Prog.at`); a mark changes nothing
(`wp_at`).
-/

set_option autoImplicit false

namespace Conc

variable {σ Op : Type} {Res : Op → Type} {α β ε : Type}

/-! ## Runs -/

section Steps

variable (exec : σ → (o : Op) → Res o → σ → Prop) (env : σ → σ → Prop)
  (next : α → Option (Prog Op Res α)) (start : Prog Op Res α) (boots : σ → Prop)

/-- The environment moves, the thread performs its next operation, it has returned and goes on as
its result says, or it is started anew. -/
inductive Loop.Step : Prog Op Res α × σ → Prog Op Res α × σ → Prop
  | env (p : Prog Op Res α) (s s' : σ) (h : env s s') : Loop.Step (p, s) (p, s')
  | run (s s' : σ) (o : Op) (k : Res o → Prog Op Res α) (r : Res o) (h : exec s o r s') :
      Loop.Step (.step o k, s) (k r, s')
  | again (s : σ) (a : α) (p : Prog Op Res α) (h : next a = some p) : Loop.Step (.ret a, s) (p, s)
  | boot (p : Prog Op Res α) (s : σ) (h : boots s) : Loop.Step (p, s) (start, s)

/-- The configurations reachable from the start in one of some states. -/
def Loop.Reach (init : σ → Prop) (x : Prog Op Res α × σ) : Prop :=
  ∃ s₀, init s₀ ∧ Relation.ReflTransGen (Loop.Step exec env next start boots) (start, s₀) x

end Steps

/-- **A local proof of the loop body holds in every run.** -/
theorem Loop.sound (D : Discipline σ Unit Op Res) {env : σ → σ → Prop}
    {next : α → Option (Prog Op Res α)} {start : Prog Op Res α} {boots init : σ → Prop}
    {Q : α → σ → Prop} (henv : ∀ s s', D.inv s → env s s' → D.inv s' ∧ D.rely s s')
    (hnext : ∀ a p s, D.inv s → Q a s → next a = some p → wp D () p Q s)
    (hboot : ∀ s, D.inv s → boots s → wp D () start Q s)
    (hinit : ∀ s, init s → D.inv s ∧ wp D () start Q s) {x : Prog Op Res α × σ}
    (h : Loop.Reach (D.exec ()) env next start boots init x) : D.inv x.2 ∧ wp D () x.1 Q x.2 := by
  obtain ⟨s₀, h₀, h⟩ := h
  induction h with
  | refl => exact hinit s₀ h₀
  | tail _ hstep ih =>
    obtain ⟨hinv, hwp⟩ := ih
    cases hstep with
    | env p s s' he =>
      obtain ⟨hinv', hrely⟩ := henv s s' hinv he
      exact ⟨hinv', wp_rely hwp hrely⟩
    | run s s' o k r hr =>
      obtain ⟨hinv', _, hk⟩ := hwp s (D.refl s) hinv r s' hr
      exact ⟨hinv', hk⟩
    | again s a p hp => exact ⟨hinv, hnext a p s hinv (hwp s (D.refl s) hinv) hp⟩
    | boot p s hb => exact ⟨hinv, hboot s hinv hb⟩

/-! ## Playing a program -/

section Play

/-- What a program does where every operation can be answered. -/
def play (answer : σ → (o : Op) → Option (Res o × σ)) : Prog Op Res α → σ → Option (α × σ)
  | .ret a, s => some (a, s)
  | .step o k, s => (answer s o).bind fun x => play answer (k x.1) x.2

/-- The same for a thread that starts over some times. -/
def playOn (answer : σ → (o : Op) → Option (Res o × σ)) (next : α → Option (Prog Op Res α)) :
    Nat → Prog Op Res α → σ → Option (α × σ)
  | 0, p, s => play answer p s
  | n + 1, p, s => (play answer p s).bind fun x => (next x.1).bind fun q => playOn answer next n q x.2

variable {exec : σ → (o : Op) → Res o → σ → Prop} {env : σ → σ → Prop}
  {next : α → Option (Prog Op Res α)} {start : Prog Op Res α} {boots init : σ → Prop}
  {answer : σ → (o : Op) → Option (Res o × σ)}

/-- **What is played is reached**, if the environment may move before each answer. -/
theorem Loop.Reach.play (hanswer : ∀ s o x, answer s o = some x →
      ∃ t, Relation.ReflTransGen env s t ∧ exec t o x.1 x.2) {p : Prog Op Res α} {a : α} {s' : σ} :
    ∀ {s : σ}, Loop.Reach exec env next start boots init (p, s) → Conc.play answer p s = some (a, s') →
      Loop.Reach exec env next start boots init (.ret a, s') := by
  induction p with
  | ret a =>
    intro s h hp
    cases hp
    exact h
  | step o k ih =>
    intro s h hp
    obtain ⟨x, hx, hrest⟩ := Option.bind_eq_some_iff.1 hp
    obtain ⟨t, henv, hexec⟩ := hanswer s o x hx
    obtain ⟨s₀, h₀, hreach⟩ := h
    have hmoved : Relation.ReflTransGen (Loop.Step exec env next start boots) (start, s₀)
        (.step o k, t) := by
      refine hreach.trans ?_
      exact henv.lift (fun u => ((.step o k : Prog Op Res α), u)) fun u v huv => .env _ u v huv
    exact ih x.1 ⟨s₀, h₀, hmoved.tail (.run t x.2 o k x.1 hexec)⟩ hrest

theorem Loop.Reach.playOn (hanswer : ∀ s o x, answer s o = some x →
      ∃ t, Relation.ReflTransGen env s t ∧ exec t o x.1 x.2) {a : α} {s' : σ} :
    ∀ {n : Nat} {p : Prog Op Res α} {s : σ}, Loop.Reach exec env next start boots init (p, s) →
      Conc.playOn answer next n p s = some (a, s') →
        Loop.Reach exec env next start boots init (.ret a, s')
  | 0, _, _, h, hp => h.play hanswer hp
  | _ + 1, _, _, h, hp => by
    obtain ⟨x, hx, hp⟩ := Option.bind_eq_some_iff.1 hp
    obtain ⟨q, hq, hrest⟩ := Option.bind_eq_some_iff.1 hp
    obtain ⟨s₀, h₀, hreach⟩ := h.play hanswer hx
    exact playOn hanswer ⟨s₀, h₀, hreach.tail (.again x.2 x.1 q hq)⟩ hrest

end Play

/-! ## The operations of a program -/

/-- Every operation that the program may issue meets a condition. -/
def Issues (P : Op → Prop) : Prog Op Res α → Prop
  | .ret _ => True
  | .step o k => P o ∧ ∀ r, Issues P (k r)

section Issues

variable {P P' : Op → Prop}

theorem issues_bind {p : Prog Op Res α} {f : α → Prog Op Res β} (hp : Issues P p)
    (hf : ∀ a, Issues P (f a)) : Issues P (p.bind f) := by
  induction p with
  | ret a => exact hf a
  | step o k ih => exact ⟨hp.1, fun r => ih r (hp.2 r)⟩

theorem issues_perform {o : Op} (h : P o) : Issues P (perform o : Prog Op Res (Res o)) :=
  ⟨h, fun _ => trivial⟩

theorem Issues.mono (hP : ∀ o, P o → P' o) {p : Prog Op Res α} (hp : Issues P p) : Issues P' p := by
  induction p with
  | ret a => trivial
  | step o k ih => exact ⟨hP o hp.1, fun r => ih r (hp.2 r)⟩

/-- The same for a program that may raise. -/
def IssuesE (P : Op → Prop) (p : ExceptT ε (Prog Op Res) α) : Prop := Issues P p.run

theorem issuesE_pure {a : α} : IssuesE P (pure a : ExceptT ε (Prog Op Res) α) := trivial

theorem issuesE_throw {e : ε} : IssuesE P (throw e : ExceptT ε (Prog Op Res) α) := trivial

theorem issuesE_bind {p : ExceptT ε (Prog Op Res) α} {f : α → ExceptT ε (Prog Op Res) β}
    (hp : IssuesE P p) (hf : ∀ a, IssuesE P (f a)) : IssuesE P (p >>= f) := by
  refine issues_bind hp fun r => ?_
  cases r with
  | ok a => exact hf a
  | error e => trivial

theorem issuesE_tryCatch {p : ExceptT ε (Prog Op Res) α} {f : ε → ExceptT ε (Prog Op Res) α}
    (hp : IssuesE P p) (hf : ∀ e, IssuesE P (f e)) : IssuesE P (tryCatch p f) := by
  refine issues_bind hp fun r => ?_
  cases r with
  | ok a => trivial
  | error e => exact hf e

theorem issuesE_lift {p : Prog Op Res α} (hp : Issues P p) :
    IssuesE P (liftM p : ExceptT ε (Prog Op Res) α) := issues_bind hp fun _ => trivial

end Issues

/-- **A program within the rely.** -/
theorem wp_calm {C : Type} {D : Discipline σ C Op Res} {c : C} {P : Op → Prop}
    (hcalm : ∀ s o r s', D.inv s → P o → D.exec c s o r s' →
      D.inv s' ∧ D.guar c s o s' ∧ D.rely s s') {p : Prog Op Res α} {Q : α → σ → Prop} :
    ∀ {s : σ}, Issues P p → (∀ a s', D.rely s s' → D.inv s' → Q a s') → wp D c p Q s := by
  induction p with
  | ret a => exact fun _ hQ s' hs' hi => hQ a s' hs' hi
  | step o k ih =>
    intro s hp hQ s' hs' hi r s'' hr
    obtain ⟨hinv, hguar, hrely⟩ := hcalm s' o r s'' hi hp.1 hr
    exact ⟨hinv, hguar, ih r (hp.2 r) fun a t ht hit => hQ a t (D.trans hs' (D.trans hrely ht)) hit⟩

/-! ## Marked operations -/

section Marks

variable {κ : Type}

/-- The results of marked operations. -/
abbrev Marked (κ : Type) (Res : Op → Type) (x : κ × Op) : Type := Res x.2

/-- The program with every operation marked. -/
def Prog.at (m : κ) : Prog Op Res α → Prog (κ × Op) (Marked κ Res) α
  | .ret a => .ret a
  | .step o k => .step (m, o) fun r => (k r).at m

/-- The same for a program that may raise. -/
def markE (m : κ) (p : ExceptT ε (Prog Op Res) α) : ExceptT ε (Prog (κ × Op) (Marked κ Res)) α :=
  p.run.at m

/-- The discipline for marked operations. -/
def Discipline.marked {C : Type} (D : Discipline σ C Op Res) (κ : Type) :
    Discipline σ C (κ × Op) (Marked κ Res) where
  exec c s o r s' := D.exec c s o.2 r s'
  inv := D.inv
  rely := D.rely
  guar c s o s' := D.guar c s o.2 s'
  refl := D.refl
  trans := D.trans

theorem wp_at {C : Type} {D : Discipline σ C Op Res} {c : C} {m : κ} {p : Prog Op Res α}
    {Q : α → σ → Prop} : ∀ {s : σ}, wp D c p Q s → wp (D.marked κ) c (p.at m) Q s := by
  induction p with
  | ret a => exact id
  | step o k ih =>
    intro s h s' hs' hi r s'' hr
    obtain ⟨hinv, hguar, hk⟩ := h s' hs' hi r s'' hr
    exact ⟨hinv, hguar, ih r hk⟩

end Marks

end Conc
