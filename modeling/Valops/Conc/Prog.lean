import Mathlib.Logic.Relation
import Mathlib.Tactic

/-!
# Concurrent programs

A thread is a program that has returned or is about to issue one atomic operation on a shared
state. `Prog` is the type of such programs; operations, their results and the state are
parameters. What an operation may do is a relation `exec`, so that failures and the outside world
are included.

`wp` is the weakest precondition of a thread inside a changing world: between two operations of
the thread the state may move along the relation `rely`. It also demands that every operation of
the thread keeps the invariant and stays within the guarantee `guar`. The rules for `bind`,
exceptions and consequence are proved once; `Pool.sound` turns local proofs into facts about all
reachable states, for any number of threads.
-/

set_option autoImplicit false

namespace Conc

universe u v w

/-- A thread: it has returned, or issues an operation and continues with its result. -/
inductive Prog (Op : Type u) (Res : Op → Type v) (α : Type w) : Type (max u v w)
  | ret (a : α)
  | step (o : Op) (k : Res o → Prog Op Res α)

namespace Prog

variable {Op : Type u} {Res : Op → Type v} {α β : Type w}

/-- Sequencing. -/
def bind (p : Prog Op Res α) (f : α → Prog Op Res β) : Prog Op Res β :=
  match p with
  | .ret a => f a
  | .step o k => .step o fun r => (k r).bind f

instance : Monad (Prog Op Res) where
  pure := .ret
  bind := .bind

@[simp] theorem pure_eq (a : α) : (pure a : Prog Op Res α) = .ret a := rfl

@[simp] theorem bind_eq (p : Prog Op Res α) (f : α → Prog Op Res β) : p >>= f = p.bind f := rfl

@[simp] theorem ret_bind (a : α) (f : α → Prog Op Res β) : (ret a).bind f = f a := rfl

@[simp] theorem step_bind (o : Op) (k : Res o → Prog Op Res α) (f : α → Prog Op Res β) :
    (step o k).bind f = step o fun r => (k r).bind f := rfl

end Prog

/-- One operation. -/
def perform {Op : Type u} {Res : Op → Type v} (o : Op) : Prog Op Res (Res o) := .step o .ret

/-! ## Rely and guarantee -/

/-- What a proof about threads assumes and promises. `C` labels threads. -/
structure Discipline (σ C : Type) (Op : Type) (Res : Op → Type) where
  exec : C → σ → (o : Op) → Res o → σ → Prop
  inv : σ → Prop
  rely : σ → σ → Prop
  guar : C → σ → Op → σ → Prop
  refl : ∀ s, rely s s
  trans : ∀ {s t u}, rely s t → rely t u → rely s u

variable {σ C Op : Type} {Res : Op → Type} {α β ε : Type}

/-- From `s`, in every world that moves along `rely` and keeps `inv`, the thread keeps `inv`, stays
within `guar`, and ends in `Q`. -/
def wp (D : Discipline σ C Op Res) (c : C) : Prog Op Res α → (α → σ → Prop) → σ → Prop
  | .ret a, Q, s => ∀ s', D.rely s s' → D.inv s' → Q a s'
  | .step o k, Q, s => ∀ s', D.rely s s' → D.inv s' → ∀ r s'', D.exec c s' o r s'' →
      D.inv s'' ∧ D.guar c s' o s'' ∧ wp D c (k r) Q s''

section Rules

variable {D : Discipline σ C Op Res} {c : C}

theorem wp_ret {a : α} {Q : α → σ → Prop} {s : σ}
    (h : ∀ s', D.rely s s' → D.inv s' → Q a s') : wp D c (.ret a) Q s := h

theorem wp_step {o : Op} {k : Res o → Prog Op Res α} {Q : α → σ → Prop} {s : σ}
    (h : ∀ s', D.rely s s' → D.inv s' → ∀ r s'', D.exec c s' o r s'' →
      D.inv s'' ∧ D.guar c s' o s'' ∧ wp D c (k r) Q s'') : wp D c (.step o k) Q s := h

/-- A precondition survives the world. -/
theorem wp_rely {p : Prog Op Res α} {Q : α → σ → Prop} {s t : σ} (h : wp D c p Q s)
    (hst : D.rely s t) : wp D c p Q t := by
  cases p with
  | ret a => exact fun s' hs' => h s' (D.trans hst hs')
  | step o k => exact fun s' hs' => h s' (D.trans hst hs')

/-- It is enough to prove a precondition after the world has moved. -/
theorem wp_of_rely {p : Prog Op Res α} {Q : α → σ → Prop} {s : σ}
    (h : ∀ s', D.rely s s' → D.inv s' → wp D c p Q s') : wp D c p Q s := by
  cases p with
  | ret a => exact fun s' hs' hi => h s' hs' hi s' (D.refl s') hi
  | step o k => exact fun s' hs' hi => h s' hs' hi s' (D.refl s') hi

theorem wp_conseq {p : Prog Op Res α} {Q Q' : α → σ → Prop} (hQ : ∀ a s, Q a s → Q' a s) :
    ∀ {s : σ}, wp D c p Q s → wp D c p Q' s := by
  induction p with
  | ret a => exact fun h s' hs' hi => hQ _ _ (h s' hs' hi)
  | step o k ih =>
    intro s h s' hs' hi r s'' hr
    obtain ⟨h1, h2, h3⟩ := h s' hs' hi r s'' hr
    exact ⟨h1, h2, ih r h3⟩

/-- **The rule for sequencing.** -/
theorem wp_bind {p : Prog Op Res α} {f : α → Prog Op Res β} {Q : β → σ → Prop} :
    ∀ {s : σ}, wp D c p (fun a s' => wp D c (f a) Q s') s → wp D c (p.bind f) Q s := by
  induction p with
  | ret a => exact fun h => wp_of_rely h
  | step o k ih =>
    intro s h s' hs' hi r s'' hr
    obtain ⟨h1, h2, h3⟩ := h s' hs' hi r s'' hr
    exact ⟨h1, h2, ih r h3⟩

theorem wp_perform {o : Op} {Q : Res o → σ → Prop} {s : σ}
    (h : ∀ s', D.rely s s' → D.inv s' → ∀ r s'', D.exec c s' o r s'' →
      D.inv s'' ∧ D.guar c s' o s'' ∧ ∀ t, D.rely s'' t → D.inv t → Q r t) :
    wp D c (perform o) Q s := h

end Rules

/-! ## Exceptions -/

section Exceptions

variable {D : Discipline σ C Op Res} {c : C}

/-- The precondition of a program that may raise. -/
def wpE (D : Discipline σ C Op Res) (c : C) (p : ExceptT ε (Prog Op Res) α)
    (Q : Except ε α → σ → Prop) (s : σ) : Prop := wp D c p.run Q s

theorem wpE_pure {a : α} {Q : Except ε α → σ → Prop} {s : σ}
    (h : ∀ s', D.rely s s' → D.inv s' → Q (.ok a) s') : wpE D c (pure a) Q s := h

theorem wpE_throw {e : ε} {Q : Except ε α → σ → Prop} {s : σ}
    (h : ∀ s', D.rely s s' → D.inv s' → Q (.error e) s') :
    wpE D c (throw e : ExceptT ε (Prog Op Res) α) Q s := h

/-- **The rule for sequencing**: an exception skips the rest. -/
theorem wpE_bind {p : ExceptT ε (Prog Op Res) α} {f : α → ExceptT ε (Prog Op Res) β}
    {Q : Except ε β → σ → Prop} {s : σ}
    (h : wpE D c p (fun r s' => match r with
      | .ok a => wpE D c (f a) Q s'
      | .error e => ∀ t, D.rely s' t → D.inv t → Q (.error e) t) s) :
    wpE D c (p >>= f) Q s := by
  refine wp_bind (wp_conseq ?_ h)
  intro r s' hr
  cases r with
  | ok a => exact hr
  | error e => exact hr

/-- **The rule for handlers**: an exception continues in the handler. -/
theorem wpE_tryCatch {p : ExceptT ε (Prog Op Res) α} {f : ε → ExceptT ε (Prog Op Res) α}
    {Q : Except ε α → σ → Prop} {s : σ}
    (h : wpE D c p (fun r s' => match r with
      | .ok a => ∀ t, D.rely s' t → D.inv t → Q (.ok a) t
      | .error e => wpE D c (f e) Q s') s) :
    wpE D c (tryCatch p f) Q s := by
  refine wp_bind (wp_conseq ?_ h)
  intro r s' hr
  cases r with
  | ok a => exact hr
  | error e => exact hr

theorem wpE_lift {p : Prog Op Res α} {Q : Except ε α → σ → Prop} {s : σ}
    (h : wp D c p (fun a s' => ∀ t, D.rely s' t → D.inv t → Q (.ok a) t) s) :
    wpE D c (liftM p : ExceptT ε (Prog Op Res) α) Q s := wp_bind h

theorem wpE_conseq {p : ExceptT ε (Prog Op Res) α} {Q Q' : Except ε α → σ → Prop} {s : σ}
    (hQ : ∀ r s, Q r s → Q' r s) (h : wpE D c p Q s) : wpE D c p Q' s := wp_conseq hQ h

end Exceptions

/-! ## Any number of threads -/

/-- A thread with its label. -/
structure Thread (C Op : Type) (Res : Op → Type) (α : Type) where
  tag : C
  prog : Prog Op Res α

/-- The shared state and the threads. -/
structure Pool (σ C Op : Type) (Res : Op → Type) (α : Type) where
  state : σ
  threads : List (Thread C Op Res α)

section Pool

variable (exec : C → σ → (o : Op) → Res o → σ → Prop) (body : C → Prog Op Res α)

/-- A thread starts under a label of its own, or one of the threads performs its next operation. -/
inductive Pool.Step : Pool σ C Op Res α → Pool σ C Op Res α → Prop
  | spawn (s : σ) (ts : List (Thread C Op Res α)) (c : C) (fresh : ∀ t ∈ ts, t.tag ≠ c) :
      Pool.Step ⟨s, ts⟩ ⟨s, ts ++ [⟨c, body c⟩]⟩
  | run (s s' : σ) (before after : List (Thread C Op Res α)) (c : C) (o : Op)
      (k : Res o → Prog Op Res α) (r : Res o) (h : exec c s o r s') :
      Pool.Step ⟨s, before ++ ⟨c, .step o k⟩ :: after⟩ ⟨s', before ++ ⟨c, k r⟩ :: after⟩

/-- The pools reachable from a state without threads. -/
def Pool.Reach (s₀ : σ) (P : Pool σ C Op Res α) : Prop :=
  Relation.ReflTransGen (Pool.Step exec body) ⟨s₀, []⟩ P

end Pool

/-- **Local proofs hold in every interleaving**: if each body has a precondition that holds
whenever the invariant does, and the guarantee of one thread is within the rely of the others, then
in every reachable pool the invariant holds and every thread is within its proof. -/
theorem Pool.sound (D : Discipline σ C Op Res) {body : C → Prog Op Res α} {Q : C → α → σ → Prop}
    (hguar : ∀ c s o s', D.guar c s o s' → D.rely s s')
    (hbody : ∀ c s, D.inv s → wp D c (body c) (Q c) s) {s₀ : σ} (h₀ : D.inv s₀)
    {P : Pool σ C Op Res α} (h : Pool.Reach D.exec body s₀ P) :
    D.inv P.state ∧ ∀ t ∈ P.threads, wp D t.tag t.prog (Q t.tag) P.state := by
  induction h with
  | refl => exact ⟨h₀, fun t ht => absurd ht List.not_mem_nil⟩
  | tail _ hstep ih =>
    obtain ⟨hinv, hts⟩ := ih
    cases hstep with
    | spawn s ts c _ =>
      refine ⟨hinv, List.forall_mem_append.2 ⟨hts, ?_⟩⟩
      exact List.forall_mem_cons.2 ⟨hbody c s hinv, fun t ht => absurd ht List.not_mem_nil⟩
    | run s s' before after c o k r hr =>
      obtain ⟨hbefore, hrest⟩ := List.forall_mem_append.1 hts
      obtain ⟨hself, hafter⟩ := List.forall_mem_cons.1 hrest
      obtain ⟨hinv', hg, hk⟩ := hself s (D.refl s) hinv r s' hr
      have hother : ∀ t : Thread C Op Res α, wp D t.tag t.prog (Q t.tag) s →
          wp D t.tag t.prog (Q t.tag) s' := fun t ht => wp_rely ht (hguar c s o s' hg)
      refine ⟨hinv', List.forall_mem_append.2 ⟨fun t ht => hother t (hbefore t ht), ?_⟩⟩
      exact List.forall_mem_cons.2 ⟨hk, fun t ht => hother t (hafter t ht)⟩

/-- What a thread that has returned knows. -/
theorem Pool.returned (D : Discipline σ C Op Res) {body : C → Prog Op Res α} {Q : C → α → σ → Prop}
    (hguar : ∀ c s o s', D.guar c s o s' → D.rely s s')
    (hbody : ∀ c s, D.inv s → wp D c (body c) (Q c) s) {s₀ : σ} (h₀ : D.inv s₀)
    {P : Pool σ C Op Res α} (h : Pool.Reach D.exec body s₀ P) {c : C} {a : α}
    (hmem : ⟨c, .ret a⟩ ∈ P.threads) : Q c a P.state := by
  obtain ⟨hinv, hts⟩ := Pool.sound D hguar hbody h₀ h
  exact hts _ hmem P.state (D.refl _) hinv

end Conc
