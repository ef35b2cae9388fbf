import Valops.Conc.Prog

/-!
# What one thread does

A path of a program is the list of the operations it performs, from its start to its return, each
with the state before it, its result and the state after it. Between two operations the state may
have changed in any way, so a statement about all paths holds whatever else runs.
-/

set_option autoImplicit false

namespace Conc

variable {σ Op : Type} {Res : Op → Type} {α β ε : Type}

/-- An operation that has been performed. -/
structure Event (σ Op : Type) (Res : Op → Type) where
  before : σ
  op : Op
  result : Res op
  after : σ

/-- The program performs these operations and returns this value. -/
inductive Path (exec : σ → (o : Op) → Res o → σ → Prop) :
    Prog Op Res α → List (Event σ Op Res) → α → Prop
  | ret (a : α) : Path exec (.ret a) [] a
  | step {s s' : σ} {o : Op} {k : Res o → Prog Op Res α} {r : Res o} {tr : List (Event σ Op Res)}
      {a : α} (h : exec s o r s') (rest : Path exec (k r) tr a) :
      Path exec (.step o k) (⟨s, o, r, s'⟩ :: tr) a

section Rules

variable {exec : σ → (o : Op) → Res o → σ → Prop} {tr : List (Event σ Op Res)}

theorem path_ret {a b : α} : Path exec (.ret a) tr b ↔ tr = [] ∧ b = a := by
  constructor
  · intro h
    cases h
    exact ⟨rfl, rfl⟩
  · rintro ⟨rfl, rfl⟩
    exact .ret _

theorem path_step {o : Op} {k : Res o → Prog Op Res α} {a : α} :
    Path exec (.step o k) tr a ↔ ∃ s r s' rest, tr = ⟨s, o, r, s'⟩ :: rest ∧ exec s o r s' ∧
      Path exec (k r) rest a := by
  constructor
  · intro h
    cases h with
    | step h rest => exact ⟨_, _, _, _, rfl, h, rest⟩
  · rintro ⟨s, r, s', rest, rfl, h, hrest⟩
    exact .step h hrest

/-- **A path of a sequence** is a path of the first part and one of the second. -/
theorem path_bind {p : Prog Op Res α} {f : α → Prog Op Res β} : ∀ {tr : List (Event σ Op Res)} {b : β},
    Path exec (p.bind f) tr b ↔
      ∃ front back a, tr = front ++ back ∧ Path exec p front a ∧ Path exec (f a) back b := by
  induction p with
  | ret a =>
    intro tr b
    constructor
    · exact fun h => ⟨[], tr, a, rfl, .ret a, h⟩
    · rintro ⟨front, back, a', rfl, hp, hf⟩
      cases hp
      exact hf
  | step o k ih =>
    intro tr b
    constructor
    · intro h
      cases h with
      | step h rest =>
        obtain ⟨front, back, a, rfl, hp, hf⟩ := (ih _).1 rest
        exact ⟨_, back, a, rfl, .step h hp, hf⟩
    · rintro ⟨front, back, a, rfl, hp, hf⟩
      cases hp with
      | step h rest => exact .step h ((ih _).2 ⟨_, back, a, rfl, rest, hf⟩)

theorem path_perform {o : Op} {r : Res o} :
    Path exec (perform o) tr r ↔ ∃ s s', tr = [⟨s, o, r, s'⟩] ∧ exec s o r s' := by
  constructor
  · intro h
    cases h with
    | step h rest =>
      cases rest
      exact ⟨_, _, rfl, h⟩
  · rintro ⟨s, s', rfl, h⟩
    exact .step h (.ret r)

/-- A path of a program that may raise. -/
def PathE (exec : σ → (o : Op) → Res o → σ → Prop) (p : ExceptT ε (Prog Op Res) α)
    (tr : List (Event σ Op Res)) (r : Except ε α) : Prop := Path exec p.run tr r

/-- **A path of a sequence that may raise**: an exception skips the rest. -/
theorem pathE_bind {p : ExceptT ε (Prog Op Res) α} {f : α → ExceptT ε (Prog Op Res) β}
    {r : Except ε β} : PathE exec (p >>= f) tr r ↔
      (∃ e, r = .error e ∧ PathE exec p tr (.error e)) ∨
      ∃ front back a, tr = front ++ back ∧ PathE exec p front (.ok a) ∧ PathE exec (f a) back r := by
  unfold PathE
  refine path_bind.trans ?_
  constructor
  · rintro ⟨front, back, x, rfl, hp, hf⟩
    cases x with
    | error e =>
      obtain ⟨rfl, rfl⟩ := path_ret.1 hf
      rw [List.append_nil]
      exact .inl ⟨e, rfl, hp⟩
    | ok a => exact .inr ⟨front, back, a, rfl, hp, hf⟩
  · rintro (⟨e, rfl, hp⟩ | ⟨front, back, a, rfl, hp, hf⟩)
    · exact ⟨tr, [], _, (List.append_nil _).symm, hp, .ret _⟩
    · exact ⟨front, back, _, rfl, hp, hf⟩

end Rules

/-! ## Parts of a path -/

/-- The program performs these operations and goes on as another one. -/
inductive Segment (exec : σ → (o : Op) → Res o → σ → Prop) :
    Prog Op Res α → List (Event σ Op Res) → Prog Op Res α → Prop
  | nil (p : Prog Op Res α) : Segment exec p [] p
  | step {s s' : σ} {o : Op} {k : Res o → Prog Op Res α} {r : Res o} {tr : List (Event σ Op Res)}
      {p : Prog Op Res α} (h : exec s o r s') (rest : Segment exec (k r) tr p) :
      Segment exec (.step o k) (⟨s, o, r, s'⟩ :: tr) p

section Parts

variable {exec : σ → (o : Op) → Res o → σ → Prop} {p : Prog Op Res α} {a : α}

theorem Path.segment {tr : List (Event σ Op Res)} (h : Path exec p tr a) : Segment exec p tr (.ret a) := by
  induction h with
  | ret a => exact .nil _
  | step h rest ih => exact .step h ih

/-- A part can be split after any operation. -/
theorem Segment.split {q : Prog Op Res α} {tr : List (Event σ Op Res)} (h : Segment exec p tr q) :
    ∀ n, ∃ m, Segment exec p (tr.take n) m ∧ Segment exec m (tr.drop n) q := by
  induction h with
  | nil p => exact fun n => ⟨p, by rw [List.take_nil]; exact .nil p, by rw [List.drop_nil]; exact .nil p⟩
  | @step s s' o k r tr q h rest ih =>
    rintro (_ | n)
    · exact ⟨_, .nil _, .step h rest⟩
    · obtain ⟨m, hfront, hback⟩ := ih n
      exact ⟨m, .step h hfront, hback⟩

/-- A part of a sequence. -/
theorem Segment.bind {q : Prog Op Res α} {tr : List (Event σ Op Res)} (h : Segment exec p tr q)
    (f : α → Prog Op Res β) : Segment exec (p.bind f) tr (q.bind f) := by
  induction h with
  | nil p => exact .nil _
  | step h rest ih => exact .step h ih

end Parts

/-- Each operation meets the state that the one before it left. -/
def Chained : σ → List (Event σ Op Res) → σ → Prop
  | s, [], s' => s' = s
  | s, ev :: tr, s' => ev.before = s ∧ Chained ev.after tr s'

/-- **A part whose operations meet each other is a run of one thread** of a pool. -/
theorem Segment.runs {C : Type} {exec : C → σ → (o : Op) → Res o → σ → Prop} {body : C → Prog Op Res α}
    {c : C} {p q : Prog Op Res α} {tr : List (Event σ Op Res)} (h : Segment (exec c) p tr q)
    {before after : List (Thread C Op Res α)} : ∀ {s s' : σ}, Chained s tr s' →
    Relation.ReflTransGen (Pool.Step exec body) ⟨s, before ++ ⟨c, p⟩ :: after⟩
      ⟨s', before ++ ⟨c, q⟩ :: after⟩ := by
  induction h with
  | nil p =>
    rintro s _ rfl
    exact .refl
  | step h rest ih =>
    rintro s s' ⟨rfl, hchain⟩
    exact .head (.run _ _ before after c _ _ _ h) (ih hchain)

end Conc
