import Valops.Conc.Trace

/-!
# Programs that raise

The next operation, the value of a computation, and `finally`, for programs that may raise; and what
the paths of each are.
-/

set_option autoImplicit false

namespace Conc

variable {σ Op : Type} {Res : Op → Type} {α β ε : Type}

/-- The next operation; it does not raise. -/
def issue (o : Op) : ExceptT ε (Prog Op Res) (Res o) :=
  ExceptT.mk (Prog.step o fun r => .ret (.ok r))

/-- A value that has been computed. -/
def result (x : Except ε α) : ExceptT ε (Prog Op Res) α := ExceptT.mk (.ret x)

/-- `try: p finally: o`. -/
def finally_ (p : ExceptT ε (Prog Op Res) α) (o : Op) : ExceptT ε (Prog Op Res) α :=
  ExceptT.mk (p.run.bind fun x => .step o fun _ => .ret x)

section Rules

variable {exec : σ → (o : Op) → Res o → σ → Prop} {tr : List (Event σ Op Res)}

theorem pathE_issue {o : Op} {r : Except ε (Res o)} :
    PathE exec (issue o) tr r ↔ ∃ s x s', tr = [⟨s, o, x, s'⟩] ∧ exec s o x s' ∧ r = .ok x := by
  refine path_step.trans ?_
  constructor
  · rintro ⟨s, x, s', rest, rfl, hx, hrest⟩
    obtain ⟨rfl, rfl⟩ := path_ret.1 hrest
    exact ⟨s, x, s', rfl, hx, rfl⟩
  · rintro ⟨s, x, s', rfl, hx, rfl⟩
    exact ⟨s, x, s', [], rfl, hx, .ret _⟩

theorem pathE_result {x r : Except ε α} : PathE exec (result x) tr r ↔ tr = [] ∧ r = x := path_ret

theorem pathE_pure {a : α} {r : Except ε α} : PathE exec (pure a) tr r ↔ tr = [] ∧ r = .ok a := path_ret

theorem pathE_throw {e : ε} {r : Except ε α} :
    PathE exec (throw e) tr r ↔ tr = [] ∧ r = .error e := path_ret

theorem pathE_map {p : ExceptT ε (Prog Op Res) α} {f : α → β} {r : Except ε β} :
    PathE exec (f <$> p) tr r ↔ ∃ x, PathE exec p tr x ∧ r = f <$> x := by
  refine path_bind.trans ?_
  constructor
  · rintro ⟨front, back, x, rfl, hp, hback⟩
    refine ⟨x, ?_⟩
    cases x <;>
    · obtain ⟨rfl, rfl⟩ := path_ret.1 hback
      rw [List.append_nil]
      exact ⟨hp, rfl⟩
  · rintro ⟨x, hp, rfl⟩
    refine ⟨tr, [], x, (List.append_nil tr).symm, hp, ?_⟩
    cases x <;> exact .ret _

/-- The next operation, and what follows it. -/
theorem pathE_issue_bind {o : Op} {f : Res o → ExceptT ε (Prog Op Res) β} {r : Except ε β} :
    PathE exec (issue o >>= f) tr r ↔ ∃ s x s' rest, tr = ⟨s, o, x, s'⟩ :: rest ∧ exec s o x s' ∧
      PathE exec (f x) rest r := by
  refine pathE_bind.trans ?_
  constructor
  · rintro (⟨e, -, hp⟩ | ⟨front, back, a, rfl, hp, hf⟩)
    · obtain ⟨s, x, s', -, -, he⟩ := pathE_issue.1 hp
      cases he
    · obtain ⟨s, x, s', rfl, hx, ha⟩ := pathE_issue.1 hp
      cases ha
      exact ⟨s, _, s', back, rfl, hx, hf⟩
  · rintro ⟨s, x, s', rest, rfl, hx, hf⟩
    exact .inr ⟨[_], rest, x, rfl, pathE_issue.2 ⟨s, x, s', rfl, hx, rfl⟩, hf⟩

/-- A computed value, and what follows it. -/
theorem pathE_result_bind {x : Except ε α} {f : α → ExceptT ε (Prog Op Res) β} {r : Except ε β} :
    PathE exec (result x >>= f) tr r ↔
      (∃ e, x = .error e ∧ tr = [] ∧ r = .error e) ∨ ∃ a, x = .ok a ∧ PathE exec (f a) tr r := by
  refine pathE_bind.trans ?_
  constructor
  · rintro (⟨e, rfl, hp⟩ | ⟨front, back, a, rfl, hp, hf⟩)
    · obtain ⟨rfl, rfl⟩ := pathE_result.1 hp
      exact .inl ⟨e, rfl, rfl, rfl⟩
    · obtain ⟨rfl, rfl⟩ := pathE_result.1 hp
      exact .inr ⟨a, rfl, hf⟩
  · rintro (⟨e, rfl, rfl, rfl⟩ | ⟨a, rfl, hf⟩)
    · exact .inl ⟨e, rfl, pathE_result.2 ⟨rfl, rfl⟩⟩
    · exact .inr ⟨[], tr, a, rfl, pathE_result.2 ⟨rfl, rfl⟩, hf⟩

/-- **What is done in `finally` is done in any case.** -/
theorem pathE_finally {p : ExceptT ε (Prog Op Res) α} {o : Op} {r : Except ε α} :
    PathE exec (finally_ p o) tr r ↔ ∃ front s x s', tr = front ++ [⟨s, o, x, s'⟩] ∧
      PathE exec p front r ∧ exec s o x s' := by
  refine path_bind.trans ?_
  constructor
  · rintro ⟨front, back, y, rfl, hp, hback⟩
    obtain ⟨s, x, s', rest, rfl, hx, hrest⟩ := path_step.1 hback
    obtain ⟨rfl, rfl⟩ := path_ret.1 hrest
    exact ⟨front, s, x, s', rfl, hp, hx⟩
  · rintro ⟨front, s, x, s', rfl, hp, hx⟩
    exact ⟨front, [_], r, rfl, hp, path_step.2 ⟨s, x, s', [], rfl, hx, .ret _⟩⟩

end Rules

end Conc
