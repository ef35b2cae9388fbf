import Valops.Conc.Prog

/-!
# What a thread knows

In the middle of its program a thread knows what it has done and read so far. `Local` says of a
program, without any state, that each operation it issues meets a condition on this knowledge.
`Pool.local_sound` adds what the knowledge of a thread says about the shared state, and gives an
invariant of every interleaving.

A run in which steps meet a further condition is a run of `limited exec ok`.
-/

set_option autoImplicit false

namespace Conc

variable {σ C Op : Type} {Res : Op → Type} {K α β ε : Type}

/-- What a thread demands of an operation it issues, and what it learns from the result. -/
structure Knowledge (K Op : Type) (Res : Op → Type) where
  pre : K → Op → Prop
  learn : K → (o : Op) → Res o → K

/-- Every operation of the program meets the demand, and it returns with a value and knowledge that
meet the last condition. -/
def Local (N : Knowledge K Op Res) : K → Prog Op Res α → (α → K → Prop) → Prop
  | κ, .ret a, Q => Q a κ
  | κ, .step o k, Q => N.pre κ o ∧ ∀ r, Local N (N.learn κ o r) (k r) Q

section Rules

variable {N : Knowledge K Op Res} {κ : K}

theorem local_bind {p : Prog Op Res α} {f : α → Prog Op Res β} {Q : β → K → Prop} :
    ∀ {κ : K}, Local N κ p (fun a κ' => Local N κ' (f a) Q) → Local N κ (p.bind f) Q := by
  induction p with
  | ret a => exact fun h => h
  | step o k ih => exact fun h => ⟨h.1, fun r => ih r (h.2 r)⟩

theorem local_conseq {p : Prog Op Res α} {Q Q' : α → K → Prop} (hQ : ∀ a κ, Q a κ → Q' a κ) :
    ∀ {κ : K}, Local N κ p Q → Local N κ p Q' := by
  induction p with
  | ret a => exact fun h => hQ _ _ h
  | step o k ih => exact fun h => ⟨h.1, fun r => ih r (h.2 r)⟩

theorem local_perform {o : Op} {Q : Res o → K → Prop} (hpre : N.pre κ o)
    (h : ∀ r, Q r (N.learn κ o r)) : Local N κ (perform o) Q := ⟨hpre, h⟩

/-- The same for a program that may raise. -/
def LocalE (N : Knowledge K Op Res) (κ : K) (p : ExceptT ε (Prog Op Res) α)
    (Q : Except ε α → K → Prop) : Prop := Local N κ p.run Q

theorem localE_pure {a : α} {Q : Except ε α → K → Prop} (h : Q (.ok a) κ) :
    LocalE N κ (pure a) Q := h

theorem localE_throw {e : ε} {Q : Except ε α → K → Prop} (h : Q (.error e) κ) :
    LocalE N κ (throw e : ExceptT ε (Prog Op Res) α) Q := h

/-- **The rule for sequencing**: an exception skips the rest. -/
theorem localE_bind {p : ExceptT ε (Prog Op Res) α} {f : α → ExceptT ε (Prog Op Res) β}
    {Q : Except ε β → K → Prop}
    (h : LocalE N κ p fun r κ' => match r with
      | .ok a => LocalE N κ' (f a) Q
      | .error e => Q (.error e) κ') :
    LocalE N κ (p >>= f) Q := by
  refine local_bind (local_conseq ?_ h)
  intro r κ' hr
  cases r with
  | ok a => exact hr
  | error e => exact hr

end Rules

/-! ## Operations of two kinds -/

section Sum

variable {Op₂ : Type} {Res₂ : Op₂ → Type}

/-- The results of operations of two kinds. -/
abbrev SumRes (Res : Op → Type) (Res₂ : Op₂ → Type) : Op ⊕ Op₂ → Type
  | .inl o => Res o
  | .inr o => Res₂ o

/-- A program among operations of two kinds. -/
def Prog.left : Prog Op Res α → Prog (Op ⊕ Op₂) (SumRes Res Res₂) α
  | .ret a => .ret a
  | .step o k => .step (.inl o) fun r => (k r).left

/-- What is demanded of the operations of the first kind. -/
def Knowledge.left (N : Knowledge K (Op ⊕ Op₂) (SumRes Res Res₂)) : Knowledge K Op Res where
  pre κ o := N.pre κ (.inl o)
  learn κ o r := N.learn κ (.inl o) r

theorem local_left {N : Knowledge K (Op ⊕ Op₂) (SumRes Res Res₂)} {p : Prog Op Res α}
    {Q : α → K → Prop} : ∀ {κ : K}, Local N.left κ p Q → Local N κ p.left Q := by
  induction p with
  | ret a => exact fun h => h
  | step o k ih => exact fun h => ⟨h.1, fun r => ih r (h.2 r)⟩

end Sum

/-! ## Any number of threads -/

/-- The operations of a run whose steps meet a condition. -/
def limited (exec : C → σ → (o : Op) → Res o → σ → Prop)
    (ok : C → σ → (o : Op) → Res o → Prop) (c : C) (s : σ) (o : Op) (r : Res o) (s' : σ) : Prop :=
  ok c s o r ∧ exec c s o r s'

section Sound

variable {exec : C → σ → (o : Op) → Res o → σ → Prop} {body : C → Prog Op Res α}

/-- Fewer operations have fewer runs. -/
theorem Pool.Reach.mono {exec' : C → σ → (o : Op) → Res o → σ → Prop}
    (hexec : ∀ c s o r s', exec c s o r s' → exec' c s o r s') {s₀ : σ} {P : Pool σ C Op Res α}
    (h : Pool.Reach exec body s₀ P) : Pool.Reach exec' body s₀ P := by
  refine Relation.ReflTransGen.mono ?_ _ _ h
  intro P P' hstep
  cases hstep with
  | spawn s ts c fresh => exact .spawn s ts c fresh
  | run s s' before after c o k r hr => exact .run s s' before after c o k r (hexec c s o r s' hr)

/-- What one step keeps: the invariant, what the thread knows by then, and what the others know. -/
def Kept (I : σ → Prop) (Knows : C → K → σ → Prop) (c : C) (κ : K) (s s' : σ) : Prop :=
  I s' ∧ Knows c κ s' ∧ ∀ c' κ', c' ≠ c → Knows c' κ' s → Knows c' κ' s'

/-- **Knowledge is sound in every interleaving.** A thread that has not started knows nothing yet, and
what it knows then is kept by the others as well. -/
theorem Pool.local_sound_from (N : C → Knowledge K Op Res) {I : σ → Prop} {Knows : C → K → σ → Prop}
    {κ₀ : K} {Q : C → α → K → Prop}
    (hstep : ∀ c κ s o r s', I s → Knows c κ s → (N c).pre κ o → exec c s o r s' →
      Kept I Knows c ((N c).learn κ o r) s s')
    (hbody : ∀ c, Local (N c) κ₀ (body c) (Q c)) {s₀ : σ} (hstart : ∀ c, Knows c κ₀ s₀)
    (h₀ : I s₀) {P : Pool σ C Op Res α} (h : Pool.Reach exec body s₀ P) :
    I P.state ∧ (P.threads.map Thread.tag).Nodup ∧
      (∀ c, c ∉ P.threads.map Thread.tag → Knows c κ₀ P.state) ∧
      ∀ t ∈ P.threads, ∃ κ, Knows t.tag κ P.state ∧ Local (N t.tag) κ t.prog (Q t.tag) := by
  induction h with
  | refl => exact ⟨h₀, .nil, fun c _ => hstart c, fun t ht => absurd ht List.not_mem_nil⟩
  | tail _ hmove ih =>
    obtain ⟨hinv, hnodup, hidle, hts⟩ := ih
    cases hmove with
    | spawn s ts c fresh =>
      have hnew : c ∉ ts.map Thread.tag := fun hc => by
        obtain ⟨t, ht, rfl⟩ := List.mem_map.1 hc
        exact fresh t ht rfl
      have htags : (ts ++ [(⟨c, body c⟩ : Thread C Op Res α)]).map Thread.tag =
          ts.map Thread.tag ++ [c] := by simp
      refine ⟨hinv, ?_, fun c' hc' => hidle c' fun hmem => hc' ?_, List.forall_mem_append.2
        ⟨hts, List.forall_mem_singleton.2 ⟨κ₀, hidle c hnew, hbody c⟩⟩⟩
      · rw [htags]
        refine List.nodup_append.2 ⟨hnodup, List.nodup_singleton _, fun x hx y hy => ?_⟩
        cases List.mem_singleton.1 hy
        exact fun heq => hnew (heq ▸ hx)
      · rw [htags]
        exact List.mem_append_left _ hmem
    | run s s' before after c o k r hr =>
      obtain ⟨hbefore, hrest⟩ := List.forall_mem_append.1 hts
      obtain ⟨⟨κ, hκ, hself⟩, hafter⟩ := List.forall_mem_cons.1 hrest
      obtain ⟨hinv', hκ', hothers⟩ := hstep c κ s o r s' hinv hκ hself.1 hr
      have htags : (before ++ ⟨c, k r⟩ :: after).map Thread.tag =
          (before ++ ⟨c, .step o k⟩ :: after).map Thread.tag := by simp
      have hne : ∀ t ∈ before ++ after, t.tag ≠ c := by
        intro t ht heq
        have hperm : ((before ++ ⟨c, .step o k⟩ :: after).map Thread.tag).Perm
            (c :: (before ++ after).map Thread.tag) := List.perm_middle.map Thread.tag
        exact (List.nodup_cons.1 (hperm.nodup_iff.1 hnodup)).1 (List.mem_map.2 ⟨t, ht, heq⟩)
      have hother : ∀ t ∈ before ++ after, (∃ κ, Knows t.tag κ s ∧
          Local (N t.tag) κ t.prog (Q t.tag)) → ∃ κ, Knows t.tag κ s' ∧
          Local (N t.tag) κ t.prog (Q t.tag) :=
        fun t ht ⟨κ', hknows, hlocal⟩ => ⟨κ', hothers t.tag κ' (hne t ht) hknows, hlocal⟩
      refine ⟨hinv', htags ▸ hnodup, fun c' hc' => ?_, List.forall_mem_append.2 ⟨fun t ht => ?_, ?_⟩⟩
      · have hc' : c' ∉ (before ++ ⟨c, .step o k⟩ :: after).map Thread.tag := htags ▸ hc'
        refine hothers c' κ₀ (fun heq => hc' ?_) (hidle c' hc')
        rw [heq]
        exact List.mem_map.2 ⟨_, List.mem_append_right _ List.mem_cons_self, rfl⟩
      · exact hother t (List.mem_append_left _ ht) (hbefore t ht)
      · refine List.forall_mem_cons.2 ⟨⟨_, hκ', hself.2 r⟩, fun t ht => ?_⟩
        exact hother t (List.mem_append_right _ ht) (hafter t ht)

/-- The same where the invariant gives what a thread knows at its start. -/
theorem Pool.local_sound (N : C → Knowledge K Op Res) {I : σ → Prop} {Knows : C → K → σ → Prop}
    {κ₀ : K}
    (hstep : ∀ c κ s o r s', I s → Knows c κ s → (N c).pre κ o → exec c s o r s' →
      Kept I Knows c ((N c).learn κ o r) s s')
    (hbody : ∀ c, Local (N c) κ₀ (body c) fun _ _ => True) (hstart : ∀ c s, I s → Knows c κ₀ s)
    {s₀ : σ} (h₀ : I s₀) {P : Pool σ C Op Res α} (h : Pool.Reach exec body s₀ P) :
    I P.state ∧ (P.threads.map Thread.tag).Nodup ∧ ∀ t ∈ P.threads, ∃ κ, Knows t.tag κ P.state ∧
      Local (N t.tag) κ t.prog fun _ _ => True := by
  obtain ⟨hinv, hnodup, -, hts⟩ :=
    Pool.local_sound_from N hstep hbody (fun c => hstart c s₀ h₀) h₀ h
  exact ⟨hinv, hnodup, hts⟩

end Sound

end Conc
