import Valops.Verifier.Check

/-!
# The verifier in a world

A world in which every call of the verifier may return or raise anything, and the store accepts the
observation of a sample or does not. A `Frame` says what a proof follows of the world, and which
operations leave it alone; `Frame.Keeps.ticks` turns the proof for one rule into a fact about every
state after a tick.
-/

set_option autoImplicit false

namespace Valops.Verifier

open Py Store Conc

/-! ## The world -/

/-- An operation that was performed; `kept` where its effect took place. For a sample: whether the
store accepts appends then. -/
structure Event where
  op : Op
  res : Res op
  kept : Bool

/-- What was performed, and whether the store accepts appends. -/
structure World where
  events : List Event := []
  accepts : Bool := false

/-- How an operation may end, with its effect and whether the store accepts appends after it. What is
not appended is not answered with a result. -/
def Answers (now : Bool) : (o : Op) → Res o → Bool → Bool → Prop
  | .sampled _, _, kept, next => kept = next
  | .append_recovery_observation _ _ _ _, r, kept, next =>
    next = now ∧ kept = now ∧ (now = false → ∃ e, r = .error e)
  | .append_verification _ _ _ _ _ _, r, kept, next => next = now ∧ (r = .ok () → kept = true)
  | .set_state _ _ _ _, r, kept, next => next = now ∧ (r = .ok () → kept = true)
  | _, _, _, next => next = now

/-- One operation in the world. -/
def Behaves (_ : Unit) (w : World) (o : Op) (r : Res o) (w' : World) : Prop :=
  ∃ kept next, w' = ⟨w.events ++ [⟨o, r, kept⟩], next⟩ ∧ Answers w.accepts o r kept next

/-! ## Frames -/

/-- What a proof follows of the world, and the operations that leave it alone. -/
structure Frame where
  rely : World → World → Prop
  calm : Op → Prop
  refl : ∀ w, rely w w
  trans : ∀ {u v w : World}, rely u v → rely v w → rely u w
  step : ∀ {o : Op} {w : World} {r : Res o} {w' : World}, calm o → Behaves () w o r w' → rely w w'

/-- The verifier alone acts in the world. -/
def Frame.discipline (F : Frame) : Discipline World Unit Op Res where
  exec := Behaves
  inv _ := True
  rely := F.rely
  guar _ _ _ _ := True
  refl := F.refl
  trans := F.trans

section Rules

variable {F : Frame} {α β : Type} {m : Memory} {w : World} {Q : Except Exc α → Memory → World → Prop}

/-- Calls that are calm, and what follows them. -/
theorem still_bind {p : Calls β} {f : β → Check α} (hp : IssuesE F.calm p)
    (herr : ∀ e w', F.rely w w' → Q (.error e) m w')
    (hok : ∀ a w', F.rely w w' → wpS F.discipline () (f a) Q m w') :
    wpS F.discipline () (still p >>= f) Q m w := by
  refine wpS_bind (wp_bind (wp_calm (P := F.calm) ?_ hp ?_))
  · exact fun s o r s' _ ho h => ⟨trivial, trivial, F.step ho h⟩
  · intro r w₁ h₁ _ w₂ h₂ _
    cases r with
    | ok a => exact hok a w₂ (F.trans h₁ h₂)
    | error e => exact fun t ht _ => herr e t (F.trans (F.trans h₁ h₂) ht)

theorem still_last {p : Calls α} (hp : IssuesE F.calm p) (h : ∀ r w', F.rely w w' → Q r m w') :
    wpS F.discipline () (still p) Q m w := by
  refine wp_bind (wp_calm (P := F.calm) ?_ hp ?_)
  · exact fun s o r s' _ ho h => ⟨trivial, trivial, F.step ho h⟩
  · exact fun r w₁ h₁ _ w₂ h₂ _ => h r w₂ (F.trans h₁ h₂)

theorem pure_last {a : α} (h : ∀ w', F.rely w w' → Q (.ok a) m w') : wpS F.discipline () (pure a) Q m w :=
  wpS_pure fun w' hw _ => h w' hw

theorem recalled_bind {g : Memory → β} {f : β → Check α}
    (h : ∀ w', F.rely w w' → wpS F.discipline () (f (g m)) Q m w') :
    wpS F.discipline () (recalled g >>= f) Q m w :=
  wpS_bind fun w' hw _ => h w' hw

theorem remember_bind {g : Memory → Memory} {f : Unit → Check α}
    (h : ∀ w', F.rely w w' → wpS F.discipline () (f ()) Q (g m) w') :
    wpS F.discipline () (remember g >>= f) Q m w :=
  wpS_bind fun w' hw _ => h w' hw

theorem remember_last {g : Memory → Memory} {Q : Except Exc Unit → Memory → World → Prop}
    (h : ∀ w', F.rely w w' → Q (.ok ()) (g m) w') : wpS F.discipline () (remember g) Q m w :=
  fun w' hw _ => h w' hw

/-- A computation, and what follows it. -/
theorem computed_bind {x : Except Exc β} {f : β → Check α}
    (herr : ∀ e, x = .error e → ∀ w', F.rely w w' → Q (.error e) m w')
    (hok : ∀ a, x = .ok a → ∀ w', F.rely w w' → wpS F.discipline () (f a) Q m w') :
    wpS F.discipline () (still (compute x) >>= f) Q m w := by
  refine wpS_bind ?_
  cases x with
  | ok a => exact fun w₁ h₁ _ => hok a rfl w₁ h₁
  | error e => exact fun w₁ h₁ _ w₂ h₂ _ => herr e rfl w₂ (F.trans h₁ h₂)

/-- A reading, and what follows it. -/
theorem act_bind {o : Op} {f : Res o → Check α}
    (h : ∀ w₁ x w₂, F.rely w w₁ → Behaves () w₁ o x w₂ →
      ∀ w₃, F.rely w₂ w₃ → wpS F.discipline () (f x) Q m w₃) :
    wpS F.discipline () (still (reading (ask o)) >>= f) Q m w := by
  refine wpS_bind (wp_bind (wp_bind (wp_perform ?_)))
  intro w₁ h₁ _ x w₂ hx
  refine ⟨trivial, trivial, fun w₃ h₃ _ w₄ h₄ _ w₅ h₅ _ => ?_⟩
  exact h w₁ x w₂ h₁ hx w₅ (F.trans (F.trans h₃ h₄) h₅)

/-- A calm reading, and what follows it. -/
theorem reading_bind {o : Op} (ho : F.calm o) {f : Res o → Check α}
    (h : ∀ a w', F.rely w w' → wpS F.discipline () (f a) Q m w') :
    wpS F.discipline () (still (reading (ask o)) >>= f) Q m w :=
  act_bind fun _ x _ h₁ hx w₃ h₃ => h x w₃ (F.trans (F.trans h₁ (F.step ho hx)) h₃)

/-- A reading at the end. -/
theorem act_last {o : Op} {Q : Except Exc (Res o) → Memory → World → Prop}
    (h : ∀ w₁ x w₂, F.rely w w₁ → Behaves () w₁ o x w₂ → ∀ w₃, F.rely w₂ w₃ → Q (.ok x) m w₃) :
    wpS F.discipline () (still (reading (ask o))) Q m w := by
  refine wp_bind (wp_bind (wp_perform ?_))
  intro w₁ h₁ _ x w₂ hx
  refine ⟨trivial, trivial, fun w₃ h₃ _ w₄ h₄ _ w₅ h₅ _ => ?_⟩
  exact h w₁ x w₂ h₁ hx w₅ (F.trans (F.trans h₃ h₄) h₅)

/-- A call, and what follows it. -/
theorem call_bind {o : Op} {f : β → Check α} (view : Res o → Except Exc β)
    (herr : ∀ w₁ x w₂, F.rely w w₁ → Behaves () w₁ o x w₂ → ∀ e, view x = .error e →
      ∀ w₃, F.rely w₂ w₃ → Q (.error e) m w₃)
    (hok : ∀ w₁ x w₂, F.rely w w₁ → Behaves () w₁ o x w₂ → ∀ a, view x = .ok a →
      ∀ w₃, F.rely w₂ w₃ → wpS F.discipline () (f a) Q m w₃) :
    wpS F.discipline () (still (ExceptT.mk ((ask o).bind fun x => .ret (view x))) >>= f) Q m w := by
  refine wpS_bind (wp_bind (wp_bind (wp_perform ?_)))
  intro w₁ h₁ _ x w₂ hx
  refine ⟨trivial, trivial, fun w₃ h₃ _ w₄ h₄ _ w₅ h₅ _ => ?_⟩
  have h₂₅ := F.trans (F.trans h₃ h₄) h₅
  cases hview : view x with
  | ok a => exact hok w₁ x w₂ h₁ hx a hview w₅ h₂₅
  | error e => exact fun t ht _ => herr w₁ x w₂ h₁ hx e hview t (F.trans h₂₅ ht)

/-! ### Programs without the memory -/

section WithoutMemory

variable {R R' : Except Exc β → World → Prop} {S : Except Exc α → World → Prop}

theorem wpE_call {o : Op} (view : Res o → Except Exc β)
    (h : ∀ w₁ x w₂, F.rely w w₁ → Behaves () w₁ o x w₂ → ∀ w₃, F.rely w₂ w₃ → R (view x) w₃) :
    wpE F.discipline () (ExceptT.mk ((ask o).bind fun x => .ret (view x))) R w := by
  refine wp_bind (wp_perform ?_)
  intro w₁ h₁ _ x w₂ hx
  exact ⟨trivial, trivial, fun w₃ h₃ _ w₄ h₄ _ => h w₁ x w₂ h₁ hx w₄ (F.trans h₃ h₄)⟩

theorem wpE_compute {x : Except Exc β} (h : ∀ w', F.rely w w' → R x w') :
    wpE F.discipline () (compute x) R w := fun w' hw _ => h w' hw

/-- Sequencing, with what is known where it raises. -/
theorem wpE_next {p : Calls β} {f : β → Calls α} (hp : wpE F.discipline () p R w)
    (herr : ∀ e w' t, R (.error e) w' → F.rely w' t → S (.error e) t)
    (hok : ∀ a w', R (.ok a) w' → wpE F.discipline () (f a) S w') :
    wpE F.discipline () (p >>= f) S w := by
  refine wpE_bind (wpE_conseq ?_ hp)
  intro r w' hr
  cases r with
  | ok a => exact hok a w' hr
  | error e => exact fun t ht _ => herr e w' t hr ht

/-- Sequencing, where an exception is of no interest. -/
theorem wpE_then {p : Calls β} {f : β → Calls α} (hp : wpE F.discipline () p R w)
    (herr : ∀ e w', S (.error e) w')
    (hok : ∀ a w', R (.ok a) w' → wpE F.discipline () (f a) S w') :
    wpE F.discipline () (p >>= f) S w :=
  wpE_next hp (fun e _ t _ _ => herr e t) hok

/-- `except RpcError`, where no exception is of interest. -/
theorem wpE_orRpc {p h : Calls β} (hp : wpE F.discipline () p R w)
    (hstable : ∀ a w' t, R (.ok a) w' → F.rely w' t → R' (.ok a) t) (herr : ∀ e w', R' (.error e) w')
    (hh : ∀ w', wpE F.discipline () h R' w') : wpE F.discipline () (orRpc p h) R' w := by
  refine wpE_tryCatch (wpE_conseq ?_ hp)
  intro r w' hr
  cases r with
  | ok a => exact fun t ht _ => hstable a w' t hr ht
  | error e =>
    cases e with
    | rpc code text data => exact hh w'
    | other e => exact wpE_throw fun t _ _ => herr _ t

/-- A program that only issues calm operations stays within the rely. -/
theorem wpE_calm {p : Calls β} (hp : IssuesE F.calm p) (h : ∀ r w', F.rely w w' → R r w') :
    wpE F.discipline () p R w :=
  wp_calm (fun _ _ _ _ _ ho hx => ⟨trivial, trivial, F.step ho hx⟩) hp fun r w' hw _ => h r w' hw

/-- Calls with what is known of them, and what follows. -/
theorem spec_bind {p : Calls β} {f : β → Check α} (hp : wpE F.discipline () p R w)
    (herr : ∀ e w' t, R (.error e) w' → F.rely w' t → Q (.error e) m t)
    (hok : ∀ a w' t, R (.ok a) w' → F.rely w' t → wpS F.discipline () (f a) Q m t) :
    wpS F.discipline () (still p >>= f) Q m w := by
  refine wpS_bind (wp_bind (wp_conseq ?_ hp))
  intro r w₁ h₁ w₂ h₂ _
  cases r with
  | ok a => exact hok a w₁ w₂ h₁ h₂
  | error e => exact fun t ht _ => herr e w₁ t h₁ (F.trans h₂ ht)

end WithoutMemory

end Rules

/-! ## What a program issues -/

section Programs

/-- The operations of a sample. -/
def Observing : Op → Prop
  | .probe | .telemetry | .sample _ | .now => True
  | _ => False

variable (b : Builtins) {α : Type} {P : Op → Prop}

theorem issues_compute (x : Except Exc α) : IssuesE P (compute x) := trivial

theorem issues_orRpc {p h : Calls α} (hp : IssuesE P p) (hh : IssuesE P h) : IssuesE P (orRpc p h) := by
  refine issuesE_tryCatch hp fun e => ?_
  cases e with
  | rpc code text data => exact hh
  | other e => exact issuesE_throw

theorem issues_telemetry : IssuesE Observing sampleTelemetry := by
  refine issues_orRpc (issuesE_bind ⟨trivial, fun _ => trivial⟩ fun probe => ?_) issuesE_pure
  refine issuesE_bind ⟨trivial, fun _ => trivial⟩ fun tel => ?_
  exact issuesE_bind (issues_compute _) fun entry => issuesE_pure

theorem issues_usable (max_age_s : Double) (r : Json) : IssuesE Observing (usable b max_age_s r) := by
  refine issuesE_bind (issues_compute _) fun status => ?_
  split
  · refine issuesE_bind ⟨trivial, fun _ => trivial⟩ fun t => ?_
    refine issuesE_bind (issues_compute _) fun collected_at => ?_
    exact issuesE_bind (issues_compute _) fun since => issuesE_pure
  · exact issuesE_pure

theorem issues_command (max_age_s : Double) (cid : PyStr) : IssuesE Observing (sampleCommand b max_age_s cid) := by
  refine issuesE_bind (issues_orRpc (issuesE_bind ⟨trivial, fun _ => trivial⟩ fun r => issuesE_pure)
    issuesE_pure) fun r => ?_
  cases r with
  | none => exact issuesE_pure
  | some r =>
    refine issuesE_bind (issues_usable b max_age_s r) fun ok => ?_
    split
    · refine issuesE_bind (issues_compute _) fun structured => ?_
      exact issuesE_bind (issues_compute _) fun entry => issuesE_pure
    · exact issuesE_pure

/-- What the loop does with the entry of one command. -/
theorem issues_entry {max_age_s : Double} {cid : PyStr} {cids : List PyStr} {out : Fields} {fresh : Bool}
    (ih : ∀ (out : Fields) (fresh : Bool), IssuesE Observing (sampleLoop b max_age_s out fresh cids))
    (entry : Option Json) : IssuesE Observing (match entry with
      | some entry => sampleLoop b max_age_s (Json.insertField cid entry out) fresh cids
      | none => sampleLoop b max_age_s out false cids) := by
  cases entry with
  | none => exact ih out false
  | some entry => exact ih _ fresh

theorem issues_loop (max_age_s : Double) (cids : List PyStr) (out : Fields) (fresh : Bool) :
    IssuesE Observing (sampleLoop b max_age_s out fresh cids) := by
  induction cids generalizing out fresh with
  | nil => exact issuesE_pure
  | cons cid cids ih =>
    rw [sampleLoop]
    split
    · exact issuesE_bind issues_telemetry (issues_entry b ih)
    · exact issuesE_bind (issues_command b max_age_s cid) (issues_entry b ih)

theorem issues_takeSample (cids : List PyStr) (max_age_s : Double) (bundle : Bundle) :
    IssuesE Observing (takeSample b cids max_age_s bundle) :=
  issuesE_bind (issues_loop b max_age_s cids [] true) fun _ =>
    issuesE_bind (issues_compute _) fun _ => issuesE_pure

end Programs

/-! ## Invariants of the verifier -/

/-- The calls and readings outside the check of a rule. -/
def Plain : Op → Prop
  | .list_episodes | .load _ | .read_episode _ | .now | .system_alert _ _ => True
  | _ => False

/-- What the check of one rule keeps. -/
structure Frame.Keeps (F : Frame) (b : Builtins) (I : Memory → World → Prop) : Prop where
  same : ∀ {m w w'}, I m w → F.rely w w' → I m w'
  recount : ∀ {m m' w}, I m w → m'.streak = m.streak → I m' w
  calm : ∀ {o}, Plain o → F.calm o
  begun : ∀ {m w e x w'}, I m w → Behaves () w (.checking e) x w' → I m w'
  failed : ∀ {m w e x w'}, I m w → Behaves () w (.log_failed e) x w' → I m w'
  rule : ∀ {m w} ep bundle thresholds max_age r, I m w →
    wpS F.discipline () (checkRule b bundle thresholds max_age ep r) (fun _ => I) m w

section Keeps

variable {F : Frame} {b : Builtins} {I : Memory → World → Prop} {m : Memory} {w : World}

theorem Frame.Keeps.rules (H : F.Keeps b I) {ep : EpisodeSummary} {bundle : Bundle} {thresholds : Json}
    {max_age : Double} : ∀ (rules : List Rule) {m : Memory} {w : World}, I m w →
      wpS F.discipline () (checkRules b bundle thresholds max_age ep rules) (fun _ => I) m w
  | [], _, _, h => pure_last fun _ hw => H.same h hw
  | rule :: rules, m, w, h => by
    refine wpS_bind (wpS_conseq ?_ (H.rule ep bundle thresholds max_age rule h))
    intro r m' w₁ h₁
    cases r with
    | error e => exact fun w₂ h₂ _ => H.same h₁ h₂
    | ok returned =>
      show wpS F.discipline () (if returned = true then _ else _) _ _ _
      split
      · exact pure_last fun w₂ h₂ => H.same h₁ h₂
      · exact H.rules rules h₁

theorem Frame.Keeps.escalate (H : F.Keeps b I) {ep : EpisodeSummary} {thresholds : Json} (h : I m w) :
    wpS F.discipline () (_maybe_escalate b ep thresholds) (fun _ => I) m w := by
  refine recalled_bind fun w₁ h₁ => ?_
  have h := H.same h h₁
  split
  · exact pure_last fun w₂ h₂ => H.same h h₂
  refine still_bind ⟨H.calm trivial, fun _ => trivial⟩ (fun _ w₂ h₂ => H.same h h₂) fun rec w₂ h₂ => ?_
  have h := H.same h h₂
  refine still_bind (issues_compute _) (fun _ w₃ h₃ => H.same h h₃) fun deadline w₃ h₃ => ?_
  have h := H.same h h₃
  refine still_bind (issues_compute _) (fun _ w₄ h₄ => H.same h h₄) fun deadline w₄ h₄ => ?_
  have h := H.same h h₄
  generalize minutes deadline = seconds
  refine still_bind (issues_compute _) (fun _ w₅ h₅ => H.same h h₅) fun deadline_s w₅ h₅ => ?_
  have h := H.same h h₅
  split
  · exact pure_last fun w₆ h₆ => H.same h h₆
  refine reading_bind (o := .now) (H.calm trivial) fun t w₆ h₆ => ?_
  have h := H.same h h₆
  split
  · refine still_bind (issues_compute _) (fun _ w₇ h₇ => H.same h h₇) fun _ w₇ h₇ => ?_
    have h := H.same h h₇
    refine still_bind (issues_orRpc (issuesE_bind ⟨H.calm trivial, fun _ => trivial⟩ fun _ => issuesE_pure)
      issuesE_pure) (fun _ w₈ h₈ => H.same h h₈) fun sent w₈ h₈ => ?_
    have h := H.same h h₈
    split
    · exact remember_last fun w₉ h₉ => H.recount (H.same h h₉) rfl
    · exact pure_last fun w₉ h₉ => H.same h h₉
  · exact pure_last fun w₇ h₇ => H.same h h₇

theorem Frame.Keeps.episode (H : F.Keeps b I) {ep : EpisodeSummary} (h : I m w) :
    wpS F.discipline () (check_episode b ep) (fun _ => I) m w := by
  refine act_bind (o := .checking ep.episode_id) fun w₀ x w₁ h₀ hx w₁' h₁ => ?_
  have h := H.same (H.begun (H.same h h₀) hx) h₁
  refine still_bind ⟨H.calm trivial, fun _ => trivial⟩ (fun _ w₂ h₂ => H.same h h₂) fun bundle w₂ h₂ => ?_
  have h := H.same h h₂
  refine still_bind (issues_compute _) (fun _ w₃ h₃ => H.same h h₃) fun thresholds w₃ h₃ => ?_
  have h := H.same h h₃
  refine still_bind (issues_compute _) (fun _ w₄ h₄ => H.same h h₄) fun p15 w₄ h₄ => ?_
  have h := H.same h h₄
  refine still_bind (issues_compute _) (fun _ w₅ h₅ => H.same h h₅) fun p01 w₅ h₅ => ?_
  have h := H.same h h₅
  refine still_bind (issues_compute _) (fun _ w₆ h₆ => H.same h h₆) fun product w₆ h₆ => ?_
  have h := H.same h h₆
  refine still_bind (issues_compute _) (fun _ w₇ h₇ => H.same h h₇) fun max_age w₇ h₇ => ?_
  have h := H.same h h₇
  refine still_bind (issues_compute _) (fun _ w₈ h₈ => H.same h h₈) fun rules w₈ h₈ => ?_
  have h := H.same h h₈
  refine still_bind (issues_compute _) (fun _ w₉ h₉ => H.same h h₉) fun rules w₉ h₉ => ?_
  refine wpS_bind (wpS_conseq ?_ (H.rules rules (H.same h h₉)))
  intro r m' w₁₀ h₁₀
  cases r with
  | error e => exact fun w₁₁ h₁₁ _ => H.same h₁₀ h₁₁
  | ok returned =>
    show wpS F.discipline () (if returned = true then _ else _) _ _ _
    split
    · exact pure_last fun w₁₁ h₁₁ => H.same h₁₀ h₁₁
    · exact H.escalate h₁₀

theorem Frame.Keeps.episodes (H : F.Keeps b I) : ∀ (eps : List EpisodeSummary) {m : Memory} {w : World},
    I m w → wpS F.discipline () (checkAll b eps) (fun _ => I) m w
  | [], _, _, h => pure_last fun _ hw => H.same h hw
  | ep :: eps, m, w, h => by
    refine recalled_bind fun w₁ h₁ => ?_
    have h := H.same h h₁
    split
    · exact H.episodes eps h
    refine wpS_bind (wpS_tryCatch (wpS_conseq ?_ (H.episode h)))
    intro r m' w₂ h₂
    cases r with
    | ok u => exact fun w₃ h₃ _ => H.episodes eps (H.same h₂ h₃)
    | error e =>
      exact act_last (o := .log_failed ep.episode_id) fun w₃ x w₄ h₃ hx w₅ h₅ =>
        H.episodes eps (H.same (H.failed (H.same h₂ h₃) hx) h₅)

/-- **A tick keeps what the check of a rule keeps.** -/
theorem Frame.Keeps.tick (H : F.Keeps b I) (h : I m w) :
    wpS F.discipline () (tick b) (fun _ => I) m w :=
  still_bind ⟨H.calm trivial, fun _ => trivial⟩ (fun _ _ h₁ => H.same h h₁)
    fun eps _ h₁ => H.episodes eps (H.same h h₁)

end Keeps

/-! ## Runs -/

/-- The verifier ticks, from an empty memory. -/
def Ticks (b : Builtins) (x : Prog Op Res (Except Exc Unit × Memory) × World) : Prop :=
  Loop.Reach (Behaves ()) (fun _ _ => False) (again b) ((ExceptT.run (tick b)).run {}) (fun _ => False)
    (fun w => w.events = []) x

/-- **What the check of a rule keeps holds after every tick.** -/
theorem Frame.Keeps.ticks {F : Frame} {b : Builtins} {I : Memory → World → Prop} (H : F.Keeps b I)
    (hstart : ∀ w, w.events = [] → I {} w) {a : Except Exc Unit × Memory} {w : World}
    (h : Ticks b (.ret a, w)) : I a.2 w := by
  have hsound := Loop.sound F.discipline (Q := fun a w => I a.2 w) (fun _ _ _ hf => hf.elim)
    (fun a p w _ hk hp => ?_) (fun _ _ hf => hf.elim) (fun w hw => ⟨trivial, ?_⟩) h
  · exact hsound.2 w (F.refl w) trivial
  · obtain ⟨r, m⟩ := a
    unfold again at hp
    split at hp
    · cases hp
      exact H.tick hk
    · cases hp
      exact H.tick hk
    · cases hp
  · exact H.tick (hstart w hw)

/-! ## Scripts -/

section Scripts

/-- A world that follows a script. -/
abbrev Script := World → (o : Op) → Res o × Bool × Bool

/-- The program in such a world. -/
def play {α : Type} (script : Script) : Prog Op Res α → World → α × World
  | .ret a, w => (a, w)
  | .step o k, w =>
    let x := script w o
    play script (k x.1) ⟨w.events ++ [⟨o, x.1, x.2.1⟩], x.2.2⟩

/-- The script stays within what operations may do. -/
def Script.Lawful (script : Script) : Prop :=
  ∀ w o, Answers w.accepts o (script w o).1 (script w o).2.1 (script w o).2.2

/-- A number of ticks in such a world. -/
def ticks (b : Builtins) (script : Script) : Nat → (Except Exc Unit × Memory) × World → (Except Exc Unit × Memory) × World
  | 0, x => x
  | n + 1, x => ticks b script n (play script ((ExceptT.run (tick b)).run x.1.2) x.2)

variable {b : Builtins} {script : Script}

theorem play_steps {p : Prog Op Res (Except Exc Unit × Memory)} (hs : script.Lawful) : ∀ {w : World},
    Relation.ReflTransGen (Loop.Step (Behaves ()) (fun _ _ => False) (again b)
      ((ExceptT.run (tick b)).run {}) (fun _ => False)) (p, w) (.ret (play script p w).1, (play script p w).2) := by
  induction p with
  | ret a => exact .refl
  | step o k ih => exact fun {w} => .head (.run _ _ _ _ _ ⟨_, _, rfl, hs w o⟩) (ih _)

theorem ticks_reach (hs : script.Lawful) {n : Nat} {x : (Except Exc Unit × Memory) × World}
    (h : Ticks b (.ret x.1, x.2)) (hok : ∀ i < n, (ticks b script i x).1.1 = .ok ()) :
    Ticks b (.ret (ticks b script n x).1, (ticks b script n x).2) := by
  induction n generalizing x with
  | zero => exact h
  | succ n ih =>
    obtain ⟨w₀, h₀, hreach⟩ := h
    have hnext : again b x.1 = some ((ExceptT.run (tick b)).run x.1.2) := by
      have hx : x.1.1 = .ok () := hok 0 (Nat.succ_pos n)
      obtain ⟨⟨r, m⟩, w⟩ := x
      have hx : r = .ok () := hx
      rw [hx]
      rfl
    refine ih ⟨w₀, h₀, (hreach.tail (.again _ _ _ hnext)).trans (play_steps hs)⟩ fun i hi => ?_
    exact hok (i + 1) (Nat.succ_lt_succ hi)

/-- The first tick, and a number of further ones. -/
def started (b : Builtins) (script : Script) (n : Nat) : (Except Exc Unit × Memory) × World :=
  ticks b script n (play script ((ExceptT.run (tick b)).run {}) {})

theorem started_reach (hs : script.Lawful) {n : Nat}
    (hok : ∀ i < n, (started b script i).1.1 = .ok ()) :
    Ticks b (.ret (started b script n).1, (started b script n).2) :=
  ticks_reach hs ⟨{}, rfl, play_steps hs⟩ hok

/-- A rule that holds when the validator has caught up. -/
def caughtUp : Rule where
  id := py "r"
  applies_to := .obj [(py "class", .str (py "validator_health"))]
  samples := [py "catchup"]
  predicate := .obj [(py "field", .str (py "catchup.caught_up")), (py "op", .str (py "eq")),
    (py "value", .bool true)]
  window := .int 5

def sampleBundle : Bundle where
  thresholds := .ok (.obj [(py "P-01", .int 60), (py "P-15", .int 1),
    (py "P-17", .obj [(py "deadline_min", .int 30)])])
  deployment := .ok (.obj [])
  verifier_rules := .ok [caughtUp]

def listed (state : EpisodeState) : EpisodeSummary where
  episode_id := py "e"
  state := some state
  revision := 1
  cls := some .validator_health
  bundle_id := some (py "b")
  trigger := .obj [(py "check", .str (py "delinquency"))]
  opened_at := none
  opened_ts := none
  validator_id := none
  consensus_mode := none

/-- The validator has caught up; the episode goes through these states, one a tick. -/
def recovered (states : List EpisodeState) (accepts : Bool) : Script
  | w, .list_episodes =>
    (.ok ((states[w.events.countP fun ev => match ev.op with
      | .list_episodes => true
      | _ => false]?).map listed).toList, true, w.accepts)
  | _, .sampled _ => ((), accepts, accepts)
  | w, .append_recovery_observation _ _ _ _ =>
    (if w.accepts then .ok () else .error (.other .valueError), w.accepts, w.accepts)
  | w, .sample _ => (.ok (.obj [(py "collected_at", .int 0), (py "status", .str (py "ok")),
      (py "structured", .obj [(py "caught_up", .bool true)])]), true, w.accepts)
  | w, .load _ => (.ok sampleBundle, true, w.accepts)
  | w, .now => (.zero, true, w.accepts)
  | w, .uuid4 => ([], true, w.accepts)
  | w, .read_episode _ => (.error (.other .valueError), true, w.accepts)
  | w, .append_verification _ _ _ _ _ _ => (.error (.other .valueError), true, w.accepts)
  | w, .set_state _ _ _ _ => (.error (.other .valueError), true, w.accepts)
  | w, .probe => (.error (.other .valueError), true, w.accepts)
  | w, .telemetry => (.error (.other .valueError), true, w.accepts)
  | w, .system_alert _ _ => (.error (.other .valueError), true, w.accepts)
  | w, .log_failed _ => ((), true, w.accepts)
  | w, .checking _ => ((), true, w.accepts)

theorem recovered_lawful (states : List EpisodeState) (accepts : Bool) :
    (recovered states accepts).Lawful := by
  intro w o
  cases o with
  | sampled s => rfl
  | append_recovery_observation e rule note hex =>
    refine ⟨rfl, rfl, fun h => ?_⟩
    rw [recovered, h]
    exact ⟨_, rfl⟩
  | append_verification e rule sample n stale revision => exact ⟨rfl, fun h => rfl⟩
  | set_state e rule revision n => exact ⟨rfl, fun h => rfl⟩
  | _ => rfl

end Scripts

end Valops.Verifier
