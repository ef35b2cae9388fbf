import Valops.Verifier.Steps

/-!
# Resolutions

The attempts to sample an episode for a rule: a sample, with the calls made for it, or a check of the
episode that an exception ended before the sample. A resolution under a rule with window W should rest
on the last W attempts.

Main result: `resolution_earned` (when it does). Control: `aborted_skipped`.
-/

set_option autoImplicit false

namespace Valops.Verifier

open Py Store Conc

/-! ## Attempts -/

/-- An attempt to sample an episode for a rule; a sample comes with what was performed for it. -/
inductive Attempt where
  | aborted
  | sampled (s : Sampled) (evidence : List Event)

/-- The attempts so far, what was performed since the last mark, and whether a check of the episode
has begun in which the rule has not been sampled. -/
structure Progress where
  attempts : List Attempt := []
  evidence : List Event := []
  waiting : Bool := false

/-- What an event adds. -/
def follow (k : Key) (p : Progress) (ev : Event) : Progress :=
  match ev.op with
  | .checking e => { p with evidence := [], waiting := decide (e = k.1) || p.waiting }
  | .sampled s =>
    if s.key = k then ⟨p.attempts ++ [.sampled s p.evidence], [], false⟩ else { p with evidence := [] }
  | .log_failed e =>
    if e = k.1 ∧ p.waiting = true then ⟨p.attempts ++ [.aborted], p.evidence, false⟩ else p
  | _ => { p with evidence := p.evidence ++ [ev] }

/-- What has happened for a rule and an episode. -/
def progress (k : Key) (events : List Event) : Progress := events.foldl (follow k) {}

/-- The attempts to sample an episode for a rule. -/
def attempts (k : Key) (events : List Event) : List Attempt := (progress k events).attempts

/-- The last attempts. -/
def lastOf (n : Int) (as : List Attempt) : List Attempt := as.drop (as.length - n.toNat)

/-! ## What is claimed -/

/-- Among what was performed is an answer for the command: telemetry with its probe, or a reply with
status `ok` and a reading of the clock at which it is young enough. -/
def Delivers (b : Builtins) (max_age_s : Double) (events : List Event) (cid : PyStr) : Prop :=
  if cid = py "telemetry" then
    (∃ v kept, ⟨.probe, .ok v, kept⟩ ∈ events) ∧ ∃ v kept, ⟨.telemetry, .ok v, kept⟩ ∈ events
  else ∃ r kept t kept' collected since, ⟨.sample cid, .ok r, kept⟩ ∈ events ∧
    ⟨.now, t, kept'⟩ ∈ events ∧ get r "status" = .ok (.str (py "ok")) ∧
    get r "collected_at" = .ok collected ∧
    b.float (if collected.truthy then collected else .int 0) = .ok since ∧
    above (Double.sub t since) max_age_s = false

/-- Every sample of the rule was delivered, and the predicate held on them. -/
def Attempt.Earned (b : Builtins) : Attempt → Prop
  | .aborted => False
  | .sampled s evidence => s.held = true ∧ (∀ cid ∈ s.rule.samples, Delivers b s.max_age_s evidence cid) ∧
    Rules.evaluate (Rules.bundleParam s.thresholds) s.sample s.rule.predicate = .ok true

/-- The window of the last sample. -/
def windowOf (as : List Attempt) : Option Int :=
  match as.getLast? with
  | some (.sampled s _) => s.window.toOption
  | _ => none

/-- The episode was set to `resolved` under the rule. -/
def Event.Resolves (ev : Event) (k : Key) : Prop :=
  ev.kept = true ∧ ∃ revision n, ev.op = .set_state k.1 k.2 revision n

/-- The log has a verification under the rule. -/
def Event.Verifies (ev : Event) (k : Key) : Prop :=
  ev.kept = true ∧ ∃ sample n stale revision, ev.op = .append_verification k.1 k.2 sample n stale revision

/-- Every resolution rests on the last W attempts, and a verification precedes it. -/
def Earned (b : Builtins) (events : List Event) : Prop :=
  ∀ k front ev back, events = front ++ ev :: back → ev.Resolves k →
    (∃ v ∈ front, v.Verifies k) ∧ ∃ n, windowOf (attempts k front) = some n ∧
      n ≤ (attempts k front).length ∧ ∀ a ∈ lastOf n (attempts k front), a.Earned b

/-! ## When it holds -/

/-- No attempt among the last W before a resolution was aborted by an exception. -/
def NoneAborted (events : List Event) : Prop :=
  ∀ k front ev back, events = front ++ ev :: back → ev.Resolves k →
    ∀ n, windowOf (attempts k front) = some n → .aborted ∉ lastOf n (attempts k front)

/-! ## Counting -/

/-- The streak counter after an attempt; an aborted one is skipped over. -/
def count1 (n : Int) : Attempt → Int
  | .aborted => n
  | .sampled s _ => if s.held then n + 1 else 0

/-- The streak counter after these attempts. -/
def streakOf (as : List Attempt) : Int := as.foldl count1 0

section Count

variable {as : List Attempt} {a : Attempt} {n : Int}

@[simp] theorem streakOf_snoc (as : List Attempt) (a : Attempt) :
    streakOf (as ++ [a]) = count1 (streakOf as) a := by
  rw [streakOf, List.foldl_append]
  rfl

theorem streakOf_nonneg (as : List Attempt) : 0 ≤ streakOf as := by
  induction as using List.reverseRecOn with
  | nil => exact le_refl 0
  | append_singleton as a ih =>
    rw [streakOf_snoc]
    cases a with
    | aborted => exact ih
    | sampled s ev =>
      rw [count1]
      split
      · omega
      · exact le_refl 0

theorem lastOf_nonpos (h : n ≤ 0) (as : List Attempt) : lastOf n as = [] := by
  rw [lastOf, Int.toNat_of_nonpos h, Nat.sub_zero, List.drop_length]

theorem lastOf_snoc (h : 0 < n) (as : List Attempt) (a : Attempt) :
    lastOf n (as ++ [a]) = lastOf (n - 1) as ++ [a] := by
  have hlen : (as ++ [a]).length - n.toNat = as.length - (n - 1).toNat := by
    rw [List.length_append, List.length_singleton]
    omega
  rw [lastOf, hlen, List.drop_append_of_le_length (Nat.sub_le _ _), lastOf]

/-- **The counter counts the last attempts**, if none of them was aborted. -/
theorem held_of_streak : ∀ {as : List Attempt} {n : Int}, n ≤ streakOf as → .aborted ∉ lastOf n as →
    n ≤ as.length ∧ ∀ a ∈ lastOf n as, ∃ s ev, a = .sampled s ev ∧ s.held = true := by
  intro as
  induction as using List.reverseRecOn with
  | nil =>
    intro n hn _
    have hn : n ≤ 0 := hn
    rw [lastOf_nonpos hn]
    exact ⟨hn, fun a ha => absurd ha List.not_mem_nil⟩
  | append_singleton as a ih =>
    intro n hn hab
    by_cases hpos : 0 < n
    · rw [lastOf_snoc hpos] at hab ⊢
      rw [streakOf_snoc] at hn
      cases a with
      | aborted => exact absurd (List.mem_append_right _ List.mem_cons_self) hab
      | sampled s ev =>
        rw [count1] at hn
        split at hn
        · rename_i hheld
          obtain ⟨hlen, hall⟩ := ih (n := n - 1) (by omega) fun h => hab (List.mem_append_left _ h)
          refine ⟨?_, fun a ha => ?_⟩
          · rw [List.length_append, List.length_singleton]
            push_cast
            omega
          · rcases List.mem_append.1 ha with ha | ha
            · exact hall a ha
            · exact ⟨s, ev, List.mem_singleton.1 ha, hheld⟩
        · omega
    · rw [lastOf_nonpos (by omega)]
      exact ⟨by omega, fun a ha => absurd ha List.not_mem_nil⟩

end Count

/-! ## What the operations add -/

/-- The operations that add to what was performed for the next sample, and do nothing else. -/
def Adding : Op → Prop
  | .checking _ | .log_failed _ | .sampled _ | .set_state _ _ _ _ => False
  | _ => True

section Adds

variable {w w' : World} {k : Key} {events : List Event} {ev : Event}

theorem progress_snoc (k : Key) (events : List Event) (ev : Event) :
    progress k (events ++ [ev]) = follow k (progress k events) ev := by
  rw [progress, List.foldl_append]
  rfl

/-- Attempts are only added. -/
theorem attempts_append (k : Key) (events more : List Event) :
    ∃ as, attempts k (events ++ more) = attempts k events ++ as := by
  induction more using List.reverseRecOn with
  | nil => exact ⟨[], by rw [List.append_nil, List.append_nil]⟩
  | append_singleton more ev ih =>
    obtain ⟨as, has⟩ := ih
    rw [attempts, ← List.append_assoc, progress_snoc, follow]
    split
    · exact ⟨as, has⟩
    · split
      · exact ⟨as ++ [_], by rw [← List.append_assoc, ← has]; rfl⟩
      · exact ⟨as, has⟩
    · split
      · exact ⟨as ++ [_], by rw [← List.append_assoc, ← has]; rfl⟩
      · exact ⟨as, has⟩
    · exact ⟨as, has⟩

theorem follow_adding (ho : Adding ev.op) (p : Progress) :
    follow k p ev = { p with evidence := p.evidence ++ [ev] } := by
  obtain ⟨o, r, kept⟩ := ev
  cases o <;> first | rfl | exact absurd ho id

/-- Operations that only add have been performed. -/
def Grown (w w' : World) : Prop :=
  ∃ more, w'.events = w.events ++ more ∧ ∀ ev ∈ more, Adding ev.op

theorem Grown.refl (w : World) : Grown w w :=
  ⟨[], (List.append_nil _).symm, fun _ h => absurd h List.not_mem_nil⟩

theorem Grown.trans {u : World} (h : Grown w w') (h' : Grown w' u) : Grown w u := by
  obtain ⟨xs, hxs, hx⟩ := h
  obtain ⟨ys, hys, hy⟩ := h'
  refine ⟨xs ++ ys, by rw [hys, hxs, List.append_assoc], fun ev hev => ?_⟩
  rcases List.mem_append.1 hev with hev | hev
  · exact hx ev hev
  · exact hy ev hev

theorem grown_step {o : Op} {r : Res o} (ho : Adding o) (h : Behaves () w o r w') : Grown w w' := by
  obtain ⟨kept, next, rfl, _⟩ := h
  exact ⟨_, rfl, fun ev hev => List.mem_singleton.1 hev ▸ ho⟩

theorem progress_grown (k : Key) : ∀ (more : List Event), (∀ ev ∈ more, Adding ev.op) →
    progress k (events ++ more) =
      { progress k events with evidence := (progress k events).evidence ++ more } := by
  intro more
  induction more using List.reverseRecOn with
  | nil => simp
  | append_singleton more ev ih =>
    intro h
    rw [← List.append_assoc, progress_snoc, ih fun x hx => h x (List.mem_append_left _ hx),
      follow_adding (h ev (List.mem_append_right _ List.mem_cons_self)), List.append_assoc]

theorem Grown.attempts (h : Grown w w') (k : Key) : attempts k w'.events = attempts k w.events := by
  obtain ⟨more, heq, hadd⟩ := h
  rw [Verifier.attempts, heq, progress_grown k more hadd]
  rfl

theorem Grown.evidence (h : Grown w w') {k : Key} (hev : ev ∈ (progress k w.events).evidence) :
    ev ∈ (progress k w'.events).evidence := by
  obtain ⟨more, heq, hadd⟩ := h
  rw [heq, progress_grown k more hadd]
  exact List.mem_append_left _ hev

/-- What an operation that adds leaves behind. -/
theorem mem_evidence {o : Op} {r : Res o} (ho : Adding o) (h : Behaves () w o r w') (k : Key) :
    ∃ kept, ⟨o, r, kept⟩ ∈ (progress k w'.events).evidence := by
  obtain ⟨kept, next, rfl, _⟩ := h
  refine ⟨kept, ?_⟩
  rw [progress_snoc, follow_adding ho]
  exact List.mem_append_right _ List.mem_cons_self

/-- What was performed grows. -/
def growing : Frame where
  rely := Grown
  calm := Adding
  refl := Grown.refl
  trans := Grown.trans
  step := grown_step

end Adds

/-! ## Samples are delivered -/

section Delivery

variable (b : Builtins) {max_age_s : Double} {w w' : World} {cid : PyStr}

/-- Whatever rule the next mark is for, an answer for the command is among what was performed. -/
def Fresh (max_age_s : Double) (w : World) (cid : PyStr) : Prop :=
  ∀ k, Delivers b max_age_s (progress k w.events).evidence cid

theorem Delivers.mono {xs ys : List Event} (h : Delivers b max_age_s xs cid) (hsub : ∀ ev ∈ xs, ev ∈ ys) :
    Delivers b max_age_s ys cid := by
  unfold Delivers at h ⊢
  split
  · rename_i hc
    rw [if_pos hc] at h
    obtain ⟨⟨v, kept, hv⟩, u, kept', hu⟩ := h
    exact ⟨⟨v, kept, hsub _ hv⟩, u, kept', hsub _ hu⟩
  · rename_i hc
    rw [if_neg hc] at h
    obtain ⟨r, kept, t, kept', collected, since, hr, ht, h⟩ := h
    exact ⟨r, kept, t, kept', collected, since, hsub _ hr, hsub _ ht, h⟩

variable {b}

theorem Fresh.grown (h : Fresh b max_age_s w cid) (hw : Grown w w') : Fresh b max_age_s w' cid :=
  fun k => (h k).mono b fun _ => hw.evidence

variable (b)

/-- An event is among what was performed, whatever rule the next mark is for. -/
def Performed (w : World) (o : Op) (r : Res o) : Prop :=
  ∀ k, ∃ kept, ⟨o, r, kept⟩ ∈ (progress k w.events).evidence

theorem Performed.grown {o : Op} {r : Res o} (h : Performed w o r) (hw : Grown w w') : Performed w' o r := by
  intro k
  obtain ⟨kept, hmem⟩ := h k
  exact ⟨kept, hw.evidence hmem⟩

/-- A call that adds, with its result. -/
theorem called {o : Op} {β : Type} (ho : Adding o) (view : Res o → Except Exc β) :
    wpE growing.discipline () (ExceptT.mk ((ask o).bind fun x => .ret (view x)))
      (fun r w' => Grown w w' ∧ ∃ x, r = view x ∧ Performed w' o x) w :=
  wpE_call view fun _ x _ h₁ hx _ h₃ =>
    ⟨(h₁.trans (grown_step ho hx)).trans h₃, x, rfl, Performed.grown (fun k => mem_evidence ho hx k) h₃⟩

theorem telemetry_delivered : wpE growing.discipline () sampleTelemetry
    (fun r w' => ∀ v, r = .ok (some v) → Grown w w' ∧ Fresh b max_age_s w' (py "telemetry")) w := by
  refine wpE_orRpc
    (R := fun r w' => ∀ v, r = .ok (some v) → Grown w w' ∧ Fresh b max_age_s w' (py "telemetry")) ?_
    (fun a w' t ha ht v hv => ⟨(ha v hv).1.trans ht, (ha v hv).2.grown ht⟩) nofun
    fun w' => wpE_pure fun _ _ _ => nofun
  refine wpE_then (called (o := .probe) trivial id) nofun fun probe w₁ h₁ => ?_
  refine wpE_then (called (o := .telemetry) trivial id) nofun fun tel w₂ h₂ => ?_
  obtain ⟨hgrown', p, hp, hprobe⟩ := h₁
  obtain ⟨hgrown, t, ht, htel⟩ := h₂
  have hprobe := hprobe.grown hgrown
  cases hp
  cases ht
  refine wpE_then (R := fun _ w' => Grown w₂ w') (wpE_compute fun w' hw => hw) nofun fun entry w₃ h₃ => ?_
  refine wpE_pure fun w₄ h₄ _ v _ => ⟨((hgrown'.trans hgrown).trans h₃).trans h₄, fun k => ?_⟩
  obtain ⟨kept, hmem⟩ := (hprobe.grown h₃).grown h₄ k
  obtain ⟨kept', hmem'⟩ := (htel.grown h₃).grown h₄ k
  rw [Delivers, if_pos rfl]
  exact ⟨⟨probe, kept, hmem⟩, tel, kept', hmem'⟩

/-- A reply that is usable has status `ok` and is young at a reading of the clock. -/
theorem usable_young (r : Json) : wpE growing.discipline () (usable b max_age_s r)
    (fun x w' => x = .ok true → get r "status" = .ok (.str (py "ok")) ∧ Grown w w' ∧
      ∃ t collected since, Performed w' .now t ∧ get r "collected_at" = .ok collected ∧
        b.float (if collected.truthy then collected else .int 0) = .ok since ∧
        above (Double.sub t since) max_age_s = false) w := by
  refine wpE_then (R := fun x w' => x = get r "status" ∧ Grown w w') (wpE_compute fun w' hw => ⟨rfl, hw⟩)
    (fun _ _ h => by cases h) fun status w₁ h₁ => ?_
  obtain ⟨hstatus, h₁⟩ := h₁
  split
  · rename_i hok
    refine wpE_then (R := fun x w' => Grown w₁ w' ∧ ∃ t, x = .ok t ∧ Performed w' .now t) ?_
      (fun _ _ h => by cases h) fun t w₂ h₂ => ?_
    · exact called (o := .now) trivial .ok
    obtain ⟨h₂, t', heq, hnow⟩ := h₂
    cases heq
    refine wpE_then (R := fun x w' => x = get r "collected_at" ∧ Grown w₂ w')
      (wpE_compute fun w' hw => ⟨rfl, hw⟩) (fun _ _ h => by cases h) fun collected w₃ h₃ => ?_
    obtain ⟨hcollected, h₃⟩ := h₃
    refine wpE_then (R := fun x w' => x = b.float (if collected.truthy then collected else .int 0) ∧
      Grown w₃ w') (wpE_compute fun w' hw => ⟨rfl, hw⟩) (fun _ _ h => by cases h) fun since w₄ h₄ => ?_
    obtain ⟨hsince, h₄⟩ := h₄
    refine wpE_pure fun w₅ h₅ _ hyoung => ?_
    have hyoung : above (Double.sub t since) max_age_s = false := by simpa using hyoung
    have h₅ : Grown w₄ w₅ := h₅
    refine ⟨hstatus.symm.trans (congrArg _ (Json.eqStr_iff.1 hok)), ?_, t, collected, since, ?_,
      hcollected.symm, hsince.symm, hyoung⟩
    · exact (((h₁.trans h₂).trans h₃).trans h₄).trans h₅
    · exact ((hnow.grown h₃).grown h₄).grown h₅
  · exact wpE_pure fun _ _ _ h => by cases h

theorem command_delivered (hne : cid ≠ py "telemetry") :
    wpE growing.discipline () (sampleCommand b max_age_s cid)
      (fun r w' => ∀ v, r = .ok (some v) → Grown w w' ∧ Fresh b max_age_s w' cid) w := by
  have hcall : wpE growing.discipline () (orRpc (do
        let r ← call (ask (.sample cid))
        pure (some r)) (pure none))
      (fun r w' => ∀ v, r = .ok (some v) → Grown w w' ∧ Performed w' (.sample cid) (.ok v)) w := by
    refine wpE_orRpc
      (R := fun r w' => ∀ v, r = .ok (some v) → Grown w w' ∧ Performed w' (.sample cid) (.ok v)) ?_
      (fun a w' t ha ht v hv => ⟨(ha v hv).1.trans ht, (ha v hv).2.grown ht⟩) nofun
      fun w' => wpE_pure fun _ _ _ => nofun
    refine wpE_then (called (o := .sample cid) trivial id) nofun fun r w₁ h₁ => ?_
    obtain ⟨hgrown, x, hx, hperf⟩ := h₁
    cases hx
    refine wpE_pure fun w₂ h₂ _ v hv => ?_
    cases hv
    exact ⟨hgrown.trans h₂, hperf.grown h₂⟩
  refine wpE_then hcall nofun fun r w₁ h₁ => ?_
  cases r with
  | none => exact wpE_pure fun _ _ _ => nofun
  | some r =>
    obtain ⟨hgrown', hr⟩ := h₁ r rfl
    refine wpE_then (usable_young b r) nofun fun ok w₂ h₂ => ?_
    split
    · rename_i hok
      obtain ⟨hstatus, hgrown, t, collected, since, hnow, hcollected, hsince, hyoung⟩ :=
        h₂ (congrArg Except.ok hok)
      refine wpE_then (R := fun _ w' => Grown w₂ w') (wpE_compute fun w' hw => hw) nofun
        fun structured w₃ h₃ => ?_
      refine wpE_then (R := fun _ w' => Grown w₃ w') (wpE_compute fun w' hw => hw) nofun
        fun entry w₄ h₄ => ?_
      refine wpE_pure fun w₅ h₅ _ v _ => ?_
      have h₂₅ : Grown w₂ w₅ := (h₃.trans h₄).trans h₅
      refine ⟨(hgrown'.trans hgrown).trans h₂₅, fun k => ?_⟩
      obtain ⟨kept, hmem⟩ := (hr.grown hgrown).grown h₂₅ k
      obtain ⟨kept', hmem'⟩ := hnow.grown h₂₅ k
      rw [Delivers, if_neg hne]
      exact ⟨r, kept, t, kept', collected, since, hmem, hmem', hstatus, hcollected, hsince, hyoung⟩
    · exact wpE_pure fun _ _ _ => nofun

/-- What a sample says of the commands when it is fresh. -/
def Delivered (b : Builtins) (max_age_s : Double) (cids : List PyStr) (fresh : Bool) (w : World)
    (r : Except Exc (Fields × Bool)) (w' : World) : Prop :=
  ∀ out', r = .ok (out', true) →
    fresh = true ∧ Grown w w' ∧ ∀ cid ∈ cids, Fresh b max_age_s w' cid

/-- The rest of the loop after the entry of one command. -/
theorem entry_delivered {cid : PyStr} {cids : List PyStr} {out : Fields} {fresh : Bool} {w w₁ : World}
    (ih : ∀ (out : Fields) (fresh : Bool) (w : World),
      wpE growing.discipline () (sampleLoop b max_age_s out fresh cids)
        (Delivered b max_age_s cids fresh w) w)
    (entry : Option Json) (h₁ : ∀ v, entry = some v → Grown w w₁ ∧ Fresh b max_age_s w₁ cid) :
    wpE growing.discipline () (match entry with
      | some entry => sampleLoop b max_age_s (Json.insertField cid entry out) fresh cids
      | none => sampleLoop b max_age_s out false cids)
      (Delivered b max_age_s (cid :: cids) fresh w) w₁ := by
  cases entry with
  | none =>
    refine wpE_conseq ?_ (ih out false w₁)
    exact fun r w' hr out' h => absurd (hr out' h).1 Bool.false_ne_true
  | some entry =>
    obtain ⟨hgrown, hfresh⟩ := h₁ entry rfl
    refine wpE_conseq ?_ (ih (Json.insertField cid entry out) fresh w₁)
    intro r w' hr out' h
    obtain ⟨hf, hg, hall⟩ := hr out' h
    refine ⟨hf, hgrown.trans hg, fun c hc => ?_⟩
    rcases List.mem_cons.1 hc with rfl | hc
    · exact hfresh.grown hg
    · exact hall c hc

/-- **A sample that is fresh has been delivered.** -/
theorem loop_delivered (cids : List PyStr) (out : Fields) (fresh : Bool) (w : World) :
    wpE growing.discipline () (sampleLoop b max_age_s out fresh cids)
      (Delivered b max_age_s cids fresh w) w := by
  induction cids generalizing out fresh w with
  | nil =>
    refine wpE_pure fun w' hw _ out' h => ?_
    cases h
    exact ⟨rfl, hw, fun _ h => absurd h List.not_mem_nil⟩
  | cons cid cids ih =>
    have herr : ∀ {e : Exc}, Delivered b max_age_s (cid :: cids) fresh w (.error e) = fun _ => True :=
      funext fun w' => eq_true fun out' h => by cases h
    rw [sampleLoop]
    split
    · rename_i hc
      subst hc
      exact wpE_then (telemetry_delivered b) (by simp [herr]) fun entry w₁ h₁ =>
        entry_delivered b ih entry fun v hv => h₁ v (congrArg Except.ok hv)
    · rename_i hc
      exact wpE_then (command_delivered b hc) (by simp [herr]) fun entry w₁ h₁ =>
        entry_delivered b ih entry fun v hv => h₁ v (congrArg Except.ok hv)

theorem sample_delivered (cids : List PyStr) (bundle : Bundle) :
    wpE growing.discipline () (takeSample b cids max_age_s bundle)
      (fun r w' => ∀ out, r = .ok (out, true) → ∀ cid ∈ cids, Fresh b max_age_s w' cid) w := by
  refine wpE_then (loop_delivered b cids [] true w) nofun fun x w₁ h₁ => ?_
  obtain ⟨out, fresh⟩ := x
  refine wpE_then (R := fun _ w' => Grown w₁ w') (wpE_compute fun w' hw => hw) nofun fun out w₂ h₂ => ?_
  refine wpE_pure fun w₃ h₃ _ out' h cid hc => ?_
  cases h
  exact (((h₁ _ rfl).2.2 cid hc).grown h₂).grown h₃

end Delivery

/-! ## The step -/

/-- A verification precedes, and the counter has reached the window of the last sample. -/
def Justified (k : Key) (front : List Event) : Prop :=
  (∃ v ∈ front, v.Verifies k) ∧
    ∃ n, windowOf (attempts k front) = some n ∧ n ≤ streakOf (attempts k front)

/-- The event asks for a resolution under the rule. -/
def Event.Asks (ev : Event) (k : Key) : Prop := ∃ revision n, ev.op = .set_state k.1 k.2 revision n

/-- The counters skip aborted attempts, every sample that held was delivered, and every resolution was
asked for with the counter at the window. -/
structure Sound (b : Builtins) (m : Memory) (w : World) : Prop where
  counts : ∀ k, m.count k = streakOf (attempts k w.events)
  honest : ∀ k s evidence, .sampled s evidence ∈ attempts k w.events → s.held = true →
    (Attempt.sampled s evidence).Earned b
  resolved : ∀ k front ev back, w.events = front ++ ev :: back → ev.Asks k → Justified k front

section Step

variable {b : Builtins} {m m' : Memory} {w w' : World} {k : Key}

/-- An event is the last one or stands before it. -/
theorem split_snoc {events front back : List Event} {ev x : Event}
    (h : events ++ [x] = front ++ ev :: back) :
    (front = events ∧ ev = x) ∨ ∃ rest, events = front ++ ev :: rest := by
  rcases List.eq_nil_or_concat back with rfl | ⟨rest, y, rfl⟩
  · obtain ⟨hfront, hev⟩ := List.append_inj' h rfl
    cases hev
    exact .inl ⟨hfront.symm, rfl⟩
  · rw [List.concat_eq_append, ← List.cons_append, ← List.append_assoc] at h
    exact .inr ⟨rest, (List.append_inj' h rfl).1⟩

/-- One more event, where the counters, the samples and the resolutions are right. -/
theorem Sound.event {o : Op} {x : Res o} (h : Sound b m w) (hb : Behaves () w o x w')
    (hcounts : ∀ k, m'.count k = streakOf (attempts k w'.events))
    (hhonest : ∀ k s evidence, .sampled s evidence ∈ attempts k w'.events → s.held = true →
      .sampled s evidence ∈ attempts k w.events ∨ (Attempt.sampled s evidence).Earned b)
    (hasks : ∀ k revision n, o = .set_state k.1 k.2 revision n → Justified k w.events) : Sound b m' w' := by
  obtain ⟨kept, next, rfl, _⟩ := hb
  refine ⟨hcounts, fun k s evidence hmem hheld => ?_, fun k front ev back heq hev => ?_⟩
  · exact (hhonest k s evidence hmem hheld).elim (fun hold => h.honest k s evidence hold hheld) id
  · rcases split_snoc heq with ⟨rfl, rfl⟩ | ⟨rest, hrest⟩
    · obtain ⟨revision, n, hop⟩ := hev
      exact hasks k revision n hop
    · exact h.resolved k front ev rest hrest hev

theorem Sound.grown (h : Sound b m w) (hw : Grown w w') : Sound b m w' := by
  refine ⟨fun k => ?_, fun k s evidence hmem => ?_, fun k front ev back heq hev => ?_⟩
  · rw [hw.attempts, h.counts]
  · rw [hw.attempts] at hmem
    exact h.honest k s evidence hmem
  · obtain ⟨more, hmore, hadd⟩ := hw
    rw [hmore] at heq
    rcases List.append_eq_append_iff.1 heq with ⟨a, hfront, hrest⟩ | ⟨a, hevents, hrest⟩
    · -- the event is one of those that only add
      have hmem : ev ∈ more := by
        rw [hrest]
        simp
      obtain ⟨revision, n, hop⟩ := hev
      have hno := hadd ev hmem
      rw [hop] at hno
      exact hno.elim
    · cases a with
      | nil =>
        have hrest : ev :: back = more := hrest
        have hmem : ev ∈ more := hrest ▸ List.mem_cons_self
        obtain ⟨revision, n, hop⟩ := hev
        have hno := hadd ev hmem
        rw [hop] at hno
        exact hno.elim
      | cons c a =>
        obtain ⟨rfl, _⟩ := List.cons.inj hrest
        exact h.resolved k front ev a hevents hev

theorem Sound.recount (h : Sound b m w) (hm : m'.streak = m.streak) : Sound b m' w where
  counts k := by rw [← h.counts, Memory.count, Memory.count, hm]
  honest := h.honest
  resolved := h.resolved

theorem Sound.begun {e : PyStr} {x : Unit} (h : Sound b m w) (hb : Behaves () w (.checking e) x w') :
    Sound b m w' := by
  have hsame : ∀ k, attempts k w'.events = attempts k w.events := by
    intro k
    obtain ⟨kept, next, rfl, _⟩ := hb
    rw [attempts, progress_snoc]
    rfl
  refine h.event hb (fun k => ?_) (fun k s evidence hmem _ => .inl ?_) nofun
  · rw [hsame, h.counts]
  · rwa [hsame] at hmem

/-- A check that fails leaves the counters alone. -/
theorem Sound.failed {e : PyStr} {x : Unit} (h : Sound b m w) (hb : Behaves () w (.log_failed e) x w') :
    Sound b m w' := by
  have hsame : ∀ k, attempts k w'.events = attempts k w.events ∨
      attempts k w'.events = attempts k w.events ++ [.aborted] := by
    intro k
    obtain ⟨kept, next, rfl, _⟩ := hb
    rw [attempts, progress_snoc]
    show (if _ then _ else _ : Progress).attempts = _ ∨ (if _ then _ else _ : Progress).attempts = _
    split
    · exact .inr rfl
    · exact .inl rfl
  refine h.event hb (fun k => ?_) (fun k s evidence hmem _ => .inl ?_) nofun
  · rcases hsame k with heq | heq
    · rw [heq, h.counts]
    · rw [heq, streakOf_snoc, h.counts]
      rfl
  · rcases hsame k with heq | heq
    · rwa [heq] at hmem
    · rw [heq, List.mem_append, List.mem_singleton] at hmem
      exact hmem.elim id nofun

/-- The counter of a rule has reached the window of its last sample. -/
def Ready (k : Key) (n : Int) (w : World) : Prop :=
  ∃ v, windowOf (attempts k w.events) = some v ∧ v ≤ n ∧ n = streakOf (attempts k w.events)

theorem Ready.grown {n : Int} (h : Ready k n w) (hw : Grown w w') : Ready k n w' := by
  unfold Ready
  rw [hw.attempts]
  exact h

/-- **The mark of a sample.** -/
theorem Sound.marked {s : Sampled} {n : Int} (h : Sound b m w)
    (hn : n = if s.held then m.count s.key + 1 else 0)
    (hearned : s.held = true → (∀ cid ∈ s.rule.samples, Fresh b s.max_age_s w cid) ∧
      Rules.evaluate (Rules.bundleParam s.thresholds) s.sample s.rule.predicate = .ok true)
    {x : Unit} (hb : Behaves () w (.sampled s) x w') :
    Sound b { m with streak := m.streak.set s.key n } w' ∧
      ∀ v, s.window = .ok v → v ≤ n → Ready s.key n w' := by
  have hself : attempts s.key w'.events =
      attempts s.key w.events ++ [.sampled s (progress s.key w.events).evidence] := by
    obtain ⟨kept, next, rfl, _⟩ := hb
    rw [attempts, progress_snoc]
    exact congrArg Progress.attempts (if_pos rfl)
  have hother : ∀ k, k ≠ s.key → attempts k w'.events = attempts k w.events := by
    intro k hk
    obtain ⟨kept, next, rfl, _⟩ := hb
    rw [attempts, progress_snoc]
    show (if s.key = k then _ else _ : Progress).attempts = _
    rw [if_neg hk.symm]
    rfl
  have hcount : streakOf (attempts s.key w'.events) = n := by
    rw [hself, streakOf_snoc, ← h.counts, hn]
    rfl
  refine ⟨h.event hb (fun k => ?_) (fun k s' evidence hmem hheld => ?_) nofun, fun v hv hle => ?_⟩
  · by_cases hk : k = s.key
    · rw [hk, hcount, Memory.count, Dict.get?_set_self]
      rfl
    · rw [hother k hk, ← h.counts, Memory.count, Memory.count, Dict.get?_set_of_ne _ hk]
  · by_cases hk : k = s.key
    · rw [hk, hself, List.mem_append, List.mem_singleton] at hmem
      rcases hmem with hmem | heq
      · rw [hk]
        exact .inl hmem
      · cases heq
        obtain ⟨hfresh, heval⟩ := hearned hheld
        exact .inr ⟨hheld, fun cid hc => hfresh cid hc s.key, heval⟩
    · rw [hother k hk] at hmem
      exact .inl hmem
  · refine ⟨v, ?_, hle, hcount.symm⟩
    rw [hself, windowOf, List.getLast?_concat]
    show s.window.toOption = some v
    rw [hv]
    rfl

/-- The request for a resolution. -/
theorem Sound.asked {e rule : PyStr} {revision : Nat} {n : Int} (h : Sound b m w)
    (hr : Ready (e, rule) n w) (hv : ∃ v ∈ w.events, v.Verifies (e, rule))
    {x : Res (.set_state e rule revision n)} (hb : Behaves () w (.set_state e rule revision n) x w') :
    Sound b m w' := by
  have hsame : ∀ k, attempts k w'.events = attempts k w.events := by
    intro k
    obtain ⟨kept, next, rfl, _⟩ := hb
    rw [attempts, progress_snoc]
    rfl
  refine h.event hb (fun k => ?_) (fun k s evidence hmem _ => .inl ?_) fun k revision' n' heq => ?_
  · rw [hsame, h.counts]
  · rwa [hsame] at hmem
  · obtain ⟨v, hw, hle, hn⟩ := hr
    cases heq
    exact ⟨hv, v, hw, hn ▸ hle⟩

/-- **A resolution is asked for after its verification.** -/
theorem resolve_sound {e rule : PyStr} {sample : Fields} {n : Int} (h : Sound b m w)
    (hr : Ready (e, rule) n w) :
    wpE growing.discipline () (_resolve e rule sample n) (fun _ w' => Sound b m w') w := by
  refine wpE_next (called (o := .read_episode e) trivial id)
    (fun _ w₁ t h₁ ht => (h.grown h₁.1).grown ht) fun rec w₁ h₁ => ?_
  have h := h.grown h₁.1
  have hr := hr.grown h₁.1
  split
  · exact wpE_pure fun w₂ h₂ _ => h.grown h₂
  have happend : wpE growing.discipline ()
      (call (ask (.append_verification e rule sample n (staleAnnotations rec) rec.revision)))
      (fun r w' => Grown w₁ w' ∧ (r = .ok () → ∃ v ∈ w'.events, v.Verifies (e, rule))) w₁ := by
    refine wpE_call (o := .append_verification _ _ _ _ _ _) id fun w₂ x w₃ h₂ hx w₄ h₄ => ⟨?_, fun hok => ?_⟩
    · exact (Grown.trans h₂ (grown_step (o := .append_verification _ _ _ _ _ _) trivial hx)).trans h₄
    · obtain ⟨kept, next, rfl, _, hkept⟩ := hx
      obtain ⟨more, hmore, _⟩ := h₄
      refine ⟨⟨_, x, kept⟩, ?_, hkept hok, _, _, _, _, rfl⟩
      rw [hmore]
      simp
  refine wpE_next happend (fun _ w₂ t h₂ ht => (h.grown h₂.1).grown ht) fun _ w₂ h₂ => ?_
  have h := h.grown h₂.1
  have hr := hr.grown h₂.1
  have hv := h₂.2 rfl
  refine wpE_next (called (o := .read_episode e) trivial id)
    (fun _ w₃ t h₃ ht => (h.grown h₃.1).grown ht) fun rec w₃ h₃ => ?_
  have h := h.grown h₃.1
  have hr := hr.grown h₃.1
  have hv : ∃ v ∈ w₃.events, v.Verifies (e, rule) := by
    obtain ⟨v, hmem, hv⟩ := hv
    obtain ⟨more, hmore, _⟩ := h₃.1
    exact ⟨v, hmore ▸ List.mem_append_left _ hmem, hv⟩
  have hask : wpE growing.discipline () (call (ask (.set_state e rule rec.revision n)))
      (fun _ w' => Sound b m w') w₃ := by
    refine wpE_call (o := .set_state _ _ _ _) id fun w₄ x w₅ h₄ hx w₆ h₆ => ?_
    have hv₄ : ∃ v ∈ w₄.events, v.Verifies (e, rule) := by
      obtain ⟨v, hmem, hv⟩ := hv
      obtain ⟨more, hmore, _⟩ := h₄
      exact ⟨v, hmore ▸ List.mem_append_left _ hmem, hv⟩
    exact ((h.grown h₄).asked (hr.grown h₄) hv₄ hx).grown h₆
  refine wpE_tryCatch (wpE_conseq ?_ hask)
  intro r w₄ h₄
  cases r with
  | ok u => exact fun w₅ h₅ _ => h₄.grown h₅
  | error err =>
    dsimp only
    split
    · exact wpE_pure fun w₅ h₅ _ => h₄.grown h₅
    · exact wpE_throw fun w₅ h₅ _ => h₄.grown h₅

theorem adding_of_observing (o : Op) (ho : Observing o) : Adding o := by
  cases o <;> first | exact trivial | exact absurd ho id

variable (b)

/-- **A rule is checked**: whatever the calls return or raise. -/
theorem checkRule_sound {ep : EpisodeSummary} (bundle : Bundle) (thresholds : Json) (max_age : Double)
    (rule : Rule) (h : Sound b m w) :
    wpS growing.discipline () (checkRule b bundle thresholds max_age ep rule) (fun _ => Sound b) m w := by
  have hsample : wpE growing.discipline () (takeSample b rule.samples max_age bundle)
      (fun r w' => Sound b m w' ∧ ∀ out, r = .ok (out, true) →
        ∀ cid ∈ rule.samples, Fresh b max_age w' cid) w :=
    wp_and (wpE_calm (F := growing) (Issues.mono adding_of_observing (issues_takeSample b _ _ _))
      fun _ w' hw => h.grown hw) (sample_delivered b rule.samples bundle)
  refine spec_bind hsample (fun _ w₁ t h₁ ht => h₁.1.grown ht) fun x w₁ w₂ h₁ h₂ => ?_
  obtain ⟨sample, fresh⟩ := x
  have h := h₁.1.grown h₂
  refine computed_bind (fun e _ w₃ h₃ => h.grown h₃) fun held hheld w₃ h₃ => ?_
  have h := h.grown h₃
  refine recalled_bind fun w₄ h₄ => remember_bind fun w₅ h₅ => act_bind fun w₆ x w₇ h₆ hx w₈ h₈ => ?_
  have h₂₆ : Grown w₂ w₆ := ((Grown.trans h₃ h₄).trans h₅).trans h₆
  -- a sample that held is fresh, so it was delivered
  have hearned : held = true → (∀ cid ∈ rule.samples, Fresh b max_age w₆ cid) ∧
      Rules.evaluate (Rules.bundleParam thresholds) sample rule.predicate = .ok true := by
    rintro rfl
    cases fresh with
    | false => cases hheld
    | true =>
      exact ⟨fun cid hc => ((h₁.2 sample rfl cid hc).grown h₂).grown h₂₆, hheld⟩
  obtain ⟨h, hready⟩ := (((h.grown h₄).grown h₅).grown h₆).marked rfl hearned hx
  have h := h.grown h₈
  refine computed_bind (fun e _ w₉ h₉ => h.grown h₉) fun n hn w₉ h₉ => ?_
  have h := h.grown h₉
  cases held with
  | false => exact pure_last fun w₁₀ h₁₀ => h.grown h₁₀
  | true =>
    simp only [Bool.not_true, Bool.false_eq_true, if_true, if_false] at h hready ⊢
    split
    · split
      · rename_i hle
        have hready := ((hready n hn hle).grown h₈).grown h₉
        exact spec_bind (resolve_sound h hready) (fun _ w₁₀ t h₁₀ ht => h₁₀.grown ht)
          fun _ w₁₀ t h₁₀ ht => pure_last fun w₁₁ h₁₁ => (h₁₀.grown ht).grown h₁₁
      · exact pure_last fun w₁₀ h₁₀ => h.grown h₁₀
    split
    · refine wpS_bind ?_
      refine reading_bind (o := .uuid4) trivial fun hex w₁₀ h₁₀ => ?_
      have h := h.grown h₁₀
      refine still_bind ⟨trivial, fun _ => trivial⟩ (fun _ w₁₁ h₁₁ t ht _ => (h.grown h₁₁).grown ht)
        fun _ w₁₁ h₁₁ => ?_
      have h := h.grown h₁₁
      split
      · exact remember_last fun w₁₂ h₁₂ => pure_last fun w₁₃ h₁₃ =>
          Sound.recount ((h.grown h₁₂).grown h₁₃) rfl
      · exact pure_last fun w₁₂ h₁₂ => pure_last fun w₁₃ h₁₃ => (h.grown h₁₂).grown h₁₃
    · exact pure_last fun w₁₀ h₁₀ => h.grown h₁₀

theorem keeps_sound : growing.Keeps b (Sound b) where
  same := Sound.grown
  recount := Sound.recount
  calm {o} ho := by
    cases o <;> first | exact trivial | exact absurd ho id
  begun := Sound.begun
  failed := Sound.failed
  rule _ bundle thresholds max_age r h := checkRule_sound b bundle thresholds max_age r h

end Step

/-! ## Resolutions -/

/-- **The invariant holds after every tick.** -/
theorem sound_of_ticks {b : Builtins} {a : Except Exc Unit × Memory} {w : World} (h : Ticks b (.ret a, w)) :
    Sound b a.2 w := by
  refine (keeps_sound b).ticks (fun w hw => ⟨fun k => ?_, fun k s evidence hmem => ?_, ?_⟩) h
  · rw [hw]
    rfl
  · rw [hw] at hmem
    exact absurd hmem List.not_mem_nil
  · intro k front ev back heq
    rw [hw] at heq
    cases front <;> cases heq

/-- **Resolution is earned**: after every tick, each resolution rests on the last W attempts, all
delivered, young and holding, and on a verification before it, exactly if none of these attempts was
aborted by an exception. -/
theorem resolution_earned (b : Builtins) {a : Except Exc Unit × Memory} {w : World}
    (h : Ticks b (.ret a, w)) : Earned b w.events ↔ NoneAborted w.events := by
  have hsound := sound_of_ticks h
  constructor
  · intro he k front ev back heq hres n hn hmem
    obtain ⟨_, n', hn', _, hall⟩ := he k front ev back heq hres
    cases hn.symm.trans hn'
    exact hall _ hmem
  · intro hnone k front ev back heq hres
    obtain ⟨hv, n, hn, hle⟩ := hsound.resolved k front ev back heq hres.2
    obtain ⟨hlen, hall⟩ := held_of_streak hle (hnone k front ev back heq hres n hn)
    refine ⟨hv, n, hn, hlen, fun a ha => ?_⟩
    obtain ⟨s, evidence, rfl, hheld⟩ := hall a ha
    refine hsound.honest k s evidence ?_ hheld
    obtain ⟨more, hmore⟩ := attempts_append k front (ev :: back)
    rw [heq, hmore]
    exact List.mem_append_left _ (List.mem_of_mem_drop ha)

/-! ## Controls -/

section Controls

/-- The bundle, with a window of two samples. -/
def windowBundle : Bundle := { sampleBundle with verifier_rules := .ok [{ caughtUp with window := .int 2 }] }

/-- The number of operations of a kind. -/
def performed (w : World) (kind : Op → Bool) : Nat := w.events.countP fun ev => kind ev.op

/-- The validator has caught up and the episode waits for the operator; the bundle fails to load on one
of the ticks, or on none. -/
def waiting (broken : Option Nat) : Script
  | w, .load _ =>
    (if broken = some (performed w fun o => match o with
      | .load _ => true
      | _ => false) then .error (.other .valueError) else .ok windowBundle, true, w.accepts)
  | w, .read_episode e => (.ok { episode_id := e, state := some .awaiting_operator }, true, w.accepts)
  | w, .append_verification _ _ _ _ _ _ => (.ok (), true, w.accepts)
  | w, .set_state _ _ _ _ => (.ok (), true, w.accepts)
  | w, o => recovered [.awaiting_operator, .awaiting_operator, .awaiting_operator] true w o

theorem waiting_lawful (broken : Option Nat) : (waiting broken).Lawful := by
  intro w o
  cases o with
  | load id => rfl
  | read_episode e => rfl
  | append_verification e rule sample n stale revision => exact ⟨rfl, fun _ => rfl⟩
  | set_state e rule revision n => exact ⟨rfl, fun _ => rfl⟩
  | _ => exact recovered_lawful [.awaiting_operator, .awaiting_operator, .awaiting_operator] true w _

theorem waiting_ticks (broken : Option Nat) {n : Nat}
    (hok : ∀ i < n, (started sampleBuiltins (waiting broken) i).1.1 = .ok ()) :
    Ticks sampleBuiltins (.ret (started sampleBuiltins (waiting broken) n).1,
      (started sampleBuiltins (waiting broken) n).2) :=
  started_reach (waiting_lawful broken) hok

theorem resolution_earned_sample :
    Earned sampleBuiltins (started sampleBuiltins (waiting none) 1).2.events ↔
      NoneAborted (started sampleBuiltins (waiting none) 1).2.events :=
  resolution_earned sampleBuiltins (waiting_ticks none (by decide +kernel))

/-- The resolution in the run with a broken load. -/
def skipping : List Event := (started sampleBuiltins (waiting (some 1)) 2).2.events

/-- The event is the resolution of the episode. -/
def Event.isResolution (ev : Event) : Bool :=
  match ev.op with
  | .set_state e rule _ _ => ev.kept && decide (e = py "e" ∧ rule = py "r")
  | _ => false

theorem Event.resolves_of_isResolution {ev : Event} (h : ev.isResolution = true) :
    ev.Resolves (py "e", py "r") := by
  unfold Event.isResolution at h
  split at h
  · rename_i e rule revision n heq
    rw [Bool.and_eq_true] at h
    obtain ⟨rfl, rfl⟩ := of_decide_eq_true h.2
    exact ⟨h.1, revision, n, heq⟩
  · cases h

/-- The attempt was aborted. -/
def Attempt.isAborted : Attempt → Bool
  | .aborted => true
  | .sampled _ _ => false

/-- **An aborted attempt is skipped over**: the bundle did not load between the two samples. -/
theorem aborted_skipped : ¬ ∀ b a w, Ticks b (.ret a, w) → Earned b w.events := by
  intro h
  have hearned : Earned sampleBuiltins skipping :=
    h sampleBuiltins _ _ (waiting_ticks (some 1) (by decide +kernel))
  have hasked : skipping[20]?.map Event.isResolution = some true := by decide +kernel
  have hwindow : windowOf (attempts (py "e", py "r") (skipping.take 20)) = some 2 := by decide +kernel
  have haborted : ((lastOf 2 (attempts (py "e", py "r") (skipping.take 20))).any Attempt.isAborted) = true := by
    decide +kernel
  obtain ⟨ev, hev, hres⟩ := Option.map_eq_some_iff.1 hasked
  obtain ⟨hlt, hget⟩ := List.getElem?_eq_some_iff.1 hev
  have hsplit : skipping = skipping.take 20 ++ ev :: skipping.drop 21 := by
    rw [← hget, ← List.drop_eq_getElem_cons hlt, List.take_append_drop]
  obtain ⟨_, n, hn, _, hall⟩ := hearned _ _ ev _ hsplit
    (Event.resolves_of_isResolution hres)
  cases hwindow.symm.trans hn
  obtain ⟨a, ha, hab⟩ := List.any_eq_true.1 haborted
  cases a with
  | aborted => exact hall .aborted ha
  | sampled s evidence => cases hab

end Controls

end Valops.Verifier
