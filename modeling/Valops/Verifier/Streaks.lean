import Valops.Verifier.Steps

/-!
# Recovery observations

The history of a rule and an episode is the list of its samples, each with the observations appended
before the next one.

Main result: `recovery_observed` (when each streak is observed once, and every recovery after hand-off
is in the log). Control: `handed_off_unobserved`.
-/

set_option autoImplicit false

namespace Valops.Verifier

open Py Store Conc

/-! ## Histories -/

/-- A sample, whether the store accepts appends then, and the notes of the observations appended
before the next sample. -/
structure Row where
  sample : Sampled
  accepts : Bool
  notes : List PyStr

/-- The window of the rule could be read. -/
def Row.Readable (r : Row) : Prop := ∃ w, r.sample.window = .ok w

/-- A note goes to the last sample. -/
def noted (rows : List Row) (note : PyStr) : List Row :=
  rows.dropLast ++ (rows.getLast?.map fun r => { r with notes := r.notes ++ [note] }).toList

/-- What an event adds to the history of a rule and an episode. -/
def addEvent (k : Key) (rows : List Row) (ev : Event) : List Row :=
  match ev.op with
  | .sampled s => if s.key = k then rows ++ [⟨s, ev.kept, []⟩] else rows
  | .append_recovery_observation e rule note _ =>
    if (e, rule) = k ∧ ev.kept = true then noted rows note else rows
  | _ => rows

/-- The history of a rule and an episode. -/
def rows (k : Key) (events : List Event) : List Row := events.foldl (addEvent k) []

/-- The log contains an observation with this note. -/
def Logged (events : List Event) (k : Key) (note : PyStr) : Prop :=
  ∃ ev ∈ events, ev.kept = true ∧ ∃ hex, ev.op = .append_recovery_observation k.1 k.2 note hex

/-! ## What is claimed -/

/-- The predicate held, and the episode was neither `awaiting_operator` nor `resolved`. -/
def Row.Outside (r : Row) : Prop :=
  r.sample.held = true ∧ r.sample.state ≠ some .awaiting_operator ∧ r.sample.state ≠ some .resolved

/-- A maximal run of consecutive holding samples outside. -/
structure Streak (rs front block back : List Row) : Prop where
  split : rs = front ++ block ++ back
  nonempty : block ≠ []
  outside : ∀ r ∈ block, r.Outside
  before : ∀ r ∈ front.getLast?, ¬ r.Outside
  after : ∀ r ∈ back.head?, ¬ r.Outside

/-- Each streak during which the store accepts appends at least once is observed exactly once. -/
def OnePerStreak (events : List Event) : Prop :=
  ∀ k front block back, Streak (rows k events) front block back → (∃ r ∈ block, r.accepts = true) →
    (block.map fun r => r.notes.length).sum = 1

/-- The predicate held on a sample of a `handed_off` episode while the store accepts appends. -/
def Row.Late (r : Row) : Prop :=
  r.sample.held = true ∧ r.sample.state = some .handed_off ∧ r.accepts = true

/-- Every such sample has an observation after hand-off in the log. -/
def LateObserved (events : List Event) : Prop :=
  ∀ k, ∀ r ∈ rows k events, r.Late → ∃ rule, Logged events (k.1, rule) afterHandOff

/-! ## When it holds -/

/-- The sample after these is the first one that held. -/
def Begins (front : List Row) : Prop := ∀ r ∈ front.getLast?, r.sample.held = false

/-- A streak during which the store accepts appends begins with a sample that is the first to hold, at
which the store accepts them and the window can be read. -/
def StreaksBegin (events : List Event) : Prop :=
  ∀ k front r block back, Streak (rows k events) front (r :: block) back →
    (∃ q ∈ r :: block, q.accepts = true) → Begins front ∧ r.accepts = true ∧ r.Readable

/-- Where a sample of a `handed_off` episode holds, one rule began to hold on such a sample. -/
def LateBegin (events : List Event) : Prop :=
  ∀ k, ∀ r ∈ rows k events, r.Late → ∃ rule front q back,
    rows (k.1, rule) events = front ++ q :: back ∧ q.Late ∧ q.Readable ∧ Begins front

/-! ## Counting -/

/-- The streak counter after a sample. -/
def bump (n : Int) (r : Row) : Int := if r.sample.held then n + 1 else 0

/-- The streak counter after a history. -/
def counter (rs : List Row) : Int := rs.foldl bump 0

/-- The observations due after a sample. -/
def due (n : Int) (r : Row) : List PyStr :=
  if r.sample.held = true ∧ r.sample.state ≠ some .awaiting_operator ∧ n = 0 ∧ r.accepts = true ∧
    r.sample.window.isOk then [noteFor r.sample.state] else []

/-- Every sample has the observations that were due. -/
def Regular (rs : List Row) : Prop :=
  ∀ front r back, rs = front ++ r :: back → r.notes = due (counter front) r

section Count

variable {rs front block back : List Row} {r : Row} {n : Int}

@[simp] theorem counter_snoc (rs : List Row) (r : Row) : counter (rs ++ [r]) = bump (counter rs) r := by
  rw [counter, List.foldl_append]
  rfl

theorem counter_nonneg (rs : List Row) : 0 ≤ counter rs := by
  induction rs using List.reverseRecOn with
  | nil => exact le_refl 0
  | append_singleton rs r ih =>
    rw [counter_snoc, bump]
    split
    · omega
    · exact le_refl 0

theorem counter_eq_zero : counter rs = 0 ↔ Begins rs := by
  induction rs using List.reverseRecOn with
  | nil => exact iff_of_true rfl fun _ h => absurd h (Option.not_mem_none _)
  | append_singleton rs r _ =>
    have hn := counter_nonneg rs
    have hlast : Begins (rs ++ [r]) ↔ r.sample.held = false := by
      simp [Begins]
    rw [counter_snoc, bump, hlast]
    cases hheld : r.sample.held with
    | true => simp; omega
    | false => simp

theorem readable_iff : r.Readable ↔ r.sample.window.isOk = true := by
  unfold Row.Readable
  cases r.sample.window with
  | ok w => simp [Except.isOk, Except.toBool]
  | error e => simp [Except.isOk, Except.toBool]

theorem regular_snoc (h : Regular rs) (hr : r.notes = due (counter rs) r) : Regular (rs ++ [r]) := by
  intro front q back heq
  rcases List.eq_nil_or_concat back with rfl | ⟨back, p, rfl⟩
  · obtain ⟨rfl, hq⟩ := List.append_inj' heq rfl
    cases hq
    exact hr
  · rw [List.concat_eq_append, ← List.cons_append, ← List.append_assoc] at heq
    obtain ⟨hfront, _⟩ := List.append_inj' heq rfl
    exact h front q back hfront

/-- Only the first sample of a streak is observed. -/
theorem notes_of_tail (h : Regular rs) (hs : Streak rs front (r :: block) back) :
    (block.map fun q => q.notes.length).sum = 0 := by
  rw [List.sum_eq_zero_iff_forall_eq_nat]
  intro n hn
  obtain ⟨q, hq, rfl⟩ := List.mem_map.1 hn
  obtain ⟨mid, rest, rfl⟩ := List.append_of_mem hq
  have hsplit : rs = (front ++ r :: mid) ++ q :: (rest ++ back) := by
    rw [hs.split]
    simp
  -- the row before it held, so the counter is not zero
  have hlast : ∃ p, (front ++ r :: mid).getLast? = some p ∧ p ∈ r :: mid := by
    refine ⟨(r :: mid).getLast (List.cons_ne_nil _ _), ?_, List.getLast_mem _⟩
    rw [List.getLast?_append_of_ne_nil _ (List.cons_ne_nil _ _), List.getLast?_eq_getLast_of_ne_nil]
  obtain ⟨p, hp, hmem⟩ := hlast
  have hne : counter (front ++ r :: mid) ≠ 0 := by
    intro hz
    have hheld : p.sample.held = true := by
      refine (hs.outside p ?_).1
      rcases List.mem_cons.1 hmem with rfl | hmem
      · exact List.mem_cons_self
      · exact List.mem_cons_of_mem _ (List.mem_append_left _ hmem)
    have hno := counter_eq_zero.1 hz p hp
    rw [hheld] at hno
    cases hno
  have hnotes := h _ q _ hsplit
  rw [due, if_neg (fun hd => hne hd.2.2.1)] at hnotes
  rw [hnotes]
  rfl

/-- The observations of a streak are those due after its first sample. -/
theorem notes_of_streak (h : Regular rs) (hs : Streak rs front (r :: block) back) :
    ((r :: block).map fun q => q.notes.length).sum = 1 ↔
      Begins front ∧ r.accepts = true ∧ r.Readable := by
  have hout := hs.outside r List.mem_cons_self
  have hnotes := h front r (block ++ back) (by rw [hs.split]; simp)
  rw [List.map_cons, List.sum_cons, notes_of_tail h hs, hnotes, due, readable_iff, ← counter_eq_zero]
  split
  · rename_i hd
    exact iff_of_true rfl hd.2.2
  · rename_i hd
    exact iff_of_false (by decide) fun hb => hd ⟨hout.1, hout.2.1, hb⟩

end Count

/-! ## What the operations add -/

section Events

variable {w w' : World} {k : Key} {events : List Event} {ev : Event}

theorem rows_snoc (k : Key) (events : List Event) (ev : Event) :
    rows k (events ++ [ev]) = addEvent k (rows k events) ev := by
  rw [rows, List.foldl_append]
  rfl

@[simp] theorem noted_snoc (rs : List Row) (r : Row) (note : PyStr) :
    noted (rs ++ [r]) note = rs ++ [{ r with notes := r.notes ++ [note] }] := by
  simp [noted]

theorem logged_snoc {note : PyStr} : Logged (events ++ [ev]) k note ↔ Logged events k note ∨
    ev.kept = true ∧ ∃ hex, ev.op = .append_recovery_observation k.1 k.2 note hex := by
  constructor
  · rintro ⟨x, hx, h⟩
    rcases List.mem_append.1 hx with hx | hx
    · exact .inl ⟨x, hx, h⟩
    · cases List.mem_singleton.1 hx
      exact .inr h
  · rintro (⟨x, hx, h⟩ | h)
    · exact ⟨x, List.mem_append_left _ hx, h⟩
    · exact ⟨ev, List.mem_append_right _ List.mem_cons_self, h⟩

/-- The same histories, log and readiness to accept. -/
structure Same (w w' : World) : Prop where
  accepts : w'.accepts = w.accepts
  rows : ∀ k, rows k w'.events = rows k w.events
  logged : ∀ k note, Logged w'.events k note ↔ Logged w.events k note

theorem Same.refl (w : World) : Same w w := ⟨rfl, fun _ => rfl, fun _ _ => .rfl⟩

theorem Same.trans {u : World} (h : Same w w') (h' : Same w' u) : Same w u :=
  ⟨h'.accepts.trans h.accepts, fun k => (h'.rows k).trans (h.rows k),
    fun k note => (h'.logged k note).trans (h.logged k note)⟩

/-- The operations that neither mark a sample nor append an observation. -/
def Calm : Op → Prop
  | .sampled _ => False
  | .append_recovery_observation _ _ _ _ => False
  | _ => True

theorem calm_step {o : Op} {r : Res o} (ho : Calm o) (h : Behaves () w o r w') : Same w w' := by
  obtain ⟨kept, next, rfl, hans⟩ := h
  have hlog : ∀ k note, Logged (w.events ++ [⟨o, r, kept⟩]) k note ↔ Logged w.events k note := by
    intro k note
    rw [logged_snoc]
    refine or_iff_left fun ⟨_, hex, heq⟩ => ?_
    have heq : o = .append_recovery_observation k.1 k.2 note hex := heq
    rw [heq] at ho
    exact ho
  have hrows : ∀ k, rows k (w.events ++ [⟨o, r, kept⟩]) = rows k w.events := by
    intro k
    rw [rows_snoc]
    cases o <;> first | rfl | exact absurd ho id
  cases o with
  | sampled s => exact absurd ho id
  | append_recovery_observation e rule note hex => exact absurd ho id
  | append_verification e rule sample n stale revision => exact ⟨hans.1, hrows, hlog⟩
  | set_state e rule revision n => exact ⟨hans.1, hrows, hlog⟩
  | _ => exact ⟨hans, hrows, hlog⟩

/-- The histories, the log and the readiness to accept are followed. -/
def tracked : Frame where
  rely := Same
  calm := Calm
  refl := Same.refl
  trans := Same.trans
  step := calm_step

theorem calm_of_observing (o : Op) (ho : Observing o) : Calm o := by
  cases o <;> first | exact trivial | exact absurd ho id

theorem calm_takeSample (b : Builtins) (cids : List PyStr) (max_age_s : Double) (bundle : Bundle) :
    IssuesE Calm (takeSample b cids max_age_s bundle) :=
  Issues.mono calm_of_observing (issues_takeSample b cids max_age_s bundle)

theorem calm_resolve (e rule : PyStr) (sample : Fields) (n : Int) :
    IssuesE Calm (_resolve e rule sample n) := by
  refine issuesE_bind ⟨trivial, fun _ => trivial⟩ fun rec => ?_
  split
  · exact issuesE_pure
  · refine issuesE_bind ⟨trivial, fun _ => trivial⟩ fun _ => ?_
    refine issuesE_bind ⟨trivial, fun _ => trivial⟩ fun rec => ?_
    refine issuesE_tryCatch ⟨trivial, fun _ => trivial⟩ fun e => ?_
    split
    · exact issuesE_pure
    · exact issuesE_throw

end Events

/-! ## The step -/

/-- The counters are those of the histories, every sample has the observations that were due, and the
log has the observations of the histories. -/
structure Kept (m : Memory) (w : World) : Prop where
  counts : ∀ k, m.count k = counter (rows k w.events)
  regular : ∀ k, Regular (rows k w.events)
  logged : ∀ k note, Logged w.events k note ↔ ∃ r ∈ rows k w.events, note ∈ r.notes

section Step

variable (b : Builtins) {m m' : Memory} {w w' : World} {k : Key}

theorem Kept.same (h : Kept m w) (hw : Same w w') : Kept m w' where
  counts k := by rw [hw.rows, h.counts]
  regular k := by
    rw [hw.rows]
    exact h.regular k
  logged k note := by rw [hw.logged, hw.rows, h.logged]

theorem Kept.recount (h : Kept m w) (hm : m'.streak = m.streak) : Kept m' w where
  counts k := by rw [← h.counts, Memory.count, Memory.count, hm]
  regular := h.regular
  logged := h.logged

/-- A sample has been counted and marked, and what is due after it is not yet appended. -/
structure Marked (m : Memory) (r : Row) (old : List Row) (m' : Memory) (w' : World) : Prop where
  counts : ∀ k, m'.count k = counter (rows k w'.events)
  last : rows r.sample.key w'.events = old ++ [r]
  regular : Regular old
  others : ∀ k, k ≠ r.sample.key → Regular (rows k w'.events)
  logged : ∀ k note, Logged w'.events k note ↔ ∃ q ∈ rows k w'.events, note ∈ q.notes
  accepts : w'.accepts = r.accepts
  empty : r.notes = []
  before : counter old = m.count r.sample.key

variable {r : Row} {old : List Row}

theorem Marked.same (h : Marked m r old m' w) (hw : Same w w') : Marked m r old m' w' where
  counts k := by rw [hw.rows, h.counts]
  last := by rw [hw.rows, h.last]
  regular := h.regular
  others k hk := by
    rw [hw.rows]
    exact h.others k hk
  logged k note := by rw [hw.logged, hw.rows, h.logged]
  accepts := hw.accepts.trans h.accepts
  empty := h.empty
  before := h.before

/-- Where nothing is due, the step is complete. -/
theorem Marked.kept (h : Marked m r old m' w) (hdue : due (counter old) r = []) : Kept m' w where
  counts := h.counts
  regular k := by
    by_cases hk : k = r.sample.key
    · rw [hk, h.last]
      exact regular_snoc h.regular (h.empty.trans hdue.symm)
    · exact h.others k hk
  logged := h.logged

/-- **The mark of a sample.** -/
theorem Kept.marked {s : Sampled} {n : Int} (h : Kept m w)
    (hn : n = if s.held then m.count s.key + 1 else 0) {x : Unit}
    (hb : Behaves () w (.sampled s) x w') :
    Marked m ⟨s, w'.accepts, []⟩ (rows s.key w.events) { m with streak := m.streak.set s.key n } w' := by
  obtain ⟨kept, next, rfl, hans⟩ := hb
  have hans : kept = next := hans
  subst hans
  have hself : rows s.key (w.events ++ [⟨.sampled s, x, kept⟩]) =
      rows s.key w.events ++ [⟨s, kept, []⟩] := by
    rw [rows_snoc]
    exact if_pos rfl
  have hother : ∀ k, k ≠ s.key → rows k (w.events ++ [⟨.sampled s, x, kept⟩]) = rows k w.events := by
    intro k hk
    rw [rows_snoc]
    exact if_neg hk.symm
  refine ⟨?_, hself, h.regular _, ?_, ?_, rfl, rfl, (h.counts _).symm⟩
  · intro k
    by_cases hk : k = s.key
    · subst hk
      rw [hself, counter_snoc, bump, ← h.counts, Memory.count, Dict.get?_set_self, hn]
      rfl
    · rw [hother k hk, ← h.counts, Memory.count, Memory.count, Dict.get?_set_of_ne _ hk]
  · intro k hk
    rw [hother k hk]
    exact h.regular k
  · intro k note
    rw [logged_snoc, h.logged]
    have hno : ¬ ∃ hex, (Op.sampled s) = .append_recovery_observation k.1 k.2 note hex := nofun
    rw [or_iff_left fun h => hno h.2]
    by_cases hk : k = s.key
    · subst hk
      rw [hself]
      simp
    · rw [hother k hk]

/-- **The observation of a sample**, appended or not. -/
theorem Marked.appended {e rule note hex : PyStr} (h : Marked m r old m' w)
    (hkey : r.sample.key = (e, rule))
    (hdue : due (counter old) r = if r.accepts = true then [note] else [])
    {x : Res (.append_recovery_observation e rule note hex)}
    (hb : Behaves () w (.append_recovery_observation e rule note hex) x w') : Kept m' w' := by
  obtain ⟨kept, next, rfl, hnext, hkept, _⟩ := hb
  have hkept : kept = r.accepts := hkept.trans h.accepts
  subst hkept
  cases ha : r.accepts with
  | false =>
    rw [ha, if_neg Bool.false_ne_true] at hdue
    refine (h.kept hdue).same ⟨hnext, fun k => ?_, fun k note' => ?_⟩
    · rw [rows_snoc]
      exact if_neg fun hc => Bool.false_ne_true hc.2
    · rw [logged_snoc]
      exact or_iff_left fun hc => Bool.false_ne_true hc.1
  | true =>
    rw [ha, if_pos rfl] at hdue
    have hself : rows r.sample.key (w.events ++ [⟨.append_recovery_observation e rule note hex, x, true⟩]) =
        old ++ [{ r with notes := [note] }] := by
      rw [rows_snoc, h.last]
      refine (if_pos ⟨hkey.symm, rfl⟩).trans ?_
      rw [noted_snoc, h.empty]
      rfl
    have hother : ∀ k, k ≠ r.sample.key →
        rows k (w.events ++ [⟨.append_recovery_observation e rule note hex, x, true⟩]) =
          rows k w.events := by
      intro k hk
      rw [rows_snoc]
      exact if_neg fun hc => hk (hc.1.symm.trans hkey.symm)
    refine ⟨fun k => ?_, fun k => ?_, fun k note' => ?_⟩
    · by_cases hk : k = r.sample.key
      · rw [h.counts, hk, hself, h.last, counter_snoc, counter_snoc]
        rfl
      · rw [h.counts, hother k hk]
    · by_cases hk : k = r.sample.key
      · rw [hk, hself]
        exact regular_snoc h.regular hdue.symm
      · rw [hother k hk]
        exact h.others k hk
    · rw [logged_snoc, h.logged]
      by_cases hk : k = r.sample.key
      · have hnote : (true = true ∧ ∃ hex', Op.append_recovery_observation e rule note hex =
            .append_recovery_observation k.1 k.2 note' hex') ↔ note' = note := by
          rw [hk, hkey]
          constructor
          · rintro ⟨_, hex', heq⟩
            cases heq
            rfl
          · rintro rfl
            exact ⟨rfl, hex, rfl⟩
        rw [hnote, hk, hself, h.last]
        simp only [List.mem_append, List.mem_singleton, or_and_right, exists_or, exists_eq_left, h.empty,
          List.not_mem_nil, or_false]
      · rw [hother k hk]
        refine or_iff_left (fun h => hk ?_)
        obtain ⟨_, hex', heq⟩ := h
        cases heq
        exact hkey.symm

/-- The observation of a streak that has just begun. -/
theorem observe_kept {ep : EpisodeSummary} {rule : PyStr} (h : Marked m r old m' w)
    (hkey : r.sample.key = (ep.episode_id, rule)) (hstate : r.sample.state = ep.state)
    (hheld : r.sample.held = true) (hawaiting : ep.state ≠ some .awaiting_operator)
    (hfirst : counter old = 0) (hwindow : r.sample.window.isOk = true) :
    wpS tracked.discipline () (observe ep rule) (fun _ => Kept) m' w := by
  have hdue : due (counter old) r = if r.accepts = true then [noteFor ep.state] else [] := by
    rw [due, hstate]
    by_cases ha : r.accepts = true
    · rw [if_pos ha, if_pos ⟨hheld, hawaiting, hfirst, ha, hwindow⟩]
    · rw [if_neg ha, if_neg fun hd => ha hd.2.2.2.1]
  refine reading_bind (o := .uuid4) trivial fun hex w₁ h₁ => ?_
  refine call_bind (o := .append_recovery_observation _ _ _ _) id ?_ ?_
  · intro w₂ x w₃ h₂ hx _ _ w₄ h₄
    exact (((h.same h₁).same h₂).appended hkey hdue hx).same h₄
  · intro w₂ x w₃ h₂ hx _ _ w₄ h₄
    have hkept := (((h.same h₁).same h₂).appended hkey hdue hx).same h₄
    split
    · exact remember_last fun w₅ h₅ => (hkept.same h₅).recount rfl
    · exact pure_last fun w₅ h₅ => hkept.same h₅

/-- **A rule is checked**: whatever the calls return or raise, the history stays regular. -/
theorem checkRule_kept {ep : EpisodeSummary} (bundle : Bundle) (thresholds : Json) (max_age : Double)
    (rule : Rule) (h : Kept m w) :
    wpS tracked.discipline () (checkRule b bundle thresholds max_age ep rule) (fun _ => Kept) m w := by
  refine still_bind (calm_takeSample b _ _ _) (fun _ w₁ h₁ => h.same h₁) fun sample w₁ h₁ => ?_
  refine still_bind (issues_compute _) (fun _ w₂ h₂ => (h.same h₁).same h₂) fun held w₂ h₂ => ?_
  refine recalled_bind fun w₃ h₃ => remember_bind fun w₄ h₄ => ?_
  have h₄ := (((h.same h₁).same h₂).same h₃).same h₄
  refine act_bind fun w₅ x w₆ h₅ hx w₇ h₇ => ?_
  have hm := ((h₄.same h₅).marked rfl hx).same h₇
  -- the window is read after the sample has been counted
  refine computed_bind (fun e he w₈ h₈ => ?_) fun n hn w₈ h₈ => ?_
  · refine (hm.same h₈).kept (if_neg fun hd => ?_)
    rw [show (window b thresholds rule).isOk = false by rw [he]; rfl] at hd
    exact Bool.false_ne_true hd.2.2.2.2
  have hm := hm.same h₈
  cases held with
  | false =>
    exact pure_last fun w₉ h₉ => (hm.kept (if_neg fun hd => Bool.false_ne_true hd.1)).same h₉
  | true =>
    simp only [Bool.not_true, Bool.false_eq_true, if_true, if_false] at hm ⊢
    split
    · rename_i hstate
      have hkept := hm.kept (if_neg fun hd => hd.2.1 hstate)
      split
      · exact still_bind (calm_resolve _ _ _ _) (fun _ w₉ h₉ => hkept.same h₉)
          fun _ w₉ h₉ => pure_last fun w₁₀ h₁₀ => (hkept.same h₉).same h₁₀
      · exact pure_last fun w₉ h₉ => hkept.same h₉
    rename_i hstate
    have hcount := hm.before
    split
    · rename_i hone
      have hone : m.count (ep.episode_id, rule.id) + 1 = 1 := hone
      have hfirst : counter (rows (ep.episode_id, rule.id) w₅.events) = 0 := by
        rw [hcount]
        show m.count (ep.episode_id, rule.id) = 0
        omega
      have hread : (window b thresholds rule).isOk = true := by
        rw [hn]
        rfl
      refine wpS_bind (wpS_conseq ?_ (observe_kept hm rfl rfl rfl hstate hfirst hread))
      intro r m' w₉ h₉
      cases r with
      | ok u => exact pure_last fun w₁₀ h₁₀ => h₉.same h₁₀
      | error e => exact fun w₁₀ h₁₀ _ => h₉.same h₁₀
    · rename_i hone
      refine pure_last fun w₉ h₉ => (hm.kept (if_neg fun hd => hone ?_)).same h₉
      have hz : m.count (ep.episode_id, rule.id) = 0 := hcount.symm.trans hd.2.2.1
      show m.count (ep.episode_id, rule.id) + 1 = 1
      rw [hz]
      rfl

/-- Checking a rule keeps the history regular. -/
theorem keeps : tracked.Keeps b Kept where
  same := Kept.same
  recount := Kept.recount
  calm {o} ho := by
    cases o <;> first | exact trivial | exact absurd ho id
  begun {_ _ e _ _} h hx := h.same (calm_step (o := .checking e) trivial hx)
  failed {_ _ e _ _} h hx := h.same (calm_step (o := .log_failed e) trivial hx)
  rule _ bundle thresholds max_age r h := checkRule_kept b bundle thresholds max_age r h

end Step

/-! ## Runs -/

section Runs

variable (b : Builtins) {a : Except Exc Unit × Memory} {w : World} {events : List Event}

/-- **The history is regular after every tick.** -/
theorem kept_of_ticks (h : Ticks b (.ret a, w)) : Kept a.2 w := by
  refine (keeps b).ticks (fun w hw => ⟨fun k => ?_, fun k => ?_, fun k note => ?_⟩) h
  · rw [hw]
    rfl
  · rw [hw]
    intro front r back heq
    cases front <;> cases heq
  · rw [hw]
    exact iff_of_false (fun ⟨_, hev, _⟩ => List.not_mem_nil hev) fun ⟨_, hr, _⟩ => List.not_mem_nil hr

theorem onePerStreak_iff (h : ∀ k, Regular (rows k events)) :
    OnePerStreak events ↔ StreaksBegin events := by
  constructor
  · intro hone k front r block back hs hacc
    exact (notes_of_streak (h k) hs).1 (hone k front (r :: block) back hs hacc)
  · intro hbegin k front block back hs hacc
    obtain ⟨r, block, rfl⟩ := List.exists_cons_of_ne_nil hs.nonempty
    exact (notes_of_streak (h k) hs).2 (hbegin k front r block back hs hacc)

theorem afterHandOff_mem {n : Int} {r : Row} : afterHandOff ∈ due n r ↔
    r.Late ∧ n = 0 ∧ r.sample.window.isOk = true := by
  unfold due Row.Late
  have hne : afterHandOff ≠ duringAnalysis := by decide
  split
  · rename_i hd
    obtain ⟨hheld, _, hn, hacc, hw⟩ := hd
    rw [List.mem_singleton, noteFor]
    split
    · rename_i hs
      exact iff_of_true rfl ⟨⟨hheld, hs, hacc⟩, hn, hw⟩
    · rename_i hs
      exact iff_of_false hne fun hl => hs hl.1.2.1
  · rename_i hd
    refine iff_of_false List.not_mem_nil fun hl => hd ⟨hl.1.1, ?_, hl.2.1, hl.1.2.2, hl.2.2⟩
    rw [hl.1.2.1]
    decide

theorem lateObserved_iff (h : ∀ k, Regular (rows k events))
    (hlog : ∀ k note, Logged events k note ↔ ∃ r ∈ rows k events, note ∈ r.notes) :
    LateObserved events ↔ LateBegin events := by
  refine forall_congr' fun k => forall_congr' fun r => forall_congr' fun _ => forall_congr' fun _ =>
    exists_congr fun rule => ?_
  rw [hlog]
  constructor
  · rintro ⟨q, hq, hnote⟩
    obtain ⟨front, back, heq⟩ := List.append_of_mem hq
    rw [h _ front q back heq, afterHandOff_mem] at hnote
    exact ⟨front, q, back, heq, hnote.1, readable_iff.2 hnote.2.2, counter_eq_zero.1 hnote.2.1⟩
  · rintro ⟨front, q, back, heq, hlate, hread, hbegin⟩
    refine ⟨q, by rw [heq]; simp, ?_⟩
    rw [h _ front q back heq, afterHandOff_mem]
    exact ⟨hlate, counter_eq_zero.2 hbegin, readable_iff.1 hread⟩

end Runs

/-- **Recoveries are observed**: after every tick, each streak outside has exactly one observation and
each recovery after hand-off is in the log, exactly if every streak in which the store accepts appends
begins with an accepted one, and one rule of the episode began to hold after the hand-off. -/
theorem recovery_observed (b : Builtins) {a : Except Exc Unit × Memory} {w : World}
    (h : Ticks b (.ret a, w)) :
    OnePerStreak w.events ∧ LateObserved w.events ↔ StreaksBegin w.events ∧ LateBegin w.events := by
  have hkept := kept_of_ticks b h
  exact and_congr (onePerStreak_iff hkept.regular) (lateObserved_iff hkept.regular hkept.logged)
/-! ## Controls -/

section Controls

/-- The run over these states. -/
def recovery (states : List EpisodeState) : (Except Exc Unit × Memory) × World :=
  started sampleBuiltins (recovered states true) 1

theorem recovery_ticks (states : List EpisodeState)
    (hok : (started sampleBuiltins (recovered states true) 0).1.1 = .ok ()) :
    Ticks sampleBuiltins (.ret (recovery states).1, (recovery states).2) := by
  refine started_reach (recovered_lawful states true) fun i hi => ?_
  cases Nat.lt_one_iff.1 hi
  exact hok

theorem recovery_observed_sample :
    OnePerStreak (recovery [.diagnosing, .diagnosing]).2.events ∧
        LateObserved (recovery [.diagnosing, .diagnosing]).2.events ↔
      StreaksBegin (recovery [.diagnosing, .diagnosing]).2.events ∧
        LateBegin (recovery [.diagnosing, .diagnosing]).2.events :=
  recovery_observed sampleBuiltins (recovery_ticks [.diagnosing, .diagnosing] (by decide +kernel))

/-- **A recovery after hand-off is not in the log**: the streak began during the analysis. -/
theorem handed_off_unobserved : ¬ ∀ b a w, Ticks b (.ret a, w) →
    OnePerStreak w.events ∧ LateObserved w.events := by
  intro h
  obtain ⟨_, hlate⟩ := h sampleBuiltins _ _
    (recovery_ticks [.diagnosing, .handed_off] (by decide +kernel))
  have hrow : ((rows (py "e", py "r") (recovery [.diagnosing, .handed_off]).2.events).any fun r =>
      r.sample.held && decide (r.sample.state = some .handed_off) && r.accepts) = true := by
    decide +kernel
  have hnone : ((recovery [.diagnosing, .handed_off]).2.events.all fun ev => match ev.op with
      | .append_recovery_observation _ _ note _ => decide (note ≠ afterHandOff)
      | _ => true) = true := by
    decide +kernel
  obtain ⟨r, hmem, hr⟩ := List.any_eq_true.1 hrow
  simp only [Bool.and_eq_true, decide_eq_true_eq] at hr
  obtain ⟨rule, ev, hev, _, hex, hop⟩ := hlate _ r hmem ⟨hr.1.1, hr.1.2, hr.2⟩
  have hnote := List.all_eq_true.1 hnone ev hev
  rw [hop] at hnote
  simp at hnote

end Controls

end Valops.Verifier
