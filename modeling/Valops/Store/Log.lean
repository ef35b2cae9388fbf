import Mathlib.Data.List.Basic
import Valops.Store.Guards

/-!
# Logs and replay

The log of an episode is its rows in the order they were inserted. `replay` of the decoded log is
what a restart computes, one row at a time and all episodes mixed (`rebuildRows_get?`,
`rebuildRows_isOk`).

A row stores the session as text. Where a token's session is not a string the live record and the
replayed one can differ in it, so `anon` forgets the sessions that `apply` copies from the entry;
`anon_apply` says that nothing else depends on them.
-/

set_option autoImplicit false

namespace Valops.Store

open Py

/-- The rows of an episode. -/
def EpisodeStore.log (s : EpisodeStore) (e : PyStr) : List Row :=
  s.rows.filter fun r => decide (r.episode_id = e)

/-- The entries of an episode. -/
def EpisodeStore.entries (s : EpisodeStore) (e : PyStr) : List Entry :=
  (s.log e).filterMap Row.entry

/-! ## Replay -/

section Replay

variable {rfc3339 : Double → PyStr} {r r' : Record} {x x' : Entry}

theorem replay_snoc (es : List Entry) :
    replay rfc3339 r (es ++ [x]) = (apply rfc3339 (replay rfc3339 r es) x).1 := by
  rw [replay, List.foldl_append]
  rfl

/-- A fold that raises nothing is the replay. -/
theorem foldFrom_eq_ok {es : List Entry} : ∀ {r r' : Record}, foldFrom rfc3339 r es = .ok r' →
    replay rfc3339 r es = r' := by
  induction es with
  | nil =>
    intro r r' h
    cases h
    rfl
  | cons x es ih =>
    intro r r' h
    obtain ⟨r₁, h₁, h⟩ := bind_eq_ok.1 h
    unfold applyOrRaise at h₁
    split at h₁
    · rename_i r₂ heq
      cases h₁
      have hr : (apply rfc3339 r x).1 = r₁ := congrArg Prod.fst heq
      rw [replay, List.foldl_cons, hr]
      exact ih h
    · cases h₁

theorem foldFrom_isOk {es : List Entry} : ∀ {r : Record},
    (∀ front x back, es = front ++ x :: back → (apply rfc3339 (replay rfc3339 r front) x).2 = none) →
    foldFrom rfc3339 r es = .ok (replay rfc3339 r es) := by
  induction es with
  | nil => exact fun _ => rfl
  | cons x es ih =>
    intro r h
    have hx : (apply rfc3339 r x).2 = none := h [] x es rfl
    have happ : applyOrRaise rfc3339 r x = .ok (apply rfc3339 r x).1 := by
      unfold applyOrRaise
      rw [show apply rfc3339 r x = ((apply rfc3339 r x).1, none) from Prod.ext rfl hx]
    rw [foldFrom, happ, ok_bind]
    refine ih fun front y back heq => ?_
    have := h (x :: front) y back (by rw [heq, List.cons_append])
    exact this

/-- `apply` numbers the record. -/
@[simp] theorem apply_revision : (apply rfc3339 r x).1.revision = x.rev := by
  cases h : x.body <;> simp [apply, h]

@[simp] theorem apply_episode_id : (apply rfc3339 r x).1.episode_id = r.episode_id := by
  cases h : x.body <;> simp [apply, h]

/-- What `apply` does to the state. -/
theorem apply_state : (apply rfc3339 r x).1.state =
    match x.body with
    | .opened _ => some .open
    | .state b => some b.dst
    | _ => r.state := by
  cases h : x.body <;> simp [apply, h]

/-- Only `opened` sets the bundle. -/
theorem apply_bundle_id : (apply rfc3339 r x).1.bundle_id =
    match x.body with
    | .opened b => some b.bundle_id
    | _ => r.bundle_id := by
  cases h : x.body <;> simp [apply, h]

end Replay

/-! ## Forgetting sessions -/

/-- The session that `apply` copies. -/
def Entry.anon (x : Entry) : Entry := { x with session_id := .null }

def StatusEvent.anon (e : StatusEvent) : StatusEvent := { e with session_id := .null }

def Hypothesis.anon (h : Hypothesis) : Hypothesis :=
  { h with status_history := h.status_history.map StatusEvent.anon }

def Recommendation.anon (r : Recommendation) : Recommendation := { r with session_id := .null }

def NoAction.anon (n : NoAction) : NoAction := { n with session_id := .null }

def Verdict.anon (v : Verdict) : Verdict := { v with session_id := .null }

def Report.anon (r : Report) : Report := { r with session_id := .null }

/-- The record without the sessions that `apply` copied into it. -/
def Record.anon (r : Record) : Record :=
  { r with
    hypotheses := r.hypotheses.map Hypothesis.anon
    recommendations := r.recommendations.map Recommendation.anon
    no_action := r.no_action.map NoAction.anon
    verdicts := r.verdicts.map Verdict.anon
    reports := r.reports.map Report.anon }

section Anon

variable {rfc3339 : Double → PyStr} {r r' : Record} {x x' : Entry}

theorem anon_applyStatus (b : HypothesisStatusBody) (t : PyStr) (v w : Json) (h : Hypothesis) :
    (applyStatus b t v h).anon = (applyStatus b t w h.anon).anon := by
  by_cases hid : h.id = b.hypothesis_id
  · simp [applyStatus, Hypothesis.anon, StatusEvent.anon, hid]
  · simp [applyStatus, Hypothesis.anon, StatusEvent.anon, hid]

/-- `apply` copies sessions and does nothing else with them. -/
theorem anon_apply : (apply rfc3339 r x).1.anon = (apply rfc3339 r.anon x.anon).1.anon := by
  cases h : x.body with
  | hypothesis_status b =>
    have hmap : (r.hypotheses.map (applyStatus b (rfc3339 x.ts) x.session_id)).map Hypothesis.anon =
        ((r.hypotheses.map Hypothesis.anon).map (applyStatus b (rfc3339 x.ts) .null)).map
          Hypothesis.anon := by
      rw [List.map_map, List.map_map, List.map_map]
      exact List.map_congr_left fun hy _ => anon_applyStatus b _ _ _ hy
    simp [apply, h, Entry.anon, Record.anon, hmap, Recommendation.anon, NoAction.anon, Verdict.anon,
      Report.anon, Function.comp_def]
  | _ =>
    simp [apply, h, Entry.anon, Record.anon, Hypothesis.anon, StatusEvent.anon, Recommendation.anon,
      NoAction.anon, Verdict.anon, Report.anon, Function.comp_def]

/-- Two records that differ in copied sessions only stay so. -/
theorem anon_apply_congr (hr : r.anon = r'.anon) (hx : x.anon = x'.anon) :
    (apply rfc3339 r x).1.anon = (apply rfc3339 r' x').1.anon := by
  rw [anon_apply, hr, hx, ← anon_apply]

end Anon

/-! ## Rebuilding -/

section Rebuild

variable {cfg : StoreConfig}

theorem entry_episode {row : Row} {x : Entry} (h : row.entry = some x) :
    x.episode_id = row.episode_id := by
  obtain ⟨b, _, rfl⟩ := Option.map_eq_some_iff.1 h
  rfl

theorem entry_rev {row : Row} {x : Entry} (h : row.entry = some x) : x.rev = row.rev := by
  obtain ⟨b, _, rfl⟩ := Option.map_eq_some_iff.1 h
  rfl

/-- The entries of an episode among rows. -/
def entriesOf (rows : List Row) (e : PyStr) : List Entry :=
  (rows.filter fun r => decide (r.episode_id = e)).filterMap Row.entry

theorem entriesOf_cons_self {row : Row} {x : Entry} {rows : List Row} (h : row.entry = some x) :
    entriesOf (row :: rows) row.episode_id = x :: entriesOf rows row.episode_id := by
  simp [entriesOf, h]

theorem entriesOf_cons_of_ne {row : Row} {rows : List Row} {e : PyStr} (h : e ≠ row.episode_id) :
    entriesOf (row :: rows) e = entriesOf rows e := by
  simp [entriesOf, Ne.symm h]

theorem applyOrRaise_eq_ok {rfc3339 : Double → PyStr} {r r' : Record} {x : Entry}
    (h : applyOrRaise rfc3339 r x = .ok r') : (apply rfc3339 r x).1 = r' ∧
      (apply rfc3339 r x).2 = none := by
  unfold applyOrRaise at h
  split at h
  · rename_i heq
    cases h
    rw [heq]
    exact ⟨rfl, rfl⟩
  · cases h

/-- **What a rebuild leaves under each episode**: the replay of its rows. -/
theorem rebuildRows_get? {e : PyStr} : ∀ {rows : List Row} {d d' : Dict PyStr Record},
    rebuildRows cfg d rows = .ok d' → d'.get? e =
      if ∃ r ∈ rows, r.episode_id = e then
        some (replay cfg.rfc3339 ((d.get? e).getD (empty_record e)) (entriesOf rows e))
      else d.get? e
  | [], d, d', h => by
    cases h
    simp
  | row :: rows, d, d', h => by
    rw [rebuildRows] at h
    obtain ⟨x, hx, h⟩ := bind_eq_ok.1 h
    obtain ⟨r', hr', h⟩ := bind_eq_ok.1 h
    rw [orRaise_eq_ok] at hx
    have hep := entry_episode hx
    rw [rebuildRows_get? h, hep]
    by_cases he : e = row.episode_id
    · subst he
      have hself : ∃ r ∈ row :: rows, r.episode_id = row.episode_id :=
        ⟨row, List.mem_cons_self, rfl⟩
      have happ := (applyOrRaise_eq_ok hr').1
      rw [hep] at happ
      have hcons : ∀ es, replay cfg.rfc3339 ((d.get? row.episode_id).getD
          (empty_record row.episode_id)) (x :: es) = replay cfg.rfc3339 r' es := by
        intro es
        rw [replay, List.foldl_cons, happ]
        rfl
      rw [if_pos hself, entriesOf_cons_self hx, Dict.get?_set_self, Option.getD_some, hcons]
      split
      · rfl
      · rename_i hnone
        have hnil : entriesOf rows row.episode_id = [] := by
          have hfilter : rows.filter (fun r => decide (r.episode_id = row.episode_id)) = [] := by
            rw [List.filter_eq_nil_iff]
            intro r hr
            simpa using fun heq => hnone ⟨r, hr, heq⟩
          rw [entriesOf, hfilter]
          rfl
        rw [hnil]
        rfl
    · rw [Dict.get?_set_of_ne _ he, entriesOf_cons_of_ne he]
      have hiff : (∃ r ∈ row :: rows, r.episode_id = e) ↔ ∃ r ∈ rows, r.episode_id = e := by
        constructor
        · rintro ⟨r, hr, heq⟩
          rcases List.mem_cons.1 hr with rfl | hr
          · exact absurd heq.symm he
          · exact ⟨r, hr, heq⟩
        · rintro ⟨r, hr, heq⟩
          exact ⟨r, List.mem_cons_of_mem _ hr, heq⟩
      simp only [hiff]

/-- A rebuild succeeds when every row decodes and no episode's fold raises. -/
theorem rebuildRows_isOk : ∀ {rows : List Row} {d : Dict PyStr Record},
    (∀ r ∈ rows, ∃ x, r.entry = some x) →
    (∀ e, ∃ r', foldFrom cfg.rfc3339 ((d.get? e).getD (empty_record e)) (entriesOf rows e) = .ok r') →
    ∃ d', rebuildRows cfg d rows = .ok d'
  | [], d, _, _ => ⟨d, rfl⟩
  | row :: rows, d, hdec, hfold => by
    obtain ⟨x, hx⟩ := hdec row List.mem_cons_self
    have hep := entry_episode hx
    obtain ⟨r', hr'⟩ := hfold row.episode_id
    rw [entriesOf_cons_self hx, foldFrom] at hr'
    obtain ⟨r₁, hr₁, hr'⟩ := bind_eq_ok.1 hr'
    have hrest : ∀ e, ∃ r', foldFrom cfg.rfc3339
        (((d.set row.episode_id r₁).get? e).getD (empty_record e)) (entriesOf rows e) = .ok r' := by
      intro e
      by_cases he : e = row.episode_id
      · subst he
        rw [Dict.get?_set_self, Option.getD_some]
        exact ⟨r', hr'⟩
      · obtain ⟨r₂, hr₂⟩ := hfold e
        rw [entriesOf_cons_of_ne he] at hr₂
        rw [Dict.get?_set_of_ne _ he]
        exact ⟨r₂, hr₂⟩
    obtain ⟨d', hd'⟩ := rebuildRows_isOk (fun r hr => hdec r (List.mem_cons_of_mem _ hr)) hrest
    refine ⟨d', ?_⟩
    rw [rebuildRows, hx]
    show (applyOrRaise _ _ _ >>= _) = _
    rw [hep, hr₁, ok_bind]
    exact hd'

/-! ## The order of the rows -/

instance : Std.Total rowLe := ⟨fun a b => by
  unfold rowLe
  rcases lt_trichotomy a.episode_id b.episode_id with h | h | h
  · exact .inl (.inl h)
  · rcases Nat.le_total a.rev b.rev with h' | h'
    · exact .inl (.inr ⟨h, h'⟩)
    · exact .inr (.inr ⟨h.symm, h'⟩)
  · exact .inr (.inl h)⟩

instance : IsTrans Row rowLe := ⟨fun a b c hab hbc => by
  unfold rowLe at *
  rcases hab with h | ⟨h, hr⟩ <;> rcases hbc with h' | ⟨h', hr'⟩
  · exact .inl (lt_trans h h')
  · exact .inl (h' ▸ h)
  · exact .inl (h ▸ h')
  · exact .inr ⟨h.trans h', hr.trans hr'⟩⟩

/-- Sorting does not reorder the rows of one episode when they are numbered in order. -/
theorem filter_insertionSort {rows : List Row} {e : PyStr}
    (h : ((rows.filter fun r => decide (r.episode_id = e)).map Row.rev).Pairwise (· < ·)) :
    (rows.insertionSort rowLe).filter (fun r => decide (r.episode_id = e)) =
      rows.filter fun r => decide (r.episode_id = e) := by
  have hperm := (List.perm_insertionSort rowLe rows).filter fun r => decide (r.episode_id = e)
  have hsorted : ((rows.insertionSort rowLe).filter fun r => decide (r.episode_id = e)).Pairwise
      rowLe := (List.pairwise_insertionSort rowLe rows).sublist List.filter_sublist
  have hep : ∀ r ∈ rows.filter (fun r => decide (r.episode_id = e)), r.episode_id = e :=
    fun r hr => of_decide_eq_true (List.mem_filter.1 hr).2
  have horder : (rows.filter fun r => decide (r.episode_id = e)).Pairwise rowLe := by
    refine List.Pairwise.imp_of_mem ?_ (List.pairwise_map.1 h)
    intro a b ha hb hlt
    exact .inr ⟨(hep a ha).trans (hep b hb).symm, hlt.le⟩
  have hinj : ∀ a ∈ rows.filter (fun r => decide (r.episode_id = e)),
      ∀ b ∈ rows.filter (fun r => decide (r.episode_id = e)), a.rev = b.rev → a = b := by
    intro a ha b hb hab
    exact List.inj_on_of_nodup_map (List.Pairwise.imp (fun h => Nat.ne_of_lt h) h) ha hb hab
  refine hperm.eq_of_pairwise ?_ hsorted horder
  intro a b ha hb hab hba
  have ha' := hperm.mem_iff.1 ha
  refine hinj a ha' b hb ?_
  have heq : a.episode_id = b.episode_id := (hep a ha').trans (hep b hb).symm
  unfold rowLe at hab hba
  rcases hab with hab | ⟨_, hab⟩
  · exact absurd heq hab.ne
  rcases hba with hba | ⟨_, hba⟩
  · exact absurd heq.symm hba.ne
  · exact Nat.le_antisymm hab hba

end Rebuild

end Valops.Store
