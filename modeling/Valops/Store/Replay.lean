import Valops.Store.Ledger

/-!
# The live record is the fold of the log

In the runs in which no token is forged and no call reports a cost that no float can hold, every
live record is the fold of its log, and a restart rebuilds it. `append_cost` takes an integer of any
size, and `apply` then fails on it after the row is written: `overflow_run` ends in a database that
no store can start on.

Main result: `live_is_fold`.
-/

set_option autoImplicit false

namespace Valops.Store

open Py

/-- The number can be an operand of a float addition. -/
def FitsFloat : Json → Prop
  | .int z => (Double.ofInt? z).isSome = true
  | _ => True

instance : ∀ v, Decidable (FitsFloat v)
  | .int z => inferInstanceAs (Decidable ((Double.ofInt? z).isSome = true))
  | .null | .bool _ | .float _ | .str _ | .arr _ | .obj _ => .isTrue trivial

/-- A cost that is reported fits a float. -/
def CostFits : Act → Prop
  | .call c => c.method = .append_cost → FitsFloat (c.params.get "usd")
  | _ => True

instance : ∀ a, Decidable (CostFits a)
  | .call c => inferInstanceAs (Decidable (c.method = .append_cost → FitsFloat (c.params.get "usd")))
  | .check _ | .verify _ _ | .restart | .mint _ => .isTrue trivial

/-- The live records are the folds of the logs, and a restart finds them again. -/
structure Refined (cfg : StoreConfig) (s : EpisodeStore) : Prop where
  folded : ∀ e rec, s.records.get? e = some rec → fold cfg.rfc3339 (s.entries e) = .ok rec
  counted : ∀ e rec, s.records.get? e = some rec → rec.revision = (s.entries e).length
  numbered : ∀ e, (s.entries e).map Entry.rev = List.range' 1 (s.entries e).length
  stored : ∀ e, s.entries e ≠ [] → ∃ rec, s.records.get? e = some rec
  applies : ∀ e, ∀ x ∈ s.entries e, ∀ r, (apply cfg.rfc3339 r x).2 = none
  restarts : ∃ s', restart cfg s = .ok s' ∧ ∀ e, s'.records.get? e = s.records.get? e

section Replay

variable {cfg : StoreConfig} {s : System} {x : Entry} {b : CostBody}

/-- An entry that is no cost never makes `apply` raise. -/
theorem apply_ok_of_kind {rfc3339 : Double → PyStr} (h : x.body.kind ≠ .cost) (r : Record) :
    (apply rfc3339 r x).2 = none := by
  unfold apply
  cases hb : x.body with
  | cost b =>
    rw [hb] at h
    exact absurd rfl h
  | _ => rfl

theorem toFloat_ok {v : Json} (hnum : isNumber v = true) (hfits : FitsFloat v) :
    ∃ d, toFloat v = .ok d := by
  cases v with
  | float d => exact ⟨d, rfl⟩
  | int z =>
    obtain ⟨d, hd⟩ := Option.isSome_iff_exists.1 (show (Double.ofInt? z).isSome = true from hfits)
    exact ⟨d, by rw [toFloat, hd]; rfl⟩
  | bool c =>
    have hsome : ∀ z : Int, (Double.ofInt? z).isSome = true → ∃ d, orRaise (Double.ofInt? z)
        (.other .overflowError) = .ok d := by
      intro z hz
      obtain ⟨d, hd⟩ := Option.isSome_iff_exists.1 hz
      exact ⟨d, by rw [hd]; rfl⟩
    cases c
    · exact hsome 0 (by decide +kernel)
    · exact hsome 1 (by decide +kernel)
  | _ => cases hnum

theorem toInt_ok {v : Json} (h : isInt v = true) : ∃ z, toInt v = .ok z := by
  cases v with
  | int z => exact ⟨z, rfl⟩
  | bool c => exact ⟨_, rfl⟩
  | _ => cases h

/-- A cost that fits is added. -/
theorem applyCost_ok {c : Cost} (hnum : isNumber b.usd = true) (hfits : FitsFloat b.usd)
    (hturns : isInt b.turns = true) (hsession : b.session_id.hashable = true) :
    (applyCost c b).2 = none := by
  obtain ⟨usd, husd⟩ := toFloat_ok hnum hfits
  obtain ⟨turns, hturns⟩ := toInt_ok hturns
  simp [applyCost, husd, hturns, hsession]

/-- The entries of these runs can be applied to every record. -/
theorem entries_apply (h : Conc.Reachable Initial (Moves cfg) (fun _ a => CostFits a) s) :
    ∀ e front x back, s.store.entries e = front ++ x :: back →
      ∀ r, (apply cfg.rfc3339 r x).2 = none := by
  refine log_inv (Q := fun e front x => ∀ r, (apply cfg.rfc3339 r x).2 = none) ?_ h
  intro y a y' c e new hled hok hstep hsec hnew r
  by_cases hkind : new.body.kind = .cost
  · obtain ⟨d, row, hdraft, hw, _, _, hbody, _⟩ := hnew.draft
    rcases hdraft with hdraft | hopened
    · have hadm := hdraft.admitted
      have hmethod := hdraft.kind
      cases hb : d.body with
      | cost b =>
        rw [hb] at hadm hbody hmethod
        obtain ⟨c', rfl⟩ : ∃ c', a = .call c' := by
          cases hstep with
          | call whole fresh => exact ⟨_, rfl⟩
          | verify pending fresh =>
            cases hsec
            cases hmethod
          | _ => cases hsec
        cases hsec
        have hcost : c.method = .append_cost := by
          revert hmethod
          cases c.method <;> simp [Method.kind, Body.kind]
        generalize hp : d.principal = principal at hadm
        generalize hv : d.session_id = session at hadm
        cases hadm with
        | cost endpoint usd number turns hsession =>
          have hfits : FitsFloat b.usd := usd ▸ hok hcost
          have hhash : b.session_id.hashable = true := by
            have hbind := hw.session
            rw [hv] at hbind
            rw [hsession]
            exact bindText_hashable hbind
          have happ : (applyCost r.cost b).2 = none := applyCost_ok number hfits turns hhash
          show (apply cfg.rfc3339 r new).2 = none
          unfold apply
          rw [hbody]
          exact happ
      | _ =>
        rw [hbody, hb] at hkind
        cases hkind
    · obtain ⟨idem, b, _, rfl⟩ := hopened.decided
      rw [hbody] at hkind
      cases hkind
  · exact apply_ok_of_kind hkind r

theorem fold_eq {es : List Entry} {e : PyStr} (hne : es ≠ []) (hid : ∀ x ∈ es, x.episode_id = e)
    (h : ∀ x ∈ es, ∀ r, (apply cfg.rfc3339 r x).2 = none) :
    fold cfg.rfc3339 es = .ok (replay cfg.rfc3339 (empty_record e) es) := by
  cases es with
  | nil => exact absurd rfl hne
  | cons x es =>
    rw [fold, hid x List.mem_cons_self]
    refine foldFrom_isOk fun front y back heq => ?_
    exact h y (heq ▸ List.mem_append_right front List.mem_cons_self) _

/-- No token is forged and no cost overflows. -/
def Sound (cfg : StoreConfig) (s : System) (a : Act) : Prop := Authentic cfg s a ∧ CostFits a

/-- **The live record is the fold of the log**, in the runs in which every reported cost fits. -/
theorem live_is_fold (h : Conc.Reachable Initial (Moves cfg) (Sound cfg) s) :
    Refined cfg s.store := by
  have hled : Ledger cfg True s := ledger (fun _ _ _ hok => hok.1) h
  have hcons := hled.consistent
  have happly : ∀ e, ∀ x ∈ s.store.entries e, ∀ r, (apply cfg.rfc3339 r x).2 = none := by
    intro e x hx
    obtain ⟨front, back, hsplit⟩ := List.append_of_mem hx
    exact entries_apply (h.mono fun _ _ hok => hok.2) e front x back hsplit
  have hid : ∀ e, ∀ x ∈ s.store.entries e, x.episode_id = e := by
    intro e x hx
    obtain ⟨row, hrow, hentry⟩ := List.mem_filterMap.1 hx
    exact (entry_episode hentry).trans (mem_log.1 hrow).2
  have hstored : ∀ e, s.store.entries e ≠ [] ↔ ∃ r ∈ s.store.rows, r.episode_id = e := by
    intro e
    constructor
    · intro hne
      obtain ⟨x, hx⟩ := List.exists_mem_of_ne_nil _ hne
      obtain ⟨row, hrow, _⟩ := List.mem_filterMap.1 hx
      exact ⟨row, (mem_log.1 hrow).1, (mem_log.1 hrow).2⟩
    · rintro ⟨row, hrow, heq⟩
      obtain ⟨x, hx⟩ := hcons.decodes row hrow
      exact List.ne_nil_of_mem (List.mem_filterMap.2 ⟨row, mem_log.2 ⟨hrow, heq⟩, hx⟩)
  refine ⟨?_, fun e rec => hcons.revision, ?_, ?_, happly, ?_⟩
  · intro e rec hrec
    have hne := (hstored e).2 ((hcons.known e).1 ⟨rec, hrec⟩)
    rw [fold_eq hne (hid e) (happly e), ← hcons.exact trivial e rec hrec]
  · intro e
    rw [hcons.entries_rev, hcons.entries_length]
  · exact fun e hne => (hcons.known e).2 ((hstored e).1 hne)
  · -- the rebuild goes through, and finds what the live records are
    have hup : ∃ d, rebuildRows cfg [] (s.store.rows.insertionSort rowLe) = .ok d := by
      refine rebuildRows_isOk ?_ ?_
      · intro row hrow
        exact hcons.decodes row ((List.mem_insertionSort rowLe).1 hrow)
      · intro e
        rw [hcons.sorted]
        refine ⟨_, foldFrom_isOk fun front x back heq => ?_⟩
        exact happly e x (heq ▸ List.mem_append_right front List.mem_cons_self) _
    obtain ⟨d, hd⟩ := hup
    have hrestart : restart cfg s.store = .ok { s.store with records := d } := by
      rw [restart, _rebuild, hd]
      rfl
    refine ⟨_, hrestart, fun e => ?_⟩
    rw [restart_get? hcons hrestart]
    split
    · rename_i hex
      obtain ⟨rec, hrec⟩ := (hcons.known e).2 hex
      rw [hrec, ← hcons.exact trivial e rec hrec]
    · rename_i hex
      cases hget : s.store.records.get? e with
      | none => rfl
      | some rec => exact absurd ((hcons.known e).1 ⟨rec, hget⟩) hex

end Replay

/-! ## A cost that does not fit -/

/-- Nothing verifies here, so nothing is forged. -/
theorem sample_authentic (s : System) (a : Act) : Authentic sampleConfig s a := by
  intro c _ bundle_ok revoked body hbody
  obtain ⟨_, hverify⟩ := authenticate_eq_ok hbody
  cases hverify

/-- A cost report. -/
def costCall (usd : Int) : Call :=
  ⟨sampleWorld "-", .control, .append_cost, Params.ofFields
    [(py "episode_id", .str (py "e")), (py "idem_key", .str (py "cost")),
      (py "role", .str (py "reporter")), (py "turns", .int 1), (py "usd", .int usd)] (by simp)⟩

/-- An episode with a cost. -/
def costRun (usd : Int) : List Act := [.call (openCall "e" "k1" "slots" "v"), .call (costCall usd)]

theorem live_is_fold_sample : Refined sampleConfig (System.run sampleConfig (costRun 2)).store ∧
    ((System.run sampleConfig (costRun 2)).store.entries (py "e")).length = 2 := by
  refine ⟨live_is_fold ?_, by decide +kernel⟩
  have hcost : Conc.Reachable Initial (Moves sampleConfig) (fun _ a => CostFits a)
      (System.run sampleConfig (costRun 2)) :=
    System.run_reachable (by decide +kernel) (by decide +kernel)
  exact hcost.mono fun s a h => ⟨sample_authentic s a, h⟩

/-- After a cost of `2 ^ 1024` is reported the store cannot be started again. -/
theorem overflow_run : ∃ s, Conc.Reachable Initial (Moves sampleConfig) (Authentic sampleConfig) s ∧
    ¬ Refined sampleConfig s.store := by
  have hrun : Conc.Reachable Initial (Moves sampleConfig) Conc.anyAct
      (System.run sampleConfig (costRun (2 ^ 1024))) :=
    System.run_reachable (by decide +kernel) System.allowed_any
  refine ⟨_, hrun.mono fun s a _ => sample_authentic s a, fun href => ?_⟩
  obtain ⟨s', hup, _⟩ := href.restarts
  have hdown : (restart sampleConfig
      (System.run sampleConfig (costRun (2 ^ 1024))).store).toOption.isSome = false := by
    decide +kernel
  rw [hup] at hdown
  cases hdown

end Valops.Store
