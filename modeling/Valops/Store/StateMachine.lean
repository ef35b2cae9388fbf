import Valops.Store.Ledger

/-!
# The state machine of an episode

What the `state` entries of a log form: a path of the transition tables, each step taken by the
principal on its entry, each written at the revision that its caller named.

Main results: `state_machine` for every run, and `terminal_stays`, on which the rules for finished
episodes rest.
-/

set_option autoImplicit false

namespace Valops.Store

open Py

/-! ## Splitting logs -/

section Split

variable {cfg : StoreConfig} {strict : Prop} {e : PyStr} {front back : List Entry} {x : Entry}

/-- Every place in a log is a row. -/
theorem exists_row_of_split : ∀ {rows : List Row} {front : List Entry},
    (∀ row ∈ rows, ∃ x, row.entry = some x) → entriesOf rows e = front ++ x :: back →
    ∃ i row, rows[i]? = some row ∧ row.episode_id = e ∧ row.entry = some x ∧
      entriesOf (rows.take i) e = front
  | [], front, _, h => by
    cases front <;> cases h
  | row :: rows, front, hdec, h => by
    obtain ⟨y, hy⟩ := hdec row List.mem_cons_self
    have hdec' : ∀ r ∈ rows, ∃ x, r.entry = some x := fun r hr => hdec r (List.mem_cons_of_mem _ hr)
    by_cases he : row.episode_id = e
    · have hcons : ∀ rows, entriesOf (row :: rows) e = y :: entriesOf rows e := by
        intro rows
        rw [← he]
        exact entriesOf_cons_self hy
      rw [hcons] at h
      cases front with
      | nil =>
        obtain ⟨rfl, _⟩ := List.cons.inj h
        exact ⟨0, row, rfl, he, hy, rfl⟩
      | cons z front =>
        obtain ⟨rfl, htail⟩ := List.cons.inj h
        obtain ⟨i, r, hi, hr, hx, hfront⟩ := exists_row_of_split hdec' htail
        refine ⟨i + 1, r, hi, hr, hx, ?_⟩
        rw [List.take_succ_cons, hcons, hfront]
    · rw [entriesOf_cons_of_ne (Ne.symm he)] at h
      obtain ⟨i, r, hi, hr, hx, hfront⟩ := exists_row_of_split hdec' h
      refine ⟨i + 1, r, hi, hr, hx, ?_⟩
      rw [List.take_succ_cons, entriesOf_cons_of_ne (Ne.symm he), hfront]

/-- Every place in a log is accounted for. -/
theorem Ledger.at {s : System} (h : Ledger cfg strict s)
    (hsplit : s.store.entries e = front ++ x :: back) : ∃ (i : Nat) (row : Row) (o : Origin),
      s.store.rows[i]? = some row ∧ s.origins[i]? = some o ∧ row.episode_id = e ∧
      entriesOf (s.store.rows.take i) e = front ∧ x.rev = front.length + 1 ∧ x.episode_id = e ∧
      Accounted cfg strict (s.store.rows.take i) row o x ∧ Justified cfg strict o front x := by
  obtain ⟨i, row, hi, he, hx, hfront⟩ := exists_row_of_split h.consistent.decodes hsplit
  obtain ⟨o, y, ho, hacc⟩ := h.accounted i row hi
  have hxy : y = x := Option.some.inj (hacc.entry.symm.trans hx)
  subst hxy
  have hrev := hacc.rev
  have hjust := hacc.justified
  rw [he, hfront] at hrev hjust
  exact ⟨i, row, o, hi, ho, he, hfront, hrev, (entry_episode hx).trans he, hacc, hjust⟩

end Split

/-! ## Paths -/

/-- A `state` entry, and who wrote it. -/
structure Transition where
  principal : PyStr
  frm : EpisodeState
  dst : EpisodeState
  deriving DecidableEq

/-- The transition of an entry. -/
def Entry.transition? (x : Entry) : Option Transition :=
  match x.body with
  | .state b => some ⟨x.principal, b.frm, b.dst⟩
  | _ => none

/-- The transitions of a log. -/
def transitions (es : List Entry) : List Transition := es.filterMap Entry.transition?

/-- Transitions that lead from one state to another, each in the table of who wrote it. -/
inductive Path (start : EpisodeState) : List Transition → EpisodeState → Prop
  | nil : Path start [] start
  | snoc {ts : List Transition} {t : Transition} (before : Path start ts t.frm)
      (step : (t.frm, t.dst) ∈ table t.principal) : Path start (ts ++ [t]) t.dst

/-- What is left of the ledger for the states: how an entry follows the ones before it. -/
structure Follows (cfg : StoreConfig) (e : PyStr) (front : List Entry) (x : Entry) : Prop where
  opened : (∃ b, x.body = .opened b) ↔ front = []
  state : ∀ b, x.body = .state b →
    (replay cfg.rfc3339 (empty_record e) front).state = some b.frm ∧
      (b.frm, b.dst) ∈ table x.principal

section Follows

variable {cfg : StoreConfig} {strict : Prop} {e : PyStr} {front back : List Entry} {x : Entry}
  {o : Origin}

theorem Justified.follows (h : Justified cfg strict o front x) :
    Follows cfg x.episode_id front x := by
  cases h with
  | opened first endpoint body principal =>
    refine ⟨⟨fun _ => first, fun _ => ⟨_, body⟩⟩, ?_⟩
    intro b hb
    rw [body] at hb
    cases hb
  | admitted started kind named before exact admitted session =>
    refine ⟨⟨?_, fun h => absurd h started⟩, ?_⟩
    · rintro ⟨b, hb⟩
      rw [hb] at admitted
      cases admitted
    · intro b hb
      have hprincipal : x.principal = x.principal := rfl
      revert admitted
      generalize x.principal = principal at hprincipal ⊢
      intro admitted
      rw [hb] at admitted
      cases admitted with
      | state endpoint frm step requested expected =>
        have hstate := congrArg Record.state before
        exact ⟨hstate.symm.trans frm, step⟩

theorem Ledger.follows {s : System} (h : Ledger cfg strict s)
    (hsplit : s.store.entries e = front ++ x :: back) : Follows cfg e front x := by
  obtain ⟨_, _, _, _, _, _, _, _, he, _, hjust⟩ := h.at hsplit
  rw [← he]
  exact hjust.follows

/-- A log whose entries follow one another. -/
def Followed (cfg : StoreConfig) (e : PyStr) (es : List Entry) : Prop :=
  ∀ front x back, es = front ++ x :: back → Follows cfg e front x

theorem Followed.of_append {es es' : List Entry} (h : Followed cfg e (es ++ es')) :
    Followed cfg e es := by
  intro front x back heq
  refine h front x (back ++ es') ?_
  rw [heq, List.append_assoc, List.cons_append]

theorem Followed.last {es : List Entry} (h : Followed cfg e (es ++ [x])) : Follows cfg e es x :=
  h es x [] rfl

/-- **A log is a path**, and its record stands where the path ends. -/
theorem path_of_followed {es : List Entry} (h : Followed cfg e es) (hne : es ≠ []) :
    ∃ st, (replay cfg.rfc3339 (empty_record e) es).state = some st ∧
      Path .open (transitions es) st := by
  induction es using List.reverseRecOn with
  | nil => exact absurd rfl hne
  | append_singleton es x ih =>
    have hx := h.last
    have htrans : transitions (es ++ [x]) = transitions es ++ (x.transition?).toList := by
      rw [transitions, List.filterMap_append]
      cases hx : x.transition? <;> simp [transitions, hx]
    rw [replay_snoc, apply_state, htrans]
    by_cases hfirst : es = []
    · obtain ⟨b, hb⟩ := hx.opened.2 hfirst
      subst hfirst
      refine ⟨.open, by rw [hb], ?_⟩
      simp only [Entry.transition?, hb]
      exact .nil
    · obtain ⟨st, hst, hpath⟩ := ih h.of_append hfirst
      cases hb : x.body with
      | opened b => exact absurd (hx.opened.1 ⟨b, hb⟩) hfirst
      | state b =>
        obtain ⟨hfrm, hstep⟩ := hx.state b hb
        have heq : st = b.frm := Option.some.inj (hst.symm.trans hfrm)
        subst heq
        refine ⟨b.dst, rfl, ?_⟩
        simp only [Entry.transition?, hb]
        exact .snoc (t := ⟨x.principal, b.frm, b.dst⟩) hpath hstep
      | _ =>
        refine ⟨st, hst, ?_⟩
        simp only [Entry.transition?, hb]
        rw [Option.toList_none, List.append_nil]
        exact hpath

/-- After a `state` entry into a terminal state the record stays there. -/
theorem terminal_stays {mid : List Entry} {b : StateBody} (hx : x.body = .state b)
    (hterm : b.dst ∈ TERMINAL) (h : Followed cfg e (front ++ x :: mid)) :
    (replay cfg.rfc3339 (empty_record e) (front ++ x :: mid)).state = some b.dst := by
  induction mid using List.reverseRecOn with
  | nil => rw [replay_snoc, apply_state, hx]
  | append_singleton mid y ih =>
    rw [← List.cons_append, ← List.append_assoc] at h ⊢
    have hbefore := ih h.of_append
    have hy := h.last
    rw [replay_snoc, apply_state]
    cases hb : y.body with
    | opened b' => exact absurd (hy.opened.1 ⟨b', hb⟩) (by simp)
    | state b' =>
      obtain ⟨hfrm, hstep⟩ := hy.state b' hb
      have heq : b.dst = b'.frm := Option.some.inj (hbefore.symm.trans hfrm)
      rw [heq] at hterm
      exact absurd hterm (table_from hstep)
    | _ => exact hbefore

end Follows

/-- The fields that `opened` sets for good. -/
structure OpenedAs (r : Record) (b : OpenedBody) : Prop where
  cls : r.cls = some b.cls
  trigger : r.trigger = b.trigger
  validator : r.validator_id = some b.validator_id
  bundle : r.bundle_id = some b.bundle_id
  mode : r.consensus_mode = some b.consensus_mode
  dedupe : r.dedupe_key = some b.dedupe_key

/-- A record keeps what its first entry set. -/
theorem openedAs_of_followed {cfg : StoreConfig} {e : PyStr} {x : Entry} {rest : List Entry}
    {b : OpenedBody} (h : Followed cfg e (x :: rest)) (hx : x.body = .opened b) :
    OpenedAs (replay cfg.rfc3339 (empty_record e) (x :: rest)) b := by
  induction rest using List.reverseRecOn with
  | nil =>
    show OpenedAs (apply cfg.rfc3339 (empty_record e) x).1 b
    unfold apply
    rw [hx]
    exact ⟨rfl, rfl, rfl, rfl, rfl, rfl⟩
  | append_singleton rest y ih =>
    rw [← List.cons_append] at h ⊢
    have hbefore := ih h.of_append
    rw [replay_snoc]
    have hy := h.last
    unfold apply
    cases hb : y.body with
    | opened b' => exact absurd (hy.opened.1 ⟨b', hb⟩) (List.cons_ne_nil _ _)
    | _ => exact ⟨hbefore.1, hbefore.2, hbefore.3, hbefore.4, hbefore.5, hbefore.6⟩

/-- An entry that is not the first keeps the dedupe key, and leaves no terminal state. -/
theorem Follows.later {cfg : StoreConfig} {e : PyStr} {x : Entry} {front : List Entry}
    (h : Follows cfg e front x) (hne : front ≠ []) :
    (replay cfg.rfc3339 (empty_record e) (front ++ [x])).dedupe_key =
      (replay cfg.rfc3339 (empty_record e) front).dedupe_key ∧
    ((replay cfg.rfc3339 (empty_record e) (front ++ [x])).Live →
      (replay cfg.rfc3339 (empty_record e) front).Live) := by
  rw [replay_snoc]
  refine ⟨?_, fun hlive st hst => ?_⟩
  · unfold apply
    cases hb : x.body with
    | opened b => exact absurd (h.opened.1 ⟨b, hb⟩) hne
    | _ => rfl
  · have hstate := hlive st hst
    rw [apply_state] at hstate
    cases hb : x.body with
    | opened b => exact absurd (h.opened.1 ⟨b, hb⟩) hne
    | state b =>
      obtain ⟨hfrm, hstep⟩ := h.state b hb
      rw [hfrm]
      intro heq
      exact table_from hstep (Option.some.inj heq ▸ hst)
    | _ =>
      rw [hb] at hstate
      exact hstate

/-! ## Every run -/

/-- The rows of an episode before a place. -/
def System.rowsBefore (s : System) (e : PyStr) (i : Nat) : Nat :=
  ((s.store.rows.take i).filter fun r => decide (r.episode_id = e)).length

/-- A row with a `state` entry, and what its caller passed. -/
structure StateRow (s : System) (e : PyStr) (i : Nat) (row : Row) (o : Origin) : Prop where
  at_row : s.store.rows[i]? = some row
  at_origin : s.origins[i]? = some o
  episode : row.episode_id = e
  kind : ∃ x b, row.entry = some x ∧ x.body = .state b

/-- What the `state` entries of an episode look like. -/
structure StateMachine (s : System) (e : PyStr) (rec : Record) : Prop where
  /-- The log starts with `opened`, which is written once. -/
  opened : ∃ first rest b, s.store.entries e = first :: rest ∧ first.body = .opened b ∧
    ∀ x ∈ rest, ∀ b, x.body ≠ .opened b
  /-- The transitions are a path from `open` to the state of the record. -/
  path : ∃ st, rec.state = some st ∧ Path .open (transitions (s.store.entries e)) st
  /-- Only the verifier resolves, from `awaiting_operator`. -/
  resolved : ∀ t ∈ transitions (s.store.entries e), t.dst = .resolved →
    t.principal = py "verifier" ∧ t.frm = .awaiting_operator
  /-- Nothing follows a terminal state. -/
  final : ∀ front x back b, s.store.entries e = front ++ x :: back → x.body = .state b →
    b.dst ∈ TERMINAL → ∀ y ∈ back, ∀ b, y.body ≠ .state b
  /-- The caller named the episode, the target and the revision right before the entry, and the
  entries of the episode written before it are as many as that revision. -/
  cas : ∀ i row o, StateRow s e i row o → ∃ n : Nat, row.rev = n + 1 ∧ s.rowsBefore e i = n ∧
    o.call.params.get "episode_id" = .str e ∧
    (o.call.params.get "expected_revision").eqInt n = true
  /-- At most one of the calls that name a revision transitions. -/
  once : ∀ i j row row' o o' n, StateRow s e i row o → StateRow s e j row' o' →
    (o.call.params.get "expected_revision").eqInt n = true →
    (o'.call.params.get "expected_revision").eqInt n = true → i = j

section Run

variable {cfg : StoreConfig} {strict : Prop} {s : System} {e : PyStr} {rec : Record}

theorem Ledger.followed (h : Ledger cfg strict s) (e : PyStr) :
    Followed cfg e (s.store.entries e) :=
  fun _ _ _ hsplit => h.follows hsplit

theorem filterMap_length {rows : List Row} (h : ∀ row ∈ rows, ∃ x, row.entry = some x) :
    (rows.filterMap Row.entry).length = rows.length := by
  induction rows with
  | nil => rfl
  | cons row rows ih =>
    obtain ⟨x, hx⟩ := h row List.mem_cons_self
    rw [List.filterMap_cons_some hx, List.length_cons, List.length_cons,
      ih fun r hr => h r (List.mem_cons_of_mem _ hr)]

theorem Ledger.rowsBefore (h : Ledger cfg strict s) (e : PyStr) (i : Nat) :
    (entriesOf (s.store.rows.take i) e).length = s.rowsBefore e i := by
  rw [entriesOf, filterMap_length]
  · rfl
  · intro row hrow
    exact h.consistent.decodes row (List.mem_of_mem_take (List.mem_filter.1 hrow).1)

/-- The record that a call met has the revision of the entries before its own. -/
theorem replayed_revision {rfc3339 : Double → PyStr} {es : List Entry}
    (h : es.map Entry.rev = List.range' 1 es.length) :
    (replay rfc3339 (empty_record e) es).revision = es.length := by
  rw [replay_revision, ← List.getLast?_map, h]
  rcases Nat.eq_zero_or_pos es.length with h0 | hpos
  · rw [h0]
    rfl
  · rw [List.getLast?_range', if_neg (by omega)]
    simp

theorem split_at {i : Nat} {row : Row} {x : Entry}
    (hi : s.store.rows[i]? = some row) (hx : row.entry = some x) :
    ∃ back, s.store.entries row.episode_id =
      entriesOf (s.store.rows.take i) row.episode_id ++ x :: back := by
  have hlt : i < s.store.rows.length := (List.getElem?_eq_some_iff.1 hi).1
  have hrows : s.store.rows = s.store.rows.take i ++ row :: s.store.rows.drop (i + 1) := by
    conv_lhs => rw [← List.take_append_drop i s.store.rows]
    rw [List.drop_eq_getElem_cons hlt, (List.getElem?_eq_some_iff.1 hi).2]
  refine ⟨entriesOf (s.store.rows.drop (i + 1)) row.episode_id, ?_⟩
  show entriesOf s.store.rows row.episode_id = _
  conv_lhs => rw [hrows]
  rw [entriesOf, List.filter_append, List.filterMap_append, List.filter_cons_of_pos (by simp),
    List.filterMap_cons_some hx]
  rfl

theorem Ledger.front_numbered (h : Ledger cfg strict s) {front back : List Entry} {x : Entry}
    (hsplit : s.store.entries e = front ++ x :: back) :
    front.map Entry.rev = List.range' 1 front.length := by
  have hall := h.consistent.entries_rev e
  rw [← h.consistent.entries_length, hsplit, List.map_append, List.length_append] at hall
  have htake := congrArg (List.take front.length) hall
  rwa [List.take_left' (by simp), List.take_range'_of_length_ge (Nat.le_add_right _ _)] at htake

/-- The place of a `state` row: its caller named the revision right before it. -/
theorem Ledger.cas (h : Ledger cfg strict s) {i : Nat} {row : Row} {o : Origin}
    (hrow : StateRow s e i row o) : ∃ n : Nat, row.rev = n + 1 ∧ s.rowsBefore e i = n ∧
      o.call.params.get "episode_id" = .str e ∧
      (o.call.params.get "expected_revision").eqInt n = true := by
  obtain ⟨hi, ho, he, x, b, hx, hb⟩ := hrow
  obtain ⟨o', y, ho', hacc⟩ := h.accounted i row hi
  cases ho.symm.trans ho'
  cases hx.symm.trans hacc.entry
  obtain ⟨back, hsplit⟩ := split_at hi hx
  have hnum := h.front_numbered hsplit
  refine ⟨_, (entry_rev hx).symm.trans hacc.rev, ?_, ?_, ?_⟩
  · rw [← h.rowsBefore, he]
  · cases hacc.justified with
    | opened first endpoint body principal =>
      rw [hb] at body
      cases body
    | admitted started kind named before exact admitted session =>
      rw [named, entry_episode hx, he]
  · cases hacc.justified with
    | opened first endpoint body principal =>
      rw [hb] at body
      cases body
    | @admitted rec session started kind named before exact admitted hsession =>
      have hanon : rec.anon.revision = _ := congrArg Record.revision before
      have hlen : rec.revision = (entriesOf (s.store.rows.take i) row.episode_id).length :=
        hanon.trans (replayed_revision hnum)
      revert admitted
      generalize x.principal = principal
      intro admitted
      rw [hb] at admitted
      cases admitted with
      | state endpoint frm step requested expected =>
        rw [← hlen]
        exact expected

/-- Rows of one episode with one revision are one row. -/
theorem Consistent.row_inj {store : EpisodeStore} (h : Consistent cfg strict store) {i j : Nat}
    {row row' : Row} (hi : store.rows[i]? = some row) (hj : store.rows[j]? = some row')
    (he : row.episode_id = row'.episode_id) (hrev : row.rev = row'.rev) : i = j := by
  -- between two rows of the episode the revision grows
  have hlt : ∀ {i j : Nat} {row row' : Row}, store.rows[i]? = some row →
      store.rows[j]? = some row' → row.episode_id = row'.episode_id → i < j → row.rev < row'.rev := by
    intro i j row row' hi hj he hij
    have hpair : (store.log row.episode_id).Pairwise fun a b => a.rev < b.rev := by
      have hnum : ((store.log row.episode_id).map Row.rev).Pairwise (· < ·) := by
        rw [h.numbered]
        exact List.pairwise_lt_range'
      exact List.pairwise_map.1 hnum
    have hrows : ∀ rows : List Row, ∀ i j : Nat, rows[i]? = some row → rows[j]? = some row' →
        i < j → (rows.filter fun r => decide (r.episode_id = row.episode_id)).Pairwise
          (fun a b => a.rev < b.rev) → row.rev < row'.rev := by
      intro rows
      induction rows with
      | nil => intro i j hi; cases hi
      | cons r rows ih =>
        intro i j hi hj hij hp
        cases j with
        | zero => omega
        | succ j =>
          cases i with
          | zero =>
            cases hi
            rw [List.filter_cons_of_pos (by simp)] at hp
            refine (List.pairwise_cons.1 hp).1 row' (List.mem_filter.2 ⟨?_, by simp [he]⟩)
            exact List.mem_of_getElem? hj
          | succ i =>
            refine ih i j hi hj (by omega) (hp.sublist ?_)
            exact (List.sublist_cons_self r rows).filter _
    exact hrows store.rows i j hi hj hij hpair
  rcases Nat.lt_trichotomy i j with hij | hij | hij
  · exact absurd (hlt hi hj he hij) (by omega)
  · exact hij
  · exact absurd (hlt hj hi he.symm hij) (by omega)

/-- The state machine of an episode, from the ledger. -/
theorem Ledger.stateMachine (h : Ledger cfg strict s)
    (hrec : s.store.records.get? e = some rec) : StateMachine s e rec := by
  have hfol := h.followed e
  have hne : s.store.entries e ≠ [] := by
    obtain ⟨r, hr, heq⟩ := (h.consistent.known e).1 ⟨rec, hrec⟩
    obtain ⟨x, hx⟩ := h.consistent.decodes r hr
    exact List.ne_nil_of_mem (List.mem_filterMap.2 ⟨r, mem_log.2 ⟨hr, heq⟩, hx⟩)
  refine ⟨?_, ?_, ?_, ?_, fun i row o => h.cas, ?_⟩
  · obtain ⟨first, rest, heq⟩ := List.exists_cons_of_ne_nil hne
    obtain ⟨b, hb⟩ := (hfol [] first rest heq).opened.2 rfl
    refine ⟨first, rest, b, heq, hb, ?_⟩
    intro x hx b' hb'
    obtain ⟨front, back, rfl⟩ := List.append_of_mem hx
    have hsplit := hfol (first :: front) x back heq
    exact absurd (hsplit.opened.1 ⟨b', hb'⟩) (List.cons_ne_nil _ _)
  · obtain ⟨st, hst, hpath⟩ := path_of_followed hfol hne
    exact ⟨st, (h.consistent.state hrec).trans hst, hpath⟩
  · intro t ht hdst
    obtain ⟨x, hx, htx⟩ := List.mem_filterMap.1 ht
    obtain ⟨front, back, hsplit⟩ := List.append_of_mem hx
    unfold Entry.transition? at htx
    split at htx
    · rename_i b hb
      cases htx
      obtain ⟨_, hstep⟩ := (hfol front x back hsplit).state b hb
      dsimp only at hdst
      rw [hdst] at hstep
      exact table_resolved hstep
    · cases htx
  · intro front x back b hsplit hx hterm y hy b' hb'
    obtain ⟨mid, rest, rfl⟩ := List.append_of_mem hy
    have hsplit' : s.store.entries e = (front ++ x :: mid) ++ y :: rest := by
      rw [hsplit, List.append_assoc, List.cons_append]
    have hall := hfol
    rw [hsplit'] at hall
    have hstate := terminal_stays hx hterm hall.of_append
    obtain ⟨hfrm, hstep⟩ := (hfol _ y rest hsplit').state b' hb'
    have heq : b.dst = b'.frm := Option.some.inj (hstate.symm.trans hfrm)
    rw [heq] at hterm
    exact table_from hstep hterm
  · intro i j row row' o o' n hi hj hn hn'
    obtain ⟨m, hm, _, _, hexp⟩ := h.cas hi
    obtain ⟨m', hm', _, _, hexp'⟩ := h.cas hj
    have hmn : (m : Int) = n := Json.eqInt_inj hexp hn
    have hmn' : (m' : Int) = n := Json.eqInt_inj hexp' hn'
    refine h.consistent.row_inj hi.at_row hj.at_row (hi.episode.trans hj.episode.symm) ?_
    rw [hm, hm']
    omega

/-- **The state machine, in every run.** -/
theorem state_machine (h : Conc.Reachable Initial (Moves cfg) Conc.anyAct s)
    (hrec : s.store.records.get? e = some rec) : StateMachine s e rec :=
  have hledger : Ledger cfg False s := ledger False.elim h
  hledger.stateMachine hrec

/-- An episode that is opened, moved on, and handed off from a stale and then from the current
revision. -/
def sampleActs : List Act :=
  [.call (openCall "e" "k1" "slots" "v"), .call (stateCall .control "e" "diagnosing" 1),
    .call (stateCall .control "e" "handed_off" 1), .restart,
    .call (stateCall .control "e" "handed_off" 2)]

theorem state_machine_sample : ∃ rec, rec.state = some .handed_off ∧
    StateMachine (System.run sampleConfig sampleActs) (py "e") rec := by
  have hstate : ((System.run sampleConfig sampleActs).store.records.get? (py "e")).map Record.state =
      some (some .handed_off) := by decide +kernel
  obtain ⟨rec, hrec, hrec'⟩ := Option.map_eq_some_iff.1 hstate
  exact ⟨rec, hrec', state_machine (System.run_reachable (by decide +kernel) System.allowed_any) hrec⟩

end Run

end Valops.Store
