import Valops.Conc.Runs
import Valops.Store.Log

/-!
# The running store

Calls on the five sockets, in any order, with restarts and the minting of tokens in between. A
handler is one step, except `append_verification`: its check is a step of its own, and the call
waits in `pending` until its second section runs.

`minted` and `origins` are only recorded: the tokens signed so far, and for each row the call that
appended it with the tokens there were.

Main results: `handle_change` and `newRow_eq_ok` (what a request does to the store, and the row it
writes), `Moves.effect` (what a step of the system does).
-/

set_option autoImplicit false

namespace Valops.Store

open Py

/-! ## What a section does to the store -/

/-- The store after an entry has been written. -/
def EpisodeStore.wrote (cfg : StoreConfig) (s : EpisodeStore) (d : Draft) (row : Row) :
    EpisodeStore :=
  { s with
    rows := s.rows ++ [row]
    records := s.records.set d.record.episode_id (apply cfg.rfc3339 d.record (d.entry row)).1 }

/-- A new episode: `open_episode` was let through, and its entry was written. -/
structure Opened (cfg : StoreConfig) (w : World) (s : EpisodeStore) (ep : Endpoint) (m : Method)
    (p : Params) (d : Draft) : Prop where
  method : m = .open_episode
  endpoint : ep = .control
  decided : ∃ idem b, openDecision cfg w s p = .ok (.fresh idem b) ∧ d = openDraft ep w.uuid idem b

/-- A row of `opens` for this key and episode. -/
structure Recorded (idem episode_id : PyStr) (deduplicated : Bool) (o : OpenRow) : Prop where
  key : o.idem_key = idem
  episode : o.episode_id = episode_id
  result : dumps (openResult episode_id deduplicated) = some o.result

/-- What a request does. -/
inductive Change (cfg : StoreConfig) (w : World) (s : EpisodeStore) (ep : Endpoint) (m : Method)
    (p : Params) : EpisodeStore → Prop
  | same : Change cfg w s ep m p s
  | opens {o : OpenRow} {k : PyStr} {rec : Record} (known : (k, rec) ∈ s.records)
      (recorded : Recorded o.idem_key rec.episode_id true o) :
      Change cfg w s ep m p { s with opens := s.opens ++ [o] }
  | entry {d : Draft} {row : Row} (drafted : Drafted cfg w s ep m p d)
      (written : newRow cfg w s d = .ok row) : Change cfg w s ep m p (s.wrote cfg d row)
  | opened {d : Draft} {row : Row} {os : List OpenRow} (opened : Opened cfg w s ep m p d)
      (written : newRow cfg w s d = .ok row)
      (recorded : ∀ o ∈ os, Recorded d.idem_key d.record.episode_id false o)
      (complete : w.insert_open = none → os ≠ []) :
      Change cfg w s ep m p { s.wrote cfg d row with opens := s.opens ++ os }

section Change

variable {cfg : StoreConfig} {w : World} {s s' : EpisodeStore} {ep : Endpoint} {m : Method}
  {p : Params} {d : Draft} {row : Row}

theorem _append_error {e : Exc} (h : newRow cfg w s d = .error e) :
    _append cfg w s d = (.error e, s) := by
  rw [_append, h]

theorem _append_ok (h : newRow cfg w s d = .ok row) :
    (_append cfg w s d).2 = s.wrote cfg d row := by
  rw [_append, h]
  dsimp only
  split <;> rfl

theorem runEntry_change (hm : m ∈ ep.methods) :
    Change cfg w s ep m p (runEntry cfg w s ep m p).2 := by
  unfold runEntry
  split
  · exact .same
  · exact .same
  · rename_i d hd
    have hdrafted := decideEntry_append hm hd
    cases hrow : newRow cfg w s d with
    | error e =>
      rw [_append_error hrow]
      exact .same
    | ok row =>
      have hstore : (_append cfg w s d).2 = s.wrote cfg d row := _append_ok hrow
      split <;> rename_i heq <;> rw [heq] at hstore <;> cases hstore <;>
        exact .entry hdrafted hrow

theorem dumps_openResult (e : PyStr) (dedup : Bool) :
    (dumps (openResult e dedup)).isSome = true := rfl

/-- What `insertOpen` adds to `opens`. -/
theorem insertOpen_store {idem e : PyStr} {dedup : Bool} : ∃ os : List OpenRow,
    (insertOpen w s idem e dedup).2 = { s with opens := s.opens ++ os } ∧
      (∀ o ∈ os, Recorded idem e dedup o) ∧ os.length ≤ 1 ∧ (w.insert_open = none → os ≠ []) := by
  obtain ⟨text, htext⟩ := Option.isSome_iff_exists.1 (dumps_openResult e dedup)
  unfold insertOpen
  split
  · rename_i hfail
    refine ⟨[], by simp, by simp, by simp, fun hnone => ?_⟩
    rw [hnone] at hfail
    cases hfail
  · rename_i hnone
    rw [htext] at hnone
    cases hnone
  · rename_i hsome
    exact ⟨[_], rfl, by simpa using ⟨rfl, rfl, hsome⟩, by simp, by simp⟩

theorem open_episode_change (hfresh : s.records.get? w.uuid = none) :
    Change cfg w s .control .open_episode p (open_episode cfg w s .control p).2 := by
  unfold open_episode
  split
  · exact .same
  · exact .same
  · rename_i idem rec hdup
    obtain ⟨k, hk⟩ := openDecision_duplicate hdup
    obtain ⟨os, hos, hrec, hlen, _⟩ : ∃ os, (insertOpen w s idem rec.episode_id true).2 = _ ∧ _ :=
      insertOpen_store
    rw [hos]
    match os, hlen with
    | [], _ =>
      rw [List.append_nil]
      exact .same
    | [o], _ =>
      have ho := hrec o List.mem_cons_self
      exact .opens hk (ho.key ▸ ho)
  · rename_i idem b hdec
    have hopened : Opened cfg w s .control .open_episode p (openDraft .control w.uuid idem b) :=
      ⟨rfl, rfl, idem, b, hdec, rfl⟩
    -- the record put in for the new episode is not read by `newRow`
    have hnew : ∀ records, newRow cfg w { s with records } (openDraft .control w.uuid idem b) =
        newRow cfg w s (openDraft .control w.uuid idem b) := fun _ => rfl
    cases hrow : newRow cfg w s (openDraft .control w.uuid idem b) with
    | error e =>
      dsimp only
      rw [_append_error ((hnew _).trans hrow)]
      show Change cfg w s .control .open_episode p { s with records := (s.records.set w.uuid _).erase w.uuid }
      rw [Dict.erase_set_of_get?_none _ hfresh]
      exact .same
    | ok row =>
      -- `apply` does not raise on `opened`
      have happend : _append cfg w
          { s with records := s.records.set w.uuid (openDraft .control w.uuid idem b).record }
          (openDraft .control w.uuid idem b) =
          (.ok (openDraft .control w.uuid idem b).result,
            s.wrote cfg (openDraft .control w.uuid idem b) row) := by
        rw [_append, (hnew _).trans hrow]
        refine Prod.ext rfl ?_
        exact congrArg (fun r => EpisodeStore.mk (s.rows ++ [row]) s.opens r)
          (Dict.set_set s.records _)
      dsimp only
      rw [happend]
      obtain ⟨os, hos, hrec, _, hcomplete⟩ : ∃ os, (insertOpen w
          (s.wrote cfg (openDraft .control w.uuid idem b) row) idem w.uuid false).2 = _ ∧ _ :=
        insertOpen_store
      show Change cfg w s .control .open_episode p (insertOpen w _ idem w.uuid false).2
      rw [hos]
      exact .opened hopened hrow hrec hcomplete

/-- **What a request does to the store**, given that a new episode gets a new id. -/
theorem handle_change (hfresh : s.records.get? w.uuid = none) :
    Change cfg w s ep m p (handle cfg w s ep m p).2 := by
  unfold handle
  split
  · exact .same
  · rename_i hm
    have hm : m ∈ ep.methods := not_not.1 hm
    split
    · have hep : ep = .control := by cases ep <;> simp_all [Endpoint.methods]
      subst hep
      exact open_episode_change hfresh
    · exact .same
    · exact .same
    · exact runEntry_change hm

end Change

/-! ## The row that is written -/

/-- What `newRow` puts into the row of a well-formed draft. -/
structure Written (cfg : StoreConfig) (w : World) (s : EpisodeStore) (d : Draft) (row : Row) :
    Prop where
  episode : row.episode_id = d.record.episode_id
  rev : row.rev = d.record.revision + 1
  time : row.ts = w.ts
  bundle : d.record.bundle_id = some row.bundle_id
  session : bindText cfg d.session_id = .ok row.session_id
  key : row.idem_key = d.idem_key
  result : dumps d.result = some row.result
  entry : row.entry = some { d.entry row with session_id := row.session_id }
  utf8 : (encodeUtf8 row.episode_id).isSome = true
  unique : ∀ r ∈ s.rows, r.episode_id = row.episode_id →
    r.rev ≠ row.rev ∧ r.idem_key ≠ row.idem_key

section Written

variable {cfg : StoreConfig} {w : World} {s : EpisodeStore} {d : Draft} {row : Row}

theorem bindStr_eq_ok {t u : PyStr} (h : bindStr t = .ok u) : u = t := by
  unfold bindStr at h
  obtain ⟨_, _, h⟩ := bind_eq_ok.1 h
  exact (pure_eq_ok.1 h).symm

theorem bindStr_utf8 {t u : PyStr} (h : bindStr t = .ok u) : (encodeUtf8 u).isSome = true := by
  unfold bindStr at h
  obtain ⟨bs, hbs, h⟩ := bind_eq_ok.1 h
  rw [← pure_eq_ok.1 h, orRaise_eq_ok.1 hbs]
  rfl

theorem newRow_eq_ok (hwf : d.body.toJson.WF) (h : newRow cfg w s d = .ok row) :
    Written cfg w s d row := by
  unfold newRow at h
  obtain ⟨c, hc, h⟩ := bind_eq_ok.1 h
  obtain ⟨ref, _, h⟩ := bind_eq_ok.1 h
  obtain ⟨body, hbody, h⟩ := bind_eq_ok.1 h
  obtain ⟨result, hresult, h⟩ := bind_eq_ok.1 h
  obtain ⟨eid, heid, h⟩ := bind_eq_ok.1 h
  obtain ⟨principal, hprincipal, h⟩ := bind_eq_ok.1 h
  obtain ⟨session, hsession, h⟩ := bind_eq_ok.1 h
  obtain ⟨bundle, hbundle, h⟩ := bind_eq_ok.1 h
  obtain ⟨ref', _, h⟩ := bind_eq_ok.1 h
  obtain ⟨key, hkey, h⟩ := bind_eq_ok.1 h
  obtain ⟨_, _, h⟩ := bind_eq_ok.1 h
  obtain ⟨_, hunique, h⟩ := bind_eq_ok.1 h
  have hutf8 := bindStr_utf8 heid
  cases pure_eq_ok.1 h
  cases bindStr_eq_ok heid
  cases bindStr_eq_ok hprincipal
  cases bindStr_eq_ok hkey
  have hread := read_write hwf (orRaise_eq_ok.1 hc) (orRaise_eq_ok.1 hbody)
  refine ⟨rfl, rfl, rfl, orRaise_eq_ok.1 hbundle, hsession, rfl, orRaise_eq_ok.1 hresult, ?_,
    hutf8, ?_⟩
  · rw [Row.entry, hread]
    rfl
  · intro r hr he
    rw [require_eq_ok, Bool.not_eq_true', List.any_eq_false] at hunique
    have hclash := hunique r hr
    rw [decide_eq_true_iff] at hclash
    exact ⟨fun hrev => hclash ⟨he, .inl hrev⟩, fun hk => hclash ⟨he, .inr hk⟩⟩

/-- A string goes into the session column as it is. -/
theorem bindText_str {t : PyStr} {v : Json} (h : bindText cfg (.str t) = .ok v) : v = .str t := by
  unfold bindText at h
  obtain ⟨u, hu, h⟩ := bind_eq_ok.1 h
  cases pure_eq_ok.1 h
  rw [bindStr_eq_ok hu]

theorem bindText_null {v : Json} (h : bindText cfg .null = .ok v) : v = .null := by
  cases h
  rfl

/-- Only scalars go into a text column. -/
theorem bindText_hashable {v u : Json} (h : bindText cfg v = .ok u) : v.hashable = true := by
  cases v with
  | arr xs => cases h
  | obj kvs => cases h
  | _ => rfl

end Written

/-! ## The system -/

/-- A request, with what its section met. -/
structure Call where
  world : World
  endpoint : Endpoint
  method : Method
  params : Params

/-- The call that appended a row, and the tokens minted before it. -/
structure Origin where
  call : Call
  minted : List Grant

/-- The store with the calls of `append_verification` that have passed their check. `minted` and
`origins` are only recorded. -/
structure System where
  store : EpisodeStore := {}
  pending : List Params := []
  minted : List Grant := []
  origins : List Origin := []

/-- What can happen. -/
inductive Act where
  | call (c : Call)
  | check (p : Params)
  | verify (w : World) (p : Params)
  | restart
  | mint (g : Grant)

/-- The UUID of a section is new. -/
def FreshId (w : World) (s : EpisodeStore) : Prop :=
  s.records.get? w.uuid = none ∧ ∀ row ∈ s.rows, row.episode_id ≠ w.uuid

/-- The system after a section that leaves this store: its rows are credited to the call. -/
def System.after (x : System) (c : Call) (s : EpisodeStore) : System :=
  { x with
    store := s
    origins := x.origins ++ List.replicate (s.rows.length - x.store.rows.length) ⟨c, x.minted⟩ }

/-- The system after a section of a call. -/
def System.ran (cfg : StoreConfig) (x : System) (c : Call) : System :=
  x.after c (handle cfg c.world x.store c.endpoint c.method c.params).2

/-- The second section of `append_verification`. -/
def verifyCall (w : World) (p : Params) : Call := ⟨w, .verify, .append_verification, p⟩

/-- One step. -/
inductive Moves (cfg : StoreConfig) : System → Act → System → Prop
  | call {x : System} {c : Call} (whole : c.method ≠ .append_verification)
      (fresh : FreshId c.world x.store) : Moves cfg x (.call c) (x.ran cfg c)
  | check {x : System} {p : Params} (passed : verification_check x.store p = .ok ()) :
      Moves cfg x (.check p) { x with pending := p :: x.pending }
  | verify {x : System} {w : World} {p : Params} {front back : List Params}
      (pending : x.pending = front ++ p :: back) (fresh : FreshId w x.store) :
      Moves cfg x (.verify w p) { x.ran cfg (verifyCall w p) with pending := front ++ back }
  | restart {x : System} {s : EpisodeStore} (up : Store.restart cfg x.store = .ok s) :
      Moves cfg x .restart { x with store := s, pending := [] }
  | mint {x : System} {g : Grant} : Moves cfg x (.mint g) { x with minted := g :: x.minted }

/-- A new store. -/
def Initial (x : System) : Prop := x = {}

/-- The section of a call that a step runs. -/
def Act.section? : Act → Option Call
  | .call c => some c
  | .verify w p => some (verifyCall w p)
  | _ => none

/-- What a step does to the store: a section of a call, a restart, or nothing. -/
theorem Moves.effect {cfg : StoreConfig} {x y : System} {a : Act} (h : Moves cfg x a y) :
    (∃ c s, a.section? = some c ∧ Change cfg c.world x.store c.endpoint c.method c.params s ∧
      FreshId c.world x.store ∧ y.store = s ∧ y.origins = (x.after c s).origins ∧
      y.minted = x.minted) ∨
    (a = .restart ∧ Store.restart cfg x.store = .ok y.store ∧ y.origins = x.origins ∧
      y.minted = x.minted) ∨
    (a.section? = none ∧ y.store = x.store ∧ y.origins = x.origins ∧
      ∀ g ∈ x.minted, g ∈ y.minted) := by
  cases h with
  | call whole fresh => exact .inl ⟨_, _, rfl, handle_change fresh.1, fresh, rfl, rfl, rfl⟩
  | check passed => exact .inr (.inr ⟨rfl, rfl, rfl, fun g hg => hg⟩)
  | verify pending fresh => exact .inl ⟨_, _, rfl, handle_change fresh.1, fresh, rfl, rfl, rfl⟩
  | restart up => exact .inr (.inl ⟨rfl, up, rfl, rfl⟩)
  | mint => exact .inr (.inr ⟨rfl, rfl, rfl, fun g hg => List.mem_cons_of_mem _ hg⟩)

/-! ## Running acts -/

instance (w : World) (s : EpisodeStore) : Decidable (FreshId w s) :=
  inferInstanceAs (Decidable (s.records.get? w.uuid = none ∧ ∀ row ∈ s.rows, row.episode_id ≠ w.uuid))

/-- The system after an act, if it can happen. -/
def System.act (cfg : StoreConfig) (x : System) : Act → Option System
  | .call c =>
    if c.method ≠ .append_verification ∧ FreshId c.world x.store then some (x.ran cfg c) else none
  | .check p =>
    match verification_check x.store p with
    | .ok () => some { x with pending := p :: x.pending }
    | .error _ => none
  | .verify w p =>
    if p ∈ x.pending ∧ FreshId w x.store then
      some { x.ran cfg (verifyCall w p) with pending := x.pending.erase p }
    else none
  | .restart =>
    match Store.restart cfg x.store with
    | .ok s => some { x with store := s, pending := [] }
    | .error _ => none
  | .mint g => some { x with minted := g :: x.minted }

/-- The system after some acts, if they can happen. -/
def System.acts (cfg : StoreConfig) (x : System) : List Act → Option System
  | [] => some x
  | a :: rest => (x.act cfg a).bind fun y => y.acts cfg rest

/-- Every one of some acts meets a condition where it happens. -/
def System.Allowed (cfg : StoreConfig) (ok : System → Act → Prop) (x : System) : List Act → Prop
  | [] => True
  | a :: rest => ok x a ∧
    match x.act cfg a with
    | some y => y.Allowed cfg ok rest
    | none => True

/-- Whether acts are allowed can be run, if the condition can. -/
def System.decAllowed (cfg : StoreConfig) (ok : System → Act → Prop)
    [hok : ∀ x a, Decidable (ok x a)] : ∀ (acts : List Act) (x : System),
    Decidable (x.Allowed cfg ok acts)
  | [], _ => .isTrue trivial
  | a :: rest, x =>
    match h : x.act cfg a with
    | some y =>
      have := decAllowed cfg ok rest y
      decidable_of_iff (ok x a ∧ y.Allowed cfg ok rest) (by rw [System.Allowed, h])
    | none => decidable_of_iff (ok x a) (by rw [System.Allowed, h]; simp)

instance (cfg : StoreConfig) (ok : System → Act → Prop) [∀ x a, Decidable (ok x a)]
    (acts : List Act) (x : System) : Decidable (x.Allowed cfg ok acts) :=
  System.decAllowed cfg ok acts x

theorem System.act_moves {cfg : StoreConfig} {x y : System} {a : Act} (h : x.act cfg a = some y) :
    Moves cfg x a y := by
  cases a with
  | call c =>
    simp only [System.act] at h
    split at h
    · rename_i hc
      cases h
      exact .call hc.1 hc.2
    · cases h
  | check p =>
    simp only [System.act] at h
    split at h
    · rename_i hc
      cases h
      exact .check hc
    · cases h
  | verify w p =>
    simp only [System.act] at h
    split at h
    · rename_i hc
      cases h
      obtain ⟨front, back, hnot, heq, herase⟩ := List.exists_erase_eq hc.1
      rw [herase]
      exact .verify heq hc.2
    · cases h
  | restart =>
    simp only [System.act] at h
    split at h
    · rename_i s hs
      cases h
      exact .restart hs
    · cases h
  | mint g =>
    cases h
    exact .mint

/-- Acts that can happen and are allowed make a run. -/
theorem System.acts_reachable {cfg : StoreConfig} {init : System → Prop} {ok : System → Act → Prop} :
    ∀ {acts : List Act} {x y : System}, Conc.Reachable init (Moves cfg) ok x →
    x.Allowed cfg ok acts → x.acts cfg acts = some y → Conc.Reachable init (Moves cfg) ok y
  | [], x, y, hx, _, h => by
    cases h
    exact hx
  | a :: rest, x, y, hx, hok, h => by
    obtain ⟨z, hz, h⟩ := Option.bind_eq_some_iff.1 h
    have hrest := hok.2
    rw [hz] at hrest
    exact acts_reachable (hx.next hok.1 (act_moves hz)) hrest h

theorem System.allowed_any {cfg : StoreConfig} : ∀ {acts : List Act} {x : System},
    x.Allowed cfg Conc.anyAct acts
  | [], _ => trivial
  | a :: _, x => by
    refine ⟨trivial, ?_⟩
    cases x.act cfg a with
    | none => trivial
    | some y => exact allowed_any

/-- The system after some acts on a new store. -/
def System.run (cfg : StoreConfig) (acts : List Act) : System := (({} : System).acts cfg acts).getD {}

theorem System.run_reachable {cfg : StoreConfig} {ok : System → Act → Prop} {acts : List Act}
    (h : (({} : System).acts cfg acts).isSome = true) (hok : ({} : System).Allowed cfg ok acts) :
    Conc.Reachable Initial (Moves cfg) ok (System.run cfg acts) := by
  obtain ⟨y, hy⟩ := Option.isSome_iff_exists.1 h
  have hrun : System.run cfg acts = y := by rw [System.run, hy, Option.getD_some]
  rw [hrun]
  exact acts_reachable (.start rfl) hok hy

/-- The system after one more act. -/
def System.next (cfg : StoreConfig) (x : System) (a : Act) : System := (x.act cfg a).getD x

theorem System.next_moves {cfg : StoreConfig} {x : System} {a : Act}
    (h : (x.act cfg a).isSome = true) : Moves cfg x a (x.next cfg a) := by
  obtain ⟨y, hy⟩ := Option.isSome_iff_exists.1 h
  rw [System.next, hy, Option.getD_some]
  exact act_moves hy

/-! ## A small installation -/

/-- The id of a bundle. -/
def sampleBundle : PyStr := List.replicate 64 97

/-- A bundle with one skill; nothing is signed. -/
def sampleConfig : StoreConfig where
  verify _ _ := false
  str _ := []
  rfc3339 _ := py "2026-01-01T00:00:00Z"
  real_text _ := []
  skills _ := .ok (Json.mkObj [(py "restart", Json.mkObj [(py "roles", .arr [.str (py "change_planner")]),
    (py "modes", .str (py "any"))])])

/-- A signature that a reader can check. -/
def sampleSign (body : Bytes) : Bytes := body.take 3

/-- The same, with tokens. -/
def tokenConfig : StoreConfig :=
  { sampleConfig with verify := fun sig body => decide (sig = sampleSign body) }

/-- What the controller mints for a step on the episode. -/
def sampleGrant (role : Role) (session : String) : Grant where
  episode_id := py "e"
  role := role
  session_id := py session
  bundle_id := sampleBundle
  exp := Double.zero
  nonce := py "n"
  iat := Double.zero

/-- A token. -/
def sampleToken (g : Grant) : Json :=
  match mint sampleSign g with
  | .ok t => .str t
  | .error _ => .null

theorem sampleToken_wf (g : Grant) : (sampleToken g).WF := by
  unfold sampleToken
  split <;> simp

/-- A section that nothing goes wrong in. -/
def sampleWorld (uuid : String) : World where
  now := Double.zero
  ts := Double.zero
  registry := ⟨[], fun _ => .ok none⟩
  audit := .ok []
  insert := none
  insert_open := none
  uuid := py uuid

/-- The parameters that open an episode. -/
def openFields (idem check validator : String) : Fields :=
  [(py "bundle_id", .str sampleBundle), (py "class", .str (py "validator_health")),
    (py "consensus_mode", .str (py "tower")), (py "idem_key", .str (py idem)),
    (py "trigger", Json.mkObj [(py "check", .str (py check)), (py "severity", .str (py "high")),
      (py "source", .str (py "sentinel"))]),
    (py "validator_id", .str (py validator))]

theorem openFields_wf (idem check validator : String) :
    ∀ kv ∈ openFields idem check validator, kv.2.WF := by
  have htrig : (Json.mkObj [(py "check", .str (py check)), (py "severity", .str (py "high")),
      (py "source", .str (py "sentinel"))]).WF := Json.wf_mkObj (by simp)
  simp [openFields, htrig]

/-- A call that opens an episode. -/
def openCall (uuid idem check validator : String) : Call :=
  ⟨sampleWorld uuid, .control, .open_episode, Params.ofFields _ (openFields_wf idem check validator)⟩

/-- A call that moves an episode. -/
def stateCall (ep : Endpoint) (episode state : String) (expected : Int) : Call :=
  ⟨sampleWorld "-", ep, .set_state, Params.ofFields
    [(py "episode_id", .str (py episode)), (py "expected_revision", .int expected),
      (py "state", .str (py state))] (by simp)⟩

/-- The parameters of a call with a token. -/
def agentFields (g : Grant) (idem : String) (args : Fields) : Fields :=
  [(py "token", sampleToken g), (py "episode_id", .str (py "e")), (py "idem_key", .str (py idem))] ++
    args

theorem agentFields_wf {g : Grant} {idem : String} {args : Fields} (h : ∀ kv ∈ args, kv.2.WF) :
    ∀ kv ∈ agentFields g idem args, kv.2.WF := by
  simp only [agentFields, List.cons_append, List.nil_append, List.forall_mem_cons]
  exact ⟨sampleToken_wf g, .str _, .str _, h⟩

def agentParams (g : Grant) (idem : String) (args : Fields) (h : ∀ kv ∈ args, kv.2.WF) : Params :=
  Params.ofFields (agentFields g idem args) (agentFields_wf h)

/-- A hypothesis as the diagnostician states it. -/
def sampleHypothesis : Fields :=
  [(py "claim", .str (py "slots")), (py "expected_evidence", .str (py "lag")),
    (py "rank", .int 1), (py "test", .str (py "catchup"))]

theorem sampleHypothesis_wf : (Json.mkObj sampleHypothesis).WF :=
  Json.wf_mkObj (by simp [sampleHypothesis])

theorem hypothesisField_wf : ∀ kv ∈ [(py "hypothesis", Json.mkObj sampleHypothesis)], kv.2.WF := by
  simpa using sampleHypothesis_wf

end Valops.Store
