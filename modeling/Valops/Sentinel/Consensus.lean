import Valops.Store.Contracts

/-!
# The consensus mode of an episode

`determine` compares the declared mode with what the running version, the cluster's feature state
and the consensus state files imply; any disagreement is `unknown`. The sentinel determines the mode
when it opens an episode, the store keeps it, and a recommendation whose skill is for certain modes
is only taken in one of them.

`int` is the interpreter's `int` of a string: the integer, or nothing where it raises `ValueError`.

Main result: `mode_specific_agreement`, for every run in which the sentinel opens the episodes.
-/

set_option autoImplicit false

namespace Valops.Sentinel

open Py Store

section Determine

variable (int : PyStr → Option Int)

/-! ## Versions -/

/-- The components of a version, if each of them is an integer. -/
def components (version : PyStr) : Option (List Int) := (version.splitOn 46).mapM int

/-- `_vtuple`. -/
def _vtuple (v : Json) : Except Exc (List Int) :=
  match v with
  | .str s => orRaise (components int s) (.other .valueError)
  | _ => .error (.other .attributeError)

/-- `_vtuple(r[k]) if r.get(k) else default`. -/
def bound (r : Json) (k : String) (default : List Int) : Except Exc (List Int) := do
  let v ← get r k
  if v.truthy then _vtuple int v else pure default

/-- The modes whose range has a version. -/
def supporting (v : List Int) : Fields → Except Exc (List PyStr)
  | [] => pure []
  | (mode, r) :: rest => do
    let lo ← bound int r "min" [0]
    let hi ← bound int r "max" [10 ^ 9]
    let modes ← supporting v rest
    pure (if lo ≤ v ∧ v ≤ hi then mode :: modes else modes)

/-- `d.items()`. -/
def items (d : Json) : Except Exc Fields :=
  match d with
  | .obj kvs => .ok kvs
  | _ => .error (.other .attributeError)

/-- `version_mode`. -/
def version_mode (version support : Json) : Except Exc Json := do
  if !version.truthy then pure .null
  else match version with
    | .str s =>
      match components int s with
      | none => pure .null
      | some v => do
        let table ← items (orEmpty support)
        let modes ← supporting int v table
        match modes with
        | [mode] => pure (.str mode)
        | _ => pure .null
    | _ => throw (.other .attributeError)

/-! ## Files and features -/

/-- `files_mode`. -/
def files_mode (files : Json) : Except Exc Json := do
  if !files.truthy then pure .null
  else do
    let status ← get files "status"
    if status ≠ .null ∧ status ≠ .str (py "ok") then pure .null
    else do
      let structured ← get files "structured"
      let s := if structured.truthy then structured else files
      let tower ← get s "tower"
      let vote_history ← get s "vote_history"
      if tower.truthy && !vote_history.truthy then pure (.str (py "tower"))
      else if vote_history.truthy && !tower.truthy then pure (.str (py "alpenglow"))
      -- both kinds, as after a migration or a rollback, or neither
      else pure .null

/-- `feature_mode`. -/
def feature_mode (feature : Json) : Except Exc Json := do
  if !feature.truthy then pure .null
  else do
    let status ← get feature "status"
    if status ≠ .str (py "ok") then pure .null
    else do
      let structured ← get feature "structured"
      get (orEmpty structured) "mode"

/-! ## Determination -/

/-- What a mode is determined from. -/
structure Inputs where
  declared : Json
  running_version : Json
  feature_state : Json
  state_files : Json
  support : Json
  deriving DecidableEq

/-- `observed`, its items in the order of their names. -/
def observedItems (feature_state files version : Json) : List (PyStr × Json) :=
  [(py "feature_state", feature_state), (py "files", files), (py "version", version)]

/-- The version that runs. -/
def runningVersion (running_version : Json) : Except Exc Json := do
  let structured ← get (orEmpty running_version) "structured"
  get (orEmpty structured) "version"

/-- `determine`: the mode and the evidence. -/
def determine (i : Inputs) : Except Exc (Json × Json) := do
  let ver ← runningVersion i.running_version
  let version ← version_mode int ver i.support
  let feature_state ← feature_mode i.feature_state
  let files ← files_mode i.state_files
  let status ← getD (orEmpty i.feature_state) "status" (.str (py "unavailable"))
  let seen ← get (orEmpty i.state_files) "structured"
  let observed := observedItems feature_state files version
  let agree := observed.all fun kv => kv.2.pyEq i.declared
  let mode := if agree then i.declared else .str (py "unknown")
  let disagreeing := observed.filterMap fun kv => if kv.2.pyEq i.declared then none else some kv.1
  let evidence : Fields :=
    [(py "declared", i.declared),
      (py "version", Json.mkObj [(py "running", ver), (py "implies", version)]),
      (py "feature_state", Json.mkObj [(py "status", status), (py "implies", feature_state)]),
      (py "files", Json.mkObj [(py "observed", seen), (py "implies", files)]),
      (py "result", mode)] ++
    (if agree then [] else [(py "disagreeing_inputs", ofStrs disagreeing)])
  pure (mode, Json.mkObj evidence)

/-! ## Opening an episode -/

/-- What a check found; the ids of its samples are not part of the request. -/
structure Finding where
  cls : EpisodeClass
  check : PyStr
  severity : PyStr
  detail : PyStr

/-- `Sentinel._sample`, from the answer of the broker. -/
def _sample (cid : PyStr) (answer : Except Exc Json) : Except Exc Json :=
  match answer with
  | .error (.rpc code _ _) => .ok (Json.mkObj [(py "command_id", .str cid),
      (py "status", .str (py "unreachable")),
      (py "structured", Json.mkObj [(py "error", .str code.text)])])
  | answer => answer

/-- `samples.get(cid) or self._sample(cid)`. -/
def modeSample (samples : Dict PyStr Json) (answers : PyStr → Except Exc Json) (cid : PyStr) :
    Except Exc Json :=
  match samples.get? cid with
  | some v => if v.truthy then .ok v else _sample cid (answers cid)
  | none => _sample cid (answers cid)

/-- What `Sentinel._mode` passes to `determine`. -/
def modeInputs (deployment : Json) (samples : Dict PyStr Json)
    (answers : PyStr → Except Exc Json) : Except Exc Inputs := do
  let running_version ← modeSample samples answers (py "running_version")
  let feature_state ← modeSample samples answers (py "cluster_feature_state")
  let state_files ← modeSample samples answers (py "consensus_state_files")
  let declared ← index deployment "declared_consensus_mode"
  let support ← get deployment "mode_support"
  pure ⟨declared, running_version, feature_state, state_files, orEmpty support⟩

/-- `Sentinel._mode`. -/
def _mode (deployment : Json) (samples : Dict PyStr Json) (answers : PyStr → Except Exc Json) :
    Except Exc (Json × Json) := do
  let i ← modeInputs deployment samples answers
  determine int i

/-- The mode and the evidence of a finding. -/
def findingMode (deployment : Json) (f : Finding) (samples : Dict PyStr Json)
    (answers : PyStr → Except Exc Json) : Except Exc (Json × Json) :=
  if f.cls = .validator_health then _mode int deployment samples answers
  else .ok (.str (py "unknown"), Json.mkObj [(py "note", .str (py
    "not determined for telemetry-health episodes (observer impaired)"))])

/-- The fields of the request that `Sentinel._open` makes. -/
def openFields (cfg : StoreConfig) (deployment : Json) (bundle_id : PyStr) (f : Finding)
    (samples : Dict PyStr Json) (answers : PyStr → Except Exc Json) (uuid : PyStr) :
    Except Exc Fields := do
  let (mode, evidence) ← findingMode int deployment f samples answers
  let vid ← index deployment "validator_id"
  let trigger := Json.mkObj [(py "source", .str (py "sentinel")), (py "check", .str f.check),
    (py "severity", .str f.severity), (py "detail", .str f.detail)]
  pure [(py "class", .str f.cls.text), (py "trigger", trigger), (py "validator_id", vid),
    (py "bundle_id", .str bundle_id), (py "consensus_mode", mode),
    (py "consensus_mode_evidence", evidence),
    (py "idem_key", .str (py "open:" ++ f.cls.text ++ py ":" ++ f.check ++ py ":" ++ strOf cfg vid ++
      py ":" ++ uuid))]

end Determine

/-! ## Agreement -/

section Agreement

variable {int : PyStr → Option Int}

/-- A version lies in the range of a mode. -/
def Supports (int : PyStr → Option Int) (v : List Int) (r : Json) : Prop :=
  ∃ lo hi, bound int r "min" [0] = .ok lo ∧ bound int r "max" [10 ^ 9] = .ok hi ∧ lo ≤ v ∧ v ≤ hi

/-- The version that runs lies in the range of this mode and of no other one. -/
def OnlySupport (int : PyStr → Option Int) (running_version support : Json) (mode : PyStr) : Prop :=
  ∃ s v table r, runningVersion running_version = .ok (.str s) ∧ components int s = some v ∧
    orEmpty support = .obj table ∧ (mode, r) ∈ table ∧ Supports int v r ∧
    ∀ mode' r', (mode', r') ∈ table → Supports int v r' → mode' = mode

/-- What a sample says of the two kinds of state files. -/
def FilesSay (files tower vote_history : Json) : Prop :=
  ∃ structured, get files "structured" = .ok structured ∧
    get (if structured.truthy then structured else files) "tower" = .ok tower ∧
    get (if structured.truthy then structured else files) "vote_history" = .ok vote_history

/-- The state files of this mode are there, and those of the other one are not. -/
def OnlyFiles (files : Json) (m : Mode) : Prop :=
  ∃ tower vote_history, FilesSay files tower vote_history ∧
    (m = .tower ∧ tower.truthy = true ∧ vote_history.truthy = false ∨
      m = .alpenglow ∧ vote_history.truthy = true ∧ tower.truthy = false)

/-- The cluster's features were read, and are those of this mode. -/
def FeatureSays (feature : Json) (mode : PyStr) : Prop :=
  get feature "status" = .ok (.str (py "ok")) ∧ ∃ structured,
    get feature "structured" = .ok structured ∧ get (orEmpty structured) "mode" = .ok (.str mode)

/-- All inputs agree on a mode. -/
structure Agreement (int : PyStr → Option Int) (i : Inputs) (m : Mode) : Prop where
  declared : i.declared = .str m.text
  version : OnlySupport int i.running_version i.support m.text
  feature : FeatureSays i.feature_state m.text
  files : OnlyFiles i.state_files m

theorem supporting_mem {v : List Int} : ∀ {table : Fields} {modes : List PyStr},
    supporting int v table = .ok modes →
      ∀ m, m ∈ modes ↔ ∃ r, (m, r) ∈ table ∧ Supports int v r
  | [], modes, h, m => by
    cases pure_eq_ok.1 h
    simp
  | (mode, r) :: rest, modes, h, m => by
    rw [supporting] at h
    obtain ⟨lo, hlo, h⟩ := bind_eq_ok.1 h
    obtain ⟨hi, hhi, h⟩ := bind_eq_ok.1 h
    obtain ⟨others, hothers, h⟩ := bind_eq_ok.1 h
    have ih := supporting_mem hothers m
    have hhere : Supports int v r ↔ lo ≤ v ∧ v ≤ hi := by
      constructor
      · rintro ⟨lo', hi', hlo', hhi', hle⟩
        cases hlo.symm.trans hlo'
        cases hhi.symm.trans hhi'
        exact hle
      · exact fun hle => ⟨lo, hi, hlo, hhi, hle⟩
    rw [← pure_eq_ok.1 h]
    split
    · rename_i hin
      constructor
      · intro hm
        rcases List.mem_cons.1 hm with rfl | hm
        · exact ⟨r, List.mem_cons_self, hhere.2 hin⟩
        · obtain ⟨r', hr', hs⟩ := ih.1 hm
          exact ⟨r', List.mem_cons_of_mem _ hr', hs⟩
      · rintro ⟨r', hr', hs⟩
        rcases List.mem_cons.1 hr' with heq | hr'
        · cases heq
          exact List.mem_cons_self
        · exact List.mem_cons_of_mem _ (ih.2 ⟨r', hr', hs⟩)
    · rename_i hout
      constructor
      · intro hm
        obtain ⟨r', hr', hs⟩ := ih.1 hm
        exact ⟨r', List.mem_cons_of_mem _ hr', hs⟩
      · rintro ⟨r', hr', hs⟩
        rcases List.mem_cons.1 hr' with heq | hr'
        · cases heq
          exact absurd (hhere.1 hs) hout
        · exact ih.2 ⟨r', hr', hs⟩

/-- A version implies a mode only if it is in the range of that mode alone. -/
theorem version_mode_str {running_version version support : Json} {mode : PyStr}
    (hver : runningVersion running_version = .ok version)
    (h : version_mode int version support = .ok (.str mode)) :
    OnlySupport int running_version support mode := by
  unfold version_mode at h
  split at h
  · cases pure_eq_ok.1 h
  split at h
  · rename_i s _
    split at h
    · cases pure_eq_ok.1 h
    · rename_i v hv
      obtain ⟨table, htable, h⟩ := bind_eq_ok.1 h
      obtain ⟨modes, hmodes, h⟩ := bind_eq_ok.1 h
      have hitems : orEmpty support = .obj table := by
        unfold items at htable
        split at htable
        · rename_i kvs heq
          cases htable
          exact heq
        · cases htable
      split at h
      · cases pure_eq_ok.1 h
        obtain ⟨r, hr, hs⟩ := (supporting_mem hmodes mode).1 (List.mem_singleton.2 rfl)
        refine ⟨s, v, table, r, hver, hv, hitems, hr, hs, ?_⟩
        intro mode' r' hr' hs'
        exact List.mem_singleton.1 ((supporting_mem hmodes mode').2 ⟨r', hr', hs'⟩)
      · cases pure_eq_ok.1 h
  · cases h

theorem files_mode_str {files : Json} {m : Mode} (h : files_mode files = .ok (.str m.text)) :
    OnlyFiles files m := by
  unfold files_mode at h
  split at h
  · cases pure_eq_ok.1 h
  obtain ⟨status, _, h⟩ := bind_eq_ok.1 h
  split at h
  · cases pure_eq_ok.1 h
  obtain ⟨structured, hstructured, h⟩ := bind_eq_ok.1 h
  obtain ⟨tower, htower, h⟩ := bind_eq_ok.1 h
  obtain ⟨vote_history, hvote, h⟩ := bind_eq_ok.1 h
  have hsay : FilesSay files tower vote_history := ⟨structured, hstructured, htower, hvote⟩
  refine ⟨tower, vote_history, hsay, ?_⟩
  split at h
  · rename_i hboth
    rw [Bool.and_eq_true, Bool.not_eq_true'] at hboth
    have hm : m = .tower := by
      cases m
      · rfl
      · exact absurd (pure_eq_ok.1 h) (by decide)
      · exact absurd (pure_eq_ok.1 h) (by decide)
    exact .inl ⟨hm, hboth⟩
  split at h
  · rename_i hboth
    rw [Bool.and_eq_true, Bool.not_eq_true'] at hboth
    have hm : m = .alpenglow := by
      cases m
      · exact absurd (pure_eq_ok.1 h) (by decide)
      · rfl
      · exact absurd (pure_eq_ok.1 h) (by decide)
    exact .inr ⟨hm, hboth⟩
  · cases pure_eq_ok.1 h

theorem feature_mode_str {feature : Json} {mode : PyStr}
    (h : feature_mode feature = .ok (.str mode)) : FeatureSays feature mode := by
  unfold feature_mode at h
  split at h
  · cases pure_eq_ok.1 h
  obtain ⟨status, hstatus, h⟩ := bind_eq_ok.1 h
  split at h
  · cases pure_eq_ok.1 h
  rename_i hok
  obtain ⟨structured, hstructured, h⟩ := bind_eq_ok.1 h
  rw [not_not] at hok
  exact ⟨hok ▸ hstatus, structured, hstructured, h⟩

/-- **A mode other than `unknown` is determined only when everything agrees on it.** -/
theorem determine_agreement {i : Inputs} {m : Mode} {mode evidence : Json}
    (h : determine int i = .ok (mode, evidence)) (hmode : mode = .str m.text) (hm : m ≠ .unknown) :
    Agreement int i m := by
  unfold determine at h
  obtain ⟨ver, hver, h⟩ := bind_eq_ok.1 h
  obtain ⟨version, hversion, h⟩ := bind_eq_ok.1 h
  obtain ⟨feature_state, hfeature, h⟩ := bind_eq_ok.1 h
  obtain ⟨files, hfiles, h⟩ := bind_eq_ok.1 h
  obtain ⟨_, _, h⟩ := bind_eq_ok.1 h
  obtain ⟨_, _, h⟩ := bind_eq_ok.1 h
  have hpair := (Prod.mk.inj (pure_eq_ok.1 h)).1
  rw [hmode] at hpair
  split at hpair
  · rename_i hagree
    have hall := List.all_eq_true.1 hagree
    rw [hpair] at hall
    have heq : ∀ kv ∈ observedItems feature_state files version, kv.2 = .str m.text :=
      fun kv hkv => Json.pyEq_str_iff.1 (hall kv hkv)
    have h1 : feature_state = .str m.text := heq (py "feature_state", feature_state) (by simp [observedItems])
    have h2 : files = .str m.text := heq (py "files", files) (by simp [observedItems])
    have h3 : version = .str m.text := heq (py "version", version) (by simp [observedItems])
    subst h1 h2 h3
    exact ⟨hpair, version_mode_str hver hversion, feature_mode_str hfeature, files_mode_str hfiles⟩
  · have hunknown : m.text = Mode.unknown.text := (Json.str.inj hpair).symm
    cases m
    · exact absurd hunknown (by decide)
    · exact absurd hunknown (by decide)
    · exact absurd rfl hm

end Agreement

/-! ## Every run -/

section Run

variable {cfg : StoreConfig} {int : PyStr → Option Int} {x : System} {e : PyStr}
  {front back : List Entry} {new : Entry} {b : OpenedBody}

/-- A request that the sentinel makes when it opens an episode, whatever the samples were. -/
def SentinelOpens (cfg : StoreConfig) (int : PyStr → Option Int) (p : Params) : Prop :=
  ∃ deployment bundle_id f samples answers uuid kvs,
    openFields int cfg deployment bundle_id f samples answers uuid = .ok kvs ∧
    p.fields = Json.mkFields kvs

/-- Only the sentinel opens episodes. -/
def SentinelOnly (cfg : StoreConfig) (int : PyStr → Option Int) (_ : System) (a : Act) : Prop :=
  ∀ c, a.section? = some c → c.method = .open_episode → SentinelOpens cfg int c.params

/-- What an opening says of its mode: for a finding of validator health, the determination that gave
it; any other one is `unknown`. -/
def ModeDetermined (int : PyStr → Option Int) (b : OpenedBody) : Prop :=
  b.cls = .validator_health ∧
      (∃ i, determine int i = .ok (.str b.consensus_mode.text, b.consensus_mode_evidence)) ∨
    b.consensus_mode = .unknown

/-- What the arguments say of a new episode's class and mode. -/
theorem openedBody_mode {w : World} {p : Params} (h : openedBody cfg w p = .ok b) :
    EpisodeClass.ofJson (p.get "class") = some b.cls ∧
      p.get "consensus_mode" = .str b.consensus_mode.text ∧
      b.consensus_mode_evidence = orEmpty (p.get "consensus_mode_evidence") := by
  unfold openedBody at h
  obtain ⟨cls, hcls, h⟩ := bind_eq_ok.1 h
  obtain ⟨source, _, h⟩ := bind_eq_ok.1 h
  obtain ⟨_, _, h⟩ := bind_eq_ok.1 h
  obtain ⟨check, _, h⟩ := bind_eq_ok.1 h
  obtain ⟨_, _, h⟩ := bind_eq_ok.1 h
  obtain ⟨severity, _, h⟩ := bind_eq_ok.1 h
  obtain ⟨_, _, h⟩ := bind_eq_ok.1 h
  obtain ⟨vid, _, h⟩ := bind_eq_ok.1 h
  obtain ⟨mode, hmode, h⟩ := bind_eq_ok.1 h
  obtain ⟨_, _, h⟩ := bind_eq_ok.1 h
  obtain ⟨_, _, h⟩ := bind_eq_ok.1 h
  obtain ⟨bundle_id, _, h⟩ := bind_eq_ok.1 h
  cases pure_eq_ok.1 h
  exact ⟨orRaise_eq_ok.1 hcls, named_eq_some (orRaise_eq_ok.1 hmode), rfl⟩

/-- The evidence of a determination is a dict with entries. -/
theorem determine_evidence {i : Inputs} {mode evidence : Json}
    (h : determine int i = .ok (mode, evidence)) : orEmpty evidence = evidence := by
  unfold determine at h
  obtain ⟨_, _, h⟩ := bind_eq_ok.1 h
  obtain ⟨_, _, h⟩ := bind_eq_ok.1 h
  obtain ⟨_, _, h⟩ := bind_eq_ok.1 h
  obtain ⟨_, _, h⟩ := bind_eq_ok.1 h
  obtain ⟨_, _, h⟩ := bind_eq_ok.1 h
  obtain ⟨_, _, h⟩ := bind_eq_ok.1 h
  rw [← (Prod.mk.inj (pure_eq_ok.1 h)).2, orEmpty, if_pos]
  split <;> rfl

/-- An opening that the sentinel asked for says how its mode was determined. -/
theorem SentinelOpens.determined {w : World} {p : Params} (h : SentinelOpens cfg int p)
    (hbody : openedBody cfg w p = .ok b) : ModeDetermined int b := by
  obtain ⟨deployment, bundle_id, f, samples, answers, uuid, kvs, hkvs, hp⟩ := h
  unfold openFields at hkvs
  obtain ⟨⟨mode, evidence⟩, hfound, hkvs⟩ := bind_eq_ok.1 hkvs
  obtain ⟨vid, _, hkvs⟩ := bind_eq_ok.1 hkvs
  cases pure_eq_ok.1 hkvs
  obtain ⟨hcls, hmode, hevidence⟩ := openedBody_mode hbody
  have hget : ∀ k v, Json.lookup (py k) p.fields = some v → p.get k = v := by
    intro k v hv
    rw [Params.get, hv]
    rfl
  have hclass : p.get "class" = .str f.cls.text := hget _ _ (by rw [hp]; rfl)
  have hm : p.get "consensus_mode" = mode := hget _ _ (by rw [hp]; rfl)
  have hev : p.get "consensus_mode_evidence" = evidence := hget _ _ (by rw [hp]; rfl)
  rw [hclass, EpisodeClass.ofJson_text] at hcls
  rw [hm] at hmode
  subst hmode
  unfold findingMode at hfound
  split at hfound
  · rename_i hvalidator
    unfold Valops.Sentinel._mode at hfound
    obtain ⟨i, _, hdet⟩ := bind_eq_ok.1 hfound
    refine .inl ⟨(Option.some.inj hcls).symm.trans hvalidator, i, ?_⟩
    rw [hevidence, hev, determine_evidence hdet]
    exact hdet
  · have htext := (Prod.mk.inj (Except.ok.inj hfound)).1
    refine .inr ?_
    have hname : b.consensus_mode.text = Mode.unknown.text := (Json.str.inj htext).symm
    revert hname
    cases b.consensus_mode <;> decide

/-- In the runs of the sentinel every opening says how its mode was determined. -/
theorem openings_determined (h : Conc.Reachable Initial (Moves cfg) (SentinelOnly cfg int) x) :
    ∀ e front new back, x.store.entries e = front ++ new :: back → ∀ b, new.body = .opened b →
      ModeDetermined int b := by
  refine log_inv (Q := fun _ _ new => ∀ b, new.body = .opened b → ModeDetermined int b) ?_ h
  intro x a y c e new _ hok _ hsec hnew b hb
  obtain ⟨d, row, hdraft, _, _, _, hbody, _⟩ := hnew.draft
  rcases hdraft with hdraft | hopened
  · have hadm := hdraft.admitted
    rw [← hbody, hb] at hadm
    cases hadm
  · obtain ⟨idem, b', hdec, rfl⟩ := hopened.decided
    have heq : b' = b := by
      rw [hb] at hbody
      exact (Body.opened.inj hbody).symm
    subst heq
    exact (hok c hsec hopened.method).determined (openDecision_fresh hdec).body

/-- What an episode needs for advice that is for certain modes: its class, the determination it was
opened with, and a mode that the skill is for. -/
structure Confirmed (int : PyStr → Option Int) (b : OpenedBody) (modes : Json) : Prop where
  cls : b.cls = .validator_health
  determined : ∃ i, determine int i = .ok (.str b.consensus_mode.text, b.consensus_mode_evidence) ∧
    Agreement int i b.consensus_mode
  applies : contains b.consensus_mode.text modes = .ok true
  listed : ∀ ms, modes = .arr ms → .str b.consensus_mode.text ∈ ms

/-- A recommendation was let through with its skill and the record's mode. -/
theorem recommendation_skill {strict : Prop} (h : Ledger cfg strict x) {r : RecommendationBody}
    (hsplit : x.store.entries e = front ++ new :: back) (hr : new.body = .recommendation r) :
    front ≠ [] ∧ ∃ rec, rec.consensus_mode =
        (replay cfg.rfc3339 (empty_record e) front).consensus_mode ∧
      rec.bundle_id = (replay cfg.rfc3339 (empty_record e) front).bundle_id ∧
      PlannerSkill cfg rec r.skill := by
  obtain ⟨_, _, _, _, _, _, _, _, he, _, hjust⟩ := h.at hsplit
  cases hjust with
  | opened first endpoint body principal =>
    rw [body] at hr
    cases hr
  | @admitted rec session started kind named before exact admitted hsession =>
    rw [he] at before
    have hmode := congrArg Record.consensus_mode before
    have hbundle := congrArg Record.bundle_id before
    refine ⟨started, rec, hmode, hbundle, ?_⟩
    revert admitted
    generalize new.principal = principal
    intro admitted
    rw [hr] at admitted
    cases admitted with
    | recommendation auth session id known skill refs => exact skill

/-- **Mode-specific advice needs full agreement.** -/
theorem mode_specific_agreement
    (h : Conc.Reachable Initial (Moves cfg) (SentinelOnly cfg int) x)
    {r : RecommendationBody} (hsplit : x.store.entries e = front ++ new :: back)
    (hr : new.body = .recommendation r) :
    ∃ first rest b id skills skill modes, x.store.entries e = first :: rest ∧
      first.body = .opened b ∧ b.bundle_id = id ∧ cfg.skills id = .ok skills ∧
      getSkill skills r.skill = .ok skill ∧ get skill "modes" = .ok modes ∧
      (modes = .str (py "any") ∨ Confirmed int b modes) := by
  have hled : Ledger cfg False x := ledger False.elim h
  obtain ⟨hne, rec, hmode, hbundle, id, skills, skill, roles, modes, hid, hskills, hskill, _, _,
    hmodes, happlies⟩ := recommendation_skill hled hsplit hr
  obtain ⟨first, mid, rfl⟩ := List.exists_cons_of_ne_nil hne
  have hall : Followed cfg e (first :: mid ++ new :: back) := hsplit ▸ hled.followed e
  have hfol : Followed cfg e (first :: mid) := hall.of_append
  obtain ⟨b, hb⟩ := (hfol [] first mid rfl).opened.2 rfl
  have hopened := openedAs_of_followed hfol hb
  rw [hopened.bundle] at hbundle
  rw [hopened.mode] at hmode
  have hidb : b.bundle_id = id := Option.some.inj (hbundle.symm.trans hid)
  refine ⟨first, mid ++ new :: back, b, id, skills, skill, modes, hsplit, hb, hidb, hskills, hskill,
    hmodes, happlies.imp_right ?_⟩
  rintro ⟨m, hm, hknown, hin⟩
  have heq : b.consensus_mode = m := Option.some.inj (hmode.symm.trans hm)
  subst heq
  rcases openings_determined h e [] first _ hsplit b hb with ⟨hcls, i, hi⟩ | hunknown
  · refine ⟨hcls, ⟨i, hi, determine_agreement hi rfl hknown⟩, hin, ?_⟩
    rintro ms rfl
    obtain ⟨y, hy, heq⟩ := List.any_eq_true.1 (Except.ok.inj hin)
    exact Json.eqStr_iff.1 heq ▸ hy
  · exact absurd hunknown hknown

end Run

/-! ## A run -/

/-- `int` of a string of digits. -/
def sampleInt (s : PyStr) : Option Int :=
  if s ≠ [] ∧ s.all isDigit then some (digitsVal s) else none

/-- Tower is declared; two modes are supported. -/
def sampleDeployment : Json :=
  Json.mkObj [(py "declared_consensus_mode", .str (py "tower")), (py "validator_id", .str (py "v")),
    (py "mode_support", Json.mkObj [(py "tower", Json.mkObj [(py "max", .str (py "3.0.0"))]),
      (py "alpenglow", Json.mkObj [(py "min", .str (py "3.1"))])])]

/-- The samples that the broker delivers. -/
def sampleAnswers (cid : PyStr) : Except Exc Json :=
  if cid = py "running_version" then
    .ok (Json.mkObj [(py "status", .str (py "ok")),
      (py "structured", Json.mkObj [(py "version", .str (py "2.2.14"))])])
  else if cid = py "cluster_feature_state" then
    .ok (Json.mkObj [(py "status", .str (py "ok")),
      (py "structured", Json.mkObj [(py "mode", .str (py "tower"))])])
  else
    .ok (Json.mkObj [(py "status", .str (py "ok")),
      (py "structured", Json.mkObj [(py "tower", .arr [.str (py "tower-1.bin")])])])

/-- The evidence of that determination. -/
def sampleEvidence : Json :=
  Json.mkObj [(py "declared", .str (py "tower")),
    (py "version", Json.mkObj [(py "running", .str (py "2.2.14")), (py "implies", .str (py "tower"))]),
    (py "feature_state", Json.mkObj [(py "status", .str (py "ok")), (py "implies", .str (py "tower"))]),
    (py "files", Json.mkObj [(py "observed", Json.mkObj [(py "tower", .arr [.str (py "tower-1.bin")])]),
      (py "implies", .str (py "tower"))]),
    (py "result", .str (py "tower"))]

theorem sampleEvidence_wf : sampleEvidence.WF := by
  have hseen : (Json.mkObj [(py "tower", .arr [.str (py "tower-1.bin")])]).WF :=
    Json.wf_mkObj (by simp [Json.wf_arr_iff])
  have hversion : (Json.mkObj [(py "running", .str (py "2.2.14")),
      (py "implies", .str (py "tower"))]).WF := Json.wf_mkObj (by simp)
  have hfeature : (Json.mkObj [(py "status", .str (py "ok")),
      (py "implies", .str (py "tower"))]).WF := Json.wf_mkObj (by simp)
  have hfiles : (Json.mkObj [(py "observed", Json.mkObj [(py "tower", .arr [.str (py "tower-1.bin")])]),
      (py "implies", .str (py "tower"))]).WF := Json.wf_mkObj (by simp [hseen])
  exact Json.wf_mkObj (by simp [hversion, hfeature, hfiles])

/-- A finding. -/
def sampleFinding : Finding := ⟨.validator_health, py "slots", py "high", py "9 slots behind"⟩

/-- The request it leads to. -/
def sampleOpen : Fields :=
  [(py "class", .str (py "validator_health")),
    (py "trigger", Json.mkObj [(py "source", .str (py "sentinel")), (py "check", .str (py "slots")),
      (py "severity", .str (py "high")), (py "detail", .str (py "9 slots behind"))]),
    (py "validator_id", .str (py "v")), (py "bundle_id", .str sampleBundle),
    (py "consensus_mode", .str (py "tower")), (py "consensus_mode_evidence", sampleEvidence),
    (py "idem_key", .str (py "open:validator_health:slots:v:u"))]

theorem sampleOpen_wf : ∀ kv ∈ sampleOpen, kv.2.WF := by
  have htrigger : (Json.mkObj [(py "source", .str (py "sentinel")), (py "check", .str (py "slots")),
      (py "severity", .str (py "high")), (py "detail", .str (py "9 slots behind"))]).WF :=
    Json.wf_mkObj (by simp)
  simp [sampleOpen, htrigger, sampleEvidence_wf]

/-- A skill for tower alone. -/
def towerConfig : StoreConfig :=
  { tokenConfig with skills := fun _ => .ok (Json.mkObj [(py "restart", Json.mkObj
      [(py "roles", .arr [.str (py "change_planner")]), (py "modes", .arr [.str (py "tower")])])]) }

theorem sampleOpen_opens : SentinelOpens towerConfig sampleInt (Params.ofFields sampleOpen sampleOpen_wf) :=
  ⟨sampleDeployment, sampleBundle, sampleFinding, [], sampleAnswers, py "u", sampleOpen, rfl, rfl⟩

/-- An episode that the sentinel opens, up to a recommendation for tower. -/
def towerActs : List Act :=
  contractActs.map fun a =>
    match a with
    | .call c =>
      if c.method = .open_episode then
        .call { c with params := Params.ofFields sampleOpen sampleOpen_wf }
      else a
    | _ => a

/-- The acts open an episode with that request only. -/
def OpensSample (_ : System) (a : Act) : Prop :=
  (a.section?.all fun c => decide (c.method = .open_episode →
    c.params = Params.ofFields sampleOpen sampleOpen_wf)) = true

instance (x : System) (a : Act) : Decidable (OpensSample x a) :=
  inferInstanceAs (Decidable (_ = true))

theorem OpensSample.sentinelOnly {x : System} {a : Act} (h : OpensSample x a) :
    SentinelOnly towerConfig sampleInt x a := by
  intro c hc hm
  rw [OpensSample, hc] at h
  rw [of_decide_eq_true (p := c.method = .open_episode → _) h hm]
  exact sampleOpen_opens

/-- An entry is a recommendation of the skill. -/
def Entry.recommends (x : Entry) : Bool :=
  match x.body with
  | .recommendation r => decide (r.skill = py "restart")
  | _ => false

/-- The bundle that an entry opens an episode for. -/
def openedBundle (x : Entry) : PyStr :=
  match x.body with
  | .opened b => b.bundle_id
  | _ => []

theorem mode_specific_sample : ∃ b, b.bundle_id = sampleBundle ∧
    Confirmed sampleInt b (.arr [.str (py "tower")]) := by
  have hopens : Conc.Reachable Initial (Moves towerConfig) OpensSample
      (System.run towerConfig towerActs) :=
    System.run_reachable (by decide +kernel) (by decide +kernel)
  have hrun : Conc.Reachable Initial (Moves towerConfig) (SentinelOnly towerConfig sampleInt)
      (System.run towerConfig towerActs) := hopens.mono fun _ _ h => h.sentinelOnly
  have hany : (((System.run towerConfig towerActs).store.entries (py "e")).any Entry.recommends) =
      true := by decide +kernel
  obtain ⟨new, hmem, hnew⟩ := List.any_eq_true.1 hany
  obtain ⟨front, back, hsplit⟩ := List.append_of_mem hmem
  unfold Entry.recommends at hnew
  split at hnew
  · rename_i r hr
    obtain ⟨first, rest, b, id, skills, skill, modes, hlog, hfirst, hid, hskills, hskill, hmodes,
      happlies⟩ := mode_specific_agreement hrun hsplit hr
    rw [of_decide_eq_true hnew] at hskill
    cases hskills
    cases hskill
    cases hmodes
    have hbundle : first.body = .opened b → b.bundle_id = sampleBundle := by
      have hhead : ((System.run towerConfig towerActs).store.entries (py "e")).head?.map
          openedBundle = some sampleBundle := by
        decide +kernel
      rw [hlog] at hhead
      intro hb
      rw [List.head?_cons, Option.map_some, openedBundle, hb] at hhead
      exact Option.some.inj hhead
    refine ⟨b, hbundle hfirst, happlies.resolve_left ?_⟩
    intro h
    cases h
  · cases hnew

end Valops.Sentinel
