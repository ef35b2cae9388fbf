import Valops.Bundle.Params
import Valops.Conc.Streak
import Valops.Sentinel.Checks

/-!
# Validator findings over whole runs

Under a bundle whose thresholds can be compared with numbers, the rules never raise, every finding
comes from a parsed sample of its command, the rules do not see each other's samples, and the counter
of the delinquency rule is the streak of parsed catchup samples beyond the threshold
(`validator_findings_run`).
-/

set_option autoImplicit false

namespace Valops.Sentinel.Checks

open Py Streak

/-! ## What is compared -/

/-- The command whose sample a rule reads. -/
def Check.command : Check → PyStr
  | .unit_state => py "host_metrics"
  | .disk_headroom => py "host_metrics"
  | .delinquency => py "catchup"
  | .balance => py "identity_balance"
  | .version_drift => py "running_version"
  | _ => []

/-- The thresholds are numbers, half of the balance floor is a float, and a version is expected. -/
structure Usable (bundle : Bundle) : Prop where
  floor : ∃ v h, index bundle.thresholds "P-02" = .ok v ∧ v.num.isSome = true ∧ halve v = .ok h
  catchup : ∃ r t s, index bundle.thresholds "P-03" = .ok r ∧ index r "threshold" = .ok t ∧
    t.num.isSome = true ∧ index r "samples" = .ok s ∧ s.num.isSome = true
  headroom : ∃ v, index bundle.thresholds "P-04" = .ok v ∧ v.num.isSome = true
  version : ∃ v, index bundle.deployment "expected_version" = .ok v

/-- A parsed sample carries the fields that its parser provides. -/
structure Carries (samples : Samples) : Prop where
  catchup : ∀ cu, _ok (samples (py "catchup")) = some cu →
    ∃ z, Json.lookup (py "slots_behind") cu = some (.int z)
  balance : ∀ bal, _ok (samples (py "identity_balance")) = some bal →
    ∃ x, Json.lookup (py "balance_sol") bal = some (.float x)

/-- The samples of some commands. -/
def keep (K : PyStr → Bool) (samples : Samples) : Samples := fun cid => if K cid then samples cid else none

section Compare

variable {v w : Json}

theorem num_of_isNumber (h : isNumber v = true) : v.num.isSome = true := by
  cases v with
  | float x =>
    cases x with
    | nan => rfl
    | num neg mag =>
      rw [Json.num]
      split <;> rfl
  | bool c => rfl
  | int z => rfl
  | null => cases h
  | str s => cases h
  | arr xs => cases h
  | obj kvs => cases h

/-- Two numbers can be compared. -/
theorem less_numbers (hv : v.num.isSome = true) (hw : w.num.isSome = true) : ∃ c, less v w = .ok c := by
  obtain ⟨x, hx⟩ := Option.isSome_iff_exists.1 hv
  obtain ⟨y, hy⟩ := Option.isSome_iff_exists.1 hw
  have hlt : Json.pyLt v w = some (x.lt y) := by
    have hnum : Json.numLt v w = some (x.lt y) := by rw [Json.numLt, hx, hy]
    cases v <;> first | exact hnum | cases hx
  exact ⟨x.lt y, by rw [less, hlt]; rfl⟩

theorem halve_num {h : Json} (hh : halve v = .ok h) : h.num.isSome = true := by
  have hint : ∀ {z : Int}, halveInt z = .ok h → h.num.isSome = true := by
    intro z hz
    unfold halveInt at hz
    dsimp only at hz
    split at hz
    · cases hz
      exact num_of_isNumber rfl
    · cases hz
  cases v with
  | int z => exact hint hh
  | bool c => exact hint hh
  | float x =>
    cases hh
    exact num_of_isNumber rfl
  | null => cases hh
  | str s => cases hh
  | arr xs => cases hh
  | obj kvs => cases hh

end Compare

/-! ## One rule at a time -/

section Rules

variable {b : Builtins} {bundle : Bundle} {samples : Samples} {c : ConsecutiveCounter} {K : PyStr → Bool}

/-- The findings are of rules on one command, and there are none without its sample. -/
def FoundIn (cid : PyStr) (o : Option Fields) (fs : List Finding) : Prop :=
  ∀ f ∈ fs, f.check.command = cid ∧ o.isSome = true

theorem foundIn_nil {cid : PyStr} {o : Option Fields} : FoundIn cid o [] :=
  fun _ hf => absurd hf List.not_mem_nil

/-- The findings of rules on one command are kept or dropped together. -/
theorem FoundIn.filter {cid : PyStr} {o : Option Fields} {fs : List Finding} (h : FoundIn cid o fs) :
    fs.filter (fun f => K f.check.command) = if K cid then fs else [] := by
  cases hK : K cid with
  | true => exact List.filter_eq_self.2 fun f hf => by rw [(h f hf).1, hK]
  | false => exact List.filter_eq_nil_iff.2 fun f hf => by rw [(h f hf).1, hK]; exact Bool.false_ne_true

theorem diskRule_total (hU : Usable bundle) (hm : Fields) :
    ∃ fs, diskRule b bundle.thresholds hm = .ok fs ∧ ∀ f ∈ fs, f.check = .disk_headroom := by
  obtain ⟨floor, hfloor, hnum⟩ := hU.headroom
  unfold diskRule
  dsimp only
  split
  · rename_i hmf
    obtain ⟨low, hlow⟩ := less_numbers (num_of_isNumber hmf) hnum
    refine ⟨_, by rw [hfloor]; show (less _ floor >>= _) = _; rw [hlow]; rfl, fun f hf => ?_⟩
    cases low with
    | true => rw [List.mem_singleton.1 hf]; rfl
    | false => cases hf
  · exact ⟨[], rfl, nofun⟩

theorem hostRule_total (hU : Usable bundle) (hm : Option Fields) :
    ∃ fs, hostRule b bundle.thresholds hm = .ok fs ∧ FoundIn (py "host_metrics") hm fs := by
  cases hm with
  | none => exact ⟨[], rfl, foundIn_nil⟩
  | some hm =>
    obtain ⟨disk, hdisk, hchecks⟩ := diskRule_total (b := b) hU hm
    refine ⟨unitRule b hm ++ disk, by rw [hostRule, hdisk]; rfl, fun f hf => ⟨?_, rfl⟩⟩
    rcases List.mem_append.1 hf with hf | hf
    · unfold unitRule at hf
      split at hf
      · rw [List.mem_singleton.1 hf]
        rfl
      · cases hf
    · rw [hchecks f hf]
      rfl

theorem balanceRule_total (hU : Usable bundle) {bal : Option Fields}
    (hbal : ∀ f, bal = some f → ∃ x, Json.lookup (py "balance_sol") f = some (.float x)) :
    ∃ fs, balanceRule b bundle.thresholds bal = .ok fs ∧ FoundIn (py "identity_balance") bal fs := by
  cases bal with
  | none => exact ⟨[], rfl, foundIn_nil⟩
  | some bal =>
    obtain ⟨x, hx⟩ := hbal bal rfl
    obtain ⟨floor, half, hfloor, hnum, hhalf⟩ := hU.floor
    have hsol : index (.obj bal) "balance_sol" = .ok (.float x) := by rw [index, hx]; rfl
    obtain ⟨low, hlow⟩ := less_numbers (num_of_isNumber (v := .float x) rfl) hnum
    obtain ⟨lower, hlower⟩ := less_numbers (num_of_isNumber (v := .float x) rfl) (halve_num hhalf)
    simp only [balanceRule, hsol, hfloor, hlow, ok_bind]
    cases low with
    | false => exact ⟨[], rfl, foundIn_nil⟩
    | true =>
      have hseverity : balanceSeverity (.float x) floor = .ok (if lower then .high else .warning) := by
        rw [balanceSeverity, hhalf]
        show (less (.float x) half >>= _) = _
        rw [hlower]
        rfl
      refine ⟨_, by show (balanceSeverity (.float x) floor >>= _) = _; rw [hseverity]; rfl, ?_⟩
      intro f hf
      rw [List.mem_singleton.1 hf]
      exact ⟨rfl, rfl⟩

theorem versionRule_total (hU : Usable bundle) (rv : Option Fields) :
    ∃ fs, versionRule b bundle.deployment rv = .ok fs ∧ FoundIn (py "running_version") rv fs := by
  obtain ⟨exp, hexp⟩ := hU.version
  unfold versionRule
  rw [hexp]
  cases rv with
  | none => exact ⟨[], rfl, foundIn_nil⟩
  | some rv =>
    refine ⟨_, rfl, fun f hf => ?_⟩
    split at hf
    · rw [List.mem_singleton.1 hf]
      exact ⟨rfl, rfl⟩
    · cases hf

/-! ## The counting rule -/

/-- Whether a parsed catchup sample is beyond the threshold. -/
def exceeds (p : Json) (cu : Fields) : Bool := decide (behind p cu = .ok true)

theorem behind_total (hU : Usable bundle) {cu : Fields} {z : Int}
    (hcu : Json.lookup (py "slots_behind") cu = some (.int z)) :
    behind bundle.thresholds cu = .ok (exceeds bundle.thresholds cu) := by
  obtain ⟨r, t, s, hr, ht, hnum, -, -⟩ := hU.catchup
  obtain ⟨x, hx⟩ := less_numbers hnum (num_of_isNumber (v := .int z) rfl)
  have heq : behind bundle.thresholds cu = .ok x := by
    unfold behind
    rw [index, hcu, hr]
    show (index r "threshold" >>= _) = _
    rw [ht]
    exact hx
  rw [exceeds, heq]
  cases x <;> rfl

theorem enough_total (hU : Usable bundle) (n : Nat) : ∃ late, enough bundle.thresholds n = .ok late := by
  obtain ⟨r, t, s, hr, -, -, hs, hnum⟩ := hU.catchup
  obtain ⟨x, hx⟩ := Option.isSome_iff_exists.1 hnum
  have hle : ∃ c, Json.pyLe s (.int n) = some c := by
    have hnum : ∃ c, Json.numLe s (.int n) = some c := by
      rw [Json.numLe, hx]
      exact ⟨_, rfl⟩
    cases s <;> exact hnum
  obtain ⟨late, hlate⟩ := hle
  refine ⟨late, ?_⟩
  unfold enough
  rw [hr]
  show (index r "samples" >>= _) = _
  rw [hs]
  show orRaise (Json.pyLe s (.int n)) _ = _
  rw [hlate]
  rfl

/-- More samples are still enough. -/
theorem enough_mono {p : Json} {n m : Nat} (h : enough p n = .ok true) (hnm : n ≤ m) :
    enough p m = .ok true := by
  unfold enough at h ⊢
  obtain ⟨r, hr, h⟩ := bind_eq_ok.1 h
  obtain ⟨s, hs, h⟩ := bind_eq_ok.1 h
  have hle := orRaise_eq_ok.1 h
  have hmono : ∀ a : Json.Num, a.le (.fin (n * 2 ^ binary64.unit)) = true →
      a.le (.fin (m * 2 ^ binary64.unit)) = true := by
    intro a ha
    cases a with
    | nan => cases ha
    | inf neg =>
      cases neg with
      | true => rfl
      | false => cases ha
    | fin x =>
      have hx : x ≤ n * 2 ^ binary64.unit := by
        simp only [Json.Num.le, Json.Num.lt, Json.Num.eq, Bool.or_eq_true, decide_eq_true_eq, beq_iff_eq] at ha
        omega
      have hpow : (n : Int) * 2 ^ binary64.unit ≤ m * 2 ^ binary64.unit :=
        Int.mul_le_mul_of_nonneg_right (by exact_mod_cast hnm) (by positivity)
      simp only [Json.Num.le, Json.Num.lt, Json.Num.eq, Bool.or_eq_true, decide_eq_true_eq, beq_iff_eq]
      omega
  refine bind_eq_ok.2 ⟨r, hr, bind_eq_ok.2 ⟨s, hs, orRaise_eq_ok.2 ?_⟩⟩
  have hnum : Json.numLe s (.int n) = some true → Json.numLe s (.int m) = some true := by
    intro hn
    unfold Json.numLe at hn ⊢
    cases hs : s.num with
    | none =>
      rw [hs] at hn
      cases hn
    | some a =>
      rw [hs] at hn
      exact congrArg some (hmono a (Option.some.inj hn))
  cases s <;> exact hnum hle

/-- What the counting rule does with a sample. -/
theorem catchupRule_some (hU : Usable bundle) {cu : Fields} {z : Int}
    (hcu : Json.lookup (py "slots_behind") cu = some (.int z)) : ∃ fs,
    catchupRule b bundle.thresholds (some cu) c =
      (.ok fs, (c.update (py "delinquency") (exceeds bundle.thresholds cu)).2) ∧
    (∀ f ∈ fs, f.check = .delinquency) ∧
    (fs ≠ [] ↔ enough bundle.thresholds (c.update (py "delinquency") (exceeds bundle.thresholds cu)).1 =
      .ok true) := by
  obtain ⟨late, hlate⟩ := enough_total hU (c.update (py "delinquency") (exceeds bundle.thresholds cu)).1
  have hslots : index (.obj cu) "slots_behind" = .ok (.int z) := by rw [index, hcu]; rfl
  rw [catchupRule, behind_total hU hcu]
  dsimp only
  rw [lateFinding, hlate]
  show ∃ fs, ((index (.obj cu) "slots_behind" >>= _), _) = _ ∧ _
  rw [hslots]
  refine ⟨_, rfl, fun f hf => ?_, ?_⟩
  · cases late with
    | true => rw [List.mem_singleton.1 hf]; rfl
    | false => cases hf
  · cases late <;> simp

/-- The counting rule on any sample. -/
theorem catchupRule_total (hU : Usable bundle) {cu : Option Fields}
    (hcu : ∀ f, cu = some f → ∃ z, Json.lookup (py "slots_behind") f = some (.int z)) : ∃ fs,
    (catchupRule b bundle.thresholds cu c).1 = .ok fs ∧ FoundIn (py "catchup") cu fs ∧
      (∀ f ∈ fs, f.check = .delinquency) := by
  cases cu with
  | none => exact ⟨[], rfl, foundIn_nil, nofun⟩
  | some cu =>
    obtain ⟨z, hz⟩ := hcu cu rfl
    obtain ⟨fs, hrule, hchecks, -⟩ := catchupRule_some (b := b) (c := c) hU hz
    refine ⟨fs, by rw [hrule], fun f hf => ⟨?_, rfl⟩, hchecks⟩
    rw [hchecks f hf]
    rfl

/-! ## One tick -/

/-- **What a tick finds**: the findings of each rule on its own sample, one after the other. -/
theorem validator_findings_ok (hU : Usable bundle) (hC : Carries samples) (c : ConsecutiveCounter) :
    ∃ host late bal ver, validator_findings b samples bundle c =
        (.ok (host ++ late ++ (bal ++ ver)),
          (catchupRule b bundle.thresholds (_ok (samples (py "catchup"))) c).2) ∧
      hostRule b bundle.thresholds (_ok (samples (py "host_metrics"))) = .ok host ∧
      (catchupRule b bundle.thresholds (_ok (samples (py "catchup"))) c).1 = .ok late ∧
      balanceRule b bundle.thresholds (_ok (samples (py "identity_balance"))) = .ok bal ∧
      versionRule b bundle.deployment (_ok (samples (py "running_version"))) = .ok ver := by
  obtain ⟨host, hhost, -⟩ := hostRule_total (b := b) hU (_ok (samples (py "host_metrics")))
  obtain ⟨late, hlate, -⟩ := catchupRule_total (b := b) (c := c) hU hC.catchup
  obtain ⟨bal, hbal, -⟩ := balanceRule_total (b := b) hU hC.balance
  obtain ⟨ver, hver, -⟩ := versionRule_total (b := b) hU (_ok (samples (py "running_version")))
  refine ⟨host, late, bal, ver, ?_, hhost, hlate, hbal, hver⟩
  simp only [validator_findings, laterRules, hhost, hlate, hbal, hver, ok_bind]
  rfl

theorem ok_keep (cid : PyStr) : _ok (keep K samples cid) = if K cid then _ok (samples cid) else none := by
  rw [keep]
  cases K cid <;> rfl

theorem Carries.keep (hC : Carries samples) : Carries (keep K samples) := by
  constructor
  · intro cu hcu
    rw [ok_keep] at hcu
    split at hcu
    · exact hC.catchup cu hcu
    · cases hcu
  · intro bal hbal
    rw [ok_keep] at hbal
    split at hbal
    · exact hC.balance bal hbal
    · cases hbal

/-- A rule that finds nothing without a sample, with its sample kept or dropped. -/
theorem kept_of_rule {r : Option Fields → Except Exc (List Finding)} (hnone : r none = .ok [])
    {o : Option Fields} {k : Bool} {fs fs' : List Finding} (h : r o = .ok fs)
    (h' : r (if k then o else none) = .ok fs') : fs' = if k then fs else [] := by
  cases k with
  | true => exact Except.ok.inj (h'.symm.trans h)
  | false => exact Except.ok.inj (h'.symm.trans hnone)

/-- The findings of a tick and what they come from. -/
structure TickFindings (b : Builtins) (bundle : Bundle) (samples : Samples) (c : ConsecutiveCounter)
    (fs : List Finding) (c' : ConsecutiveCounter) : Prop where
  found : validator_findings b samples bundle c = (.ok fs, c')
  parsed : ∀ f ∈ fs, (_ok (samples f.check.command)).isSome = true
  kept : ∀ K : PyStr → Bool, validator_findings b (Checks.keep K samples) bundle c =
    (.ok (fs.filter fun f => K f.check.command), if K (py "catchup") then c' else c)
  uncounted : _ok (samples (py "catchup")) = none → c' = c

/-- **A tick under a usable bundle.** -/
theorem tickFindings (hU : Usable bundle) (hC : Carries samples) (c : ConsecutiveCounter) :
    ∃ fs c', TickFindings b bundle samples c fs c' := by
  obtain ⟨host, late, bal, ver, heq, hhost, hlate, hbal, hver⟩ := validator_findings_ok (b := b) hU hC c
  obtain ⟨_, h, hostIn⟩ := hostRule_total (b := b) hU (_ok (samples (py "host_metrics")))
  cases hhost.symm.trans h
  obtain ⟨_, h, lateIn, -⟩ := catchupRule_total (b := b) (c := c) hU hC.catchup
  cases hlate.symm.trans h
  obtain ⟨_, h, balIn⟩ := balanceRule_total (b := b) hU hC.balance
  cases hbal.symm.trans h
  obtain ⟨_, h, verIn⟩ := versionRule_total (b := b) hU (_ok (samples (py "running_version")))
  cases hver.symm.trans h
  refine ⟨_, _, heq, fun f hf => ?_, fun K => ?_, fun hnone => by rw [hnone]; rfl⟩
  · have hfrom : ∀ {cid : PyStr} {fs : List Finding}, FoundIn cid (_ok (samples cid)) fs → f ∈ fs →
        (_ok (samples f.check.command)).isSome = true := by
      intro cid fs hin hmem
      obtain ⟨hcid, hsome⟩ := hin f hmem
      rw [hcid]
      exact hsome
    rcases List.mem_append.1 hf with hf | hf <;> rcases List.mem_append.1 hf with hf | hf
    · exact hfrom hostIn hf
    · exact hfrom lateIn hf
    · exact hfrom balIn hf
    · exact hfrom verIn hf
  · obtain ⟨host', late', bal', ver', heq', hhost', hlate', hbal', hver'⟩ :=
      validator_findings_ok (b := b) hU (hC.keep (K := K)) c
    rw [heq', List.filter_append, List.filter_append, List.filter_append, hostIn.filter, lateIn.filter,
      balIn.filter, verIn.filter]
    rw [ok_keep] at hhost' hlate' hbal' hver' ⊢
    have hcount : (catchupRule b bundle.thresholds
        (if K (py "catchup") then _ok (samples (py "catchup")) else none) c).2 =
        if K (py "catchup") then (catchupRule b bundle.thresholds (_ok (samples (py "catchup"))) c).2
          else c := by
      split <;> rfl
    have hsame : host' = (if K (py "host_metrics") then host else []) ∧
        late' = (if K (py "catchup") then late else []) ∧
        bal' = (if K (py "identity_balance") then bal else []) ∧
        ver' = if K (py "running_version") then ver else [] := by
      obtain ⟨exp, hexp⟩ := hU.version
      have hnone : versionRule b bundle.deployment none = .ok [] := by rw [versionRule, hexp]; rfl
      exact ⟨kept_of_rule rfl hhost hhost',
        kept_of_rule (r := fun cu => (catchupRule b bundle.thresholds cu c).1) rfl hlate hlate',
        kept_of_rule rfl hbal hbal', kept_of_rule hnone hver hver'⟩
    rw [hcount, hsame.1, hsame.2.1, hsame.2.2.1, hsame.2.2.2]

/-! ## Runs -/

/-- The counter after some ticks. -/
def counterAfter (b : Builtins) (bundle : Bundle) (ticks : List Samples) : ConsecutiveCounter :=
  ticks.foldl (fun c samples => (validator_findings b samples bundle c).2) {}

/-- For each parsed catchup sample of the ticks, whether it is beyond the threshold. -/
def history (bundle : Bundle) (ticks : List Samples) : List Bool :=
  ticks.filterMap fun samples => (_ok (samples (py "catchup"))).map (exceeds bundle.thresholds)

/-- At least `P-03.samples` parsed catchup samples, the last ones, were beyond the threshold. -/
def LastExceeded (bundle : Bundle) (history : List Bool) : Prop :=
  ∃ k, enough bundle.thresholds k = .ok true ∧ LastAll k history

/-- `P-03.samples` is this integer. -/
def SamplesAre (bundle : Bundle) (m : Nat) : Prop :=
  ∃ r, index bundle.thresholds "P-03" = .ok r ∧ index r "samples" = .ok (.int m)

theorem history_snoc (ticks : List Samples) : history bundle (ticks ++ [samples]) = history bundle ticks ++
    ((_ok (samples (py "catchup"))).map (exceeds bundle.thresholds)).toList := by
  rw [history, List.filterMap_append, ← history]
  simp only [List.filterMap_cons, List.filterMap_nil]
  cases _ok (samples (py "catchup")) <;> rfl

/-- **The counter is the streak**, step by step. -/
theorem counter_streak (hU : Usable bundle) {ticks : List Samples} (hC : ∀ s ∈ ticks, Carries s) :
    (counterAfter b bundle ticks).n (py "delinquency") = streak (history bundle ticks) := by
  induction ticks using List.reverseRecOn with
  | nil => rfl
  | append_singleton ticks samples ih =>
    obtain ⟨hticks, hlast⟩ := List.forall_mem_append.1 hC
    have hS := hlast samples (List.mem_singleton_self samples)
    obtain ⟨_, _, _, _, heq, -⟩ := validator_findings_ok (b := b) hU hS (counterAfter b bundle ticks)
    rw [counterAfter, List.foldl_append, List.foldl_cons, List.foldl_nil, ← counterAfter, heq, history_snoc]
    cases hcu : _ok (samples (py "catchup")) with
    | none =>
      rw [Option.map_none, Option.toList_none, List.append_nil]
      exact ih hticks
    | some cu =>
      obtain ⟨z, hz⟩ := hS.catchup cu hcu
      obtain ⟨fs, hrule, -⟩ := catchupRule_some (b := b) (c := counterAfter b bundle ticks) hU hz
      rw [hrule, Option.map_some, Option.toList_some, streak_snoc, ← ih hticks]
      dsimp only [ConsecutiveCounter.update]
      exact if_pos rfl

theorem le_fin (x y : Int) : (Json.Num.fin x).le (.fin y) = decide (x ≤ y) := by
  rw [Bool.eq_iff_iff]
  simp only [Json.Num.le, Json.Num.lt, Json.Num.eq, Bool.or_eq_true, decide_eq_true_eq, beq_iff_eq]
  omega

theorem pyLe_int (a b : Int) : Json.pyLe (.int a) (.int b) = some (decide (a ≤ b)) := by
  have h : (a * 2 ^ binary64.unit ≤ b * 2 ^ binary64.unit) ↔ a ≤ b := Int.mul_le_mul_right (by positivity)
  have hle : Json.numLe (.int a) (.int b) = some (decide (a * 2 ^ binary64.unit ≤ b * 2 ^ binary64.unit)) :=
    congrArg some (le_fin _ _)
  exact hle.trans (congrArg some (decide_eq_decide.2 h))

theorem enough_int {m k : Nat} (hm : SamplesAre bundle m) : enough bundle.thresholds k = .ok true ↔ m ≤ k := by
  obtain ⟨r, hr, hs⟩ := hm
  simp only [enough, hr, hs, ok_bind, pyLe_int, orRaise, Except.ok.injEq, decide_eq_true_eq, Nat.cast_le]

/-- With an integer the last that many are meant. -/
theorem lastExceeded_int {m : Nat} (hm : SamplesAre bundle m) {h : List Bool} :
    LastExceeded bundle h ↔ LastAll m h := by
  constructor
  · rintro ⟨k, hk, hlast⟩
    exact le_streak_iff.1 (Nat.le_trans ((enough_int hm).1 hk) (le_streak_iff.2 hlast))
  · exact fun hlast => ⟨m, (enough_int hm).2 (Nat.le_refl m), hlast⟩

/-- **Delinquency is found** exactly at a tick with a parsed catchup sample when the last samples were all
beyond the threshold. -/
theorem delinquency_iff (hU : Usable bundle) {ticks : List Samples} (hC : ∀ s ∈ ticks, Carries s)
    (hS : Carries samples) {fs : List Finding} {c' : ConsecutiveCounter}
    (h : validator_findings b samples bundle (counterAfter b bundle ticks) = (.ok fs, c')) :
    (∃ f ∈ fs, f.check = .delinquency) ↔ (_ok (samples (py "catchup"))).isSome = true ∧
      LastExceeded bundle (history bundle (ticks ++ [samples])) := by
  obtain ⟨host, late, bal, ver, heq, hhost, hlate, hbal, hver⟩ :=
    validator_findings_ok (b := b) hU hS (counterAfter b bundle ticks)
  obtain ⟨_, h', hostIn⟩ := hostRule_total (b := b) hU (_ok (samples (py "host_metrics")))
  cases hhost.symm.trans h'
  obtain ⟨_, h', balIn⟩ := balanceRule_total (b := b) hU hS.balance
  cases hbal.symm.trans h'
  obtain ⟨_, h', verIn⟩ := versionRule_total (b := b) hU (_ok (samples (py "running_version")))
  cases hver.symm.trans h'
  cases heq.symm.trans h
  -- the other rules have other commands
  have hother : ∀ {cid : PyStr} {o : Option Fields} {found : List Finding}, FoundIn cid o found →
      cid ≠ py "catchup" → ∀ f ∈ found, f.check ≠ .delinquency := by
    intro cid o found hin hne f hf hcheck
    rw [← (hin f hf).1, hcheck] at hne
    exact hne rfl
  have honly : (∃ f ∈ host ++ late ++ (bal ++ ver), f.check = .delinquency) ↔
      ∃ f ∈ late, f.check = .delinquency := by
    constructor
    · rintro ⟨f, hf, hcheck⟩
      rcases List.mem_append.1 hf with hf | hf <;> rcases List.mem_append.1 hf with hf | hf
      · exact absurd hcheck (hother hostIn (by decide) f hf)
      · exact ⟨f, hf, hcheck⟩
      · exact absurd hcheck (hother balIn (by decide) f hf)
      · exact absurd hcheck (hother verIn (by decide) f hf)
    · rintro ⟨f, hf, hcheck⟩
      exact ⟨f, List.mem_append_left _ (List.mem_append_right _ hf), hcheck⟩
  rw [honly]
  cases hcu : _ok (samples (py "catchup")) with
  | none =>
    rw [hcu] at hlate
    cases hlate
    exact iff_of_false (fun ⟨_, hf, _⟩ => absurd hf List.not_mem_nil) fun hs => nomatch hs.1
  | some cu =>
    obtain ⟨z, hz⟩ := hS.catchup cu hcu
    obtain ⟨fs, hrule, hchecks, hiff⟩ := catchupRule_some (b := b) (c := counterAfter b bundle ticks) hU hz
    rw [hcu, hrule] at hlate
    cases hlate
    have hn : ((counterAfter b bundle ticks).update (py "delinquency") (exceeds bundle.thresholds cu)).1 =
        streak (history bundle (ticks ++ [samples])) := by
      rw [history_snoc, hcu, Option.map_some, Option.toList_some, streak_snoc, ← counter_streak (b := b) hU hC]
      rfl
    rw [hn] at hiff
    constructor
    · rintro ⟨f, hf, -⟩
      exact ⟨rfl, _, hiff.1 (List.ne_nil_of_mem hf), le_streak_iff.1 (Nat.le_refl _)⟩
    · rintro ⟨-, k, hk, hlast⟩
      obtain ⟨f, hf⟩ := List.exists_mem_of_ne_nil _ (hiff.2 (enough_mono hk (le_streak_iff.2 hlast)))
      exact ⟨f, hf, hchecks f hf⟩

/-- **Validator findings over whole runs.** At every tick of a run under a usable bundle the rules
return findings of parsed samples, each rule on its own; and delinquency is found if and only if the
tick has a parsed catchup sample and the last `P-03.samples` parsed ones of the run were all beyond the
threshold. -/
theorem validator_findings_run (hU : Usable bundle) {ticks : List Samples} (hC : ∀ s ∈ ticks, Carries s)
    (hS : Carries samples) :
    (∀ c, ∃ fs c', TickFindings b bundle samples c fs c') ∧
    ∃ fs c', validator_findings b samples bundle (counterAfter b bundle ticks) = (.ok fs, c') ∧
      ((∃ f ∈ fs, f.check = .delinquency) ↔ (_ok (samples (py "catchup"))).isSome = true ∧
        LastExceeded bundle (history bundle (ticks ++ [samples]))) ∧
      ∀ m, SamplesAre bundle m → ((∃ f ∈ fs, f.check = .delinquency) ↔
        (_ok (samples (py "catchup"))).isSome = true ∧ LastAll m (history bundle (ticks ++ [samples]))) := by
  obtain ⟨fs, c', hfs⟩ := tickFindings (b := b) hU hS (counterAfter b bundle ticks)
  have hiff := delinquency_iff hU hC hS hfs.found
  refine ⟨tickFindings hU hS, fs, c', hfs.found, hiff, fun m hm => ?_⟩
  rw [hiff, lastExceeded_int hm]

end Rules

/-! ## Two bundles -/

/-- The value of a parameter of the examples, with a value for `P-04`. -/
def sampleValue (headroom : Json) (pid : PyStr) : Json :=
  if pid = py "P-03" then .obj [(py "samples", .int 2), (py "threshold", .int 150)]
  else if pid = py "P-04" then headroom
  else if pid = py "P-14" then .obj [(py "concurrency", .int 1)]
  else if pid = py "P-19" then .int 2
  else if pid = py "P-26" then .obj [(py "rpo_min", .int 1)]
  else .int 1

/-- A register without bounds. -/
def sampleRegister (headroom : Json) : Json :=
  .obj [(py "parameters", .obj (Register.parameterIds.map fun pid =>
    (pid, .obj [(py "value", sampleValue headroom pid)])))]

/-- The bundle that is built of it. -/
def sampleBundle (headroom : Json) : Bundle where
  thresholds := .obj (Register.parameterIds.map fun pid => (pid, sampleValue headroom pid))
  deployment := .obj [(py "expected_version", .str (py "2.2.0"))]

/-- One sample in a tick. -/
def only (cid : String) (fields : Fields) : Samples := fun c =>
  if c = py cid then some ⟨.str (py "ok"), (py "parsed", .bool true) :: fields⟩ else none

theorem only_other {cid : String} {fields : Fields} {c : PyStr} (h : c ≠ py cid) :
    _ok (only cid fields c) = none := by
  rw [only, if_neg h]
  rfl

/-- **A text for a threshold**: the builder takes the register, and a tick with a host sample raises. -/
theorem text_headroom_raises :
    ¬ ∀ (b : Builtins) (register t p deployment v : Json) (m : Nat) (samples : Samples)
      (c : ConsecutiveCounter), Register.generate_thresholds register = .ok t →
      index t "parameters" = .ok p → index deployment "expected_version" = .ok v →
      SamplesAre ⟨p, deployment⟩ m → 1 ≤ m → Carries samples →
      ∃ fs c', TickFindings b ⟨p, deployment⟩ samples c fs c' := by
  intro h
  have hbuilt : Register.generate_thresholds (sampleRegister (.str (py "15"))) =
      .ok (.obj [(py "parameters", (sampleBundle (.str (py "15"))).thresholds),
        (py "register_version", .null)]) := by decide +kernel
  have hcarries : Carries (only "host_metrics" [(py "min_free_pct", .int 3)]) := by
    constructor
    · intro cu hcu
      rw [only_other (by decide)] at hcu
      cases hcu
    · intro bal hbal
      rw [only_other (by decide)] at hbal
      cases hbal
  obtain ⟨fs, c', hfs⟩ := h sampleBuiltins _ _ _ (sampleBundle .null).deployment _ 2 _ {} hbuilt rfl rfl
    ⟨_, rfl, rfl⟩ (by decide) hcarries
  have hraises : (validator_findings sampleBuiltins (only "host_metrics" [(py "min_free_pct", .int 3)])
      (sampleBundle (.str (py "15"))) {}).1.isOk = false := by decide +kernel
  rw [show validator_findings _ _ (sampleBundle (.str (py "15"))) {} = _ from hfs.found] at hraises
  cases hraises

/-- Two samples 5000 slots behind, with numbers for the thresholds. -/
theorem two_late_samples : ∃ fs c', validator_findings sampleBuiltins
      (only "catchup" [(py "slots_behind", .int 5000)]) (sampleBundle (.int 15))
      (counterAfter sampleBuiltins (sampleBundle (.int 15))
        [only "catchup" [(py "slots_behind", .int 5000)]]) = (.ok fs, c') ∧
    ∃ f ∈ fs, f.check = .delinquency := by
  have hcarries : Carries (only "catchup" [(py "slots_behind", .int 5000)]) := by
    constructor
    · intro cu hcu
      cases hcu
      exact ⟨5000, rfl⟩
    · intro bal hbal
      rw [only_other (by decide)] at hbal
      cases hbal
  have hhalf : (halve (.int 1)).toOption.isSome = true := by decide +kernel
  obtain ⟨half, hhalf⟩ := Option.isSome_iff_exists.1 hhalf
  have husable : Usable (sampleBundle (.int 15)) :=
    { floor := ⟨.int 1, half, rfl, num_of_isNumber rfl, toOption_eq_some.1 hhalf⟩
      catchup := ⟨_, .int 150, .int 2, rfl, rfl, num_of_isNumber rfl, rfl, num_of_isNumber rfl⟩
      headroom := ⟨.int 15, rfl, num_of_isNumber rfl⟩
      version := ⟨_, rfl⟩ }
  have hticks : ∀ s ∈ [only "catchup" [(py "slots_behind", .int 5000)]], Carries s :=
    List.forall_mem_singleton.2 hcarries
  obtain ⟨-, fs, c', hfound, -, hiff⟩ := validator_findings_run (b := sampleBuiltins) husable hticks hcarries
  refine ⟨fs, c', hfound, (hiff 2 ⟨_, rfl, rfl⟩).2 ⟨rfl, [], [true, true], ?_, rfl, by decide⟩⟩
  decide +kernel

end Valops.Sentinel.Checks
