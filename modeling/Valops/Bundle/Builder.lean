import Valops.Bundle.Registry
import Valops.Observer.Table
import Valops.Verifier.RuleFile

/-!
# The bundle builder

`build` makes the thresholds of a register and checks the files of a staging directory; what comes after
that only copies, hashes and signs files. A staging directory is what the checks see of it: which paths
are files, what the YAML files say, and the names in `verifier`.
-/

set_option autoImplicit false

namespace Valops.Builder

open Py

/-- The staging directory. -/
structure Stage where
  is_file : PyStr → Bool
  yaml : PyStr → Except Exc Json
  rules : List PyStr

/-- What the builder raises: a `BuildError` with its text, what the loaders it calls refuse, or what
reading the values raises. -/
inductive Refusal where
  | build (text : Msg)
  | register (r : Register.Refusal)
  | table (r : Observer.Refusal)
  | rule (r : Rules.Refusal)
  | exc (e : Exc)
  deriving DecidableEq

/-- A computation among those that may also raise something else. -/
def lifted {ε α : Type} (f : ε → Refusal) (x : Except ε α) : Except Refusal α :=
  match x with
  | .ok a => .ok a
  | .error e => .error (f e)

/-- A computation that only reads values. -/
abbrev raising {α : Type} (x : Except Exc α) : Except Refusal α := lifted .exc x

/-- `if c: raise BuildError(text)`. -/
def refuseIf (c : Bool) (text : Msg) : Except Refusal Unit :=
  if c then .error (.build text) else .ok ()

/-- `REQUIRED`. -/
def REQUIRED : List PyStr :=
  ["command_table.yaml", "deployment.yaml", "providers.yaml", "pricing.yaml", "fault_classes.yaml",
    "judge_checklist.yaml", "skills/index.yaml"].map py

/-- `ADAPTERS`. -/
def ADAPTERS : List PyStr := ["claude_sdk", "codex_cli", "antigravity_cli", "native"].map py

/-- `PROVIDERS`. -/
def PROVIDERS : List PyStr := ["anthropic", "openai", "google"].map py

/-- `ADMISSION`. -/
def ADMISSION : List PyStr := ["pending", "admitted", "native_only", "not_admitted"].map py

/-- `CONSENSUS_MODES`. -/
def CONSENSUS_MODES : List PyStr := ["tower", "alpenglow"].map py

/-- `v in names`, for a tuple of strings. -/
def among (names : List PyStr) (v : Json) : Bool := names.any fun s => v.eqStr s

/-- `v.get(k)`. -/
def getAt (v k : Json) : Except Exc Json :=
  match v with
  | .obj kvs => do
    hashed k
    match k with
    | .str s => pure ((Json.lookup s kvs).getD .null)
    | _ => pure .null
  | _ => .error (.other .attributeError)

/-- `v.values()`. -/
def values (v : Json) : Except Exc (List Json) := (Observer.items v).map fun kvs => kvs.map Prod.snd

/-! ## The deployment -/

/-- The deployment must say this. -/
def requireFact (dep : Json) (k : String) : Except Refusal Unit := do
  let v ← raising (get dep k)
  refuseIf (!v.truthy) [.text (py "deployment."), .text (py k), .text (py " required")]

/-- The checks of `deployment.yaml`. -/
def checkDeployment (dep : Json) : Except Refusal Unit := do
  let client ← raising (get dep "client")
  refuseIf (!client.eqStr (py "agave")) (msg "M0 supports the Agave client only (D2)")
  let mode ← raising (get dep "declared_consensus_mode")
  refuseIf (!among CONSENSUS_MODES mode)
    (msg "deployment.declared_consensus_mode must be tower|alpenglow")
  ["validator_id", "identity_pubkey", "expected_version", "cluster"].forM (requireFact dep)
  let cluster ← raising (index dep "cluster")
  refuseIf (!cluster.eqStr (py "testnet")) (msg "M0 runs on testnet only (D3)")

/-! ## The providers -/

section Providers

variable (b : Builtins)

/-- The text of an error about a configuration. -/
def aboutConfiguration (name : PyStr) (text : String) : Msg :=
  [.text (py "configuration "), .text name, .text (py text)]

/-- `"REPLACE" in str(v)`. -/
def unpinned (v : Json) : Bool := decide (py "REPLACE" <:+: b.str v)

/-- `isinstance(v, (int, float))`. -/
def isPrice : Json → Bool
  | .int _ => true
  | .float _ => true
  | .bool _ => true
  | _ => false

/-- `all(isinstance(price.get(k), (int, float)) for k in ...)`. -/
def priced (price : Json) : Except Exc Bool := do
  let input ← get price "input_per_mtok"
  if isPrice input then do
    let output ← get price "output_per_mtok"
    pure (isPrice output)
  else pure false

/-- A configuration that a role uses is pinned and has a price. -/
def checkUsed (pricing : Json) (name : PyStr) (c provider : Json) : Except Refusal Unit := do
  let pinned := aboutConfiguration name ": exact model and runtime version are required (D7)"
  let model ← raising (get c "model")
  refuseIf (!model.truthy) pinned
  let runtime ← raising (get c "runtime")
  let version ← raising (get (orEmpty runtime) "version")
  refuseIf (!version.truthy || unpinned b model || unpinned b version) pinned
  let prices ← raising (getAt pricing provider)
  let price ← raising (getAt (orEmpty prices) model)
  let unpriced := aboutConfiguration name ": no numeric price for " ++
    [.str provider, .text (py "/"), .str model, .text (py " (P-31)")]
  refuseIf (!price.truthy) unpriced
  let numeric ← raising (priced price)
  refuseIf (!numeric) unpriced

/-- The body of the loop over the configurations. -/
def checkConfiguration (used : List Json) (pricing : Json) (conf : PyStr × Json) :
    Except Refusal Unit := do
  let provider ← raising (get conf.2 "provider")
  refuseIf (!among PROVIDERS provider)
    (aboutConfiguration conf.1 ": provider must be one of ('anthropic', 'openai', 'google')")
  let adapter ← raising (get conf.2 "adapter")
  refuseIf (!among ADAPTERS adapter) (aboutConfiguration conf.1
    ": adapter must be one of ('claude_sdk', 'codex_cli', 'antigravity_cli', 'native')")
  let admission ← raising (get conf.2 "admission")
  refuseIf (!among ADMISSION admission) (aboutConfiguration conf.1
    ": admission must be one of ('pending', 'admitted', 'native_only', 'not_admitted')")
  if used.any fun r => r.eqStr conf.1 then checkUsed b pricing conf.1 conf.2 provider else pure ()

/-- A role names a configuration. -/
def checkRole (confs : Fields) (roles : Json) (r : Role) : Except Refusal Unit := do
  let name ← raising (getAt roles (.str r.text))
  raising (hashed name)
  let known :=
    match name with
    | .str s => (Json.lookup s confs).isSome
    | _ => false
  refuseIf (!known) [.text (py "providers.roles."), .text r.text, .text (py " must name a configuration")]

/-- One configuration serves all roles. -/
def checkMixed (prov roles : Json) : Except Refusal Unit := do
  let names ← raising (Role.all.mapM fun r => Register.subscript roles r.text)
  let mixed ← raising (get prov "allow_mixed_configurations")
  refuseIf (decide (names.dedup.length ≠ 1) && !mixed.truthy)
    (msg "one configuration must serve all roles in M0 (D22 not used)")

/-- The checks of `providers.yaml`, with the prices. -/
def checkProviders (stage : Stage) (prov : Json) : Except Refusal Unit := do
  let configurations ← raising (get prov "configurations")
  let pricing ← raising (stage.yaml (py "pricing.yaml"))
  let roles ← raising (get prov "roles")
  let used ← raising (values (orEmpty roles))
  used.forM fun v => raising (hashed v)
  let confs ← raising (Observer.items (orEmpty configurations))
  confs.forM (checkConfiguration b used (orEmpty pricing))
  Role.all.forM (checkRole confs (orEmpty roles))
  checkMixed prov (orEmpty roles)
  let endpoints ← raising (get prov "endpoints")
  let endpoints ← raising (iterItems (orEmpty endpoints))
  endpoints.forM fun p =>
    refuseIf (!among PROVIDERS p) [.text (py "unknown provider endpoint "), .str p]

end Providers

/-! ## The skills -/

/-- `modes == "any" or (isinstance(modes, list) and set(modes) <= set(CONSENSUS_MODES))`. -/
def modesAllowed (modes : Json) : Except Exc Bool :=
  match modes with
  | .arr xs =>
    if xs.all Json.hashable then .ok (xs.all (among CONSENSUS_MODES)) else .error (.other .typeError)
  | _ => .ok (modes.eqStr (py "any"))

/-- The body of the loop over the skills. -/
def checkSkill (stage : Stage) (skill : PyStr × Json) : Except Refusal Unit := do
  let about (text : String) : Msg := [.text (py "skill "), .text skill.1, .text (py text)]
  refuseIf (!stage.is_file (py "skills/" ++ skill.1 ++ py "/SKILL.md")) (about " has no SKILL.md")
  let modes ← raising (get skill.2 "modes")
  let allowed ← raising (modesAllowed modes)
  refuseIf (!allowed) (about ": modes must be 'any' or a subset of ('tower', 'alpenglow')")
  let roles ← raising (getD skill.2 "roles" (.arr []))
  let roles ← raising (iterItems roles)
  roles.forM fun r => refuseIf (Role.ofJson r).isNone (about ": unknown role " ++ [.str r])

/-! ## The whole directory -/

section Stage

variable (b : Builtins) (u : UnicodeData) (stage : Stage)

/-- A rule file is a rule. -/
def checkRule (name : PyStr) : Except Refusal Unit := do
  let rule ← raising (stage.yaml (py "verifier/" ++ name))
  lifted .rule (Rules.validate_rule rule name)

/-- `_validate`. -/
def _validate : Except Refusal Unit := do
  REQUIRED.forM fun rel => refuseIf (!stage.is_file rel) [.text (py "missing "), .text rel]
  let table ← raising (stage.yaml (py "command_table.yaml"))
  let _ ← lifted .table (Observer.load_table_data b u table)
  let dep ← raising (stage.yaml (py "deployment.yaml"))
  checkDeployment dep
  let prov ← raising (stage.yaml (py "providers.yaml"))
  checkProviders b stage prov
  let idx ← raising (stage.yaml (py "skills/index.yaml"))
  let skills ← raising (get (orEmpty idx) "skills")
  let skills ← raising (Observer.items (orEmpty skills))
  skills.forM (checkSkill stage)
  Role.all.forM fun r => refuseIf (!stage.is_file (py "prompts/" ++ r.text ++ py ".md"))
    [.text (py "missing prompts/"), .text r.text, .text (py ".md")]
  stage.rules.forM (checkRule stage)

/-- `build`, up to where it only handles files: the thresholds of the bundle. -/
def build (register : Json) : Except Refusal Json := do
  let thresholds ← lifted .register (Register.generate_thresholds register)
  _validate b u stage
  pure thresholds

end Stage

end Valops.Builder
