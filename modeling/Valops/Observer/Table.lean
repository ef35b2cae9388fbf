import Valops.Bundle.Registry
import Valops.Common.Builtins
import Valops.Py.Unicode

/-!
# The observer command table

`load_table_data` refuses the whole table if an entry is not read-only. What it accepts is a
`CommandTable`; `loaded_spec` says what is then true of each command in it.
-/

set_option autoImplicit false

namespace Valops.Observer

open Py Regex

/-! ## Lists of the loader -/

/-- The executables of `READ_ONLY_EXEC`. -/
inductive Executable where
  | solana | agave_validator
  deriving DecidableEq

def Executable.text : Executable → PyStr
  | .solana => py "solana"
  | .agave_validator => py "agave-validator"

/-- `READ_ONLY_EXEC`. -/
def READ_ONLY_EXEC : Executable → List PyStr
  | .solana => [py "catchup", py "balance", py "leader-schedule", py "epoch-info", py "slot",
      py "cluster-version", py "validators", py "feature"]
  | .agave_validator => [py "monitor"]

/-- `BUILTINS`. -/
def BUILTINS : List PyStr :=
  [py "host_metrics", py "host_hygiene", py "consensus_state_files", py "rpc_latency", py "log_tail",
    py "running_version"]

/-- `STATE_CHANGING`. -/
def STATE_CHANGING : List PyStr :=
  ["exit", "set-identity", "authorized-voter", "set-log-filter", "set-public-address",
    "repair-whitelist", "staked-nodes-overrides", "wait-for-restart-window", "transfer", "pay",
    "airdrop", "deploy", "program", "withdraw-stake", "withdraw-from-vote-account",
    "delegate-stake", "deactivate-stake", "split-stake", "merge-stake", "create-stake-account",
    "create-vote-account", "close-vote-account", "vote-authorize-voter",
    "vote-authorize-withdrawer", "vote-update-validator", "vote-update-commission",
    "stake-authorize", "redelegate-stake", "rm", "mv", "cp", "dd", "kill", "pkill", "killall",
    "systemctl", "service", "reboot", "shutdown", "restart", "stop", "start", "sudo", "su",
    "chmod", "chown", "tee", "truncate", "curl", "wget", "sh", "bash", "python", "python3",
    "--no-snapshot-fetch", "--snapshot", "download"].map py

/-- `PLACEHOLDERS`. -/
def PLACEHOLDERS : List PyStr :=
  [py "ledger", py "logfile", py "identity_pubkey", py "rpc_url", py "epoch", py "lines"]

/-- The class of `_META`. -/
def isMeta (c : Nat) : Bool :=
  c ∈ [59, 124, 38, 36, 96, 60, 62, 40, 41, 123, 125, 42, 63, 33, 92, 10, 13, 39, 34, 126]

/-- `_META`. -/
def META : Regex Nat := char isMeta

/-- `_PLACEHOLDER`. -/
def PLACEHOLDER : Regex Nat :=
  seqs [atStart, char fun c => c = 123, group 1 (plus (char fun c => isLower c || c = 95)),
    char fun c => c = 125, atLastEnd]

/-- `m.group(1)` of a token that is a placeholder. -/
def placeholder (tok : PyStr) : Option PyStr :=
  (PLACEHOLDER.here (.start tok)).bind fun m => m.groups.head?.map Prod.snd

/-- `[a-z][a-z0-9_]{1,40}`. -/
def COMMAND_ID : Regex Nat :=
  seq (char isLower) (rep true 1 (some 40) (char fun c => isLower c || isDigit c || c = 95))

/-! ## Commands -/

/-- `ARG_TYPES`. -/
inductive ArgType where
  | int | pubkey
  deriving DecidableEq

def ArgType.text : ArgType → PyStr
  | .int => py "int"
  | .pubkey => py "pubkey"

/-- `ArgSpec`; what the table has for bounds is not checked. -/
structure ArgSpec where
  type : ArgType
  min : Json := .null
  max : Json := .null
  required : Bool := false
  deriving DecidableEq

inductive CommandKind where
  | exec | builtin | unavailable
  deriving DecidableEq

/-- `Command`. -/
structure Command where
  id : PyStr
  kind : CommandKind
  argv : List PyStr := []
  optional_argv : List (PyStr × List PyStr) := []
  args : List (PyStr × ArgSpec) := []
  parser : Json := .null
  timeout_s : Double
  output_cap_bytes : Int := 16384
  timeout_is_sample : Bool := false
  rpc_backed : Bool := false
  deriving DecidableEq

/-- `CommandTable`. -/
structure CommandTable where
  version : Int
  commands : List (PyStr × Command)
  deriving DecidableEq

/-! ## Loading -/

/-- What the loader raises: a `TableError` with its text, or what reading the values raises. -/
inductive Refusal where
  | table (text : Msg)
  | exc (e : Exc)
  deriving DecidableEq

/-- A computation among those that may also raise a `TableError`. -/
def raising {α : Type} (x : Except Exc α) : Except Refusal α :=
  match x with
  | .ok a => .ok a
  | .error e => .error (.exc e)

/-- `if c: raise TableError(f"{cid}: ...")`. -/
def refuseIf (c : Bool) (cid : PyStr) (text : Msg) : Except Refusal Unit :=
  if c then .error (.table (.text cid :: .text (py ": ") :: text)) else .ok ()

/-- `v.items()`. -/
def items : Json → Except Exc Fields
  | .obj kvs => .ok kvs
  | _ => .error (.other .attributeError)

/-- `v in s`, for a set of strings: `v` is hashed. -/
def inSet (v : Json) (s : List PyStr) : Except Exc Bool :=
  if v.hashable then .ok (s.any fun x => v.eqStr x) else .error (.other .typeError)

section Load

variable (b : Builtins) (u : UnicodeData)

/-- The loop of `_check_tokens`; what it accepts are strings. -/
def _check_tokens (cid : PyStr) : List Json → Except Refusal (List PyStr)
  | [] => .ok []
  | .str tok :: rest => do
    refuseIf tok.isEmpty cid (msg "argv tokens must be non-empty strings")
    match placeholder tok with
    | some key =>
      refuseIf (decide (key ∉ PLACEHOLDERS)) cid [.text (py "unknown placeholder "), .text tok]
    | none => do
      refuseIf (META.search tok).isSome cid
        [.text (py "shell metacharacter in token "), .repr (.str tok)]
      refuseIf (decide (lower u tok ∈ STATE_CHANGING)) cid
        [.text (py "state-changing token "), .repr (.str tok)]
    let toks ← _check_tokens cid rest
    pure (tok :: toks)
  | _ :: _ => do
    refuseIf true cid (msg "argv tokens must be non-empty strings")
    pure []

/-- `a["type"]`, if it is in `ARG_TYPES`. -/
def argType (v : Json) : Option ArgType :=
  [ArgType.int, ArgType.pubkey].find? fun t => v.eqStr t.text

/-- The loop over `args`. -/
def readArgs (cid : PyStr) : Fields → Except Refusal (List (PyStr × ArgSpec))
  | [] => .ok []
  | (aname, a) :: rest => do
    let bad : Msg := [.text (py "bad arg spec "), .text aname]
    refuseIf (decide (aname ∉ PLACEHOLDERS)) cid bad
    let ty ← raising (get a "type")
    let known ← raising (inSet ty [ArgType.int.text, ArgType.pubkey.text])
    refuseIf (!known) cid bad
    let type ← raising (orRaise (argType ty) (.other .keyError))
    let min ← raising (get a "min")
    let max ← raising (get a "max")
    let required ← raising (get a "required")
    let specs ← readArgs cid rest
    pure ((aname, ⟨type, min, max, required.truthy⟩) :: specs)

/-- `next((t for t in argv[1:] if not t.startswith("-") and not _PLACEHOLDER.match(t)), None)`. -/
def subcommand : List Json → Except Exc (Option PyStr)
  | [] => .ok none
  | .str t :: rest =>
    if (py "-").isPrefixOf t || (placeholder t).isSome then subcommand rest else .ok (some t)
  | _ :: _ => .error (.other .attributeError)

/-- The loop over `optional_argv`. -/
def readOptional (cid : PyStr) (args : List (PyStr × ArgSpec)) :
    Fields → Except Refusal (List (PyStr × List PyStr))
  | [] => .ok []
  | (aname, toks) :: rest => do
    refuseIf (args.all fun a => a.1 ≠ aname) cid
      [.text (py "optional_argv for undeclared arg "), .text aname]
    let toks ← raising (iterItems toks)
    let toks ← _check_tokens u cid toks
    let opt ← readOptional cid args rest
    pure ((aname, toks) :: opt)

/-- `exe` and what may follow it. -/
def executable (v : Json) : Except Exc (Option Executable) :=
  if v.hashable then .ok ([Executable.solana, .agave_validator].find? fun e => v.eqStr e.text)
  else .error (.other .typeError)

/-- `argv` of an entry. -/
def readArgv (cid : PyStr) (e : Json) : Except Refusal (List PyStr) := do
  let v ← raising (get e "argv")
  let argv ← raising (iterItems (if v.truthy then v else .arr []))
  match argv with
  | [] => throw (.table [.text cid, .text (py ": empty argv")])
  | exe :: toks => do
    let x ← raising (executable exe)
    match x with
    | none => throw (.table
        [.text cid, .text (py ": executable "), .repr exe, .text (py " not in the read-only allowlist")])
    | some x => do
      let sub ← raising (subcommand toks)
      refuseIf (!(sub.any fun s => decide (s ∈ READ_ONLY_EXEC x))) cid
        [.str exe, .text (py " "), .repr ((sub.map Json.str).getD .null),
          .text (py " is not a read-only subcommand")]
      _check_tokens u cid argv

/-- The check of a command id. -/
def checkId (cid : PyStr) : Except Refusal Unit :=
  if fullmatch COMMAND_ID cid then .ok ()
  else .error (.table [.text (py "bad command id "), .repr (.str cid)])

/-- One entry. -/
def readCommand (cid : PyStr) (e : Json) : Except Refusal Command := do
  checkId cid
  let read_only ← raising (get e "read_only")
  refuseIf (decide (read_only ≠ .bool true)) cid
    (msg "every M0 command must be marked read_only: true (OD-3)")
  let kind ← raising (get e "kind")
  let a ← raising (get e "args")
  let a ← raising (items (orEmpty a))
  let args ← readArgs cid a
  if kind.eqStr (py "exec") then do
    let argv ← readArgv u cid e
    let o ← raising (get e "optional_argv")
    let o ← raising (items (orEmpty o))
    let optional_argv ← readOptional u cid args o
    let parser ← raising (get e "parser")
    let t ← raising (getD e "timeout_s" (.int 15))
    let timeout_s ← raising (b.float t)
    let c ← raising (getD e "output_cap_bytes" (.int 16384))
    let output_cap_bytes ← raising (b.int c)
    let timeout_is_sample ← raising (getD e "timeout_is_sample" (.bool false))
    let rpc_backed ← raising (getD e "rpc_backed" (.bool false))
    pure
      { id := cid, kind := .exec, argv, optional_argv, args, parser, timeout_s, output_cap_bytes
        timeout_is_sample := timeout_is_sample.truthy
        rpc_backed := rpc_backed.truthy }
  else if kind.eqStr (py "builtin") then do
    refuseIf (decide (cid ∉ BUILTINS)) cid (msg "no such builtin")
    let t ← raising (getD e "timeout_s" (.int 10))
    let timeout_s ← raising (b.float t)
    let c ← raising (getD e "output_cap_bytes" (.int 16384))
    let output_cap_bytes ← raising (b.int c)
    let rpc_backed ← raising (getD e "rpc_backed" (.bool false))
    pure { id := cid, kind := .builtin, args, timeout_s, output_cap_bytes
           rpc_backed := rpc_backed.truthy }
  else if kind.eqStr (py "unavailable") then do
    let timeout_s ← raising (b.float (.int 15))
    pure { id := cid, kind := .unavailable, timeout_s }
  else throw (.table [.text cid, .text (py ": kind must be exec|builtin|unavailable")])

/-- The loop over the commands. -/
def readCommands : Fields → Except Refusal (List (PyStr × Command))
  | [] => .ok []
  | (cid, e) :: rest => do
    let cmd ← readCommand b u cid e
    let cmds ← readCommands rest
    pure ((cid, cmd) :: cmds)

/-- `load_table_data`. -/
def load_table_data (data : Json) : Except Refusal CommandTable :=
  match get data "commands" with
  | .ok (.obj kvs) => do
    let commands ← readCommands b u kvs
    let v ← raising (getD data "version" (.int 1))
    let version ← raising (b.int v)
    pure ⟨version, commands⟩
  | _ => .error (.table (msg "command table must have a `commands` mapping"))

end Load

/-- `table.commands.get(cid)`. -/
def CommandTable.get (t : CommandTable) (cid : PyStr) : Option Command :=
  (t.commands.find? fun c => c.1 = cid).map Prod.snd

end Valops.Observer
