import Valops.Common.Builtins
import Valops.Py.Lines
import Valops.Py.Unicode

/-!
# Parsers of command output

`PARSERS`: each finds what it knows in the text and answers `{"parsed": false}` otherwise. Reading a
number may raise, as `int` refuses a text with too many digits.
-/

set_option autoImplicit false

namespace Valops.Observer

open Py Regex

/-- `{"parsed": False}`. -/
def notParsed : Json := .obj [(py "parsed", .bool false)]

/-- One of the digits `0-9`. -/
def asciiDigits : Regex Nat := plus (char isDigit)

section Parsers

variable (b : Builtins) (u : UnicodeData)

/-- `(\d+)`. -/
def number (n : Nat) : Regex Nat := group n (plus (char (isDecimal u)))

/-- `_US_THEM`. -/
def US_THEM : Regex Nat :=
  seqs [word (py "us:"), star (char isSpace), number u 1, plus (char isSpace), word (py "them:"),
    star (char isSpace), number u 2]

/-- `_SOL`. -/
def SOL : Regex Nat :=
  seqs [lineStart, star (char isSpace),
    group 1 (seq asciiDigits (opt (seq (char fun c => c = 46) asciiDigits))), plus (char isSpace),
    word (py "SOL"), wordBoundary u]

/-- `_VERSION`. -/
def VERSION : Regex Nat :=
  seqs [wordBoundary u, group 1 (seqs [plus (char (isDecimal u)), char fun c => c = 46,
    plus (char (isDecimal u)), char fun c => c = 46, plus (char (isDecimal u))]), wordBoundary u]

/-- `_MONITOR_SLOT`. -/
def MONITOR_SLOT : Regex Nat :=
  seqs [group 1 (alts (["processed", "confirmed", "finalized"].map caselessWord)),
    rep true 0 (some 10) (char fun c => !isDecimal u c), number u 2]

/-- `_SCHED`. -/
def SCHED : Regex Nat :=
  seqs [lineStart, star (char isSpace), number u 1, plus (char isSpace),
    group 2 (rep true 32 (some 44) (char isBase58)), star (char isSpace), lineEnd]

/-- `catchup`. -/
def catchup (text : PyStr) : Except Exc Json :=
  match (US_THEM u).search text with
  | none => .ok notParsed
  | some m => do
    let us ← b.int (.str (groupOf m.2 1))
    let them ← b.int (.str (groupOf m.2 2))
    pure (Json.mkObj [(py "parsed", .bool true), (py "our_slot", .int us),
      (py "cluster_slot", .int them), (py "slots_behind", .int (max 0 (them - us))),
      (py "caught_up", .bool (decide (py "has caught up" <:+: text)))])

/-- `balance`. -/
def balance (text : PyStr) : Except Exc Json :=
  match (SOL u).search text with
  | none => .ok notParsed
  | some m => do
    let sol ← b.float (.str (groupOf m.2 1))
    pure (Json.mkObj [(py "parsed", .bool true), (py "balance_sol", .float sol)])

/-- The last line that has a version. -/
def lastVersion : List PyStr → Json
  | [] => notParsed
  | ln :: rest =>
    match (VERSION u).search ln with
    | some m => Json.mkObj [(py "parsed", .bool true), (py "version", .str (groupOf m.2 1))]
    | none => lastVersion rest

/-- `running_version`. -/
def running_version (text : PyStr) : Json :=
  lastVersion u ((splitlines text).filter fun ln =>
    py "Starting validator with" <:+: ln ∨ py "agave-validator" <:+: ln).reverse

/-- `{k.lower(): int(v) for k, v in ...}`. -/
def slotsOf : List (Place Nat × PyStr) → Except Exc Fields
  | [] => .ok []
  | m :: rest => do
    let v ← b.int (.str (groupOf m.1 2))
    let slots ← slotsOf rest
    pure ((lower u (groupOf m.1 1), .int v) :: slots)

/-- `validator_monitor`. -/
def validator_monitor (text : PyStr) : Except Exc Json := do
  let slots ← slotsOf b u ((MONITOR_SLOT u).found text)
  if slots.isEmpty then pure notParsed
  else pure (Json.mkObj [(py "parsed", .bool true), (py "slots", Json.mkObj slots)])

/-- `[int(s) for s, pk in ... if pk == ident]`. -/
def ownSlots (ident : Json) : List (Place Nat × PyStr) → Except Exc (List Json)
  | [] => .ok []
  | m :: rest =>
    if ident.eqStr (groupOf m.1 2) then do
      let s ← b.int (.str (groupOf m.1 1))
      let slots ← ownSlots ident rest
      pure (.int s :: slots)
    else ownSlots ident rest

/-- `leader_schedule_self`. -/
def leader_schedule_self (text : PyStr) (local_ : Fields) : Except Exc Json := do
  let ident := (Json.lookup (py "identity_pubkey") local_).getD .null
  let slots ← ownSlots b ident ((SCHED u).found text)
  if slots.isEmpty ∧ ((SCHED u).search text).isNone then pure notParsed
  else pure (Json.mkObj [(py "parsed", .bool true), (py "own_leader_slots", .arr (slots.take 200)),
    (py "count", .int slots.length)])

/-- `PARSERS`. -/
inductive Parser where
  | catchup | balance | running_version | validator_monitor | leader_schedule_self
  deriving DecidableEq

def Parser.text : Parser → PyStr
  | .catchup => py "catchup"
  | .balance => py "balance"
  | .running_version => py "running_version"
  | .validator_monitor => py "validator_monitor"
  | .leader_schedule_self => py "leader_schedule_self"

/-- `PARSERS.get(cmd.parser or "")`; the key is hashed. -/
def parserOf (v : Json) : Except Exc (Option Parser) :=
  let key := if v.truthy then v else .str []
  if key.hashable then
    .ok ([Parser.catchup, .balance, .running_version, .validator_monitor, .leader_schedule_self].find?
      fun p => key.eqStr p.text)
  else .error (.other .typeError)

/-- A parser on a text. -/
def runParser (p : Parser) (text : PyStr) (local_ : Fields) : Except Exc Json :=
  match p with
  | .catchup => catchup b u text
  | .balance => balance b u text
  | .running_version => .ok (running_version u text)
  | .validator_monitor => validator_monitor b u text
  | .leader_schedule_self => leader_schedule_self b u text local_

end Parsers

end Valops.Observer
