import Valops.Observer.Table

/-!
# Arguments of observer commands

`validate_args` checks the arguments of a request against the command's specification, and
`assemble_argv` fills the placeholders of its tokens from them and from the local configuration.

A public key is checked with a pattern that ends in `$`, which also matches before a line feed at the
end; and the bounds of a number are compared with whatever the table has for them. So the checks are
exact on the requests that are `Plain` (`validate_args_exact_iff`).
-/

set_option autoImplicit false

namespace Valops.Observer

open Py Regex

/-- `BASE58`. -/
def BASE58 : Regex Nat := seqs [atStart, rep true 32 (some 44) (char isBase58), atLastEnd]

/-- What the functions raise: an `ArgError` with its text, or another exception. -/
inductive ArgFailure where
  | arg (text : Msg)
  | exc (e : Exc)
  deriving DecidableEq

/-- `if c: raise ArgError(text)`. -/
def refuseArg (c : Bool) (text : Msg) : Except ArgFailure Unit :=
  if c then .error (.arg text) else .ok ()

/-- A comparison with a bound that is stated. -/
def beyond (bound : Json) (violates : Json → Option Bool) : Except ArgFailure Bool :=
  if bound = .null then .ok false
  else
    match violates bound with
    | some c => .ok c
    | none => .error (.exc (.other .typeError))

/-- The checks of one value. -/
def checkArg (name : PyStr) (spec : ArgSpec) (v : Json) : Except ArgFailure Unit :=
  match spec.type with
  | .int =>
    match v with
    | .int z => do
      let low ← beyond spec.min fun m => (Json.int z).pyLt m
      let high ← if low then pure true else beyond spec.max fun m => m.pyLt (.int z)
      refuseArg high [.text name, .text (py " out of bounds ["), .str spec.min, .text (py ", "),
        .str spec.max, .text (py "]")]
    | _ => refuseArg true [.text name, .text (py " must be an integer")]
  | .pubkey =>
    match v with
    | .str s => refuseArg (!isMatch BASE58 s) [.text name, .text (py " must be a base58 public key")]
    | _ => refuseArg true [.text name, .text (py " must be a base58 public key")]

/-- The loop over the declared arguments. -/
def checkArgs (args : Fields) : List (PyStr × ArgSpec) → Except ArgFailure Fields
  | [] => .ok []
  | (name, spec) :: rest =>
    match Json.lookup name args with
    | none => do
      refuseArg spec.required [.text (py "missing arg "), .text name]
      checkArgs args rest
    | some v => do
      checkArg name spec v
      let out ← checkArgs args rest
      pure ((name, v) :: out)

/-- `set(args) - set(cmd.args)`. -/
def unknownArgs (cmd : Command) (args : Fields) : List PyStr :=
  (args.map Prod.fst).filter fun name => cmd.args.all fun a => a.1 ≠ name

/-- `validate_args`. -/
def validate_args (cmd : Command) (args : Json) : Except ArgFailure Fields :=
  match args with
  | .null => checkArgs [] cmd.args
  | .obj kvs => do
    let unknown := unknownArgs cmd kvs
    refuseArg (!unknown.isEmpty)
      [.text (py "unknown args "), .repr (.arr ((unknown.mergeSort (· ≤ ·)).map Json.str))]
    checkArgs kvs cmd.args
  | _ => .error (.arg (msg "args must be an object"))

section Assemble

variable (b : Builtins)

/-- `str(v)`. -/
def strOf (v : Json) : PyStr :=
  match v with
  | .str s => s
  | .int z => intText z
  | v => b.str v

/-- `fill`. -/
def fill (args local_ : Fields) (tok : PyStr) : Except ArgFailure PyStr :=
  match placeholder tok with
  | none => .ok tok
  | some key =>
    match Json.lookup key args with
    | some v => .ok (strOf b v)
    | none =>
      match Json.lookup key local_ with
      | some v => .ok (strOf b v)
      | none => .error (.arg [.text (py "placeholder "), .text key, .text (py " has no value")])

/-- `[fill(t) for t in toks]`. -/
def fillAll (args local_ : Fields) : List PyStr → Except ArgFailure (List PyStr)
  | [] => .ok []
  | tok :: rest => do
    let tok ← fill b args local_ tok
    let rest ← fillAll args local_ rest
    pure (tok :: rest)

/-- The tokens of a command with the blocks of the optional arguments that are given. -/
def Command.tokens (cmd : Command) (args : Fields) : List PyStr :=
  cmd.argv ++ (cmd.optional_argv.filter fun o => (Json.lookup o.1 args).isSome).flatMap Prod.snd

/-- `assemble_argv`. -/
def assemble_argv (cmd : Command) (args local_ : Fields) : Except ArgFailure (List PyStr) :=
  fillAll b args local_ (cmd.tokens args)

end Assemble

end Valops.Observer
