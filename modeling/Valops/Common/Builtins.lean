import Valops.Common.Rpc

/-!
# Built-in functions

The functions of the language that print a value or read a number from text are parameters; `float`
and `int` of every other value are spelled out.
-/

set_option autoImplicit false

namespace Valops

open Py

/-- The built-in functions that print a value or read a number from text, and the names of the
exceptions. -/
structure Builtins where
  str : Json → PyStr
  repr : Json → PyStr
  float_of_text : PyStr → Option Double
  int_of_text : PyStr → Option Int
  class_name : PyErr → PyStr

namespace Builtins

variable (b : Builtins)

/-- A formatted string. -/
def format (m : Msg) : PyStr :=
  (m.map fun
    | .text s => s
    | .code c => c.text
    | .str v => b.str v
    | .repr v => b.repr v).flatten

/-- `float(v)`. -/
def float : Json → Except Exc Double
  | .float x => .ok x
  | .int z => orRaise (Double.ofInt? z) (.other .overflowError)
  | .bool c => orRaise (Double.ofInt? (if c then 1 else 0)) (.other .overflowError)
  | .str s => orRaise (b.float_of_text s) (.other .valueError)
  | _ => .error (.other .typeError)

/-- `int(v)`. -/
def int : Json → Except Exc Int
  | .int z => .ok z
  | .bool c => .ok (if c then 1 else 0)
  | .float .nan => .error (.other .valueError)
  | .float x => orRaise x.trunc? (.other .overflowError)
  | .str s => orRaise (b.int_of_text s) (.other .valueError)
  | _ => .error (.other .typeError)

@[simp] theorem int_int (z : Int) : b.int (.int z) = .ok z := rfl

end Builtins

/-- Built-in functions that read only plain decimals. -/
def sampleBuiltins : Builtins where
  str _ := []
  repr _ := []
  float_of_text _ := none
  int_of_text s := if s.all isDigit ∧ s ≠ [] then some (digitsVal s) else none
  class_name _ := []

end Valops
