import Valops.Py.Json

/-!
# `json.dumps`

The two ways the program writes JSON: the defaults (`", "`, `": "`, everything outside ASCII
escaped) and the canonical form (no blanks, nothing escaped that need not be, then UTF-8). Both
sort the keys, which the representation of objects already does.

`dumps` fails on integers of more than 4300 digits, which `str` refuses to print; `canonical`
fails besides on lone surrogates, which have no UTF-8 form.
-/

set_option autoImplicit false

namespace Py

/-- The most digits `str(int)` prints and `int(str)` reads. -/
def maxIntDigits : Nat := 4300

/-! ## Strings -/

/-- A hexadecimal digit, lower case. -/
def hexDigit (n : Nat) : Nat := if n < 10 then 48 + n else 87 + n

/-- The escape of a sixteen-bit unit. -/
def unitEscape (n : Nat) : PyStr :=
  [92, 117, hexDigit (n / 4096 % 16), hexDigit (n / 256 % 16), hexDigit (n / 16 % 16),
    hexDigit (n % 16)]

/-- One character inside a string literal. -/
def charText (ascii : Bool) (c : Nat) : PyStr :=
  if c = 34 then [92, 34]
  else if c = 92 then [92, 92]
  else if c = 8 then [92, 98]
  else if c = 9 then [92, 116]
  else if c = 10 then [92, 110]
  else if c = 12 then [92, 102]
  else if c = 13 then [92, 114]
  else if c < 32 then unitEscape c
  else if ascii = false ∨ c < 127 then [c]
  else if c < 0x10000 then unitEscape c
  else
    unitEscape (0xD800 + (c - 0x10000) / 1024 % 1024) ++ unitEscape (0xDC00 + (c - 0x10000) % 1024)

/-- The characters of a string literal, without the quotes. -/
def charsText (ascii : Bool) (s : PyStr) : PyStr := s.flatMap (charText ascii)

/-- A string literal. -/
def strText (ascii : Bool) (s : PyStr) : PyStr := 34 :: (charsText ascii s ++ [34])

/-! ## Numbers -/

/-- The exponent part of a float: a sign and at least two digits. -/
def expText (e : Int) : PyStr :=
  101 :: (if e < 0 then 45 else 43) ::
    (if e.natAbs < 10 then 48 :: natText e.natAbs else natText e.natAbs)

/-- The decimal `0.ddd * 10 ^ (length + e)` with these digits: positional between `1e-4` and `1e16`,
otherwise with an exponent. -/
def decimalText (ds : PyStr) (e : Int) : PyStr :=
  let point : Int := ds.length + e
  if -4 < point ∧ point ≤ 16 then
    if point ≤ 0 then 48 :: 46 :: (List.replicate (-point).toNat 48 ++ ds)
    else if 0 ≤ e then ds ++ List.replicate e.toNat 48 ++ [46, 48]
    else ds.take point.toNat ++ 46 :: ds.drop point.toNat
  else ds.take 1 ++ (if ds.drop 1 = [] then [] else 46 :: ds.drop 1) ++ expText (point - 1)

/-- `repr` of a finite magnitude. -/
def magText (b : Nat) : PyStr :=
  if b = 0 then [48, 46, 48]
  else decimalText (natText (shortest binary64 b).1) (shortest binary64 b).2

/-- A float as `json.dumps` writes it. -/
def floatText : Double → PyStr
  | .nan => py "NaN"
  | .num neg mag =>
    (if neg then [45] else []) ++
      (if mag.val = binary64.top then py "Infinity" else magText mag.val)

/-! ## Values -/

/-- What distinguishes the two forms: whether non-ASCII characters are escaped, and the blanks
after a separator. -/
structure Style where
  ascii : Bool
  pad : PyStr

/-- `separators=(",", ":"), ensure_ascii=False`. -/
def Style.compact : Style := ⟨false, []⟩

/-- The defaults of `json.dumps`. -/
def Style.default : Style := ⟨true, [32]⟩

namespace Json

section Text

variable (st : Style)

mutual

/-- The text of a value. -/
def text : Json → PyStr
  | .null => py "null"
  | .bool b => if b then py "true" else py "false"
  | .int z => intText z
  | .float x => floatText x
  | .str s => strText st.ascii s
  | .arr xs => 91 :: (itemsText xs ++ [93])
  | .obj kvs => 123 :: (fieldsText kvs ++ [125])
termination_by structural v => v

/-- The members of an array. -/
def itemsText : List Json → PyStr
  | [] => []
  | x :: xs => text x ++ (if xs.isEmpty then [] else 44 :: (st.pad ++ itemsText xs))
termination_by structural xs => xs

/-- The members of an object. -/
def fieldsText : List (PyStr × Json) → PyStr
  | [] => []
  | kv :: rest => fieldText kv ++ (if rest.isEmpty then [] else 44 :: (st.pad ++ fieldsText rest))
termination_by structural kvs => kvs

/-- One member of an object. -/
def fieldText : PyStr × Json → PyStr
  | (k, v) => strText st.ascii k ++ 58 :: (st.pad ++ text v)
termination_by structural kv => kv

end

end Text

mutual

/-- Every integer in the value is short enough to print. -/
def printable : Json → Bool
  | .int z => decide ((natText z.natAbs).length ≤ maxIntDigits)
  | .arr xs => printableItems xs
  | .obj kvs => printableFields kvs
  | .null => true
  | .bool _ => true
  | .float _ => true
  | .str _ => true
termination_by structural v => v

def printableItems : List Json → Bool
  | [] => true
  | x :: xs => printable x && printableItems xs
termination_by structural xs => xs

def printableFields : List (PyStr × Json) → Bool
  | [] => true
  | kv :: rest => printableField kv && printableFields rest
termination_by structural kvs => kvs

def printableField : PyStr × Json → Bool
  | (_, v) => printable v
termination_by structural kv => kv

end

theorem printableItems_iff (xs : List Json) :
    printableItems xs = true ↔ ∀ x ∈ xs, printable x = true := by
  induction xs with
  | nil => simp [printableItems]
  | cons x xs ih => simp [printableItems, ih]

theorem printableFields_iff (kvs : Fields) :
    printableFields kvs = true ↔ ∀ kv ∈ kvs, printable kv.2 = true := by
  induction kvs with
  | nil => simp [printableFields]
  | cons kv rest ih =>
    obtain ⟨k, v⟩ := kv
    simp [printableFields, printableField, ih]

end Json

/-- `json.dumps(v, sort_keys=True)`; `none` is `ValueError`. -/
def dumps (v : Json) : Option PyStr :=
  if v.printable then some (v.text .default) else none

/-- `json.dumps(v, sort_keys=True, separators=(",", ":"), ensure_ascii=False).encode()`; `none` is
`ValueError`. -/
def canonical (v : Json) : Option Bytes :=
  if v.printable then encodeUtf8 (v.text .compact) else none

end Py
