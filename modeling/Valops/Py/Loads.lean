import Valops.Py.Dumps

/-!
# `json.loads`

The decoder of the standard library: what it accepts besides strict JSON (`NaN`, `Infinity`, lone
surrogate escapes, repeated keys, of which the last counts) and what it refuses (control
characters in strings, integers of more than 4300 digits, trailing text). `loads` reads a `str`;
`loadsBytes` guesses the encoding of a `bytes` object first. Both return `none` for `ValueError`.

Every recursive call uses one unit of fuel and two calls consume at least one character, so the
fuel `loads` starts with is never used up. The interpreter's recursion limit is not modelled.

Main result: `loads_wf` (what is read is well-formed).
-/

set_option autoImplicit false

namespace Py

/-- White space between tokens. -/
def isWs (c : Nat) : Bool := c == 32 || c == 9 || c == 10 || c == 13

/-- Drop white space. -/
def skipWs (s : PyStr) : PyStr := s.dropWhile isWs

/-- `s` without the prefix `p`. -/
def dropPrefix : PyStr → PyStr → Option PyStr
  | [], s => some s
  | _ :: _, [] => none
  | a :: p, b :: s => if a = b then dropPrefix p s else none

/-! ## Strings -/

/-- The value of a hexadecimal digit. -/
def hexVal (c : Nat) : Option Nat :=
  if 48 ≤ c ∧ c ≤ 57 then some (c - 48)
  else if 97 ≤ c ∧ c ≤ 102 then some (c - 87)
  else if 65 ≤ c ∧ c ≤ 70 then some (c - 55)
  else none

/-- Four hexadecimal digits. -/
def scanHex4 : PyStr → Option (Nat × PyStr)
  | a :: b :: c :: d :: rest =>
    match hexVal a, hexVal b, hexVal c, hexVal d with
    | some x, some y, some z, some w => some (x * 4096 + y * 256 + z * 16 + w, rest)
    | _, _, _, _ => none
  | _ => none

/-- What follows the `u` of an escape. A high surrogate takes a following escaped low surrogate
with it; otherwise it stands alone. -/
def scanUnicode (s : PyStr) : Option (Nat × PyStr) :=
  match scanHex4 s with
  | none => none
  | some (hi, rest) =>
    if 0xD800 ≤ hi ∧ hi < 0xDC00 then
      match dropPrefix [92, 117] rest with
      | none => some (hi, rest)
      | some rest' =>
        match scanHex4 rest' with
        | none => none
        | some (lo, rest'') =>
          if 0xDC00 ≤ lo ∧ lo < 0xE000 then
            some (0x10000 + (hi - 0xD800) * 1024 + (lo - 0xDC00), rest'')
          else some (hi, rest)
    else some (hi, rest)

/-- What follows a backslash. -/
def scanEscape : PyStr → Option (Nat × PyStr)
  | [] => none
  | e :: s =>
    if e = 117 then scanUnicode s
    else if e = 34 ∨ e = 92 ∨ e = 47 then some (e, s)
    else if e = 98 then some (8, s)
    else if e = 102 then some (12, s)
    else if e = 110 then some (10, s)
    else if e = 114 then some (13, s)
    else if e = 116 then some (9, s)
    else none

/-- The rest of a string literal, after the opening quote. -/
def scanString : Nat → PyStr → Option (PyStr × PyStr)
  | 0, _ => none
  | _ + 1, [] => none
  | fuel + 1, c :: s =>
    if c = 34 then some ([], s)
    else if c = 92 then
      match scanEscape s with
      | none => none
      | some (c', rest) => (scanString fuel rest).map fun p => (c' :: p.1, p.2)
    else if c < 32 then none
    else (scanString fuel s).map fun p => (c :: p.1, p.2)

/-! ## Numbers -/

/-- The digits at the front. -/
def scanDigits (s : PyStr) : PyStr × PyStr := (s.takeWhile isDigit, s.dropWhile isDigit)

/-- The integer part: a single zero, or digits that do not start with one. -/
def scanInt : PyStr → Option (PyStr × PyStr)
  | [] => none
  | c :: s => if c = 48 then some ([48], s) else if isDigit c then some (scanDigits (c :: s)) else none

/-- The fraction: a point with at least one digit behind it. -/
def scanFrac : PyStr → Option (PyStr × PyStr)
  | 46 :: s => if (scanDigits s).1 = [] then none else some (scanDigits s)
  | _ => none

/-- The exponent's sign and digits. -/
def scanExpSign : PyStr → Bool × PyStr
  | 45 :: s => (true, s)
  | 43 :: s => (false, s)
  | s => (false, s)

/-- The exponent: `e` or `E`, a sign, at least one digit. -/
def scanExp : PyStr → Option (Int × PyStr)
  | [] => none
  | c :: s =>
    if c = 101 ∨ c = 69 then
      let t := scanExpSign s
      let ds := scanDigits t.2
      if ds.1 = [] then none
      else some (if t.1 then -(digitsVal ds.1 : Int) else digitsVal ds.1, ds.2)
    else none

/-- A number after its sign. -/
def scanMagnitude (neg : Bool) (s : PyStr) : Option (Json × PyStr) :=
  match scanInt s with
  | none => none
  | some (ip, s1) =>
    let frac := scanFrac s1
    let s2 := (frac.map Prod.snd).getD s1
    let exp := scanExp s2
    if frac.isNone && exp.isNone then
      if ip.length ≤ maxIntDigits then
        some (.int (if neg then -(digitsVal ip : Int) else digitsVal ip), s1)
      else none
    else
      let fp := (frac.map Prod.fst).getD []
      let e := (exp.map Prod.fst).getD 0
      let mag := ofDecimal binary64 (digitsVal (ip ++ fp)) (e - fp.length)
      some (.float (.num neg ⟨mag, Nat.lt_succ_of_le (ofDecimal_le binary64 _ _)⟩),
        (exp.map Prod.snd).getD s2)

/-- A number. -/
def scanNumber : PyStr → Option (Json × PyStr)
  | 45 :: s => scanMagnitude true s
  | s => scanMagnitude false s

/-- The constants, in the order they are looked for. -/
def constants : List (PyStr × Json) :=
  let infinity (neg : Bool) : Json := .float (.num neg ⟨binary64.top, Double.top_lt⟩)
  [(py "null", .null), (py "true", .bool true), (py "false", .bool false),
    (py "NaN", .float .nan), (py "Infinity", infinity false), (py "-Infinity", infinity true)]

/-- A constant. -/
def scanConst (s : PyStr) : Option (Json × PyStr) :=
  constants.findSome? fun c => (dropPrefix c.1 s).map fun rest => (c.2, rest)

/-! ## Values -/

mutual

/-- One value at the front of the text. -/
def scanValue : Nat → PyStr → Option (Json × PyStr)
  | 0, _ => none
  | _ + 1, [] => none
  | fuel + 1, c :: s =>
    if c = 34 then (scanString fuel s).map fun p => (.str p.1, p.2)
    else if c = 91 then
      match dropPrefix [93] (skipWs s) with
      | some rest => some (.arr [], rest)
      | none => (scanItems fuel (skipWs s)).map fun p => (.arr p.1, p.2)
    else if c = 123 then
      match dropPrefix [125] (skipWs s) with
      | some rest => some (.obj [], rest)
      | none => (scanFields fuel (skipWs s)).map fun p => (Json.mkObj p.1, p.2)
    else
      match scanConst (c :: s) with
      | some p => some p
      | none => scanNumber (c :: s)

/-- The members of an array up to its end. -/
def scanItems : Nat → PyStr → Option (List Json × PyStr)
  | 0, _ => none
  | fuel + 1, s =>
    match scanValue fuel s with
    | none => none
    | some (v, rest) =>
      match dropPrefix [44] (skipWs rest) with
      | some rest' => (scanItems fuel (skipWs rest')).map fun p => (v :: p.1, p.2)
      | none => (dropPrefix [93] (skipWs rest)).map fun r => ([v], r)

/-- The members of an object up to its end. -/
def scanFields : Nat → PyStr → Option (Fields × PyStr)
  | 0, _ => none
  | fuel + 1, s =>
    match scanField fuel s with
    | none => none
    | some (kv, rest) =>
      match dropPrefix [44] (skipWs rest) with
      | some rest' => (scanFields fuel (skipWs rest')).map fun p => (kv :: p.1, p.2)
      | none => (dropPrefix [125] (skipWs rest)).map fun r => ([kv], r)

/-- One member of an object. -/
def scanField : Nat → PyStr → Option ((PyStr × Json) × PyStr)
  | 0, _ => none
  | fuel + 1, s =>
    match dropPrefix [34] s with
    | none => none
    | some s1 =>
      match scanString fuel s1 with
      | none => none
      | some (k, rest) =>
        match dropPrefix [58] (skipWs rest) with
        | none => none
        | some rest' => (scanValue fuel (skipWs rest')).map fun p => ((k, p.1), p.2)

end

/-- `json.loads(s)` on a `str` that does not start with a byte order mark. -/
def loads (s : PyStr) : Option Json :=
  match scanValue (3 * s.length + 3) (skipWs s) with
  | some (v, rest) => if skipWs rest = [] then some v else none
  | none => none

/-! ## Encodings -/

/-- How `json.loads` reads `bytes`. -/
inductive Encoding where
  | utf8
  | utf8Sig
  | utf16 (big : Bool)
  | utf16Bom (big : Bool)
  | utf32 (big : Bool)
  | utf32Bom (big : Bool)
  deriving DecidableEq, Repr

/-- `json.detect_encoding`. -/
def detectEncoding (b : Bytes) : Encoding :=
  if [0x00, 0x00, 0xFE, 0xFF] <+: b then .utf32Bom true
  else if [0xFF, 0xFE, 0x00, 0x00] <+: b then .utf32Bom false
  else if [0xFE, 0xFF] <+: b then .utf16Bom true
  else if [0xFF, 0xFE] <+: b then .utf16Bom false
  else if [0xEF, 0xBB, 0xBF] <+: b then .utf8Sig
  else
    match b with
    | b0 :: b1 :: b2 :: b3 :: _ =>
      if b0 = 0 then (if b1 = 0 then .utf32 true else .utf16 true)
      else if b1 = 0 then (if b2 = 0 ∧ b3 = 0 then .utf32 false else .utf16 false)
      else .utf8
    | [b0, b1] => if b0 = 0 then .utf16 true else if b1 = 0 then .utf16 false else .utf8
    | _ => .utf8

/-- Sixteen-bit units. -/
def units16 (big : Bool) : Bytes → Option (List Nat)
  | [] => some []
  | [_] => none
  | a :: b :: rest =>
    (units16 big rest).map ((if big then a.toNat * 256 + b.toNat else b.toNat * 256 + a.toNat) :: ·)

/-- Surrogate pairs joined; lone surrogates pass. -/
def joinUnits : List Nat → PyStr
  | [] => []
  | [a] => [a]
  | a :: b :: rest =>
    if (0xD800 ≤ a ∧ a < 0xDC00) ∧ (0xDC00 ≤ b ∧ b < 0xE000) then
      (0x10000 + (a - 0xD800) * 1024 + (b - 0xDC00)) :: joinUnits rest
    else a :: joinUnits (b :: rest)

/-- Thirty-two-bit units, none above the last code point. -/
def units32 (big : Bool) : Bytes → Option PyStr
  | [] => some []
  | a :: b :: c :: d :: rest =>
    let n := if big then ((a.toNat * 256 + b.toNat) * 256 + c.toNat) * 256 + d.toNat
      else ((d.toNat * 256 + c.toNat) * 256 + b.toNat) * 256 + a.toNat
    if n < 0x110000 then (units32 big rest).map (n :: ·) else none
  | _ => none

/-- `b.decode(encoding, "surrogatepass")`. -/
def decodeAs : Encoding → Bytes → Option PyStr
  | .utf8, b => decodeUtf8 b
  | .utf8Sig, b => decodeUtf8 (b.drop 3)
  | .utf16 big, b => (units16 big b).map joinUnits
  | .utf16Bom big, b => (units16 big (b.drop 2)).map joinUnits
  | .utf32 big, b => units32 big b
  | .utf32Bom big, b => units32 big (b.drop 4)

/-- `json.loads(b)` on `bytes`. -/
def loadsBytes (b : Bytes) : Option Json := (decodeAs (detectEncoding b) b).bind loads

/-! ## What is read is well-formed -/

theorem constants_wf : ∀ c ∈ constants, c.2.WF := by
  intro c hc
  simp only [constants, List.mem_cons, List.not_mem_nil, or_false] at hc
  rcases hc with rfl | rfl | rfl | rfl | rfl | rfl
  · exact .null
  · exact .bool _
  · exact .bool _
  · exact .float _
  · exact .float _
  · exact .float _

theorem scanConst_wf {s : PyStr} {v : Json} {rest : PyStr} (h : scanConst s = some (v, rest)) :
    v.WF := by
  obtain ⟨c, hc, hs⟩ := List.exists_of_findSome?_eq_some h
  obtain ⟨_, _, he⟩ := Option.map_eq_some_iff.1 hs
  cases he
  exact constants_wf c hc

theorem scanMagnitude_wf {neg : Bool} {s : PyStr} {v : Json} {rest : PyStr}
    (h : scanMagnitude neg s = some (v, rest)) : v.WF := by
  unfold scanMagnitude at h
  split at h
  · cases h
  · rename_i ip s1 _
    dsimp only at h
    split at h
    · split at h
      · cases h
        exact .int _
      · cases h
    · cases h
      exact .float _

theorem scanNumber_wf {s : PyStr} {v : Json} {rest : PyStr} (h : scanNumber s = some (v, rest)) :
    v.WF := by
  unfold scanNumber at h
  split at h
  · exact scanMagnitude_wf h
  · exact scanMagnitude_wf h

/-- The four readers produce well-formed values; induction on the fuel. -/
theorem scan_wf : ∀ fuel : Nat,
    (∀ s v rest, scanValue fuel s = some (v, rest) → v.WF) ∧
    (∀ s vs rest, scanItems fuel s = some (vs, rest) → ∀ v ∈ vs, v.WF) ∧
    (∀ s kvs rest, scanFields fuel s = some (kvs, rest) → ∀ kv ∈ kvs, kv.2.WF) ∧
    (∀ s kv rest, scanField fuel s = some (kv, rest) → kv.2.WF) := by
  intro fuel
  induction fuel with
  | zero =>
    refine ⟨?_, ?_, ?_, ?_⟩
    · intro s v rest h
      cases h
    · intro s vs rest h
      cases h
    · intro s kvs rest h
      cases h
    · intro s kv rest h
      cases h
  | succ fuel ih =>
    obtain ⟨ihv, ihi, ihf, ihkv⟩ := ih
    refine ⟨?_, ?_, ?_, ?_⟩
    · intro s v rest h
      cases s with
      | nil => cases h
      | cons c s =>
        rw [scanValue] at h
        split at h
        · obtain ⟨p, _, hp⟩ := Option.map_eq_some_iff.1 h
          cases hp
          exact .str _
        split at h
        · split at h
          · cases h
            exact .arr fun _ hx => absurd hx List.not_mem_nil
          · obtain ⟨p, hp, he⟩ := Option.map_eq_some_iff.1 h
            cases he
            exact .arr (ihi _ _ _ hp)
        split at h
        · split at h
          · cases h
            exact .obj List.Pairwise.nil fun _ hx => absurd hx List.not_mem_nil
          · obtain ⟨p, hp, he⟩ := Option.map_eq_some_iff.1 h
            cases he
            exact Json.wf_mkObj (ihf _ _ _ hp)
        · split at h
          · rename_i hp
            cases h
            exact scanConst_wf hp
          · exact scanNumber_wf h
    · intro s vs rest h
      rw [scanItems] at h
      split at h
      · cases h
      · rename_i v r hv
        have hwf : v.WF := ihv _ _ _ hv
        split at h
        · obtain ⟨p, hp, he⟩ := Option.map_eq_some_iff.1 h
          cases he
          exact List.forall_mem_cons.2 ⟨hwf, ihi _ _ _ hp⟩
        · obtain ⟨p, _, he⟩ := Option.map_eq_some_iff.1 h
          cases he
          exact List.forall_mem_cons.2 ⟨hwf, fun _ hx => absurd hx List.not_mem_nil⟩
    · intro s kvs rest h
      rw [scanFields] at h
      split at h
      · cases h
      · rename_i kv r hkv
        have hwf : kv.2.WF := ihkv _ _ _ hkv
        split at h
        · obtain ⟨p, hp, he⟩ := Option.map_eq_some_iff.1 h
          cases he
          exact List.forall_mem_cons.2 ⟨hwf, ihf _ _ _ hp⟩
        · obtain ⟨p, _, he⟩ := Option.map_eq_some_iff.1 h
          cases he
          exact List.forall_mem_cons.2 ⟨hwf, fun _ hx => absurd hx List.not_mem_nil⟩
    · intro s kv rest h
      rw [scanField] at h
      split at h
      · cases h
      split at h
      · cases h
      split at h
      · cases h
      obtain ⟨p, hp, he⟩ := Option.map_eq_some_iff.1 h
      cases he
      exact ihv _ _ _ hp

/-- **What is read is well-formed.** -/
theorem loads_wf {s : PyStr} {v : Json} (h : loads s = some v) : v.WF := by
  unfold loads at h
  split at h
  · rename_i w rest hw
    split at h
    · cases h
      exact (scan_wf _).1 _ _ _ hw
    · cases h
  · cases h

theorem loadsBytes_wf {b : Bytes} {v : Json} (h : loadsBytes b = some v) : v.WF := by
  obtain ⟨s, _, hs⟩ := Option.bind_eq_some_iff.1 h
  exact loads_wf hs

end Py
