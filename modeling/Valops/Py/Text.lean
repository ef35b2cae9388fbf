import Mathlib.Tactic

/-!
# Text and bytes

A Python `str` is a sequence of code points in which lone surrogates may occur: `json.loads`
produces them from `\ud800` escapes. `PyStr` keeps them, so that the places where the program
cannot encode a string are visible. `encodeUtf8` is `str.encode()`, which refuses surrogates;
`decodeUtf8` is `bytes.decode("utf-8", "surrogatepass")`, the decoder `json.loads` applies to
bytes.

Main results: `decodeUtf8_encodeUtf8` (decoding inverts encoding) and `ascii_not_mem_encodeUtf8`
(an ASCII byte only encodes its own character).
-/

set_option autoImplicit false

namespace Py

/-- A Python `str`: its code points, lone surrogates included. -/
abbrev PyStr := List Nat

instance : LawfulBEq PyStr := inferInstance

/-- A Python `bytes` object. -/
abbrev Bytes := List UInt8

/-- A string literal of the source. -/
def py (s : String) : PyStr := s.toList.map Char.toNat

/-- `str.isspace` on one character. -/
def isSpace (c : Nat) : Bool :=
  (9 ≤ c && c ≤ 13) || (28 ≤ c && c ≤ 32) || c == 0x85 || c == 0xA0 || c == 0x1680 ||
    (0x2000 ≤ c && c ≤ 0x200A) || c == 0x2028 || c == 0x2029 || c == 0x202F || c == 0x205F ||
    c == 0x3000

/-- `not s.strip()`: nothing but white space. -/
def PyStr.isBlank (s : PyStr) : Bool := s.all isSpace

/-- Surrogate code points, which no UTF encoding of text contains. -/
def isSurrogate (c : Nat) : Bool := 0xD800 ≤ c && c ≤ 0xDFFF

/-- Unicode scalar values: what every encoding of text can represent. -/
def isScalar (c : Nat) : Bool := decide (c < 0x110000) && !isSurrogate c

/-! ## Decimal digits -/

/-- An ASCII decimal digit. -/
def isDigit (c : Nat) : Bool := 48 ≤ c && c ≤ 57

/-- Digits of `n`, most significant first; `fuel` exceeds their number. -/
def natTextLoop : Nat → Nat → PyStr
  | 0, _ => []
  | fuel + 1, n =>
    if n < 10 then [48 + n] else natTextLoop fuel (n / 10) ++ [48 + n % 10]

/-- `str(n)` for a natural number. -/
def natText (n : Nat) : PyStr := natTextLoop (n + 1) n

/-- The number a digit sequence denotes. -/
def digitsVal (ds : PyStr) : Nat := ds.foldl (fun a c => 10 * a + (c - 48)) 0

/-- `str(z)` for an integer. -/
def intText (z : Int) : PyStr :=
  if z < 0 then 45 :: natText z.natAbs else natText z.natAbs

theorem foldl_digits (ds : PyStr) : ∀ a : Nat,
    ds.foldl (fun a c => 10 * a + (c - 48)) a = a * 10 ^ ds.length + digitsVal ds := by
  induction ds with
  | nil => intro a; simp [digitsVal]
  | cons c ds ih =>
    intro a
    have h0 : digitsVal (c :: ds) = (10 * 0 + (c - 48)) * 10 ^ ds.length + digitsVal ds := by
      rw [← ih]
      rfl
    rw [List.foldl_cons, ih, h0, List.length_cons]
    ring

theorem digitsVal_append (a b : PyStr) :
    digitsVal (a ++ b) = digitsVal a * 10 ^ b.length + digitsVal b := by
  unfold digitsVal
  rw [List.foldl_append, foldl_digits]
  rfl

theorem digitsVal_zeros (n : Nat) : digitsVal (List.replicate n 48) = 0 := by
  induction n with
  | zero => rfl
  | succ n ih =>
    rw [List.replicate_succ', digitsVal_append, ih]
    rfl

theorem natTextLoop_spec : ∀ fuel n : Nat, n < fuel →
    digitsVal (natTextLoop fuel n) = n ∧ (∀ c ∈ natTextLoop fuel n, isDigit c = true) ∧
      natTextLoop fuel n ≠ [] ∧ (0 < n → (natTextLoop fuel n).head? ≠ some 48)
  | 0, n, h => absurd h (by omega)
  | fuel + 1, n, h => by
    unfold natTextLoop
    split
    · rename_i hn
      refine ⟨by simp [digitsVal], ?_, by simp, ?_⟩
      · intro c hc
        rw [List.mem_singleton] at hc
        subst hc
        simp only [isDigit, Bool.and_eq_true, decide_eq_true_eq]
        omega
      · intro hpos
        simp only [List.head?_cons, ne_eq, Option.some.injEq]
        omega
    · rename_i hn
      obtain ⟨hv, hd, hne, hhead⟩ := natTextLoop_spec fuel (n / 10) (by omega)
      refine ⟨?_, ?_, by simp, ?_⟩
      · rw [digitsVal_append, hv]
        simp only [digitsVal, List.foldl_cons, List.foldl_nil, List.length_singleton]
        omega
      · intro c hc
        rw [List.mem_append, List.mem_singleton] at hc
        rcases hc with hc | rfl
        · exact hd c hc
        · simp only [isDigit, Bool.and_eq_true, decide_eq_true_eq]
          omega
      · intro _
        rw [List.head?_append_of_ne_nil _ hne]
        exact hhead (by omega)

@[simp] theorem digitsVal_natText (n : Nat) : digitsVal (natText n) = n :=
  (natTextLoop_spec (n + 1) n (by omega)).1

theorem natText_isDigit (n : Nat) : ∀ c ∈ natText n, isDigit c = true :=
  (natTextLoop_spec (n + 1) n (by omega)).2.1

theorem natText_ne_nil (n : Nat) : natText n ≠ [] :=
  (natTextLoop_spec (n + 1) n (by omega)).2.2.1

theorem natText_head? {n : Nat} (h : 0 < n) : (natText n).head? ≠ some 48 :=
  (natTextLoop_spec (n + 1) n (by omega)).2.2.2 h

theorem natText_injective {m n : Nat} (h : natText m = natText n) : m = n := by
  rw [← digitsVal_natText m, h, digitsVal_natText]

/-! ## UTF-8 -/

/-- The UTF-8 form of one code point; `none` for a surrogate. -/
def encodeChar (c : Nat) : Option Bytes :=
  if c < 0x80 then some [UInt8.ofNat c]
  else if c < 0x800 then some [UInt8.ofNat (0xC0 + c / 64), UInt8.ofNat (0x80 + c % 64)]
  else if isSurrogate c then none
  else if c < 0x10000 then
    some [UInt8.ofNat (0xE0 + c / 4096), UInt8.ofNat (0x80 + c / 64 % 64),
      UInt8.ofNat (0x80 + c % 64)]
  else if c < 0x110000 then
    some [UInt8.ofNat (0xF0 + c / 262144), UInt8.ofNat (0x80 + c / 4096 % 64),
      UInt8.ofNat (0x80 + c / 64 % 64), UInt8.ofNat (0x80 + c % 64)]
  else none

/-- `str.encode()`; `none` is `UnicodeEncodeError`. -/
def encodeUtf8 : PyStr → Option Bytes
  | [] => some []
  | c :: s =>
    match encodeChar c, encodeUtf8 s with
    | some b, some bs => some (b ++ bs)
    | _, _ => none

/-- A continuation byte's payload. -/
def tailBits (b : UInt8) : Option Nat :=
  if 0x80 ≤ b.toNat ∧ b.toNat < 0xC0 then some (b.toNat - 0x80) else none

/-- Read one character. Overlong forms and values above `0x10FFFF` are refused; surrogates are
let through, as the error handler `surrogatepass` does. -/
def decodeChar : Bytes → Option (Nat × Bytes)
  | [] => none
  | a :: rest =>
    if a.toNat < 0x80 then some (a.toNat, rest)
    else if 0xC2 ≤ a.toNat ∧ a.toNat < 0xE0 then
      match rest with
      | b :: rest =>
        (tailBits b).map fun y => ((a.toNat - 0xC0) * 64 + y, rest)
      | [] => none
    else if 0xE0 ≤ a.toNat ∧ a.toNat < 0xF0 then
      match rest with
      | b :: c :: rest =>
        match tailBits b, tailBits c with
        | some y, some z =>
          let n := (a.toNat - 0xE0) * 4096 + y * 64 + z
          if n < 0x800 then none else some (n, rest)
        | _, _ => none
      | _ => none
    else if 0xF0 ≤ a.toNat ∧ a.toNat < 0xF5 then
      match rest with
      | b :: c :: d :: rest =>
        match tailBits b, tailBits c, tailBits d with
        | some y, some z, some w =>
          let n := (a.toNat - 0xF0) * 262144 + y * 4096 + z * 64 + w
          if n < 0x10000 ∨ 0x110000 ≤ n then none else some (n, rest)
        | _, _, _ => none
      | _ => none
    else none

/-- Read characters while input is left; `fuel` bounds their number. -/
def decodeLoop : Nat → Bytes → Option PyStr
  | _, [] => some []
  | 0, _ :: _ => none
  | fuel + 1, bs =>
    match decodeChar bs with
    | some (c, rest) => (decodeLoop fuel rest).map (c :: ·)
    | none => none

/-- `bytes.decode("utf-8", "surrogatepass")`; `none` is `UnicodeDecodeError`. Every character
takes at least one byte, so the length is fuel enough. -/
def decodeUtf8 (bs : Bytes) : Option PyStr := decodeLoop bs.length bs

theorem toNat_ofNat_lt {n : Nat} (h : n < 256) : (UInt8.ofNat n).toNat = n := by
  simp [UInt8.toNat_ofNat', Nat.mod_eq_of_lt h]

theorem tailBits_ofNat {n : Nat} (h : n < 64) : tailBits (UInt8.ofNat (0x80 + n)) = some n := by
  have e : (UInt8.ofNat (0x80 + n)).toNat = 0x80 + n := toNat_ofNat_lt (by omega)
  unfold tailBits
  rw [e]
  have hb : 0x80 ≤ 0x80 + n ∧ 0x80 + n < 0xC0 := by omega
  simp only [hb, and_self, if_true, Nat.add_sub_cancel_left]

/-- Reading back one encoded character. -/
theorem decodeChar_encodeChar {c : Nat} {b : Bytes} (h : encodeChar c = some b) (rest : Bytes) :
    decodeChar (b ++ rest) = some (c, rest) := by
  unfold encodeChar at h
  split at h
  · rename_i h1
    simp only [Option.some.injEq] at h
    subst h
    simp only [List.cons_append, List.nil_append, decodeChar]
    rw [toNat_ofNat_lt (by omega), if_pos h1]
  split at h
  · rename_i h1 h2
    simp only [Option.some.injEq] at h
    subst h
    simp only [List.cons_append, List.nil_append, decodeChar]
    rw [toNat_ofNat_lt (by omega), if_neg (by omega), if_pos (by omega),
      tailBits_ofNat (by omega)]
    simp only [Option.map_some, Option.some.injEq, Prod.mk.injEq, and_true]
    omega
  split at h
  · simp at h
  split at h
  · rename_i h1 h2 h3 h4
    simp only [Option.some.injEq] at h
    subst h
    simp only [List.cons_append, List.nil_append, decodeChar]
    rw [toNat_ofNat_lt (by omega), if_neg (by omega), if_neg (by omega),
      if_pos (by omega), tailBits_ofNat (by omega),
      tailBits_ofNat (by omega)]
    have e : (0xE0 + c / 4096 - 0xE0) * 4096 + c / 64 % 64 * 64 + c % 64 = c := by omega
    simp only [e]
    rw [if_neg (by omega)]
  split at h
  · rename_i h1 h2 h3 h4 h5
    simp only [Option.some.injEq] at h
    subst h
    simp only [List.cons_append, List.nil_append, decodeChar]
    rw [toNat_ofNat_lt (by omega), if_neg (by omega), if_neg (by omega),
      if_neg (by omega), if_pos (by omega), tailBits_ofNat (by omega),
      tailBits_ofNat (by omega), tailBits_ofNat (by omega)]
    have e : (0xF0 + c / 262144 - 0xF0) * 262144 + c / 4096 % 64 * 4096 + c / 64 % 64 * 64 +
        c % 64 = c := by omega
    simp only [e]
    rw [if_neg (by omega)]
  · simp at h

theorem encodeChar_ne_nil {c : Nat} {b : Bytes} (h : encodeChar c = some b) : b ≠ [] := by
  unfold encodeChar at h
  split_ifs at h <;> simp at h <;> subst h <;> simp

theorem decodeLoop_encodeUtf8 : ∀ (s : PyStr) (bs : Bytes), encodeUtf8 s = some bs →
    ∀ fuel, s.length ≤ fuel → decodeLoop fuel bs = some s
  | [], bs, h, fuel, _ => by
    simp only [encodeUtf8, Option.some.injEq] at h
    subst h
    cases fuel <;> rfl
  | c :: s, bs, h, fuel, hf => by
    simp only [encodeUtf8] at h
    cases hc : encodeChar c with
    | none => simp [hc] at h
    | some b =>
      cases hs : encodeUtf8 s with
      | none => simp [hc, hs] at h
      | some bs' =>
        simp only [hc, hs, Option.some.injEq] at h
        subst h
        obtain ⟨n, rfl⟩ : ∃ n, fuel = n + 1 := ⟨fuel - 1, by simp at hf; omega⟩
        have hne : b ++ bs' ≠ [] := by simp [encodeChar_ne_nil hc]
        have hdec := decodeChar_encodeChar hc bs'
        have ih := decodeLoop_encodeUtf8 s bs' hs n (by simpa using hf)
        cases hb : b ++ bs' with
        | nil => exact absurd hb hne
        | cons x xs =>
          rw [hb] at hdec
          simp [decodeLoop, hdec, ih]

theorem length_le_of_encodeUtf8 : ∀ (s : PyStr) (bs : Bytes), encodeUtf8 s = some bs →
    s.length ≤ bs.length
  | [], _, _ => Nat.zero_le _
  | c :: s, bs, h => by
    simp only [encodeUtf8] at h
    cases hc : encodeChar c with
    | none => simp [hc] at h
    | some b =>
      cases hs : encodeUtf8 s with
      | none => simp [hc, hs] at h
      | some bs' =>
        simp only [hc, hs, Option.some.injEq] at h
        subst h
        have ih := length_le_of_encodeUtf8 s bs' hs
        have hpos := List.length_pos_of_ne_nil (encodeChar_ne_nil hc)
        simp only [List.length_cons, List.length_append]
        omega

/-- **Decoding inverts encoding.** -/
theorem decodeUtf8_encodeUtf8 {s : PyStr} {bs : Bytes} (h : encodeUtf8 s = some bs) :
    decodeUtf8 bs = some s :=
  decodeLoop_encodeUtf8 s bs h _ (length_le_of_encodeUtf8 s bs h)

/-- Encoding is injective on what it accepts. -/
theorem encodeUtf8_injective {s t : PyStr} {bs : Bytes} (hs : encodeUtf8 s = some bs)
    (ht : encodeUtf8 t = some bs) : s = t := by
  have h := (decodeUtf8_encodeUtf8 hs).symm.trans (decodeUtf8_encodeUtf8 ht)
  exact Option.some.inj h

theorem isScalar_of_encodeChar {c : Nat} {b : Bytes} (h : encodeChar c = some b) :
    isScalar c = true := by
  unfold encodeChar at h
  simp only [isScalar, isSurrogate, Bool.and_eq_true, decide_eq_true_eq, Bool.not_eq_true',
    Bool.and_eq_false_iff, decide_eq_false_iff_not] at h ⊢
  split_ifs at h <;> omega

/-- What can be encoded has no surrogates. -/
theorem isScalar_of_encodeUtf8 : ∀ (s : PyStr) (bs : Bytes), encodeUtf8 s = some bs →
    ∀ c ∈ s, isScalar c = true
  | [], _, _, _, hc => absurd hc List.not_mem_nil
  | c :: s, bs, h, x, hx => by
    simp only [encodeUtf8] at h
    split at h
    · rename_i b bs' hc hs
      rcases List.mem_cons.1 hx with rfl | hx
      · exact isScalar_of_encodeChar hc
      · exact isScalar_of_encodeUtf8 s bs' hs x hx
    · cases h

theorem ascii_not_mem_encodeChar {n c : Nat} {b : Bytes} (hn : n < 128)
    (h : encodeChar c = some b) (hc : c ≠ n) : UInt8.ofNat n ∉ b := by
  have key : ∀ m : Nat, m < 256 → m ≠ n → UInt8.ofNat n ≠ UInt8.ofNat m := by
    intro m hm hne heq
    have := congrArg UInt8.toNat heq
    rw [toNat_ofNat_lt hm, toNat_ofNat_lt (by omega)] at this
    exact hne this.symm
  unfold encodeChar at h
  split_ifs at h with h1 h2 h3 h4 h5 <;> simp only [Option.some.injEq] at h <;>
    subst h <;> simp only [List.mem_cons, List.not_mem_nil, or_false, not_or]
  · exact key _ (by omega) hc
  · exact ⟨key _ (by omega) (by omega), key _ (by omega) (by omega)⟩
  · exact ⟨key _ (by omega) (by omega), key _ (by omega) (by omega), key _ (by omega) (by omega)⟩
  · exact ⟨key _ (by omega) (by omega), key _ (by omega) (by omega), key _ (by omega) (by omega),
      key _ (by omega) (by omega)⟩

/-- **An ASCII byte only encodes its own character.** -/
theorem ascii_not_mem_encodeUtf8 {n : Nat} (hn : n < 128) : ∀ (s : PyStr) (bs : Bytes),
    encodeUtf8 s = some bs → n ∉ s → UInt8.ofNat n ∉ bs
  | [], bs, h, _ => by
    simp only [encodeUtf8, Option.some.injEq] at h
    subst h
    simp
  | c :: s, bs, h, hmem => by
    simp only [encodeUtf8] at h
    cases hc : encodeChar c with
    | none => simp [hc] at h
    | some b =>
      cases hs : encodeUtf8 s with
      | none => simp [hc, hs] at h
      | some bs' =>
        simp only [hc, hs, Option.some.injEq] at h
        subst h
        simp only [List.mem_cons, not_or] at hmem
        have h1 := ascii_not_mem_encodeChar hn hc (Ne.symm hmem.1)
        have h2 := ascii_not_mem_encodeUtf8 hn s bs' hs hmem.2
        simp [h1, h2]

theorem encodeUtf8_append : ∀ {s t : PyStr} {a b : Bytes}, encodeUtf8 s = some a →
    encodeUtf8 t = some b → encodeUtf8 (s ++ t) = some (a ++ b)
  | [], t, a, b, ha, hb => by
    simp only [encodeUtf8, Option.some.injEq] at ha
    subst ha
    exact hb
  | c :: s, t, a, b, ha, hb => by
    simp only [encodeUtf8] at ha
    split at ha
    · rename_i x xs hc hs
      cases ha
      have ih := encodeUtf8_append hs hb
      simp only [List.cons_append, encodeUtf8, hc, ih, List.append_assoc]
    · cases ha

theorem encodeChar_isSome {c : Nat} (h : isScalar c = true) : (encodeChar c).isSome = true := by
  simp only [isScalar, Bool.and_eq_true, decide_eq_true_eq, Bool.not_eq_true'] at h
  unfold encodeChar
  split
  · rfl
  split
  · rfl
  split
  · rename_i hs
    rw [h.2] at hs
    cases hs
  split
  · rfl
  split
  · rfl
  · rename_i hlt
    exact absurd h.1 hlt

/-- Text without surrogates can be encoded. -/
theorem encodeUtf8_isSome : ∀ {s : PyStr}, (∀ c ∈ s, isScalar c = true) →
    (encodeUtf8 s).isSome = true
  | [], _ => rfl
  | c :: s, h => by
    obtain ⟨hc, hs⟩ := List.forall_mem_cons.1 h
    obtain ⟨b, hb⟩ := Option.isSome_iff_exists.1 (encodeChar_isSome hc)
    obtain ⟨bs, hbs⟩ := Option.isSome_iff_exists.1 (encodeUtf8_isSome hs)
    simp only [encodeUtf8, hb, hbs, Option.isSome_some]

end Py
