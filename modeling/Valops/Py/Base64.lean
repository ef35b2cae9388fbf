import Valops.Py.Text

/-!
# Base64

The decoder of the standard library skips characters outside the alphabet and ignores input behind
a complete padding. `b64u` encodes in the URL-safe alphabet and strips the padding; `b64uDec` puts
it back and decodes, reading the last two digits in both alphabets. `b64decode` reads the standard
alphabet.

Main result: `b64uDec_b64u`.
-/

set_option autoImplicit false

namespace Py

/-- The digit for six bits. -/
def b64Char (n : Nat) : Nat :=
  if n < 26 then 65 + n else if n < 52 then 71 + n else if n < 62 then n - 4
  else if n = 62 then 45 else 95

/-- The six bits of a digit of the standard alphabet, and with `url` of the URL-safe one too. -/
def b64Val (url : Bool) (c : Nat) : Option Nat :=
  if 65 ≤ c ∧ c ≤ 90 then some (c - 65)
  else if 97 ≤ c ∧ c ≤ 122 then some (c - 71)
  else if 48 ≤ c ∧ c ≤ 57 then some (c + 4)
  else if c = 43 ∨ (url = true ∧ c = 45) then some 62
  else if c = 47 ∨ (url = true ∧ c = 95) then some 63
  else none

/-- `base64.urlsafe_b64encode(data).rstrip(b"=").decode()`. -/
def b64u : Bytes → PyStr
  | a :: b :: c :: rest =>
    let n := (a.toNat * 256 + b.toNat) * 256 + c.toNat
    b64Char (n / 262144) :: b64Char (n / 4096 % 64) :: b64Char (n / 64 % 64) ::
      b64Char (n % 64) :: b64u rest
  | [a, b] =>
    let n := a.toNat * 256 + b.toNat
    [b64Char (n / 1024), b64Char (n / 16 % 64), b64Char (n % 16 * 4)]
  | [a] => [b64Char (a.toNat / 4), b64Char (a.toNat % 4 * 16)]
  | [] => []

/-- The decoder: `quad` counts the digits of the current group, `left` holds the bits not yet
written, `pads` the padding seen since the last digit. -/
def a2bLoop (url : Bool) : PyStr → Nat → Nat → Nat → Option Bytes
  | [], quad, _, _ => if quad = 0 then some [] else none
  | c :: s, quad, left, pads =>
    if c = 61 then
      if 2 ≤ quad then
        if 4 ≤ quad + (pads + 1) then some [] else a2bLoop url s quad left (pads + 1)
      else a2bLoop url s quad left pads
    else
      match b64Val url c with
      | none => a2bLoop url s quad left pads
      | some v =>
        match quad with
        | 0 => a2bLoop url s 1 v 0
        | 1 => (a2bLoop url s 2 (v % 16) 0).map (UInt8.ofNat (left * 4 + v / 16) :: ·)
        | 2 => (a2bLoop url s 3 (v % 4) 0).map (UInt8.ofNat (left * 16 + v / 4) :: ·)
        | _ => (a2bLoop url s 0 0 0).map (UInt8.ofNat (left * 64 + v) :: ·)

/-- `base64.b64decode(s)`; `none` is `ValueError`. -/
def b64decode (s : PyStr) : Option Bytes :=
  if s.all (· < 128) then a2bLoop false s 0 0 0 else none

/-- `base64.urlsafe_b64decode(s + "=" * (-len(s) % 4))`; `none` is `ValueError`. -/
def b64uDec (s : PyStr) : Option Bytes :=
  if s.all (· < 128) then a2bLoop true (s ++ List.replicate ((4 - s.length % 4) % 4) 61) 0 0 0
  else none

theorem b64Val_b64Char : ∀ n < 64, b64Val true (b64Char n) = some n ∧ b64Char n ≠ 61 ∧ b64Char n < 128 := by
  decide

theorem a2bLoop_b64Char {n : Nat} (h : n < 64) (s : PyStr) (quad left pads : Nat) :
    a2bLoop true (b64Char n :: s) quad left pads =
      match quad with
      | 0 => a2bLoop true s 1 n 0
      | 1 => (a2bLoop true s 2 (n % 16) 0).map (UInt8.ofNat (left * 4 + n / 16) :: ·)
      | 2 => (a2bLoop true s 3 (n % 4) 0).map (UInt8.ofNat (left * 16 + n / 4) :: ·)
      | _ => (a2bLoop true s 0 0 0).map (UInt8.ofNat (left * 64 + n) :: ·) := by
  obtain ⟨hv, h61, _⟩ := b64Val_b64Char n h
  rw [a2bLoop, if_neg h61, hv]

theorem ofNat_eq {n : Nat} {a : UInt8} (h : n = a.toNat) : UInt8.ofNat n = a := by
  rw [h, UInt8.ofNat_toNat]

/-- Decoding group by group. -/
theorem a2bLoop_b64u : ∀ bs : Bytes,
    a2bLoop true (b64u bs ++ List.replicate ((4 - (b64u bs).length % 4) % 4) 61) 0 0 0 = some bs
  | [] => rfl
  | [a] => by
    have ha := a.toNat_lt
    have hlen : (4 - (b64u [a]).length % 4) % 4 = 2 := rfl
    rw [hlen]
    show a2bLoop true (b64Char (a.toNat / 4) :: b64Char (a.toNat % 4 * 16) :: [61, 61]) 0 0 0 = _
    rw [a2bLoop_b64Char (by omega), a2bLoop_b64Char (by omega)]
    have hend : a2bLoop true [61, 61] 2 (a.toNat % 4 * 16 % 16) 0 = some [] := rfl
    simp only [hend, Option.map_some, Option.some.injEq, List.cons.injEq, and_true]
    exact ofNat_eq (by omega)
  | [a, b] => by
    have ha := a.toNat_lt
    have hb := b.toNat_lt
    have hlen : (4 - (b64u [a, b]).length % 4) % 4 = 1 := rfl
    rw [hlen]
    show a2bLoop true (b64Char ((a.toNat * 256 + b.toNat) / 1024) ::
      b64Char ((a.toNat * 256 + b.toNat) / 16 % 64) ::
      b64Char ((a.toNat * 256 + b.toNat) % 16 * 4) :: [61]) 0 0 0 = _
    rw [a2bLoop_b64Char (by omega), a2bLoop_b64Char (by omega)]
    have hend : ∀ n, n < 64 → a2bLoop true (b64Char n :: [61]) 2 ((a.toNat * 256 + b.toNat) / 16 % 64 % 16) 0 =
        some [UInt8.ofNat ((a.toNat * 256 + b.toNat) / 16 % 64 % 16 * 16 + n / 4)] := by
      intro n hn
      rw [a2bLoop_b64Char hn]
      rfl
    simp only [hend _ (show (a.toNat * 256 + b.toNat) % 16 * 4 < 64 by omega), Option.map_some,
      Option.some.injEq, List.cons.injEq, and_true]
    exact ⟨ofNat_eq (by omega), ofNat_eq (by omega)⟩
  | a :: b :: c :: rest => by
    have ha := a.toNat_lt
    have hb := b.toNat_lt
    have hc := c.toNat_lt
    have ih := a2bLoop_b64u rest
    have hlen : (4 - (b64u (a :: b :: c :: rest)).length % 4) % 4 =
        (4 - (b64u rest).length % 4) % 4 := by
      have : (b64u (a :: b :: c :: rest)).length = (b64u rest).length + 4 := rfl
      omega
    rw [hlen]
    generalize hn : (a.toNat * 256 + b.toNat) * 256 + c.toNat = n
    have hcut : b64u (a :: b :: c :: rest) = b64Char (n / 262144) :: b64Char (n / 4096 % 64) ::
        b64Char (n / 64 % 64) :: b64Char (n % 64) :: b64u rest := by
      rw [b64u, hn]
    rw [hcut]
    simp only [List.cons_append]
    rw [a2bLoop_b64Char (by omega)]
    simp only
    rw [a2bLoop_b64Char (by omega)]
    simp only
    rw [a2bLoop_b64Char (by omega)]
    simp only
    rw [a2bLoop_b64Char (by omega)]
    simp only [ih, Option.map_some, Option.some.injEq, List.cons.injEq, and_true]
    exact ⟨ofNat_eq (by omega), ofNat_eq (by omega), ofNat_eq (by omega)⟩

theorem b64u_ascii : ∀ bs : Bytes, ∀ c ∈ b64u bs, c < 128 ∧ c ≠ 46
  | [] => fun c hc => absurd hc List.not_mem_nil
  | [a] => by
    have ha := a.toNat_lt
    have key : ∀ n < 64, b64Char n < 128 ∧ b64Char n ≠ 46 := by decide
    have h0 : a.toNat / 4 < 64 := by omega
    have h1 : a.toNat % 4 * 16 < 64 := by omega
    exact List.forall_mem_cons.2 ⟨key _ h0, List.forall_mem_cons.2 ⟨key _ h1, fun c hc =>
      absurd hc List.not_mem_nil⟩⟩
  | [a, b] => by
    have ha := a.toNat_lt
    have hb := b.toNat_lt
    have key : ∀ n < 64, b64Char n < 128 ∧ b64Char n ≠ 46 := by decide
    have h0 : (a.toNat * 256 + b.toNat) / 1024 < 64 := by omega
    have h1 : (a.toNat * 256 + b.toNat) / 16 % 64 < 64 := by omega
    have h2 : (a.toNat * 256 + b.toNat) % 16 * 4 < 64 := by omega
    exact List.forall_mem_cons.2 ⟨key _ h0, List.forall_mem_cons.2 ⟨key _ h1,
      List.forall_mem_cons.2 ⟨key _ h2, fun c hc => absurd hc List.not_mem_nil⟩⟩⟩
  | a :: b :: c :: rest => by
    have ha := a.toNat_lt
    have hb := b.toNat_lt
    have hc := c.toNat_lt
    have key : ∀ n < 64, b64Char n < 128 ∧ b64Char n ≠ 46 := by decide
    have ih := b64u_ascii rest
    have h0 : ((a.toNat * 256 + b.toNat) * 256 + c.toNat) / 262144 < 64 := by omega
    have h1 : ((a.toNat * 256 + b.toNat) * 256 + c.toNat) / 4096 % 64 < 64 := by omega
    have h2 : ((a.toNat * 256 + b.toNat) * 256 + c.toNat) / 64 % 64 < 64 := by omega
    have h3 : ((a.toNat * 256 + b.toNat) * 256 + c.toNat) % 64 < 64 := by omega
    exact List.forall_mem_cons.2 ⟨key _ h0, List.forall_mem_cons.2 ⟨key _ h1,
      List.forall_mem_cons.2 ⟨key _ h2, List.forall_mem_cons.2 ⟨key _ h3, ih⟩⟩⟩⟩

/-- **Decoding inverts encoding.** -/
theorem b64uDec_b64u (bs : Bytes) : b64uDec (b64u bs) = some bs := by
  have hascii : (b64u bs).all (· < 128) = true := by
    rw [List.all_eq_true]
    intro c hc
    exact decide_eq_true (b64u_ascii bs c hc).1
  rw [b64uDec, if_pos hascii]
  exact a2bLoop_b64u bs

end Py
