import Mathlib.Data.Nat.Log
import Valops.Py.Text

/-!
# Python floats

A `float` is an IEEE binary64 number. Its magnitude is kept as the low bits of the encoding, in
which the finite numbers come first, in increasing order, and infinity last; two encodings of one
number do not exist, so equality of the model's values is equality of the bits (all NaNs are one
value, as JSON text cannot tell them apart).

The arithmetic is stated for any binary interchange format. `roundMag` rounds a non-negative
rational to the nearest magnitude, ties to even. `shortest` is the decimal `repr` prints: the
fewest digits that round back to the number. Main results: `roundMag_magValue` (rounding an exactly
representable number returns it) and `ofDecimal_shortest` (the printed decimal reads back).
-/

set_option autoImplicit false

namespace Py

/-- A binary interchange format: `frac` bits of fraction, smallest positive number `2 ^ -unit`,
and `top`, the magnitude of infinity. -/
structure BinFormat where
  frac : Nat
  unit : Nat
  top : Nat

section Format

variable (F : BinFormat)

/-- The power of two that one unit in the last place of a magnitude stands for, counted from the
smallest positive number. -/
def magExp (b : Nat) : Nat := b / 2 ^ F.frac - 1

/-- The value of a finite magnitude in units of `2 ^ -unit`. -/
def magValue (b : Nat) : Nat := (b - magExp F b * 2 ^ F.frac) * 2 ^ magExp F b

/-- The magnitude nearest to `n / d` units, ties to the even one; infinity when the rounded value
is out of range. -/
def roundMag (n d : Nat) : Nat :=
  let q := n / d
  let k := Nat.log2 q - F.frac
  let m := q / 2 ^ k
  let b := k * 2 ^ F.frac + m
  let r := n - d * (m * 2 ^ k)
  min (if d * 2 ^ k < 2 * r ∨ (2 * r = d * 2 ^ k ∧ m % 2 = 1) then b + 1 else b) F.top

theorem roundMag_le (n d : Nat) : roundMag F n d ≤ F.top := Nat.min_le_right _ _

theorem roundMag_zero (d : Nat) : roundMag F 0 d = 0 := by
  simp [roundMag]

theorem magExp_mul_le (b : Nat) : magExp F b * 2 ^ F.frac ≤ b := by
  have h1 : magExp F b ≤ b / 2 ^ F.frac := Nat.sub_le _ _
  have h2 : b / 2 ^ F.frac * 2 ^ F.frac ≤ b := Nat.div_mul_le_self _ _
  exact (Nat.mul_le_mul_right _ h1).trans h2

/-- Either the magnitude is its own value, or its significand has its leading bit set. -/
theorem magExp_cases (b : Nat) :
    (magExp F b = 0 ∧ b < 2 * 2 ^ F.frac) ∨
      (2 ^ F.frac ≤ b - magExp F b * 2 ^ F.frac ∧
        b - magExp F b * 2 ^ F.frac < 2 * 2 ^ F.frac) := by
  have hdiv := Nat.div_add_mod b (2 ^ F.frac)
  have hmod := Nat.mod_lt b (show 0 < 2 ^ F.frac by positivity)
  unfold magExp
  generalize 2 ^ F.frac = Q at *
  cases he : b / Q with
  | zero =>
    left
    rw [he, Nat.mul_zero] at hdiv
    exact ⟨rfl, by omega⟩
  | succ k =>
    right
    have hk : Q * (k + 1) = k * Q + Q := by ring
    rw [he, hk] at hdiv
    rw [Nat.add_sub_cancel]
    generalize k * Q = t at *
    omega

/-- The exponent `roundMag` computes from an exactly representable number is the number's own. -/
theorem log2_magValue (b : Nat) : Nat.log2 (magValue F b) - F.frac = magExp F b := by
  rcases magExp_cases F b with ⟨h0, hb⟩ | ⟨hlo, hhi⟩
  · have hv : magValue F b = b := by simp [magValue, h0]
    rw [hv, h0]
    by_cases hz : b = 0
    · subst hz
      simp
    · rw [← Nat.pow_succ'] at hb
      have := (Nat.log2_lt hz).2 hb
      omega
  · have hp : 0 < 2 ^ magExp F b := by positivity
    have hQ : 0 < 2 ^ F.frac := by positivity
    have hne : magValue F b ≠ 0 := Nat.mul_ne_zero (by omega) (by omega)
    have h1 : 2 ^ (F.frac + magExp F b) ≤ magValue F b := by
      rw [pow_add]
      exact Nat.mul_le_mul_right _ hlo
    have h2 : magValue F b < 2 ^ (F.frac + 1 + magExp F b) := by
      rw [pow_add, Nat.pow_succ']
      exact Nat.mul_lt_mul_of_pos_right hhi hp
    have hle := (Nat.le_log2 hne).2 h1
    have hlt := (Nat.log2_lt hne).2 h2
    omega

/-- **Rounding an exactly representable number returns it.** -/
theorem roundMag_magValue {b d : Nat} (hb : b ≤ F.top) (hd : 0 < d) :
    roundMag F (magValue F b * d) d = b := by
  have hq : magValue F b * d / d = magValue F b := Nat.mul_div_cancel _ hd
  have hp : 0 < 2 ^ magExp F b := by positivity
  have hm : magValue F b / 2 ^ magExp F b = b - magExp F b * 2 ^ F.frac := Nat.mul_div_cancel _ hp
  have hle := magExp_mul_le F b
  have hr : magValue F b * d - d * ((b - magExp F b * 2 ^ F.frac) * 2 ^ magExp F b) = 0 := by
    rw [Nat.mul_comm d]
    exact Nat.sub_self _
  have hpos : 0 < d * 2 ^ magExp F b := Nat.mul_pos hd hp
  unfold roundMag
  simp only [hq, log2_magValue, hm, hr]
  rw [if_neg (by omega)]
  omega

/-- Rounding depends on the ratio only. -/
theorem roundMag_mul (n d : Nat) {c : Nat} (hc : 0 < c) :
    roundMag F (n * c) (d * c) = roundMag F n d := by
  have hq : n * c / (d * c) = n / d := Nat.mul_div_mul_right n d hc
  unfold roundMag
  simp only [hq]
  generalize Nat.log2 (n / d) - F.frac = k
  generalize n / d / 2 ^ k = m
  have hr : n * c - d * c * (m * 2 ^ k) = (n - d * (m * 2 ^ k)) * c := by
    rw [Nat.mul_right_comm, Nat.sub_mul]
  have e : d * c * 2 ^ k = d * 2 ^ k * c := Nat.mul_right_comm d c _
  have e2 : 2 * ((n - d * (m * 2 ^ k)) * c) = 2 * (n - d * (m * 2 ^ k)) * c :=
    (Nat.mul_assoc _ _ _).symm
  rw [hr, e, e2]
  simp only [Nat.mul_lt_mul_right hc, Nat.mul_left_inj (Nat.pos_iff_ne_zero.1 hc)]

/-! ## Decimal text -/

/-- The magnitude nearest to `mant * 10 ^ e`. -/
def ofDecimal (mant : Nat) (e : Int) : Nat :=
  if 0 ≤ e then roundMag F (mant * 10 ^ e.toNat * 2 ^ F.unit) 1
  else roundMag F (mant * 2 ^ F.unit) (10 ^ (-e).toNat)

theorem ofDecimal_le (mant : Nat) (e : Int) : ofDecimal F mant e ≤ F.top := by
  unfold ofDecimal
  split <;> exact roundMag_le F _ _

/-- A decimal with trailing zeros is the decimal without them. -/
theorem ofDecimal_zeros (mant z : Nat) (e : Int) :
    ofDecimal F (mant * 10 ^ z) e = ofDecimal F mant (e + z) := by
  unfold ofDecimal
  by_cases h : 0 ≤ e
  · rw [if_pos h, if_pos (by omega)]
    have hz : (e + z).toNat = z + e.toNat := by omega
    rw [hz, pow_add, Nat.mul_assoc mant]
  · rw [if_neg h]
    by_cases h2 : 0 ≤ e + z
    · rw [if_pos h2]
      have hz : z = (e + z).toNat + (-e).toNat := by omega
      generalize (e + z).toNat = j at hz ⊢
      generalize (-e).toNat = i at hz ⊢
      have hm := roundMag_mul F (mant * 10 ^ j * 2 ^ F.unit) 1 (c := 10 ^ i) (by positivity)
      rw [Nat.one_mul] at hm
      rw [← hm, hz, pow_add, ← Nat.mul_assoc, Nat.mul_right_comm _ (10 ^ i)]
    · rw [if_neg h2]
      have e1 : (-e).toNat = (-(e + z)).toNat + z := by omega
      have hm := roundMag_mul F (mant * 2 ^ F.unit) (10 ^ (-(e + z)).toNat) (c := 10 ^ z)
        (by positivity)
      rw [e1, pow_add, ← hm, Nat.mul_right_comm mant]

/-- Position of the decimal point: `10 ^ (p - 1) ≤ value < 10 ^ p`. The scale `10 ^ unit` makes
the smallest number an integer. -/
def decPoint (b : Nat) : Int :=
  Nat.log 10 (magValue F b * 10 ^ F.unit / 2 ^ F.unit) + 1 - F.unit

/-- The `n`-digit decimals on both sides of a magnitude that round back to it, the nearer one
first; on equal distance the one with an even last digit. Rounding up a single nine gives one
digit and a higher exponent. -/
def candidate (b n : Nat) : Option (Nat × Int) :=
  let e := decPoint F b - n
  let num := if 0 ≤ e then magValue F b else magValue F b * 10 ^ (-e).toNat
  let den := if 0 ≤ e then 2 ^ F.unit * 10 ^ e.toNat else 2 ^ F.unit
  let lo := num / den
  let r := num % den
  let order := if 2 * r < den ∨ (2 * r = den ∧ lo % 2 = 0) then [lo, lo + 1] else [lo + 1, lo]
  (order.find? fun m => ofDecimal F m e = b).map fun m => if m = 10 then (1, e + 1) else (m, e)

/-- The decimal `repr` prints. Seventeen digits always suffice for binary64; the exact expansion
closes the search. -/
def shortest (b : Nat) : Nat × Int :=
  ((List.range' 1 17).findSome? (candidate F b)).getD (magValue F b * 5 ^ F.unit, -F.unit)

theorem ofDecimal_candidate {b n : Nat} {p : Nat × Int} (h : candidate F b n = some p) :
    ofDecimal F p.1 p.2 = b := by
  unfold candidate at h
  simp only [Option.map_eq_some_iff] at h
  obtain ⟨m, hm, rfl⟩ := h
  have hr := List.find?_some hm
  simp only [decide_eq_true_eq] at hr
  split
  · rename_i h10
    subst h10
    have hz := ofDecimal_zeros F 1 1 (decPoint F b - n)
    exact hz.symm.trans hr
  · exact hr

theorem ofDecimal_exact {b : Nat} (hb : b ≤ F.top) :
    ofDecimal F (magValue F b * 5 ^ F.unit) (-F.unit) = b := by
  unfold ofDecimal
  by_cases h0 : F.unit = 0
  · rw [if_pos (by omega), h0]
    simpa using roundMag_magValue F hb Nat.one_pos
  · rw [if_neg (by omega), neg_neg, Int.toNat_natCast, Nat.mul_assoc, ← Nat.mul_pow]
    exact roundMag_magValue F hb (by positivity)

/-- **The printed decimal reads back.** -/
theorem ofDecimal_shortest {b : Nat} (hb : b ≤ F.top) :
    ofDecimal F (shortest F b).1 (shortest F b).2 = b := by
  unfold shortest
  cases h : (List.range' 1 17).findSome? (candidate F b) with
  | none => exact ofDecimal_exact F hb
  | some p =>
    obtain ⟨n, -, hn⟩ := List.exists_of_findSome?_eq_some h
    exact ofDecimal_candidate F hn

end Format

/-! ## Binary64 -/

/-- IEEE binary64; infinity has every exponent bit set. -/
def binary64 : BinFormat := ⟨52, 1074, 0x7FF0000000000000⟩

/-- A Python `float`. -/
inductive Double where
  | nan
  | num (neg : Bool) (mag : Fin (binary64.top + 1))
  deriving DecidableEq

namespace Double

/-- The float nearest to `n / d` units of the smallest positive number. -/
def ofRatio (neg : Bool) (n d : Nat) : Double :=
  .num neg ⟨roundMag binary64 n d, Nat.lt_succ_of_le (roundMag_le binary64 n d)⟩

/-- Infinity is a magnitude. -/
theorem top_lt : binary64.top < binary64.top + 1 := Nat.lt_succ_self _

/-- The bits of `1700000000.5`, a time stamp of the examples. -/
theorem exampleTime_lt : 0x41D954FC40200000 < binary64.top + 1 := by decide

/-- The float zero. -/
def zero : Double := .num false ⟨0, Nat.succ_pos _⟩

/-- `float(z)` for an integer: the nearest double, `none` where Python raises `OverflowError`. -/
def ofInt? (z : Int) : Option Double :=
  if roundMag binary64 (z.natAbs * 2 ^ binary64.unit) 1 < binary64.top then
    some (ofRatio (decide (z < 0)) (z.natAbs * 2 ^ binary64.unit) 1)
  else none

/-- A finite number as a signed multiple of the smallest positive number. -/
def signedUnits (neg : Bool) (b : Nat) : Int :=
  if neg then -(magValue binary64 b : Int) else magValue binary64 b

/-- `a + b`. -/
def add : Double → Double → Double
  | .nan, _ => .nan
  | _, .nan => .nan
  | .num s a, .num t b =>
    if a.val = binary64.top then
      if b.val = binary64.top ∧ s ≠ t then .nan else .num s a
    else if b.val = binary64.top then .num t b
    else
      let sum := signedUnits s a.val + signedUnits t b.val
      if sum = 0 then .num (s && t) ⟨0, Nat.succ_pos _⟩
      else ofRatio (decide (sum < 0)) sum.natAbs 1

/-- `-a`. -/
def neg : Double → Double
  | .nan => .nan
  | .num s a => .num (!s) a

/-- `a - b`. -/
def sub (a b : Double) : Double := a.add b.neg

/-- `a * b`. -/
def mul : Double → Double → Double
  | .nan, _ => .nan
  | _, .nan => .nan
  | .num s a, .num t b =>
    if a.val = binary64.top ∨ b.val = binary64.top then
      if a.val = 0 ∨ b.val = 0 then .nan else .num (s != t) ⟨binary64.top, top_lt⟩
    else ofRatio (s != t) (magValue binary64 a.val * magValue binary64 b.val) (2 ^ binary64.unit)

/-- `int(x)`, which cuts off the fraction; `none` where Python raises. -/
def trunc? : Double → Option Int
  | .nan => none
  | .num s a =>
    if a.val = binary64.top then none
    else some ((signedUnits s a.val).tdiv (2 ^ binary64.unit))

/-- `round(x, 6)`: the decimal with six places nearest to `x`, ties to even, read back. -/
def round6 : Double → Double
  | .nan => .nan
  | .num s a =>
    if a.val = binary64.top then .num s a
    else
      let num := magValue binary64 a.val * 10 ^ 6
      let den := 2 ^ binary64.unit
      let lo := num / den
      let r := num % den
      let n := if den < 2 * r ∨ (2 * r = den ∧ lo % 2 = 1) then lo + 1 else lo
      ofRatio s (n * den) (10 ^ 6)

/-- `round(x, places)`: the decimal with that many places nearest to `x`, ties to even, read back. -/
def roundTo (places : Nat) : Double → Double
  | .nan => .nan
  | .num s a =>
    if a.val = binary64.top then .num s a
    else
      let num := magValue binary64 a.val * 10 ^ places
      let den := 2 ^ binary64.unit
      let lo := num / den
      let r := num % den
      let n := if den < 2 * r ∨ (2 * r = den ∧ lo % 2 = 1) then lo + 1 else lo
      ofRatio s (n * den) (10 ^ places)

theorem round6_eq_roundTo (x : Double) : x.round6 = x.roundTo 6 := by
  cases x <;> rfl

theorem ofRatio_zero (neg : Bool) (d : Nat) : ofRatio neg 0 d = .num neg ⟨0, Nat.succ_pos _⟩ := by
  simp only [ofRatio, roundMag_zero]

/-- Zero is its own decimal. -/
theorem roundTo_zero (places : Nat) (neg : Bool) :
    (Double.num neg ⟨0, Nat.succ_pos _⟩).roundTo places = .num neg ⟨0, Nat.succ_pos _⟩ := by
  have htop : ¬ (0 = binary64.top) := by decide
  have hval : magValue binary64 0 = 0 := by simp [magValue]
  have hden : ¬ (2 ^ binary64.unit < 2 * (0 % 2 ^ binary64.unit)) ∧
      ¬ (2 * (0 % 2 ^ binary64.unit) = 2 ^ binary64.unit) := by
    have := Nat.pow_pos (n := binary64.unit) (Nat.zero_lt_two)
    rw [Nat.zero_mod]
    omega
  unfold roundTo
  dsimp only
  rw [if_neg htop, hval, Nat.zero_mul, if_neg fun h => h.elim hden.1 fun h => hden.2 h.1, Nat.zero_div,
    Nat.zero_mul, ofRatio_zero]
/-- The order of the numbers; both zeros are zero. -/
def key : Double → Option Int
  | .nan => none
  | .num neg mag => some (if neg then -(mag.val : Int) else mag.val)

/-- `a < b`; false when either is NaN. -/
def lt (a b : Double) : Bool :=
  match a.key, b.key with
  | some x, some y => x < y
  | _, _ => false

/-- `a == b`; false when either is NaN. -/
def eq (a b : Double) : Bool :=
  match a.key, b.key with
  | some x, some y => x = y
  | _, _ => false

/-- `a >= b`; false when either is NaN. -/
def ge (a b : Double) : Bool := b.lt a || b.eq a

/-- `x == z` for an integer `z`, decided exactly. -/
def eqInt : Double → Int → Bool
  | .nan, _ => false
  | .num neg mag, z =>
    decide (mag.val < binary64.top) && decide (signedUnits neg mag.val = z * 2 ^ binary64.unit)

end Double

end Py
