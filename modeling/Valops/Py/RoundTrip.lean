import Valops.Py.Loads
import Mathlib.Data.List.TakeWhile

/-!
# Reading back what was written

`json.loads` inverts `json.dumps`. The induction needs to know what can follow a value: a number
is read as far as it goes, so the text behind it must not continue one (`NumberEnd`). Strings come
back if they contain no surrogates: escaped surrogates side by side would be joined.

Main results: `loads_dumps` and `loadsBytes_canonical` (reading inverts writing, in both forms),
`canonical_injective`, and `newline_not_mem_canonical`.
-/

set_option autoImplicit false

namespace Py

/-- The text behind a number does not continue it. -/
def NumberEnd (rest : PyStr) : Prop :=
  ∀ c t, rest = c :: t → isDigit c = false ∧ c ≠ 46 ∧ c ≠ 101 ∧ c ≠ 69

theorem numberEnd_nil : NumberEnd [] := by
  intro c t h
  cases h

theorem numberEnd_cons {c : Nat} {t : PyStr} (h : isDigit c = false ∧ c ≠ 46 ∧ c ≠ 101 ∧ c ≠ 69) :
    NumberEnd (c :: t) := by
  intro c' t' h'
  cases h'
  exact h

/-! ## Digits -/

theorem scanDigits_append {ds rest : PyStr} (hds : ∀ c ∈ ds, isDigit c = true)
    (hrest : ∀ c t, rest = c :: t → isDigit c = false) : scanDigits (ds ++ rest) = (ds, rest) := by
  induction ds with
  | nil =>
    cases rest with
    | nil => rfl
    | cons c t =>
      have hc := hrest c t rfl
      simp [scanDigits, hc]
  | cons d ds ih =>
    have hd := hds d List.mem_cons_self
    have ih := ih fun c hc => hds c (List.mem_cons_of_mem _ hc)
    simp only [scanDigits, Prod.mk.injEq] at ih
    simp [scanDigits, hd, ih.1, ih.2]

/-- The integer part of a number. -/
inductive IntPart : PyStr → Prop
  | zero : IntPart [48]
  | digits {c : Nat} {ds : PyStr} : isDigit c = true → c ≠ 48 → (∀ d ∈ ds, isDigit d = true) →
      IntPart (c :: ds)

theorem scanInt_append {ip rest : PyStr} (h : IntPart ip)
    (hrest : ∀ c t, rest = c :: t → isDigit c = false) : scanInt (ip ++ rest) = some (ip, rest) := by
  cases h with
  | zero => rfl
  | @digits c ds hc h0 hds =>
    have hall : ∀ d ∈ c :: ds, isDigit d = true := List.forall_mem_cons.2 ⟨hc, hds⟩
    have hscan : scanDigits (c :: (ds ++ rest)) = (c :: ds, rest) := scanDigits_append hall hrest
    rw [List.cons_append, scanInt, if_neg h0, if_pos hc, hscan]

theorem intPart_natText {n : Nat} (h : 0 < n) : IntPart (natText n) := by
  have hd := natText_isDigit n
  have hh := natText_head? h
  cases hn : natText n with
  | nil => exact absurd hn (natText_ne_nil n)
  | cons c ds =>
    rw [hn] at hd hh
    obtain ⟨hc, hds⟩ := List.forall_mem_cons.1 hd
    refine .digits hc ?_ hds
    intro h48
    apply hh
    rw [h48]
    rfl

theorem intPart_natText' (n : Nat) : IntPart (natText n) := by
  rcases Nat.eq_zero_or_pos n with rfl | h
  · exact .zero
  · exact intPart_natText h

/-- The first digits of a number are an integer part. -/
theorem intPart_take {ds : PyStr} (h : IntPart ds) {k : Nat} (hk : 0 < k) : IntPart (ds.take k) := by
  obtain ⟨k, rfl⟩ : ∃ j, k = j + 1 := ⟨k - 1, by omega⟩
  cases h with
  | zero =>
    rw [List.take_succ_cons, List.take_nil]
    exact .zero
  | digits hc h0 hds =>
    rw [List.take_succ_cons]
    exact .digits hc h0 fun d hd => hds d (List.mem_of_mem_take hd)

theorem isDigit_of_intPart {ip : PyStr} (h : IntPart ip) : ∀ c ∈ ip, isDigit c = true := by
  cases h with
  | zero =>
    intro c hc
    rw [List.mem_singleton] at hc
    subst hc
    rfl
  | digits hc _ hds => exact List.forall_mem_cons.2 ⟨hc, hds⟩

/-- An integer part followed by zeros still is one, unless it is a lone zero. -/
theorem intPart_zeros {n : Nat} (h : 0 < n) (k : Nat) :
    IntPart (natText n ++ List.replicate k 48) := by
  have hp := intPart_natText h
  cases hn : natText n with
  | nil => exact absurd hn (natText_ne_nil n)
  | cons c ds =>
    rw [hn] at hp
    cases hp with
    | zero =>
      exfalso
      have := natText_head? h
      rw [hn] at this
      exact this rfl
    | digits hc h0 hds =>
      refine .digits hc h0 ?_
      intro d hd
      rcases List.mem_append.1 hd with hd | hd
      · exact hds d hd
      · rw [List.eq_of_mem_replicate hd]
        rfl

/-! ## Numbers -/

theorem scanFrac_none {rest : PyStr} (h : ∀ c t, rest = c :: t → c ≠ 46) : scanFrac rest = none := by
  cases rest with
  | nil => rfl
  | cons c t =>
    have hc := h c t rfl
    unfold scanFrac
    split
    · rename_i heq
      cases heq
      exact absurd rfl hc
    · rfl

theorem scanFrac_some {fp rest : PyStr} (hne : fp ≠ []) (hfp : ∀ c ∈ fp, isDigit c = true)
    (hrest : ∀ c t, rest = c :: t → isDigit c = false) :
    scanFrac (46 :: (fp ++ rest)) = some (fp, rest) := by
  rw [scanFrac, scanDigits_append hfp hrest, if_neg hne]

theorem scanExp_none {rest : PyStr} (h : NumberEnd rest) : scanExp rest = none := by
  cases rest with
  | nil => rfl
  | cons c t =>
    obtain ⟨_, _, h101, h69⟩ := h c t rfl
    rw [scanExp, if_neg (not_or.2 ⟨h101, h69⟩)]

theorem scanExp_expText (e : Int) {rest : PyStr} (h : NumberEnd rest) :
    scanExp (expText e ++ rest) = some (e, rest) := by
  have hend : ∀ c t, rest = c :: t → isDigit c = false := fun c t hc => (h c t hc).1
  let ds := if e.natAbs < 10 then 48 :: natText e.natAbs else natText e.natAbs
  have hds : ∀ c ∈ ds, isDigit c = true := by
    intro c hc
    simp only [ds] at hc
    split at hc
    · rcases List.mem_cons.1 hc with rfl | hc
      · rfl
      · exact natText_isDigit _ c hc
    · exact natText_isDigit _ c hc
  have hne : ds ≠ [] := by
    simp only [ds]
    split
    · exact List.cons_ne_nil _ _
    · exact natText_ne_nil _
  have hval : digitsVal ds = e.natAbs := by
    simp only [ds]
    split
    · have hz := digitsVal_append [48] (natText e.natAbs)
      have h48 : digitsVal [48] = 0 := rfl
      rw [h48, Nat.zero_mul, Nat.zero_add, digitsVal_natText] at hz
      exact hz
    · exact digitsVal_natText _
  have hscan : scanDigits (ds ++ rest) = (ds, rest) := scanDigits_append hds hend
  have hsign : scanExpSign ((if e < 0 then 45 else 43) :: (ds ++ rest)) =
      (decide (e < 0), ds ++ rest) := by
    by_cases he : e < 0
    · rw [if_pos he, decide_eq_true he]
      rfl
    · rw [if_neg he, decide_eq_false he]
      rfl
  show scanExp (101 :: ((if e < 0 then 45 else 43) :: (ds ++ rest))) = _
  rw [scanExp, if_pos (Or.inl rfl)]
  simp only [hsign, hscan, if_neg hne, hval]
  congr 2
  by_cases he : e < 0
  · simp only [he, decide_true, if_true]
    omega
  · simp only [he, decide_false, Bool.false_eq_true, if_false]
    omega

/-- The fraction and exponent of a float's text. -/
def tailText (fp : PyStr) (e : Option Int) : PyStr :=
  (if fp = [] then [] else 46 :: fp) ++ (e.map expText).getD []

/-- A number with a fraction or an exponent is read as the float it denotes. -/
theorem scanMagnitude_float (neg : Bool) {ip fp rest : PyStr} {e : Option Int} (hip : IntPart ip)
    (hfp : ∀ c ∈ fp, isDigit c = true) (htail : fp ≠ [] ∨ e.isSome) (h : NumberEnd rest) :
    scanMagnitude neg (ip ++ (tailText fp e ++ rest)) =
      some (.float (.num neg ⟨ofDecimal binary64 (digitsVal (ip ++ fp)) (e.getD 0 - fp.length),
        Nat.lt_succ_of_le (ofDecimal_le binary64 _ _)⟩), rest) := by
  -- what stands behind the fraction
  let back : PyStr := (e.map expText).getD [] ++ rest
  have hback : ∀ c t, back = c :: t → isDigit c = false ∧ c ≠ 46 := by
    intro c t hc
    cases e with
    | none => exact ⟨(h c t hc).1, (h c t hc).2.1⟩
    | some e =>
      simp only [back, expText, Option.map_some, Option.getD_some, List.cons_append,
        List.cons.injEq] at hc
      rw [← hc.1]
      exact ⟨rfl, by decide⟩
  have hexp : scanExp back = e.map fun x => (x, rest) := by
    cases e with
    | none => exact scanExp_none h
    | some e => exact scanExp_expText e h
  have hint : scanInt (ip ++ (tailText fp e ++ rest)) = some (ip, tailText fp e ++ rest) := by
    apply scanInt_append hip
    intro c t hc
    by_cases hnil : fp = []
    · simp only [tailText, hnil, if_true, List.nil_append] at hc
      exact (hback c t hc).1
    · simp only [tailText, hnil, if_false, List.cons_append, List.cons.injEq] at hc
      rw [← hc.1]
      rfl
  unfold scanMagnitude
  simp only [hint]
  by_cases hnil : fp = []
  · -- no fraction: there must be an exponent
    have hfrac : scanFrac (tailText fp e ++ rest) = none := by
      apply scanFrac_none
      intro c t hc
      simp only [tailText, hnil, if_true, List.nil_append] at hc
      exact (hback c t hc).2
    have htext : tailText fp e ++ rest = back := by
      simp only [tailText, hnil, if_true, List.nil_append, back]
    obtain ⟨x, rfl⟩ : ∃ x, e = some x := by
      rcases htail with h' | h'
      · exact absurd hnil h'
      · exact Option.isSome_iff_exists.1 h'
    rw [htext] at hfrac ⊢
    simp only [hfrac, Option.map_none, Option.getD_none, hexp, Option.map_some]
    simp [hnil]
  · have hfrac : scanFrac (tailText fp e ++ rest) = some (fp, back) := by
      have hcut : tailText fp e ++ rest = 46 :: (fp ++ back) := by
        simp only [tailText, hnil, if_false, List.cons_append, List.append_assoc, back]
      rw [hcut]
      exact scanFrac_some hnil hfp fun c t hc => (hback c t hc).1
    simp only [hfrac, Option.map_some, Option.getD_some, hexp]
    cases e with
    | none => simp [back]
    | some x => simp

theorem scanMagnitude_int (neg : Bool) {ip rest : PyStr} (hip : IntPart ip)
    (hlen : ip.length ≤ maxIntDigits) (h : NumberEnd rest) :
    scanMagnitude neg (ip ++ rest) =
      some (.int (if neg then -(digitsVal ip : Int) else digitsVal ip), rest) := by
  have hint : scanInt (ip ++ rest) = some (ip, rest) :=
    scanInt_append hip fun c t hc => (h c t hc).1
  have hfrac : scanFrac rest = none := scanFrac_none fun c t hc => (h c t hc).2.1
  unfold scanMagnitude
  simp only [hint, hfrac, Option.map_none, Option.getD_none, scanExp_none h, Option.isNone_none,
    Bool.and_self, if_true, hlen]

theorem ofDecimal_zero (F : BinFormat) (e : Int) : ofDecimal F 0 e = 0 := by
  unfold ofDecimal
  split <;> simp [roundMag_zero]

/-- The printed decimal has the shape the reader expects and denotes the same number. -/
theorem decimalText_parts {n : Nat} (hn : 0 < n) (ex : Int) :
    ∃ (ip fp : PyStr) (e : Option Int), IntPart ip ∧ (∀ c ∈ fp, isDigit c = true) ∧
      (fp ≠ [] ∨ e.isSome) ∧ decimalText (natText n) ex = ip ++ tailText fp e ∧
      ∀ F, ofDecimal F (digitsVal (ip ++ fp)) (e.getD 0 - fp.length) = ofDecimal F n ex := by
  have hds := natText_isDigit n
  have hval := digitsVal_natText n
  have hip := intPart_natText hn
  have hne := natText_ne_nil n
  have hzeros := intPart_zeros hn
  generalize natText n = ds at hds hval hip hne hzeros
  have hpos : 0 < ds.length := List.length_pos_of_ne_nil hne
  have h48 : digitsVal [48] = 0 := rfl
  have hdigit : ∀ c ∈ ([48] : PyStr), isDigit c = true := by
    intro c hc
    rw [List.mem_singleton] at hc
    subst hc
    rfl
  unfold decimalText
  simp only
  split
  · split
    · -- 0.000ddd
      refine ⟨[48], List.replicate (-((ds.length : Int) + ex)).toNat 48 ++ ds, none, .zero, ?_,
        Or.inl (by simp [hne]), ?_, ?_⟩
      · intro c hc
        rcases List.mem_append.1 hc with hc | hc
        · rw [List.eq_of_mem_replicate hc]
          rfl
        · exact hds c hc
      · simp [tailText, hne]
      · intro F
        have hd : digitsVal ([48] ++ (List.replicate (-((ds.length : Int) + ex)).toNat 48 ++ ds)) =
            n := by
          rw [← List.append_assoc, digitsVal_append, digitsVal_append, digitsVal_zeros, hval, h48]
          simp
        have he : (none : Option Int).getD 0 -
            ((List.replicate (-((ds.length : Int) + ex)).toNat 48 ++ ds).length : Int) = ex := by
          rw [List.length_append, List.length_replicate, Option.getD_none]
          push_cast
          omega
        rw [hd, he]
    split
    · -- ddd000.0
      rename_i hex
      refine ⟨ds ++ List.replicate ex.toNat 48, [48], none, hzeros _, hdigit,
        Or.inl (List.cons_ne_nil _ _), ?_, ?_⟩
      · simp [tailText]
      · intro F
        have hd : digitsVal (ds ++ List.replicate ex.toNat 48 ++ [48]) = n * 10 ^ (ex.toNat + 1) := by
          rw [digitsVal_append, digitsVal_append, digitsVal_zeros, hval, h48, List.length_replicate,
            pow_succ]
          simp [Nat.mul_assoc]
        have he : (none : Option Int).getD 0 - (([48] : PyStr).length : Int) +
            ((ex.toNat + 1 : Nat) : Int) = ex := by
          rw [Option.getD_none, List.length_singleton]
          push_cast
          omega
        rw [hd, ofDecimal_zeros, he]
    · -- dd.ddd
      have hk : 0 < ((ds.length : Int) + ex).toNat := by omega
      have hdrop : (ds.drop ((ds.length : Int) + ex).toNat).length = (-ex).toNat := by
        rw [List.length_drop]
        omega
      have hfp : ds.drop ((ds.length : Int) + ex).toNat ≠ [] := by
        intro hnil
        rw [hnil, List.length_nil] at hdrop
        omega
      refine ⟨ds.take ((ds.length : Int) + ex).toNat, ds.drop ((ds.length : Int) + ex).toNat, none,
        intPart_take hip hk, fun c hc => hds c (List.mem_of_mem_drop hc), Or.inl hfp, ?_, ?_⟩
      · rw [tailText, if_neg hfp]
        simp
      · intro F
        have he : (none : Option Int).getD 0 - (((-ex).toNat : Nat) : Int) = ex := by
          rw [Option.getD_none]
          omega
        rw [List.take_append_drop, hval, hdrop, he]
  · -- d.ddde±xx
    refine ⟨ds.take 1, ds.drop 1, some ((ds.length : Int) + ex - 1), intPart_take hip Nat.one_pos,
      fun c hc => hds c (List.mem_of_mem_drop hc), Or.inr rfl, ?_, ?_⟩
    · rw [tailText, Option.map_some, Option.getD_some, List.append_assoc]
    · intro F
      have he : (some ((ds.length : Int) + ex - 1)).getD 0 - ((ds.length - 1 : Nat) : Int) = ex := by
        rw [Option.getD_some]
        omega
      rw [List.take_append_drop, hval, List.length_drop, he]

/-- `repr` of a finite magnitude reads back. -/
theorem scanMagnitude_magText {neg : Bool} {b : Nat} (hb : b ≤ binary64.top) {rest : PyStr}
    (h : NumberEnd rest) :
    scanMagnitude neg (magText b ++ rest) =
      some (.float (.num neg ⟨b, Nat.lt_succ_of_le hb⟩), rest) := by
  unfold magText
  by_cases h0 : b = 0
  · have hdigit : ∀ c ∈ ([48] : PyStr), isDigit c = true := by
      intro c hc
      rw [List.mem_singleton] at hc
      subst hc
      rfl
    have hscan := scanMagnitude_float neg (e := none) .zero hdigit
      (Or.inl (List.cons_ne_nil 48 [])) h
    have hval : ofDecimal binary64 (digitsVal ([48] ++ [48])) (0 - 1) = 0 := ofDecimal_zero _ _
    rw [if_pos h0]
    subst h0
    refine Eq.trans hscan ?_
    simp only [Option.getD_none, List.length_singleton, Nat.cast_one, hval]
  · have hval := ofDecimal_shortest binary64 hb
    have hm : 0 < (shortest binary64 b).1 := by
      apply Nat.pos_of_ne_zero
      intro hz
      rw [hz, ofDecimal_zero] at hval
      exact h0 hval.symm
    obtain ⟨ip, fp, e, hip, hfp, htail, htext, hsame⟩ := decimalText_parts hm (shortest binary64 b).2
    have hscan := scanMagnitude_float neg hip hfp htail h
    rw [if_neg h0, htext, List.append_assoc, hscan]
    simp only [hsame, hval]

/-! ## Strings -/

theorem hexVal_hexDigit : ∀ d < 16, hexVal (hexDigit d) = some d := by decide

theorem scanHex4_unitEscape {n : Nat} (h : n < 65536) (t : PyStr) :
    dropPrefix [92, 117] (unitEscape n ++ t) = some ((unitEscape n ++ t).drop 2) ∧
      scanHex4 ((unitEscape n ++ t).drop 2) = some (n, t) := by
  refine ⟨rfl, ?_⟩
  have h1 := hexVal_hexDigit (n / 4096 % 16) (Nat.mod_lt _ (by decide))
  have h2 := hexVal_hexDigit (n / 256 % 16) (Nat.mod_lt _ (by decide))
  have h3 := hexVal_hexDigit (n / 16 % 16) (Nat.mod_lt _ (by decide))
  have h4 := hexVal_hexDigit (n % 16) (Nat.mod_lt _ (by decide))
  show scanHex4 (hexDigit (n / 4096 % 16) :: hexDigit (n / 256 % 16) :: hexDigit (n / 16 % 16) ::
    hexDigit (n % 16) :: t) = some (n, t)
  rw [scanHex4, h1, h2, h3, h4]
  simp only [Option.some.injEq, Prod.mk.injEq, and_true]
  omega

/-- The escape of a unit that is not a high surrogate. -/
theorem scanEscape_unit {n : Nat} (h : n < 65536) (hs : ¬(0xD800 ≤ n ∧ n < 0xDC00)) (t : PyStr) :
    scanEscape ((unitEscape n ++ t).drop 1) = some (n, t) := by
  show scanEscape (117 :: (unitEscape n ++ t).drop 2) = some (n, t)
  rw [scanEscape, if_pos rfl, scanUnicode, (scanHex4_unitEscape h t).2]
  simp only [if_neg hs]

/-- The escapes of a surrogate pair. -/
theorem scanEscape_pair (hi lo : Nat) (hhi : 0xD800 ≤ hi ∧ hi < 0xDC00)
    (hlo : 0xDC00 ≤ lo ∧ lo < 0xE000) (t : PyStr) :
    scanEscape ((unitEscape hi ++ (unitEscape lo ++ t)).drop 1) =
      some (0x10000 + (hi - 0xD800) * 1024 + (lo - 0xDC00), t) := by
  show scanEscape (117 :: (unitEscape hi ++ (unitEscape lo ++ t)).drop 2) = _
  obtain ⟨hp, hl⟩ := scanHex4_unitEscape (n := lo) (by omega) t
  rw [scanEscape, if_pos rfl, scanUnicode, (scanHex4_unitEscape (by omega) _).2]
  simp only [if_pos hhi, hp, hl, if_pos hlo]

theorem scanString_escape {fuel : Nat} {e s rest : PyStr} {c : Nat} (hcons : e = 92 :: s)
    (h : scanEscape s = some (c, rest)) :
    scanString (fuel + 1) e = (scanString fuel rest).map fun p => (c :: p.1, p.2) := by
  rw [hcons, scanString, if_neg (by decide), if_pos rfl, h]

/-- One character of a literal. -/
theorem scanString_charText (ascii : Bool) {c : Nat} (hc : isScalar c = true) (fuel : Nat)
    (t : PyStr) :
    scanString (fuel + 1) (charText ascii c ++ t) =
      (scanString fuel t).map fun p => (c :: p.1, p.2) := by
  have hlt : c < 0x110000 ∧ ¬(0xD800 ≤ c ∧ c ≤ 0xDFFF) := by
    simp only [isScalar, isSurrogate, Bool.and_eq_true, decide_eq_true_eq, Bool.not_eq_true',
      Bool.and_eq_false_iff, decide_eq_false_iff_not] at hc
    omega
  unfold charText
  split
  · subst_vars
    exact scanString_escape rfl rfl
  split
  · subst_vars
    exact scanString_escape rfl rfl
  split
  · subst_vars
    exact scanString_escape rfl rfl
  split
  · subst_vars
    exact scanString_escape rfl rfl
  split
  · subst_vars
    exact scanString_escape rfl rfl
  split
  · subst_vars
    exact scanString_escape rfl rfl
  split
  · subst_vars
    exact scanString_escape rfl rfl
  split
  · exact scanString_escape rfl (scanEscape_unit (by omega) (by omega) t)
  split
  · rename_i h34 h92 _ _ _ _ _ h32 _
    show scanString (fuel + 1) (c :: t) = _
    rw [scanString, if_neg h34, if_neg h92, if_neg h32]
  split
  · exact scanString_escape rfl (scanEscape_unit (by omega) (by omega) t)
  · have hpair := scanEscape_pair (0xD800 + (c - 0x10000) / 1024 % 1024)
      (0xDC00 + (c - 0x10000) % 1024) (by omega) (by omega) t
    have hjoin : 0x10000 + (0xD800 + (c - 0x10000) / 1024 % 1024 - 0xD800) * 1024 +
        (0xDC00 + (c - 0x10000) % 1024 - 0xDC00) = c := by omega
    rw [hjoin] at hpair
    rw [List.append_assoc]
    exact scanString_escape rfl hpair

theorem scanString_charsText (ascii : Bool) {s : PyStr} (hs : ∀ c ∈ s, isScalar c = true)
    (rest : PyStr) : ∀ fuel, s.length < fuel →
      scanString fuel (charsText ascii s ++ 34 :: rest) = some (s, rest) := by
  induction s with
  | nil =>
    intro fuel hf
    obtain ⟨n, rfl⟩ : ∃ n, fuel = n + 1 := ⟨fuel - 1, by omega⟩
    rfl
  | cons c s ih =>
    intro fuel hf
    obtain ⟨n, rfl⟩ : ∃ n, fuel = n + 1 := ⟨fuel - 1, by omega⟩
    obtain ⟨hc, hs⟩ := List.forall_mem_cons.1 hs
    have hcut : charsText ascii (c :: s) ++ 34 :: rest =
        charText ascii c ++ (charsText ascii s ++ 34 :: rest) := by
      simp [charsText]
    rw [hcut, scanString_charText ascii hc, ih hs n (Nat.lt_of_succ_lt_succ hf)]
    rfl

theorem length_charText_pos (ascii : Bool) (c : Nat) : 0 < (charText ascii c).length := by
  unfold charText
  repeat' split
  all_goals exact Nat.succ_pos _

theorem length_le_charsText (ascii : Bool) (s : PyStr) : s.length ≤ (charsText ascii s).length := by
  induction s with
  | nil => exact Nat.zero_le _
  | cons c s ih =>
    have hpos := length_charText_pos ascii c
    have hlen : (charsText ascii (c :: s)).length =
        (charText ascii c).length + (charsText ascii s).length := by
      simp [charsText]
    rw [hlen, List.length_cons]
    omega

/-! ## Values -/

namespace Json

mutual

/-- No string in the value, keys included, contains a surrogate. -/
def scalar : Json → Bool
  | .str s => s.all isScalar
  | .arr xs => scalarItems xs
  | .obj kvs => scalarFields kvs
  | .null => true
  | .bool _ => true
  | .int _ => true
  | .float _ => true
termination_by structural v => v

def scalarItems : List Json → Bool
  | [] => true
  | x :: xs => scalar x && scalarItems xs
termination_by structural xs => xs

def scalarFields : List (PyStr × Json) → Bool
  | [] => true
  | kv :: rest => scalarField kv && scalarFields rest
termination_by structural kvs => kvs

def scalarField : PyStr × Json → Bool
  | (k, v) => k.all isScalar && scalar v
termination_by structural kv => kv

end

theorem scalarItems_iff (xs : List Json) :
    scalarItems xs = true ↔ ∀ x ∈ xs, scalar x = true := by
  induction xs with
  | nil => simp [scalarItems]
  | cons x xs ih => simp [scalarItems, ih]

theorem scalarFields_iff (kvs : Fields) :
    scalarFields kvs = true ↔ ∀ kv ∈ kvs, kv.1.all isScalar = true ∧ scalar kv.2 = true := by
  induction kvs with
  | nil => simp [scalarFields]
  | cons kv rest ih =>
    obtain ⟨k, v⟩ := kv
    simp [scalarFields, scalarField, ih]

mutual

/-- Every character of every string in the value, keys included, meets the condition. -/
def everyChar (p : Nat → Bool) : Json → Bool
  | .str s => s.all p
  | .arr xs => everyCharItems p xs
  | .obj kvs => everyCharFields p kvs
  | .null => true
  | .bool _ => true
  | .int _ => true
  | .float _ => true
termination_by structural v => v

def everyCharItems (p : Nat → Bool) : List Json → Bool
  | [] => true
  | x :: xs => everyChar p x && everyCharItems p xs
termination_by structural xs => xs

def everyCharFields (p : Nat → Bool) : List (PyStr × Json) → Bool
  | [] => true
  | kv :: rest => everyCharField p kv && everyCharFields p rest
termination_by structural kvs => kvs

def everyCharField (p : Nat → Bool) : PyStr × Json → Bool
  | (k, v) => k.all p && everyChar p v
termination_by structural kv => kv

end

section EveryChar

variable {p : Nat → Bool}

theorem everyCharItems_iff (xs : List Json) :
    everyCharItems p xs = true ↔ ∀ x ∈ xs, everyChar p x = true := by
  induction xs with
  | nil => simp [everyCharItems]
  | cons x xs ih => simp [everyCharItems, ih]

theorem everyCharFields_iff (kvs : Fields) :
    everyCharFields p kvs = true ↔ ∀ kv ∈ kvs, kv.1.all p = true ∧ everyChar p kv.2 = true := by
  induction kvs with
  | nil => simp [everyCharFields]
  | cons kv rest ih =>
    obtain ⟨k, v⟩ := kv
    simp [everyCharFields, everyCharField, ih]

theorem everyChar_of_forall (h : ∀ c, p c = true) (v : Json) : everyChar p v = true := by
  have hall : ∀ s : PyStr, s.all p = true := fun s => List.all_eq_true.2 fun c _ => h c
  induction v using Json.ind with
  | null => rfl
  | bool b => rfl
  | int z => rfl
  | float x => rfl
  | str s => exact hall s
  | arr xs ih => exact (everyCharItems_iff xs).2 ih
  | obj kvs ih => exact (everyCharFields_iff kvs).2 fun kv hkv => ⟨hall kv.1, ih kv hkv⟩

theorem scalar_eq_everyChar (v : Json) : scalar v = everyChar isScalar v := by
  rw [Bool.eq_iff_iff]
  induction v using Json.ind with
  | null => exact Iff.rfl
  | bool b => exact Iff.rfl
  | int z => exact Iff.rfl
  | float x => exact Iff.rfl
  | str s => exact Iff.rfl
  | arr xs ih =>
    rw [scalar, everyChar, scalarItems_iff, everyCharItems_iff]
    exact forall₂_congr ih
  | obj kvs ih =>
    rw [scalar, everyChar, scalarFields_iff, everyCharFields_iff]
    exact forall₂_congr fun kv hkv => and_congr_right fun _ => ih kv hkv

end EveryChar

theorem scalar_mkObj {kvs : Fields} (h : ∀ kv ∈ kvs, kv.1.all isScalar = true ∧ scalar kv.2 = true) :
    scalar (mkObj kvs) = true := by
  rw [mkObj, scalar, scalarFields_iff]
  exact fun kv hkv => h kv (mem_mkFields hkv)

theorem printable_mkObj {kvs : Fields} (h : ∀ kv ∈ kvs, printable kv.2 = true) :
    printable (mkObj kvs) = true := by
  rw [mkObj, printable, printableFields_iff]
  exact fun kv hkv => h kv (mem_mkFields hkv)

end Json

open Json

/-- The blanks of a style are white space. -/
def Style.Blank (st : Style) : Prop := ∀ c ∈ st.pad, isWs c = true

theorem blank_compact : Style.compact.Blank := by
  intro c hc
  cases hc

theorem blank_default : Style.default.Blank := by
  intro c hc
  rw [Style.default, List.mem_singleton] at hc
  subst hc
  rfl

theorem skipWs_pad {pad : PyStr} (h : ∀ c ∈ pad, isWs c = true) {s : PyStr}
    (hs : ∀ c t, s = c :: t → isWs c = false) : skipWs (pad ++ s) = s := by
  induction pad with
  | nil =>
    cases s with
    | nil => rfl
    | cons c t => rw [List.nil_append, skipWs, List.dropWhile_cons, hs c t rfl]; rfl
  | cons p pad ih =>
    obtain ⟨hp, hpad⟩ := List.forall_mem_cons.1 h
    rw [List.cons_append, skipWs, List.dropWhile_cons, if_pos hp]
    exact ih hpad

theorem skipWs_cons {c : Nat} {t : PyStr} (h : isWs c = false) : skipWs (c :: t) = c :: t := by
  rw [skipWs, List.dropWhile_cons, h]
  rfl

/-- Characters a value starts with: ASCII, no white space, no closing bracket. -/
def startsValue (c : Nat) : Bool := !isWs c && (c != 93 && decide (c < 128))

theorem startsValue_digit {c : Nat} (h : isDigit c = true) : startsValue c = true := by
  simp only [isDigit, Bool.and_eq_true, decide_eq_true_eq] at h
  simp only [startsValue, isWs, Bool.and_eq_true, Bool.not_eq_true', Bool.or_eq_false_iff,
    beq_eq_false_iff_ne, bne_iff_ne, decide_eq_true_eq]
  omega

theorem natText_head (n : Nat) : ∃ c t, natText n = c :: t ∧ isDigit c = true := by
  cases hn : natText n with
  | nil => exact absurd hn (natText_ne_nil n)
  | cons c t => exact ⟨c, t, rfl, natText_isDigit n c (by rw [hn]; exact List.mem_cons_self)⟩

theorem intPart_head {ip : PyStr} (h : IntPart ip) : ∃ c t, ip = c :: t ∧ isDigit c = true := by
  cases h with
  | zero => exact ⟨48, [], rfl, rfl⟩
  | digits hc _ _ => exact ⟨_, _, rfl, hc⟩

theorem magText_head (b : Nat) (hb : b ≤ binary64.top) :
    ∃ c t, magText b = c :: t ∧ isDigit c = true := by
  unfold magText
  split
  · exact ⟨48, _, rfl, rfl⟩
  · rename_i h0
    have hm : 0 < (shortest binary64 b).1 := by
      apply Nat.pos_of_ne_zero
      intro hz
      have hval := ofDecimal_shortest binary64 hb
      rw [hz, ofDecimal_zero] at hval
      exact h0 hval.symm
    obtain ⟨ip, fp, e, hip, _, _, htext, _⟩ := decimalText_parts hm (shortest binary64 b).2
    obtain ⟨c, t, hct, hc⟩ := intPart_head hip
    exact ⟨c, t ++ tailText fp e, by rw [htext, hct]; rfl, hc⟩

/-- The text of a value is not empty and starts as a value does. -/
theorem text_head (st : Style) (v : Json) : ∃ c t, text st v = c :: t ∧ startsValue c = true := by
  cases v with
  | null => exact ⟨_, _, rfl, rfl⟩
  | bool b => cases b <;> exact ⟨_, _, rfl, rfl⟩
  | int z =>
    obtain ⟨c, t, hct, hc⟩ := natText_head z.natAbs
    by_cases hz : z < 0
    · refine ⟨45, natText z.natAbs, ?_, rfl⟩
      rw [text, intText, if_pos hz]
    · refine ⟨c, t, ?_, startsValue_digit hc⟩
      rw [text, intText, if_neg hz, hct]
  | float x =>
    cases x with
    | nan => exact ⟨_, _, rfl, rfl⟩
    | num neg mag =>
      rw [text, floatText]
      cases neg with
      | true => exact ⟨45, _, rfl, rfl⟩
      | false =>
        by_cases htop : mag.val = binary64.top
        · rw [if_pos htop]
          exact ⟨73, _, rfl, rfl⟩
        · obtain ⟨c, t, hct, hc⟩ := magText_head mag.val (Nat.le_of_lt_succ mag.isLt)
          rw [if_neg htop, hct]
          exact ⟨c, t, rfl, startsValue_digit hc⟩
  | str s => exact ⟨_, _, by rw [text, strText], rfl⟩
  | arr xs => exact ⟨_, _, by rw [text], rfl⟩
  | obj kvs => exact ⟨_, _, by rw [text], rfl⟩

theorem scanConst_none {c : Nat} {t : PyStr}
    (h : isDigit c = true ∨ c = 45 ∧ ∀ d u, t = d :: u → isDigit d = true) :
    scanConst (c :: t) = none := by
  have hfirst : ∀ (p : Nat) (ps : PyStr), p ≠ c → dropPrefix (p :: ps) (c :: t) = none := by
    intro p ps hp
    rw [dropPrefix, if_neg hp]
  have hminus : dropPrefix (py "-Infinity") (c :: t) = none := by
    show dropPrefix (45 :: 73 :: py "nfinity") (c :: t) = none
    rcases h with h | ⟨rfl, h⟩
    · apply hfirst
      rintro rfl
      cases h
    · rw [dropPrefix, if_pos rfl]
      cases t with
      | nil => rfl
      | cons d u =>
        have hd := h d u rfl
        rw [dropPrefix, if_neg]
        rintro rfl
        cases hd
  have hne : ∀ p : Nat, isDigit p = false → p ≠ 45 → p ≠ c := by
    rintro p hp h45 rfl
    rcases h with h | ⟨h, _⟩
    · rw [hp] at h
      cases h
    · exact h45 h
  have h1 : dropPrefix (py "null") (c :: t) = none := hfirst 110 _ (hne _ rfl (by decide))
  have h2 : dropPrefix (py "true") (c :: t) = none := hfirst 116 _ (hne _ rfl (by decide))
  have h3 : dropPrefix (py "false") (c :: t) = none := hfirst 102 _ (hne _ rfl (by decide))
  have h4 : dropPrefix (py "NaN") (c :: t) = none := hfirst 78 _ (hne _ rfl (by decide))
  have h5 : dropPrefix (py "Infinity") (c :: t) = none := hfirst 73 _ (hne _ rfl (by decide))
  simp only [scanConst, constants, List.findSome?_cons, List.findSome?_nil, h1, h2, h3, h4, h5,
    hminus, Option.map_none]

/-- Reading a number: the sign, then the magnitude. -/
theorem scanValue_number {neg : Bool} {m rest : PyStr} {p : Json × PyStr}
    (hm : ∃ c t, m = c :: t ∧ isDigit c = true) (h : scanMagnitude neg (m ++ rest) = some p)
    (fuel : Nat) :
    scanValue (fuel + 1) ((if neg then [45] else []) ++ m ++ rest) = some p := by
  obtain ⟨c, t, rfl, hc⟩ := hm
  have hd : c ≠ 34 ∧ c ≠ 91 ∧ c ≠ 123 ∧ c ≠ 45 := by
    refine ⟨?_, ?_, ?_, ?_⟩ <;> rintro rfl <;> cases hc
  cases neg with
  | true =>
    show scanValue (fuel + 1) (45 :: (c :: (t ++ rest))) = some p
    rw [scanValue, if_neg (by decide), if_neg (by decide), if_neg (by decide), scanConst_none]
    · exact h
    · refine Or.inr ⟨rfl, ?_⟩
      rintro d u hdu
      cases hdu
      exact hc
  | false =>
    show scanValue (fuel + 1) (c :: (t ++ rest)) = some p
    rw [scanValue, if_neg hd.1, if_neg hd.2.1, if_neg hd.2.2.1, scanConst_none (Or.inl hc)]
    show scanNumber (c :: (t ++ rest)) = some p
    unfold scanNumber
    split
    · rename_i heq
      cases heq
      exact absurd rfl hd.2.2.2
    · exact h

theorem scanValue_const {w : PyStr} {v : Json} (hmem : (w, v) ∈ constants) (rest : PyStr)
    (fuel : Nat) : scanValue (fuel + 1) (w ++ rest) = some (v, rest) := by
  simp only [constants, List.mem_cons, Prod.mk.injEq, List.not_mem_nil, or_false] at hmem
  rcases hmem with ⟨rfl, rfl⟩ | ⟨rfl, rfl⟩ | ⟨rfl, rfl⟩ | ⟨rfl, rfl⟩ | ⟨rfl, rfl⟩ | ⟨rfl, rfl⟩
  · rfl
  · rfl
  · rfl
  · rfl
  · rfl
  · rfl

theorem scanValue_float (x : Double) {rest : PyStr} (h : NumberEnd rest) (fuel : Nat) :
    scanValue (fuel + 1) (floatText x ++ rest) = some (.float x, rest) := by
  cases x with
  | nan =>
    have hmem : (py "NaN", Json.float .nan) ∈ constants := by simp [constants]
    exact scanValue_const hmem rest fuel
  | num neg mag =>
    have hle : mag.val ≤ binary64.top := Nat.le_of_lt_succ mag.isLt
    rw [floatText]
    by_cases htop : mag.val = binary64.top
    · obtain rfl : mag = ⟨binary64.top, Nat.lt_succ_self _⟩ := Fin.ext htop
      rw [if_pos htop]
      cases neg with
      | true =>
        have hmem : (py "-Infinity", Json.float (.num true ⟨binary64.top, Nat.lt_succ_self _⟩)) ∈
            constants := by simp [constants]
        exact scanValue_const hmem rest fuel
      | false =>
        have hmem : (py "Infinity", Json.float (.num false ⟨binary64.top, Nat.lt_succ_self _⟩)) ∈
            constants := by simp [constants]
        exact scanValue_const hmem rest fuel
    · rw [if_neg htop]
      exact scanValue_number (magText_head _ hle) (scanMagnitude_magText hle h) fuel

theorem scanValue_int {z : Int} (hz : (natText z.natAbs).length ≤ maxIntDigits) {rest : PyStr}
    (h : NumberEnd rest) (fuel : Nat) :
    scanValue (fuel + 1) (intText z ++ rest) = some (.int z, rest) := by
  have hscan := scanMagnitude_int (decide (z < 0)) (intPart_natText' z.natAbs) hz h
  have hnum := scanValue_number (natText_head z.natAbs) hscan fuel
  have htext : intText z = (if decide (z < 0) = true then [45] else []) ++ natText z.natAbs := by
    unfold intText
    by_cases hneg : z < 0
    · simp [hneg]
    · simp [hneg]
  rw [htext, hnum, digitsVal_natText]
  simp only [Option.some.injEq, Prod.mk.injEq, Json.int.injEq, and_true]
  by_cases hneg : z < 0
  · simp only [hneg, decide_true, if_true]
    omega
  · simp only [hneg, decide_false, Bool.false_eq_true, if_false]
    omega

section Values

variable {st : Style}

/-- The text of the first value is read as the second one, whatever text follows. -/
def ReadsAs (st : Style) (v w : Json) : Prop :=
  ∀ (rest : PyStr) (fuel : Nat), NumberEnd rest → 3 * (text st v).length ≤ fuel →
    scanValue fuel (text st v ++ rest) = some (w, rest)

/-- The same of a member of an object. -/
def FieldReadsAs (st : Style) (kv kw : PyStr × Json) : Prop :=
  (∀ (rest : PyStr) (fuel : Nat), kv.1.length < fuel →
    scanString fuel (charsText st.ascii kv.1 ++ 34 :: rest) = some (kw.1, rest)) ∧
  ReadsAs st kv.2 kw.2

/-- What the induction proves of a value: it is read back, whatever text follows. -/
def ReadsBack (st : Style) (v : Json) : Prop :=
  v.WF → v.printable = true → v.scalar = true → ∀ (rest : PyStr) (fuel : Nat), NumberEnd rest →
    3 * (text st v).length ≤ fuel → scanValue fuel (text st v ++ rest) = some (v, rest)

/-- A value's text does not start with white space. -/
theorem text_not_isWs (v : Json) (rest : PyStr) :
    ∀ c t, text st v ++ rest = c :: t → isWs c = false := by
  intro c t hc
  obtain ⟨c', t', hct, hstart⟩ := text_head st v
  rw [hct] at hc
  simp only [List.cons_append, List.cons.injEq] at hc
  rw [← hc.1]
  simp only [startsValue, Bool.and_eq_true, Bool.not_eq_true'] at hstart
  exact hstart.1

theorem itemsText_cons (x y : Json) (ys : List Json) : itemsText st (x :: y :: ys) =
    text st x ++ 44 :: (st.pad ++ itemsText st (y :: ys)) := by
  rw [itemsText]
  rfl

theorem fieldsText_cons (kv kv' : PyStr × Json) (kvs : Fields) : fieldsText st (kv :: kv' :: kvs) =
    fieldText st kv ++ 44 :: (st.pad ++ fieldsText st (kv' :: kvs)) := by
  rw [fieldsText]
  rfl

theorem scanItems_text (hst : st.Blank) {xs ys : List Json} (h : List.Forall₂ (ReadsAs st) xs ys) :
    xs ≠ [] → ∀ (rest : PyStr) (fuel : Nat), 3 * (itemsText st xs).length + 1 ≤ fuel →
      scanItems fuel (itemsText st xs ++ 93 :: rest) = some (ys, rest) := by
  induction h with
  | nil => exact fun h => absurd rfl h
  | @cons x y xs ys hread htail ih =>
    intro _ rest fuel hf
    obtain ⟨n, rfl⟩ : ∃ n, fuel = n + 1 := ⟨fuel - 1, by omega⟩
    cases htail with
    | nil =>
      have htext : itemsText st [x] = text st x := by
        rw [itemsText]
        exact List.append_nil _
      rw [htext] at hf ⊢
      have hv := hread (93 :: rest) n (numberEnd_cons (by decide)) (by omega)
      rw [scanItems, hv]
      rfl
    | @cons x' y' xs ys =>
      rw [itemsText_cons] at hf ⊢
      simp only [List.length_append, List.length_cons] at hf
      have hv := hread (44 :: (st.pad ++ itemsText st (x' :: xs) ++ 93 :: rest)) n
        (numberEnd_cons (by decide)) (by omega)
      have hhead : ∀ c t, itemsText st (x' :: xs) ++ 93 :: rest = c :: t → isWs c = false := by
        rw [itemsText, List.append_assoc]
        exact text_not_isWs x' _
      have hskip : skipWs (st.pad ++ itemsText st (x' :: xs) ++ 93 :: rest) =
          itemsText st (x' :: xs) ++ 93 :: rest := by
        rw [List.append_assoc]
        exact skipWs_pad hst hhead
      have hys := ih (List.cons_ne_nil _ _) rest n (by omega)
      rw [List.append_assoc, List.cons_append, scanItems, hv]
      simp only [skipWs_cons (c := 44) rfl, dropPrefix, if_true, hskip, hys, Option.map_some]

/-- One member of an object. -/
theorem scanField_text (hst : st.Blank) {kv kw : PyStr × Json} (h : FieldReadsAs st kv kw)
    (rest : PyStr) (fuel : Nat) (hend : NumberEnd rest)
    (hf : 3 * (fieldText st kv).length + 1 ≤ fuel) :
    scanField fuel (fieldText st kv ++ rest) = some (kw, rest) := by
  obtain ⟨k, v⟩ := kv
  obtain ⟨k', w⟩ := kw
  obtain ⟨hkey, hread⟩ := h
  obtain ⟨n, rfl⟩ : ∃ n, fuel = n + 1 := ⟨fuel - 1, by omega⟩
  simp only [fieldText, strText, List.length_append, List.length_cons, List.length_nil] at hf
  have hlen := length_le_charsText st.ascii k
  have hk := hkey (58 :: (st.pad ++ text st v ++ rest)) n (show k.length < n by omega)
  have hv := hread rest n hend (show 3 * (text st v).length ≤ n by omega)
  have hskip : skipWs (st.pad ++ text st v ++ rest) = text st v ++ rest := by
    rw [List.append_assoc]
    exact skipWs_pad hst (text_not_isWs v rest)
  have htext : fieldText st (k, v) ++ rest =
      34 :: (charsText st.ascii k ++ 34 :: 58 :: (st.pad ++ text st v ++ rest)) := by
    simp [fieldText, strText]
  rw [htext, scanField]
  simp only [dropPrefix, if_true, hk, skipWs_cons (c := 58) rfl, hskip, hv, Option.map_some]

theorem scanFields_text (hst : st.Blank) {kvs kws : Fields}
    (h : List.Forall₂ (FieldReadsAs st) kvs kws) : kvs ≠ [] →
    ∀ (rest : PyStr) (fuel : Nat), 3 * (fieldsText st kvs).length + 2 ≤ fuel →
      scanFields fuel (fieldsText st kvs ++ 125 :: rest) = some (kws, rest) := by
  induction h with
  | nil => exact fun h => absurd rfl h
  | @cons kv kw kvs kws hread htail ih =>
    intro _ rest fuel hf
    obtain ⟨n, rfl⟩ : ∃ n, fuel = n + 1 := ⟨fuel - 1, by omega⟩
    cases htail with
    | nil =>
      have htext : fieldsText st [kv] = fieldText st kv := by
        rw [fieldsText]
        exact List.append_nil _
      rw [htext] at hf ⊢
      have hv := scanField_text hst hread (125 :: rest) n (numberEnd_cons (by decide)) (by omega)
      rw [scanFields, hv]
      rfl
    | @cons kv' kw' kvs kws =>
      rw [fieldsText_cons] at hf ⊢
      simp only [List.length_append, List.length_cons] at hf
      have hv := scanField_text hst hread (44 :: (st.pad ++ fieldsText st (kv' :: kvs) ++ 125 :: rest))
        n (numberEnd_cons (by decide)) (by omega)
      have hhead : ∀ c t, fieldsText st (kv' :: kvs) ++ 125 :: rest = c :: t → isWs c = false := by
        intro c t hc
        obtain ⟨k', v'⟩ := kv'
        rw [fieldsText, fieldText, strText] at hc
        simp only [List.cons_append, List.cons.injEq] at hc
        rw [← hc.1]
        rfl
      have hskip : skipWs (st.pad ++ fieldsText st (kv' :: kvs) ++ 125 :: rest) =
          fieldsText st (kv' :: kvs) ++ 125 :: rest := by
        rw [List.append_assoc]
        exact skipWs_pad hst hhead
      have hys := ih (List.cons_ne_nil _ _) rest n (by omega)
      rw [List.append_assoc, List.cons_append, scanFields, hv]
      simp only [skipWs_cons (c := 44) rfl, dropPrefix, if_true, hskip, hys, Option.map_some]

/-- An array is read if its members are. -/
theorem readsAs_arr (hst : st.Blank) {xs ys : List Json} (h : List.Forall₂ (ReadsAs st) xs ys) :
    ReadsAs st (.arr xs) (.arr ys) := by
  intro rest fuel _ hf
  rw [text] at hf ⊢
  simp only [List.length_cons, List.length_append, List.length_nil] at hf
  obtain ⟨n, rfl⟩ : ∃ n, fuel = n + 1 := ⟨fuel - 1, by omega⟩
  have hcut : 91 :: (itemsText st xs ++ [93]) ++ rest = 91 :: (itemsText st xs ++ 93 :: rest) := by
    simp
  rw [hcut, scanValue, if_neg (by decide), if_pos rfl]
  cases xs with
  | nil =>
    cases h
    rfl
  | cons x xs =>
    obtain ⟨c, t, hct, hstart⟩ := text_head st x
    simp only [startsValue, Bool.and_eq_true, Bool.not_eq_true', bne_iff_ne] at hstart
    obtain ⟨u, hu⟩ : ∃ u, itemsText st (x :: xs) ++ 93 :: rest = c :: u := by
      rw [itemsText, hct]
      exact ⟨_, rfl⟩
    have hws : skipWs (itemsText st (x :: xs) ++ 93 :: rest) =
        itemsText st (x :: xs) ++ 93 :: rest := by
      rw [hu, skipWs_cons hstart.1]
    have hopen : dropPrefix [93] (itemsText st (x :: xs) ++ 93 :: rest) = none := by
      rw [hu, dropPrefix, if_neg (Ne.symm hstart.2.1)]
    have hscan := scanItems_text hst h (List.cons_ne_nil x xs) rest n (by omega)
    simp only [hws, hopen, hscan, Option.map_some]

/-- An object is read if its members are. -/
theorem readsAs_obj (hst : st.Blank) {kvs kws : Fields} (h : List.Forall₂ (FieldReadsAs st) kvs kws) :
    ReadsAs st (.obj kvs) (mkObj kws) := by
  intro rest fuel _ hf
  rw [text] at hf ⊢
  simp only [List.length_cons, List.length_append, List.length_nil] at hf
  obtain ⟨n, rfl⟩ : ∃ n, fuel = n + 1 := ⟨fuel - 1, by omega⟩
  have hcut : 123 :: (fieldsText st kvs ++ [125]) ++ rest =
      123 :: (fieldsText st kvs ++ 125 :: rest) := by simp
  rw [hcut, scanValue, if_neg (by decide), if_neg (by decide), if_pos rfl]
  cases kvs with
  | nil =>
    cases h
    rfl
  | cons kv kvs =>
    obtain ⟨u, hu⟩ : ∃ u, fieldsText st (kv :: kvs) ++ 125 :: rest = 34 :: u := by
      obtain ⟨k, v⟩ := kv
      rw [fieldsText, fieldText, strText]
      exact ⟨_, rfl⟩
    have hws : skipWs (fieldsText st (kv :: kvs) ++ 125 :: rest) =
        fieldsText st (kv :: kvs) ++ 125 :: rest := by
      rw [hu, skipWs_cons rfl]
    have hopen : dropPrefix [125] (fieldsText st (kv :: kvs) ++ 125 :: rest) = none := by
      rw [hu, dropPrefix, if_neg (by decide)]
    have hscan := scanFields_text hst h (List.cons_ne_nil kv kvs) rest n (by omega)
    simp only [hws, hopen, hscan, Option.map_some]

/-- Every value is read back; induction on the value. -/
theorem readsBack (hst : st.Blank) (v : Json) : ReadsBack st v := by
  induction v using Json.ind with
  | null =>
    intro _ _ _ rest fuel _ hf
    obtain ⟨n, rfl⟩ : ∃ n, fuel = n + 1 := ⟨fuel - 1, by simp [text, py] at hf; omega⟩
    have hmem : (py "null", Json.null) ∈ constants := by simp [constants]
    exact scanValue_const hmem rest n
  | bool b =>
    intro _ _ _ rest fuel _ hf
    obtain ⟨n, rfl⟩ : ∃ n, fuel = n + 1 := ⟨fuel - 1, by cases b <;> simp [text, py] at hf <;> omega⟩
    cases b with
    | true =>
      have hmem : (py "true", Json.bool true) ∈ constants := by simp [constants]
      exact scanValue_const hmem rest n
    | false =>
      have hmem : (py "false", Json.bool false) ∈ constants := by simp [constants]
      exact scanValue_const hmem rest n
  | int z =>
    intro _ hp _ rest fuel hend hf
    obtain ⟨c, t, hct, _⟩ := text_head st (.int z)
    obtain ⟨n, rfl⟩ : ∃ n, fuel = n + 1 := ⟨fuel - 1, by rw [hct, List.length_cons] at hf; omega⟩
    rw [printable, decide_eq_true_eq] at hp
    rw [text]
    exact scanValue_int hp hend n
  | float x =>
    intro _ _ _ rest fuel hend hf
    obtain ⟨c, t, hct, _⟩ := text_head st (.float x)
    obtain ⟨n, rfl⟩ : ∃ n, fuel = n + 1 := ⟨fuel - 1, by rw [hct, List.length_cons] at hf; omega⟩
    rw [text]
    exact scanValue_float x hend n
  | str s =>
    intro _ _ hs rest fuel _ hf
    rw [text, strText] at hf ⊢
    simp only [List.length_cons, List.length_append, List.length_nil] at hf
    rw [scalar] at hs
    have hlen := length_le_charsText st.ascii s
    obtain ⟨n, rfl⟩ : ∃ n, fuel = n + 1 := ⟨fuel - 1, by omega⟩
    have hscan := scanString_charsText st.ascii (List.all_eq_true.1 hs) rest n (by omega)
    have hcut : 34 :: (charsText st.ascii s ++ [34]) ++ rest =
        34 :: (charsText st.ascii s ++ 34 :: rest) := by simp
    rw [hcut, scanValue, if_pos rfl, hscan]
    rfl
  | arr xs ih =>
    intro hwf hp hs
    rw [printable, printableItems_iff] at hp
    rw [scalar, scalarItems_iff] at hs
    have hall : ∀ x ∈ xs, ReadsAs st x x := fun x hx => ih x hx (wf_arr_iff.1 hwf x hx) (hp x hx) (hs x hx)
    exact readsAs_arr hst (List.forall₂_same.2 hall)
  | obj kvs ih =>
    intro hwf hp hs
    obtain ⟨hsorted, hvals⟩ := wf_obj_iff.1 hwf
    rw [printable, printableFields_iff] at hp
    rw [scalar, scalarFields_iff] at hs
    have hall : ∀ kv ∈ kvs, FieldReadsAs st kv kv := by
      intro kv hkv
      refine ⟨fun rest fuel hf => ?_, ih kv hkv (hvals kv hkv) (hp kv hkv) (hs kv hkv).2⟩
      exact scanString_charsText st.ascii (List.all_eq_true.1 (hs kv hkv).1) rest fuel hf
    have hread := readsAs_obj hst (List.forall₂_same.2 hall)
    rwa [mkObj, mkFields_sorted hsorted] at hread

theorem loads_text (hst : st.Blank) {v : Json} (hwf : v.WF) (hp : v.printable = true)
    (hs : v.scalar = true) (ws : PyStr) (hws : ∀ c ∈ ws, isWs c = true) :
    loads (text st v ++ ws) = some v := by
  obtain ⟨c, t, hct, hstart⟩ := text_head st v
  simp only [startsValue, Bool.and_eq_true, Bool.not_eq_true'] at hstart
  have hend : NumberEnd ws := by
    rintro d u rfl
    have hd := hws d List.mem_cons_self
    simp only [isWs, Bool.or_eq_true, beq_iff_eq] at hd
    simp only [isDigit, Bool.and_eq_false_iff, decide_eq_false_iff_not]
    omega
  have hfuel : 3 * (text st v).length ≤ 3 * (text st v ++ ws).length + 3 := by
    rw [List.length_append]
    omega
  have hscan := readsBack hst v hwf hp hs ws (3 * (text st v ++ ws).length + 3) hend hfuel
  have hskip : skipWs (text st v ++ ws) = text st v ++ ws := by
    rw [hct, List.cons_append, skipWs_cons hstart.1]
  have hrest : skipWs ws = [] := List.dropWhile_eq_nil_iff.2 hws
  rw [loads, hskip, hscan]
  simp only [hrest, if_true]

end Values

/-- **`json.loads` inverts `json.dumps`.** -/
theorem loads_dumps {v : Json} {s : PyStr} (hwf : v.WF) (hs : v.scalar = true)
    (h : dumps v = some s) : loads s = some v := by
  unfold dumps at h
  split at h
  · rename_i hp
    cases h
    have hload := loads_text blank_default hwf hp hs [] fun c hc => absurd hc List.not_mem_nil
    rwa [List.append_nil] at hload
  · cases h

/-! ## The canonical form -/

section Canonical

/-- The characters of a number. -/
def isNumberChar (c : Nat) : Bool := isDigit c || c == 43 || c == 45 || c == 46 || c == 101

theorem isNumberChar_of_isDigit {c : Nat} (h : isDigit c = true) : isNumberChar c = true := by
  simp [isNumberChar, h]

theorem intText_chars (z : Int) : ∀ c ∈ intText z, isNumberChar c = true := by
  have hnat : ∀ c ∈ natText z.natAbs, isNumberChar c = true := fun c hc =>
    isNumberChar_of_isDigit (natText_isDigit _ c hc)
  unfold intText
  split
  · exact List.forall_mem_cons.2 ⟨rfl, hnat⟩
  · exact hnat

theorem expText_chars (e : Int) : ∀ c ∈ expText e, isNumberChar c = true := by
  have hnat : ∀ c ∈ natText e.natAbs, isNumberChar c = true := fun c hc =>
    isNumberChar_of_isDigit (natText_isDigit _ c hc)
  have hpad : ∀ c ∈ (if e.natAbs < 10 then 48 :: natText e.natAbs else natText e.natAbs),
      isNumberChar c = true := by
    split
    · exact List.forall_mem_cons.2 ⟨rfl, hnat⟩
    · exact hnat
  have hsign : isNumberChar (if e < 0 then 45 else 43) = true := by
    split <;> rfl
  exact List.forall_mem_cons.2 ⟨rfl, List.forall_mem_cons.2 ⟨hsign, hpad⟩⟩

theorem magText_chars {b : Nat} (hb : b ≤ binary64.top) :
    ∀ c ∈ magText b, isNumberChar c = true := by
  unfold magText
  split
  · decide
  · rename_i h0
    have hm : 0 < (shortest binary64 b).1 := by
      apply Nat.pos_of_ne_zero
      intro hz
      have hval := ofDecimal_shortest binary64 hb
      rw [hz, ofDecimal_zero] at hval
      exact h0 hval.symm
    obtain ⟨ip, fp, e, hip, hfp, _, htext, _⟩ := decimalText_parts hm (shortest binary64 b).2
    have hdigits : ∀ ds : PyStr, (∀ c ∈ ds, isDigit c = true) → ∀ c ∈ ds, isNumberChar c = true :=
      fun ds hds c hc => isNumberChar_of_isDigit (hds c hc)
    have hfrac : ∀ c ∈ (if fp = [] then [] else 46 :: fp), isNumberChar c = true := by
      split
      · exact fun c hc => absurd hc List.not_mem_nil
      · exact List.forall_mem_cons.2 ⟨rfl, hdigits fp hfp⟩
    have hexp : ∀ c ∈ (e.map expText).getD [], isNumberChar c = true := by
      cases e with
      | none => exact fun c hc => absurd hc List.not_mem_nil
      | some e => exact expText_chars e
    rw [htext, tailText]
    exact List.forall_mem_append.2 ⟨hdigits ip (isDigit_of_intPart hip),
      List.forall_mem_append.2 ⟨hfrac, hexp⟩⟩

/-- A property of characters that holds for printable ASCII and for what a string literal makes
of the characters of the strings in a value. -/
structure CharClosed (q : Nat → Prop) : Prop where
  ascii : ∀ c, 32 ≤ c → c < 127 → q c
  char : ∀ c, isScalar c = true → ∀ d ∈ charText false c, q d

variable {q : Nat → Prop}

theorem mem_unitEscape {n d : Nat} (h : d ∈ unitEscape n) : 32 ≤ d ∧ d < 128 := by
  have hex : ∀ k < 16, 32 ≤ hexDigit k ∧ hexDigit k < 128 := by decide
  simp only [unitEscape, List.mem_cons, List.not_mem_nil, or_false] at h
  rcases h with rfl | rfl | rfl | rfl | rfl | rfl
  · decide
  · decide
  · exact hex _ (Nat.mod_lt _ (by decide))
  · exact hex _ (Nat.mod_lt _ (by decide))
  · exact hex _ (Nat.mod_lt _ (by decide))
  · exact hex _ (Nat.mod_lt _ (by decide))

/-- A character is written as itself or as printable ASCII. -/
theorem mem_charText {ascii : Bool} {c d : Nat} (h : d ∈ charText ascii c) :
    (32 ≤ d ∧ d < 128) ∨ (d = c ∧ 32 ≤ c) := by
  have short : ∀ x : Nat, 32 ≤ x ∧ x < 128 → d ∈ ([92, x] : PyStr) → 32 ≤ d ∧ d < 128 := by
    intro x hx hd
    rcases List.mem_cons.1 hd with rfl | hd
    · decide
    · rw [List.mem_singleton.1 hd]
      exact hx
  unfold charText at h
  split at h
  · exact .inl (short 34 (by decide) h)
  split at h
  · exact .inl (short 92 (by decide) h)
  split at h
  · exact .inl (short 98 (by decide) h)
  split at h
  · exact .inl (short 116 (by decide) h)
  split at h
  · exact .inl (short 110 (by decide) h)
  split at h
  · exact .inl (short 102 (by decide) h)
  split at h
  · exact .inl (short 114 (by decide) h)
  split at h
  · exact .inl (mem_unitEscape h)
  split at h
  · rename_i h32 _
    exact .inr ⟨List.mem_singleton.1 h, not_lt.1 h32⟩
  split at h
  · exact .inl (mem_unitEscape h)
  · rcases List.mem_append.1 h with h | h
    · exact .inl (mem_unitEscape h)
    · exact .inl (mem_unitEscape h)

theorem isScalar_of_lt {c : Nat} (h : c < 128) : isScalar c = true := by
  simp only [isScalar, isSurrogate, Bool.and_eq_true, decide_eq_true_eq, Bool.not_eq_true',
    Bool.and_eq_false_iff, decide_eq_false_iff_not]
  omega

theorem strText_closed (hq : CharClosed q) {s : PyStr} (hs : s.all isScalar = true) :
    ∀ c ∈ strText false s, q c := by
  have hquote : q 34 := hq.ascii 34 (by decide) (by decide)
  have hchars : ∀ c ∈ charsText false s, q c := by
    intro c hc
    obtain ⟨d, hd, hcd⟩ := List.mem_flatMap.1 hc
    exact hq.char d (List.all_eq_true.1 hs d hd) c hcd
  refine List.forall_mem_cons.2 ⟨hquote, List.forall_mem_append.2 ⟨hchars, ?_⟩⟩
  exact List.forall_mem_cons.2 ⟨hquote, fun c hc => absurd hc List.not_mem_nil⟩

/-- What holds of printable ASCII, of the padding and of the string literals holds of the whole text;
the literals may be known for the strings of certain characters only. -/
theorem text_of_literals {st : Style} {p : Nat → Bool} (hascii : ∀ c, 32 ≤ c → c < 127 → q c)
    (hpad : ∀ c ∈ st.pad, q c)
    (hlit : ∀ s : PyStr, s.all p = true → ∀ c ∈ strText st.ascii s, q c) (v : Json) :
    v.everyChar p = true → ∀ c ∈ text st v, q c := by
  have hopen : ∀ {o e : Nat} {s : PyStr}, 32 ≤ o ∧ o < 127 → 32 ≤ e ∧ e < 127 → (∀ c ∈ s, q c) →
      ∀ c ∈ o :: (s ++ [e]), q c := by
    intro o e s ho he hs
    refine List.forall_mem_cons.2 ⟨hascii o ho.1 ho.2, List.forall_mem_append.2 ⟨hs, ?_⟩⟩
    exact List.forall_mem_cons.2 ⟨hascii e he.1 he.2, fun c hc => absurd hc List.not_mem_nil⟩
  have hword : ∀ {s : PyStr}, s.all (fun c => 32 ≤ c && c < 127) = true → ∀ c ∈ s, q c := by
    intro s h c hc
    have hw := List.all_eq_true.1 h c hc
    simp only [Bool.and_eq_true, decide_eq_true_eq] at hw
    exact hascii c hw.1 hw.2
  have hnumber : ∀ {s : PyStr}, (∀ c ∈ s, isNumberChar c = true) → ∀ c ∈ s, q c := by
    intro s h c hc
    have hnum := h c hc
    simp only [isNumberChar, isDigit, Bool.or_eq_true, Bool.and_eq_true, decide_eq_true_eq,
      beq_iff_eq] at hnum
    exact hascii c (by omega) (by omega)
  have hsep : ∀ o : Nat, 32 ≤ o ∧ o < 127 → ∀ c ∈ o :: st.pad, q c := fun o ho =>
    List.forall_mem_cons.2 ⟨hascii o ho.1 ho.2, hpad⟩
  induction v using Json.ind with
  | null => exact fun _ => hword rfl
  | bool b =>
    intro _
    cases b with
    | true => exact hword rfl
    | false => exact hword rfl
  | int z => exact fun _ => hnumber (intText_chars z)
  | float x =>
    intro _
    cases x with
    | nan => exact hword rfl
    | num neg mag =>
      rw [text, floatText]
      refine List.forall_mem_append.2 ⟨?_, ?_⟩
      · cases neg with
        | true => exact hword rfl
        | false => exact hword rfl
      · split
        · exact hword rfl
        · exact hnumber (magText_chars (Nat.le_of_lt_succ mag.isLt))
  | str s => exact hlit s
  | arr xs ih =>
    intro hs
    rw [everyChar, everyCharItems_iff] at hs
    rw [text]
    apply hopen (by decide) (by decide)
    induction xs with
    | nil => exact fun c hc => absurd hc List.not_mem_nil
    | cons x xs ihx =>
      obtain ⟨hx, hxs⟩ := List.forall_mem_cons.1 hs
      obtain ⟨ihx', ihxs⟩ := List.forall_mem_cons.1 ih
      rw [itemsText]
      refine List.forall_mem_append.2 ⟨ihx' hx, ?_⟩
      split
      · exact fun c hc => absurd hc List.not_mem_nil
      · exact List.forall_mem_append.2 ⟨hsep 44 (by decide), ihx ihxs hxs⟩
  | obj kvs ih =>
    intro hs
    rw [everyChar, everyCharFields_iff] at hs
    rw [text]
    apply hopen (by decide) (by decide)
    induction kvs with
    | nil => exact fun c hc => absurd hc List.not_mem_nil
    | cons kv kvs ihk =>
      obtain ⟨k, v⟩ := kv
      obtain ⟨⟨hk, hv⟩, hkvs⟩ := List.forall_mem_cons.1 hs
      obtain ⟨ihv, ihkvs⟩ := List.forall_mem_cons.1 ih
      rw [fieldsText, fieldText]
      refine List.forall_mem_append.2 ⟨List.forall_mem_append.2 ⟨hlit k hk, ?_⟩, ?_⟩
      · exact List.forall_mem_append.2 ⟨hsep 58 (by decide), ihv hv⟩
      · split
        · exact fun c hc => absurd hc List.not_mem_nil
        · exact List.forall_mem_append.2 ⟨hsep 44 (by decide), ihk ihkvs hkvs⟩

/-- What holds of printable ASCII and of string literals holds of the whole compact text. -/
theorem text_closed (hq : CharClosed q) (v : Json) (h : v.scalar = true) :
    ∀ c ∈ text .compact v, q c := by
  have hpad : ∀ c ∈ Style.compact.pad, q c := fun _ hc => absurd hc List.not_mem_nil
  have hlit : ∀ s : PyStr, s.all isScalar = true → ∀ c ∈ strText Style.compact.ascii s, q c :=
    fun _ hs => strText_closed hq hs
  exact text_of_literals hq.ascii hpad hlit v ((scalar_eq_everyChar v).symm.trans h)

theorem mem_charText_ascii {c d : Nat} (h : d ∈ charText true c) : d < 128 := by
  rcases mem_charText h with hd | ⟨rfl, _⟩
  · exact hd.2
  · by_contra hge
    -- beyond ASCII a character is escaped, and its escape is another character
    unfold charText at h
    rw [if_neg (by omega), if_neg (by omega), if_neg (by omega), if_neg (by omega),
      if_neg (by omega), if_neg (by omega), if_neg (by omega), if_neg (by omega),
      if_neg (by simp; omega)] at h
    split at h
    · exact hge (mem_unitEscape h).2
    · rcases List.mem_append.1 h with h | h
      · exact hge (mem_unitEscape h).2
      · exact hge (mem_unitEscape h).2

/-- **The default text is ASCII.** -/
theorem text_default_ascii (v : Json) : ∀ c ∈ text .default v, c < 128 := by
  refine text_of_literals (fun c _ h => by omega) (by decide) ?_ v (everyChar_of_forall (fun _ => rfl) v)
  rintro s -
  have hchars : ∀ c ∈ charsText true s, c < 128 := by
    intro c hc
    obtain ⟨d, _, hcd⟩ := List.mem_flatMap.1 hc
    exact mem_charText_ascii hcd
  refine List.forall_mem_cons.2 ⟨by decide, List.forall_mem_append.2 ⟨hchars, ?_⟩⟩
  exact List.forall_mem_singleton.2 (by decide)

section EveryChar

variable {p : Nat → Bool}

/-- What holds of every character of the compact text holds of the strings' characters. -/
theorem everyChar_of_text (hp : ∀ c < 128, p c = true) (v : Json) :
    (∀ c ∈ text .compact v, p c = true) → v.everyChar p = true := by
  have hstr : ∀ s : PyStr, (∀ c ∈ strText false s, p c = true) → s.all p = true := by
    intro s h
    rw [List.all_eq_true]
    intro c hc
    by_cases hlow : c < 128
    · exact hp c hlow
    · apply h
      have hself : charText false c = [c] := by
        unfold charText
        rw [if_neg (by omega), if_neg (by omega), if_neg (by omega), if_neg (by omega),
          if_neg (by omega), if_neg (by omega), if_neg (by omega), if_neg (by omega),
          if_pos (Or.inl rfl)]
      refine List.mem_cons_of_mem _ (List.mem_append_left _ (List.mem_flatMap.2 ⟨c, hc, ?_⟩))
      rw [hself]
      exact List.mem_singleton_self c
  induction v using Json.ind with
  | null => exact fun _ => rfl
  | bool b => exact fun _ => rfl
  | int z => exact fun _ => rfl
  | float x => exact fun _ => rfl
  | str s => exact hstr s
  | arr xs ih =>
    intro h
    rw [everyChar, everyCharItems_iff]
    rw [text] at h
    have hin := (List.forall_mem_append.1 (List.forall_mem_cons.1 h).2).1
    clear h
    induction xs with
    | nil => exact fun x hx => absurd hx List.not_mem_nil
    | cons x xs ihx =>
      obtain ⟨ihx', ihxs⟩ := List.forall_mem_cons.1 ih
      rw [itemsText] at hin
      obtain ⟨hx, hrest⟩ := List.forall_mem_append.1 hin
      refine List.forall_mem_cons.2 ⟨ihx' hx, ihx ihxs ?_⟩
      cases xs with
      | nil => exact fun c hc => absurd hc List.not_mem_nil
      | cons y ys => exact (List.forall_mem_cons.1 hrest).2
  | obj kvs ih =>
    intro h
    rw [everyChar, everyCharFields_iff]
    rw [text] at h
    have hin := (List.forall_mem_append.1 (List.forall_mem_cons.1 h).2).1
    clear h
    induction kvs with
    | nil => exact fun x hx => absurd hx List.not_mem_nil
    | cons kv kvs ihk =>
      obtain ⟨k, v⟩ := kv
      obtain ⟨ihv, ihkvs⟩ := List.forall_mem_cons.1 ih
      rw [fieldsText, fieldText] at hin
      obtain ⟨hkv, hrest⟩ := List.forall_mem_append.1 hin
      obtain ⟨hk, hv⟩ := List.forall_mem_append.1 hkv
      refine List.forall_mem_cons.2 ⟨⟨hstr k hk, ihv (List.forall_mem_cons.1 hv).2⟩, ihk ihkvs ?_⟩
      cases kvs with
      | nil => exact fun c hc => absurd hc List.not_mem_nil
      | cons y ys => exact (List.forall_mem_cons.1 hrest).2

/-- **The characters beyond ASCII in a compact text are those of the strings.** -/
theorem everyChar_iff_text (hp : ∀ c < 128, p c = true) (v : Json) :
    v.everyChar p = true ↔ ∀ c ∈ text .compact v, p c = true := by
  refine ⟨?_, everyChar_of_text hp v⟩
  refine text_of_literals (fun c _ h => hp c (by omega)) (fun _ hc => absurd hc List.not_mem_nil) ?_ v
  intro s hs
  have hchars : ∀ c ∈ charsText false s, p c = true := by
    intro c hc
    obtain ⟨d, hd, hcd⟩ := List.mem_flatMap.1 hc
    rcases mem_charText hcd with ⟨_, hlow⟩ | ⟨rfl, _⟩
    · exact hp c hlow
    · exact List.all_eq_true.1 hs c hd
  refine List.forall_mem_cons.2 ⟨hp 34 (by decide), List.forall_mem_append.2 ⟨hchars, ?_⟩⟩
  exact List.forall_mem_singleton.2 (hp 34 (by decide))

end EveryChar

/-- A text of scalar values comes from a value whose strings are. -/
theorem scalar_of_text (v : Json) (h : ∀ c ∈ text .compact v, isScalar c = true) :
    v.scalar = true :=
  (scalar_eq_everyChar v).trans (everyChar_of_text (fun _ hc => isScalar_of_lt hc) v h)

variable {v : Json} {b : Bytes}

/-- What has a canonical form is printable, and its strings have no surrogates. -/
theorem scalar_of_canonical (h : canonical v = some b) : v.printable = true ∧ v.scalar = true := by
  unfold canonical at h
  split at h
  · rename_i hp
    exact ⟨hp, scalar_of_text v (isScalar_of_encodeUtf8 _ _ h)⟩
  · cases h

theorem encode_of_canonical (h : canonical v = some b) :
    encodeUtf8 (text .compact v) = some b := by
  unfold canonical at h
  split at h
  · exact h
  · cases h

/-- Printable values without surrogates have a canonical form. -/
theorem canonical_isSome (hp : v.printable = true) (hs : v.scalar = true) :
    (canonical v).isSome = true := by
  have hq : CharClosed fun c => isScalar c = true := by
    refine ⟨fun c _ h => isScalar_of_lt (by omega), ?_⟩
    intro c hc d hd
    rcases mem_charText hd with ⟨_, h⟩ | ⟨rfl, _⟩
    · exact isScalar_of_lt h
    · exact hc
  have hchars : ∀ c ∈ text .compact v, isScalar c = true := text_closed hq v hs
  rw [canonical, if_pos hp]
  exact encodeUtf8_isSome hchars

/-- No control character occurs in the canonical form. -/
theorem control_not_mem_text (hs : v.scalar = true) : ∀ c ∈ text .compact v, 32 ≤ c := by
  have hq : CharClosed fun c => 32 ≤ c := by
    refine ⟨fun c h _ => h, ?_⟩
    intro c _ d hd
    rcases mem_charText hd with ⟨h, _⟩ | ⟨rfl, h⟩
    · exact h
    · exact h
  exact text_closed hq v hs

/-- **A canonical form contains no newline**, so it is one line of a file. -/
theorem newline_not_mem_canonical (h : canonical v = some b) : (10 : UInt8) ∉ b := by
  apply ascii_not_mem_encodeUtf8 (n := 10) (by decide) _ _ (encode_of_canonical h)
  intro hmem
  have := control_not_mem_text (scalar_of_canonical h).2 10 hmem
  omega

theorem detectEncoding_utf8 {a : UInt8} {rest : Bytes} (ha : a.toNat < 128)
    (h : ∀ x ∈ a :: rest, x ≠ 0) : detectEncoding (a :: rest) = .utf8 := by
  obtain ⟨h0, hrest⟩ := List.forall_mem_cons.1 h
  have hne : ∀ x : UInt8, 128 ≤ x.toNat → x ≠ a := by
    rintro x hx rfl
    omega
  have hfirst : ∀ (x : UInt8) (p : Bytes), x ≠ a → ¬ x :: p <+: a :: rest := by
    intro x p hx hp
    exact hx (List.cons_prefix_cons.1 hp).1
  unfold detectEncoding
  rw [if_neg (hfirst _ _ h0.symm), if_neg (hfirst _ _ (hne _ (by decide))),
    if_neg (hfirst _ _ (hne _ (by decide))), if_neg (hfirst _ _ (hne _ (by decide))),
    if_neg (hfirst _ _ (hne _ (by decide)))]
  split
  · rename_i heq
    cases heq
    rw [if_neg h0, if_neg (hrest _ List.mem_cons_self)]
  · rename_i heq
    cases heq
    rw [if_neg h0, if_neg (hrest _ List.mem_cons_self)]
  · rfl

/-- **`json.loads` inverts `canonical`**, also when a newline ends the line. -/
theorem loadsBytes_canonical (hwf : v.WF) (h : canonical v = some b) {ws : Bytes}
    (hws : ws = [] ∨ ws = [10]) : loadsBytes (b ++ ws) = some v := by
  obtain ⟨hp, hs⟩ := scalar_of_canonical h
  have henc := encode_of_canonical h
  obtain ⟨ws', hws', hblank⟩ : ∃ ws' : PyStr, encodeUtf8 ws' = some ws ∧
      (∀ c ∈ ws', isWs c = true ∧ c ≠ 0) := by
    rcases hws with rfl | rfl
    · exact ⟨[], rfl, fun c hc => absurd hc List.not_mem_nil⟩
    · exact ⟨[10], rfl, List.forall_mem_cons.2 ⟨by decide, fun c hc => absurd hc List.not_mem_nil⟩⟩
  have hall := encodeUtf8_append henc hws'
  have hnul : (0 : UInt8) ∉ b ++ ws := by
    apply ascii_not_mem_encodeUtf8 (n := 0) (by decide) _ _ hall
    intro hmem
    rcases List.mem_append.1 hmem with hmem | hmem
    · have := control_not_mem_text hs 0 hmem
      omega
    · exact (hblank 0 hmem).2 rfl
  have hdetect : detectEncoding (b ++ ws) = .utf8 := by
    obtain ⟨c, t, hct, hstart⟩ := text_head .compact v
    simp only [startsValue, Bool.and_eq_true, decide_eq_true_eq] at hstart
    rw [hct, encodeUtf8, encodeChar, if_pos hstart.2.2] at henc
    split at henc
    · rename_i x xs hx _
      cases hx
      cases henc
      apply detectEncoding_utf8
      · rw [toNat_ofNat_lt (by omega)]
        exact hstart.2.2
      · rintro y hy rfl
        exact hnul hy
    · cases henc
  rw [loadsBytes, hdetect, decodeAs, decodeUtf8_encodeUtf8 hall]
  exact loads_text blank_compact hwf hp hs _ fun c hc => (hblank c hc).1

/-- **Well-formed values with one canonical form are equal.** -/
theorem canonical_injective {w : Json} (hv : v.WF) (hw : w.WF) (h : canonical v = some b)
    (h' : canonical w = some b) : v = w := by
  have h1 := loadsBytes_canonical hv h (Or.inl rfl)
  have h2 := loadsBytes_canonical hw h' (Or.inl rfl)
  exact Option.some.inj (h1.symm.trans h2)

end Canonical

end Py
