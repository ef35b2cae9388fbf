import Valops.Py.Regex
import Valops.Py.Text

/-!
# Classes of characters

The character classes of `re` and `str.lower`. What the Unicode database says of the characters
beyond ASCII is a parameter; white space and the ASCII part are spelled out.
-/

set_option autoImplicit false

namespace Py

/-- What is looked up for a character beyond ASCII. -/
structure UnicodeData where
  isalnum : Nat → Bool
  isdecimal : Nat → Bool
  lower : Nat → PyStr

/-- A database of ASCII only. -/
def asciiData : UnicodeData := ⟨fun _ => false, fun _ => false, fun c => [c]⟩

/-- `A-Z`. -/
def isUpper (c : Nat) : Bool := 65 ≤ c && c ≤ 90

/-- `a-z`. -/
def isLower (c : Nat) : Bool := 97 ≤ c && c ≤ 122

/-- The characters of base 58. -/
def isBase58 (c : Nat) : Bool :=
  (49 ≤ c && c ≤ 57) || (65 ≤ c && c ≤ 72) || (74 ≤ c && c ≤ 78) || (80 ≤ c && c ≤ 90) ||
    (97 ≤ c && c ≤ 107) || (109 ≤ c && c ≤ 122)

section Unicode

variable (u : UnicodeData)

/-- `\w`. -/
def isWord (c : Nat) : Bool :=
  if c < 128 then isDigit c || isUpper c || isLower c || c == 95 else u.isalnum c

/-- `\d`. -/
def isDecimal (c : Nat) : Bool := if c < 128 then isDigit c else u.isdecimal c

/-- One character in lower case. -/
def lowerChar (c : Nat) : PyStr :=
  if isUpper c then [c + 32] else if c < 128 then [c] else u.lower c

/-- `str.lower`. -/
def lower (s : PyStr) : PyStr := s.flatMap (lowerChar u)

theorem isWord_of_isBase58 {c : Nat} (h : isBase58 c = true) : isWord u c = true := by
  simp only [isBase58, Bool.or_eq_true, Bool.and_eq_true, decide_eq_true_eq] at h
  rw [isWord, if_pos (by omega)]
  simp only [isDigit, isUpper, isLower]
  simp only [Bool.or_eq_true, Bool.and_eq_true, decide_eq_true_eq]
  omega

/-- Lower-case ASCII text stays as it is. -/
theorem lower_of_ascii {s : PyStr} (h : ∀ c ∈ s, c < 128 ∧ isUpper c = false) : lower u s = s := by
  induction s with
  | nil => rfl
  | cons c s ih =>
    obtain ⟨⟨hc, hup⟩, hs⟩ := List.forall_mem_cons.1 h
    have hfirst : lowerChar u c = [c] := by rw [lowerChar, if_neg (by simp [hup]), if_pos hc]
    rw [lower, List.flatMap_cons, hfirst, ← lower, ih hs]
    rfl

end Unicode

/-! ## Anchors -/

open Regex

/-- `^`, and `\A`. -/
def atStart : Regex Nat := look fun before _ => before.isEmpty

/-- `\Z`. -/
def atEnd : Regex Nat := look fun _ after => after.isEmpty

/-- `$`: at the end, or before a line feed there. -/
def atLastEnd : Regex Nat := look fun _ after => after.isEmpty || after == [10]

/-- `^` with `re.M`. -/
def lineStart : Regex Nat := look fun before _ => before.head?.all fun c => c = 10

/-- `$` with `re.M`. -/
def lineEnd : Regex Nat := look fun _ after => after.head?.all fun c => c = 10

/-- `\b`. -/
def wordBoundary (u : UnicodeData) : Regex Nat :=
  look fun before after => before.head?.any (isWord u) != after.head?.any (isWord u)

/-- A character where case is ignored: a letter of the pattern is in lower case, and four characters
beyond ASCII are variants of `i`, `k` and `s`. -/
def caseless (c d : Nat) : Bool :=
  d == c || (isLower c && d + 32 == c) || (c == 115 && d == 0x17F) || (c == 107 && d == 0x212A) ||
    (c == 105 && (d == 0x130 || d == 0x131))

/-- A word where case is ignored. -/
def caselessWord (s : String) : Regex Nat := seqs ((py s).map fun c => char (caseless c))

/-- `re.fullmatch`. -/
def fullmatch (r : Regex Nat) (s : PyStr) : Bool := ((seq r atEnd).here (.start s)).isSome

/-- `m.group(n)`. -/
def groupOf (m : Place Nat) (n : Nat) : PyStr := ((m.groups.find? fun g => g.1 = n).map Prod.snd).getD []

/-- `re.match`, whether there is one. -/
def isMatch (r : Regex Nat) (s : PyStr) : Bool := (r.here (.start s)).isSome

end Py
