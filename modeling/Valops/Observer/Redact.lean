import Valops.Py.Unicode

/-!
# Redaction of command output

`redact` replaces key material and paths with five patterns one after the other, `suspicious` collects
imperative text, and `cap` cuts the bytes of the output before either.
-/

set_option autoImplicit false

namespace Valops.Observer

open Py Regex

/-- `[A-Z ]`. -/
def isPemName (c : Nat) : Bool := isUpper c || c == 32

/-- `[A-Za-z0-9]`. -/
def isAsciiAlnum (c : Nat) : Bool := isDigit c || isUpper c || isLower c

/-- `[A-Za-z0-9_\-]`. -/
def isKeyChar (c : Nat) : Bool := isAsciiAlnum c || c == 95 || c == 45

/-- `\s*`. -/
def spaces : Regex Nat := star (char isSpace)

/-- `_PEM`. -/
def PEM : Regex Nat :=
  seqs [word (py "-----BEGIN "), plus (char isPemName), word (py "-----"), lazyStar (char fun _ => true),
    word (py "-----END "), plus (char isPemName), word (py "-----")]

section Patterns

variable (u : UnicodeData)

/-- `\d{1,3}`. -/
def byteDigits : Regex Nat := rep true 1 (some 3) (char (isDecimal u))

/-- `_KEYPAIR_ARRAY`. -/
def KEYPAIR_ARRAY : Regex Nat :=
  seqs [char fun c => c = 91, spaces,
    rep true 31 none (seqs [byteDigits u, spaces, char fun c => c = 44, spaces]), byteDigits u, spaces,
    char fun c => c = 93]

/-- `_LONG_B58`. -/
def LONG_B58 : Regex Nat :=
  seqs [wordBoundary u, rep true 64 none (char isBase58), wordBoundary u]

/-- `_API_KEY`. -/
def API_KEY : Regex Nat :=
  seq (wordBoundary u) (alts
    [seq (word (py "sk-")) (rep true 16 none (char isKeyChar)),
      seq (word (py "sk-ant-")) (rep true 16 none (char isKeyChar)),
      seq (word (py "AIza")) (rep true 30 none (char isKeyChar)),
      seqs [word (py "Bearer"), plus (char isSpace),
        rep true 16 none (char fun c => isKeyChar c || c == 46)]])

/-- The class that ends a path. -/
def endsPath (c : Nat) : Bool := isSpace c || c ∈ [58, 34, 39, 44, 41]

/-- `_PATH`. -/
def PATH : Regex Nat :=
  seqs [look fun before _ => !before.head?.any (fun c => isWord u c || c == 46), char fun c => c = 47,
    alts (["home", "root", "etc", "mnt", "var", "srv", "opt", "data"].map fun d => word (py d)),
    star (char fun c => !endsPath c)]

/-- The commands that `_SUSPICIOUS` knows. -/
def commandNames : List String :=
  ["agave-validator", "solana", "systemctl", "rm", "curl", "wget", "sudo"]

/-- `_SUSPICIOUS`. -/
def SUSPICIOUS : Regex Nat :=
  seq (wordBoundary u) (alts
    [seqs [caselessWord "ignore ", opt (alts [caselessWord "all ", caselessWord "any "]),
        alts [caselessWord "previous", caselessWord "prior"], caselessWord " instructions"],
      seqs [caselessWord "you ", alts [caselessWord "must", caselessWord "should"], caselessWord " now"],
      caselessWord "system prompt",
      seqs [alts (["run", "execute", "call", "invoke"].map caselessWord), plus (char isSpace),
        opt (char fun c => c = 96), alts (commandNames.map caselessWord), wordBoundary u],
      caselessWord "set-identity", caselessWord "exit --force", caselessWord "withdraw",
      seqs [caselessWord "transfer", plus (char isSpace), char (isDecimal u)],
      caselessWord "submit_verdict", caselessWord "propose_recommendation", caselessWord "send_alert"])

/-- The patterns of `redact` with their replacements. -/
def redactions : List (Regex Nat × PyStr) :=
  [(PEM, py "[REDACTED-PEM]"), (KEYPAIR_ARRAY u, py "[REDACTED-KEYPAIR]"),
    (API_KEY u, py "[REDACTED-KEY]"), (LONG_B58 u, py "[REDACTED-B58]"), (PATH u, py "[PATH]")]

/-- The loop of `redact`. -/
def redactLoop : List (Regex Nat × PyStr) → PyStr → Nat → PyStr × Nat
  | [], text, n => (text, n)
  | (pat, repl) :: rest, text, n => redactLoop rest (pat.sub repl text) (n + (pat.found text).length)

/-- `redact`. -/
def redact (text : PyStr) : PyStr × Nat := redactLoop (redactions u) text 0

/-- `suspicious`. -/
def suspicious (text : PyStr) : List PyStr :=
  ((((SUSPICIOUS u).found text).map fun m => m.2.take 80).dedup.mergeSort (· ≤ ·)).take 20

end Patterns

/-- `xs[:limit]`. -/
def sliceTo {α : Type} (xs : List α) (limit : Int) : List α :=
  if 0 ≤ limit then xs.take limit.toNat else xs.take (xs.length - limit.natAbs)

/-- `cap`. -/
def cap (data : Bytes) (limit : Int) : Bytes × Bool :=
  if limit < data.length then (sliceTo data limit, true) else (data, false)

/-! ## Text that can be encoded -/

section Scalar

variable {r : Regex Nat} {repl text : PyStr} {u : UnicodeData}

/-- The characters of a text that are not replaced. -/
theorem kept_mem : ∀ (n : Nat) (before after : PyStr) (c : Nat),
    Piece.kept c ∈ r.piecesFrom n before after → c ∈ after := by
  intro n before after
  induction after generalizing n before with
  | nil =>
    intro c h
    cases n <;> cases h
  | cons d after ih =>
    intro c h
    cases n with
    | succ n => exact List.mem_cons_of_mem d (ih n _ c h)
    | zero =>
      have hkept : Piece.kept c ∈ Piece.kept d :: r.piecesFrom 0 (d :: before) after → c ∈ d :: after := by
        intro h
        rcases List.mem_cons.1 h with h | h
        · cases h
          exact List.mem_cons_self
        · exact List.mem_cons_of_mem d (ih 0 _ c h)
      rw [piecesFrom] at h
      split at h
      · split at h
        · rcases List.mem_cons.1 h with h | h
          · cases h
          · exact List.mem_cons_of_mem d (ih _ _ c h)
        · exact hkept h
      · exact hkept h

/-- Every character of a text with replacements is one of the text or of the replacement. -/
theorem mem_sub {c : Nat} (h : c ∈ r.sub repl text) : c ∈ text ∨ c ∈ repl := by
  obtain ⟨p, hp, hc⟩ := List.mem_flatMap.1 h
  cases p with
  | kept d =>
    rw [List.mem_singleton.1 hc]
    exact .inl (kept_mem 0 [] text d hp)
  | cut m t => exact .inr hc

theorem redactLoop_mem {c : Nat} : ∀ {pats : List (Regex Nat × PyStr)} {text : PyStr} {n : Nat},
    c ∈ (redactLoop pats text n).1 → c ∈ text ∨ ∃ p ∈ pats, c ∈ p.2 := by
  intro pats
  induction pats with
  | nil => exact fun h => .inl h
  | cons p pats ih =>
    intro text n h
    rcases ih h with h | ⟨q, hq, h⟩
    · rcases mem_sub h with h | h
      · exact .inl h
      · exact .inr ⟨p, List.mem_cons_self, h⟩
    · exact .inr ⟨q, List.mem_cons_of_mem p hq, h⟩

/-- **Redacted text can be encoded** if the text can. -/
theorem redact_scalar (h : ∀ c ∈ text, isScalar c = true) :
    ∀ c ∈ (redact u text).1, isScalar c = true := by
  intro c hc
  rcases redactLoop_mem hc with hc | ⟨p, hp, hc⟩
  · exact h c hc
  · have hall : ∀ repl ∈ [py "[REDACTED-PEM]", py "[REDACTED-KEYPAIR]", py "[REDACTED-KEY]",
        py "[REDACTED-B58]", py "[PATH]"], ∀ c ∈ repl, isScalar c = true := by decide +kernel
    exact hall p.2 (List.mem_map_of_mem hp) c hc

end Scalar

end Valops.Observer
