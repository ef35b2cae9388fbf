import Valops.Common.Rpc

/-!
# The bundle registry

What a caller sees of the registry's directory at one moment: the revoked ids, and for each id what
`verify_integrity` answers. A bundle is addressed by the hash of its manifest, so the content of a
bundle that verifies depends on its id only; `skills` is that content.
-/

set_option autoImplicit false

namespace Valops

open Py

/-- The registry's directory at one moment. -/
structure BundleRegistry where
  revoked : List PyStr
  verify_integrity : PyStr → Except Exc (Option Msg)

/-- `c in "0123456789abcdef"` for a string `c`: it is a substring. -/
def hexSubstring (c : PyStr) : Bool := decide (c <:+: py "0123456789abcdef")

/-- `all(c in "0123456789abcdef" for c in xs)`; only a string has substrings. -/
def allHex : List Json → Except Exc Bool
  | [] => .ok true
  | .str c :: rest => if hexSubstring c then allHex rest else .ok false
  | _ :: _ => .error (.other .typeError)

/-- The items of a value one can iterate over. -/
def iterItems : Json → Except Exc (List Json)
  | .str s => .ok (s.map fun c => .str [c])
  | .arr xs => .ok xs
  | .obj kvs => .ok (kvs.map fun kv => .str kv.1)
  | _ => .error (.other .typeError)

/-- Whether an id has the form of one. -/
def wellFormedId (bundle_id : Json) : Except Exc Bool := do
  let items ← iterItems bundle_id
  let hex ← allHex items
  pure (hex && decide (items.length = 64))

/-- `BundleRegistry.verify`: the reason why the bundle may not be used, if there is one. -/
def BundleRegistry.verify (r : BundleRegistry) (bundle_id : Json) : Except Exc (Option Msg) :=
  if bundle_id.truthy then do
    let ok ← wellFormedId bundle_id
    match ok, bundle_id with
    | false, _ => pure (some (msg "malformed bundle id"))
    | true, .str s =>
      if s ∈ r.revoked then
        pure (some [.text (py "bundle "), .text (s.take 12), .text (py " revoked")])
      else r.verify_integrity s
    | true, _ => throw (.other .typeError)
  else pure (some (msg "malformed bundle id"))

/-- The check of `BundleRegistry.load`. -/
def BundleRegistry.checkLoad (r : BundleRegistry) (bundle_id : Json) : Except Exc Unit := do
  let reason ← r.verify bundle_id
  require reason.isNone (.other .bundleError)

/-- A bundle that is not refused has a string for its id. -/
theorem BundleRegistry.verify_str {r : BundleRegistry} {v : Json} (h : r.verify v = .ok none) :
    ∃ s, v = .str s := by
  unfold verify at h
  split at h
  · obtain ⟨ok, _, h⟩ := bind_eq_ok.1 h
    split at h
    · cases pure_eq_ok.1 h
    · exact ⟨_, rfl⟩
    · cases h
  · cases pure_eq_ok.1 h

theorem BundleRegistry.verify_integrity_of_verify {r : BundleRegistry} {s : PyStr}
    (h : r.verify (.str s) = .ok none) : r.verify_integrity s = .ok none := by
  unfold verify at h
  split at h
  · obtain ⟨ok, _, h⟩ := bind_eq_ok.1 h
    cases ok with
    | false => cases pure_eq_ok.1 h
    | true =>
      have h : (if s ∈ r.revoked then
          pure (some [.text (py "bundle "), .text (s.take 12), .text (py " revoked")])
        else r.verify_integrity s) = .ok none := h
      split at h
      · cases pure_eq_ok.1 h
      · exact h
  · cases pure_eq_ok.1 h

end Valops
