import Valops.Py.Text

/-!
# Decoding with replacement

`bytes.decode(errors="replace")`: each maximal part of an ill-formed sequence becomes one replacement
character. The result can always be encoded (`decodeReplace_scalar`).
-/

set_option autoImplicit false

namespace Py

/-- The second byte is one that may follow this first byte of a sequence of three or four. -/
def secondOk (a b : Nat) : Bool :=
  if a = 0xE0 then 0xA0 ≤ b && b ≤ 0xBF
  else if a = 0xED then 0x80 ≤ b && b ≤ 0x9F
  else if 0xE1 ≤ a ∧ a ≤ 0xEF then 0x80 ≤ b && b ≤ 0xBF
  else if a = 0xF0 then 0x90 ≤ b && b ≤ 0xBF
  else if a = 0xF4 then 0x80 ≤ b && b ≤ 0x8F
  else if 0xF1 ≤ a ∧ a ≤ 0xF3 then 0x80 ≤ b && b ≤ 0xBF
  else false

/-- How many bytes one replacement character stands for, where no character can be read. -/
def illFormed : Bytes → Nat
  | a :: b :: rest =>
    if !secondOk a.toNat b.toNat then 1
    else if a.toNat < 0xF0 then 2
    else
      match rest with
      | c :: _ => if (tailBits c).isSome then 3 else 2
      | [] => 2
  | _ => 1

/-- The loop over the bytes; the number says how many of them have been read already. -/
def replaceLoop : Nat → Bytes → PyStr
  | _, [] => []
  | n + 1, _ :: bs => replaceLoop n bs
  | 0, b :: bs =>
    match (decodeChar (b :: bs)).filter fun x => isScalar x.1 with
    | some (c, rest) => c :: replaceLoop (bs.length - rest.length) bs
    | none => 0xFFFD :: replaceLoop (illFormed (b :: bs) - 1) bs

/-- `bytes.decode(errors="replace")`. -/
def decodeReplace (bs : Bytes) : PyStr := replaceLoop 0 bs

theorem replaceLoop_scalar : ∀ (n : Nat) (bs : Bytes), ∀ c ∈ replaceLoop n bs, isScalar c = true := by
  intro n bs
  induction bs generalizing n with
  | nil =>
    intro c h
    cases n <;> cases h
  | cons b bs ih =>
    intro c h
    cases n with
    | succ n => exact ih n c h
    | zero =>
      rw [replaceLoop] at h
      split at h
      · rename_i x rest hx
        rcases List.mem_cons.1 h with rfl | h
        · exact (Option.filter_eq_some_iff.1 hx).2
        · exact ih _ c h
      · rcases List.mem_cons.1 h with rfl | h
        · decide
        · exact ih _ c h

/-- **What is decoded with replacement can be encoded.** -/
theorem decodeReplace_scalar (bs : Bytes) : ∀ c ∈ decodeReplace bs, isScalar c = true :=
  replaceLoop_scalar 0 bs

end Py
