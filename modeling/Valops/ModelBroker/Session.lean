import Mathlib.Data.Rat.Floor
import Valops.ModelBroker.Clamp

/-!
# Sessions of the model broker

A session with its limits and counters, and the three sections of `handle` that run under its lock:
the limits, the meter and the record of a refusal. Prices and costs are numbers of a kind that is a
parameter: floats in the source, where a conversion may raise, or exact rationals.
-/

set_option autoImplicit false

namespace Valops.ModelBroker

open Py

/-! ## Numbers -/

/-- The arithmetic of prices: sums and differences, `n * x`, `x > 0`, and `int(x / y)`. -/
structure Numbers where
  Num : Type
  zero : Num
  add : Num → Num → Num
  sub : Num → Num → Num
  times : Int → Num → Except Exc Num
  positive : Num → Bool
  quotient : Num → Num → Except Exc Int

/-- The integer part of a rational. -/
def truncate (q : ℚ) : Int := if 0 ≤ q then ⌊q⌋ else ⌈q⌉

/-- Exact rationals. -/
def rationals : Numbers where
  Num := ℚ
  zero := 0
  add x y := x + y
  sub x y := x - y
  times n x := .ok (n * x)
  positive x := decide (0 < x)
  quotient x y := .ok (truncate (x / y))

/-! ## Sessions -/

/-- `Refusal`. -/
structure Refusal where
  status : Nat
  cause : PyStr
  message : Msg
  deriving DecidableEq

/-- `Session`. -/
structure Session (N : Numbers) where
  session_id : PyStr
  episode_id : PyStr
  provider : Provider
  model : PyStr
  upstream : PyStr
  price_in : N.Num
  price_out : N.Num
  max_requests : Int
  max_input_tokens : Int
  max_output_tokens : Int
  max_usd : N.Num
  requests : Int := 0
  input_tokens : Int := 0
  output_tokens : Int := 0
  usd : N.Num := N.zero
  refusals : List Refusal := []
  upstream_errors : Nat := 0

/-- How a request ends before it is forwarded: refused, or by another exception. -/
inductive Halt where
  | refusal (r : Refusal)
  | raised (e : Exc)
  deriving DecidableEq

/-- `raise Refusal(status, cause, message)`. -/
def refuse {α : Type} (status : Nat) (cause message : String) : Except Halt α :=
  .error (.refusal ⟨status, py cause, msg message⟩)

/-- Another exception. -/
def raising {α : Type} (x : Except Exc α) : Except Halt α :=
  match x with
  | .ok a => .ok a
  | .error e => .error (.raised e)

/-- `max(1, len(raw) // 4)`. -/
def estimate (size : Nat) : Int := max 1 (size / 4 : Nat)

/-- A request that has passed the limits. -/
structure Admission (N : Numbers) where
  session : Session N
  body : Fields
  est_in : Int
  clamp : Int

section Sections

variable {N : Numbers} (b : Builtins)

/-- The output tokens that are left, by number and by price. -/
def outputLeft (s : Session N) (est_in : Int) : Except Exc Int := do
  let remaining := s.max_output_tokens - s.output_tokens
  let cost ← N.times est_in s.price_in
  let usd_left := N.sub (N.sub s.max_usd s.usd) cost
  if N.positive s.price_out then do
    let n ← N.quotient usd_left s.price_out
    pure (min remaining n)
  else pure remaining

/-- The section of `handle` that checks the limits, for a request of this size. -/
def limits (s : Session N) (size : Nat) (rest : PyStr) (body : Fields) :
    Except Halt (Admission N) :=
  if s.max_requests ≤ s.requests then refuse 429 "limit_requests" "request limit reached"
  else if s.max_input_tokens < s.input_tokens + estimate size then
    refuse 429 "limit_input_tokens" "input token limit reached"
  else do
    let remaining ← raising (outputLeft s (estimate size))
    if remaining < 1 then refuse 429 "limit_output_or_usd" "output token or USD limit reached"
    else do
      let (body, clamp) ← raising (clamp_output b s.provider rest body remaining)
      pure ⟨{ s with requests := s.requests + 1 }, body, estimate size, clamp⟩

/-- What is charged for an answer without usage. -/
def unmetered (status : Nat) (est_in clamp : Int) : Int × Int :=
  if 200 ≤ status ∧ status < 300 then (est_in, clamp) else (0, 0)

/-- What is charged for an answer. -/
def charge (usage : Option (Int × Int)) (status : Nat) (est_in clamp : Int) : Int × Int :=
  usage.getD (unmetered status est_in clamp)

/-- The cost of a charge. -/
def costOf (s : Session N) (usage : Int × Int) : Except Exc N.Num := do
  let i ← N.times usage.1 s.price_in
  let o ← N.times usage.2 s.price_out
  pure (N.add i o)

/-- The section of `handle` that meters a request; the tokens are counted before the cost is. -/
def meter (s : Session N) (usage : Int × Int) (status : Nat) : Except Exc Unit × Session N :=
  let s := { s with
    input_tokens := s.input_tokens + usage.1
    output_tokens := s.output_tokens + usage.2 }
  match costOf s usage with
  | .error e => (.error e, s)
  | .ok cost => (.ok (), { s with
      usd := N.add s.usd cost
      upstream_errors :=
        if 500 ≤ status ∨ status = 0 then s.upstream_errors + 1 else s.upstream_errors })

/-- `s.refusals.append(...)`. -/
def Session.refused (s : Session N) (r : Refusal) : Session N :=
  { s with refusals := s.refusals ++ [r] }

end Sections

/-! ## What the limits establish -/

section Limits

variable {N : Numbers} {b : Builtins} {s : Session N} {size : Nat} {rest : PyStr} {body : Fields}
  {adm : Admission N} {remaining est_in : Int}

theorem raising_eq_ok {α : Type} {x : Except Exc α} {a : α} : raising x = .ok a ↔ x = .ok a := by
  cases x with
  | ok c => simp [raising]
  | error e => simp [raising]

theorem halt_bind_eq_ok {α β : Type} {x : Except Halt α} {f : α → Except Halt β} {c : β} :
    (x >>= f) = .ok c ↔ ∃ a, x = .ok a ∧ f a = .ok c := by
  cases x with
  | error e => simp [bind, Except.bind]
  | ok a => simp [bind, Except.bind]

/-- A request that has passed the limits: each of them left room, and only the number of requests has
changed. -/
structure Admits (b : Builtins) (s : Session N) (size : Nat) (rest : PyStr) (body : Fields)
    (adm : Admission N) : Prop where
  requests : s.requests < s.max_requests
  input : s.input_tokens + estimate size ≤ s.max_input_tokens
  est_in : adm.est_in = estimate size
  session : adm.session = { s with requests := s.requests + 1 }
  output : ∃ remaining, outputLeft s (estimate size) = .ok remaining ∧ 1 ≤ remaining ∧
    clamp_output b s.provider rest body remaining = .ok (adm.body, adm.clamp)

theorem limits_eq_ok (h : limits b s size rest body = .ok adm) : Admits b s size rest body adm := by
  unfold limits at h
  split at h
  · cases h
  split at h
  · cases h
  rename_i hrequests hinput
  obtain ⟨remaining, hleft, h⟩ := halt_bind_eq_ok.1 h
  split at h
  · cases h
  rename_i hremaining
  obtain ⟨⟨body', clamp⟩, hclamp, h⟩ := halt_bind_eq_ok.1 h
  cases h
  exact ⟨by omega, by omega, rfl, rfl, remaining, raising_eq_ok.1 hleft, by omega,
    raising_eq_ok.1 hclamp⟩

/-- What the limits refuse. -/
theorem limits_eq_refusal {r : Refusal} (h : limits b s size rest body = .error (.refusal r)) :
    s.max_requests ≤ s.requests ∨ s.max_input_tokens < s.input_tokens + estimate size ∨
      ∃ remaining, outputLeft s (estimate size) = .ok remaining ∧ remaining < 1 := by
  unfold limits at h
  split at h
  · rename_i hrequests
    exact .inl hrequests
  split at h
  · rename_i hinput
    exact .inr (.inl hinput)
  cases hleft : outputLeft s (estimate size) with
  | error e =>
    rw [hleft] at h
    cases h
  | ok remaining =>
    rw [hleft] at h
    change (if remaining < 1 then _ else _) = _ at h
    split at h
    · rename_i hlow
      exact .inr (.inr ⟨remaining, rfl, hlow⟩)
    · -- what the clamp raises is no refusal
      cases hclamp : clamp_output b s.provider rest body remaining with
      | error e =>
        rw [hclamp] at h
        cases h
      | ok x =>
        rw [hclamp] at h
        cases h

/-- A clamp is at most what remains. -/
theorem clamp_output_le {provider : Provider} {body' : Fields} {n : Int}
    (h : clamp_output b provider rest body remaining = .ok (body', n)) : n ≤ remaining := by
  obtain ⟨z, _, hn, _⟩ := clamp_output_eq_ok h
  omega

theorem Admits.clamp_le (h : Admits b s size rest body adm) :
    ∃ remaining, outputLeft s adm.est_in = .ok remaining ∧ 1 ≤ remaining ∧ adm.clamp ≤ remaining := by
  obtain ⟨remaining, hleft, hpos, hclamp⟩ := h.output
  rw [h.est_in]
  exact ⟨remaining, hleft, hpos, clamp_output_le hclamp⟩

end Limits

/-! ## What the meter does -/

section Meter

variable {N : Numbers} (s : Session N) (usage : Int × Int) (status : Nat)

/-- A session with more tokens. -/
def Session.counted : Session N :=
  { s with
    input_tokens := s.input_tokens + usage.1
    output_tokens := s.output_tokens + usage.2 }

theorem meter_eq : meter s usage status = match costOf s usage with
    | .error e => (.error e, s.counted usage)
    | .ok cost => (.ok (), { s.counted usage with
        usd := N.add s.usd cost
        upstream_errors :=
          if 500 ≤ status ∨ status = 0 then s.upstream_errors + 1 else s.upstream_errors }) := rfl

theorem meter_eq_ok : (meter s usage status).1 = .ok () ↔ ∃ cost, costOf s usage = .ok cost := by
  rw [meter_eq]
  cases costOf s usage with
  | error e => simp
  | ok cost => simp

/-- The meter counts tokens and no requests. -/
theorem meter_tokens : (meter s usage status).2.requests = s.requests ∧
    (meter s usage status).2.input_tokens = s.input_tokens + usage.1 ∧
    (meter s usage status).2.output_tokens = s.output_tokens + usage.2 := by
  rw [meter_eq]
  cases costOf s usage with
  | error e => exact ⟨rfl, rfl, rfl⟩
  | ok cost => exact ⟨rfl, rfl, rfl⟩

end Meter

end Valops.ModelBroker
