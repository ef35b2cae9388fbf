import Valops.Conc.Runs
import Valops.ModelBroker.Session

/-!
# The budget of a session

Requests of one session, handled one after the other, over exact rationals. An answer reports no
more input than was estimated and no more output than the forwarded cap, or nothing.

The limits compare the budget only through the number of output tokens it can still pay for, so a
session whose output is free is never refused for what its input costs.

Main result: `usd_budget`.
-/

set_option autoImplicit false

namespace Valops.ModelBroker

open Py

/-- The price of an input token. -/
def Session.priceIn (s : Session rationals) : ℚ := s.price_in

/-- The price of an output token. -/
def Session.priceOut (s : Session rationals) : ℚ := s.price_out

/-- What has been spent. -/
def Session.spent (s : Session rationals) : ℚ := s.usd

/-- What may be spent. -/
def Session.budget (s : Session rationals) : ℚ := s.max_usd

/-- A request as the session meets it: its size, its path and body, what the answer reports, and the
status. -/
structure Handled where
  size : Nat
  rest : PyStr
  body : Fields
  usage : Option (Int × Int)
  status : Nat

/-- The answer reports no more than was estimated and allowed. -/
def Honest (usage : Option (Int × Int)) (est_in clamp : Int) : Prop :=
  ∀ u, usage = some u → u.1 ≤ est_in ∧ u.2 ≤ clamp

instance (usage : Option (Int × Int)) (est_in clamp : Int) : Decidable (Honest usage est_in clamp) :=
  match usage with
  | none => .isTrue nofun
  | some u => decidable_of_iff (u.1 ≤ est_in ∧ u.2 ≤ clamp)
      ⟨fun h _ hu => by cases hu; exact h, fun h => h u rfl⟩

/-- A request that has been handled. -/
inductive Handles (b : Builtins) (s : Session rationals) (a : Handled) : Session rationals → Prop
  | refused {r : Refusal} (limited : limits b s a.size a.rest a.body = .error (.refusal r)) :
      Handles b s a (s.refused r)
  | raised {e : Exc} (limited : limits b s a.size a.rest a.body = .error (.raised e)) :
      Handles b s a s
  | served {adm : Admission rationals} (limited : limits b s a.size a.rest a.body = .ok adm)
      (honest : Honest a.usage adm.est_in adm.clamp) :
      Handles b s a
        (meter adm.session (charge a.usage a.status adm.est_in adm.clamp) a.status).2

/-- A new session; the bounds of the register keep its limits from being negative. -/
structure Fresh (s : Session rationals) : Prop where
  input_tokens : s.input_tokens = 0
  usd : s.spent = 0
  max_input_tokens : 0 ≤ s.max_input_tokens
  max_usd : 0 ≤ s.budget

/-- Why the limits refuse: no request is left, the estimate does not fit, or not one more output
token is allowed or can be paid for. -/
def Spent (s : Session rationals) (size : Nat) : Prop :=
  s.max_requests ≤ s.requests ∨ s.max_input_tokens < s.input_tokens + estimate size ∨
    s.max_output_tokens - s.output_tokens < 1 ∨
    (0 < s.priceOut ∧
      s.budget - s.spent - (estimate size : ℚ) * s.priceIn < s.priceOut)

/-- Prices are not negative, and what the input may cost fits where output is free. -/
def Priced (s : Session rationals) (size : Nat) : Prop :=
  0 ≤ s.priceIn ∧ (0 < s.priceOut ∨ (s.priceOut = 0 ∧
    s.spent + (estimate size : ℚ) * s.priceIn ≤ s.budget))

/-- A request that is refused, or whose price the budget covers. -/
def Covered (s : Session rationals) (a : Handled) : Prop := Spent s a.size ∨ Priced s a.size

section Budget

variable {b : Builtins} {s s' : Session rationals} {a : Handled} {size : Nat} {rest : PyStr}
  {body : Fields} {adm : Admission rationals} {r : Refusal} {remaining est_in : Int}

theorem truncate_le {q : ℚ} (h : 1 ≤ truncate q) : ((truncate q : ℤ) : ℚ) ≤ q := by
  unfold truncate at h ⊢
  split
  · exact Int.floor_le q
  · rename_i hneg
    rw [if_neg hneg] at h
    have hceil : ⌈q⌉ ≤ 0 := Int.ceil_le.2 (by push_cast; linarith)
    omega

theorem truncate_pos {q : ℚ} : 1 ≤ truncate q ↔ 1 ≤ q := by
  constructor
  · intro h
    have hle := truncate_le h
    have hone : (1 : ℚ) ≤ ((truncate q : ℤ) : ℚ) := by exact_mod_cast h
    linarith
  · intro h
    rw [truncate, if_pos (by linarith)]
    exact Int.le_floor.2 (by exact_mod_cast h)

/-- What is left of the output, in numbers. -/
theorem outputLeft_eq (s : Session rationals) (est_in : Int) : outputLeft s est_in = .ok
    (if 0 < s.priceOut then
      min (s.max_output_tokens - s.output_tokens)
        (truncate ((s.budget - s.spent - (est_in : ℚ) * s.priceIn) / s.priceOut))
    else s.max_output_tokens - s.output_tokens) := by
  unfold outputLeft
  by_cases hpos : 0 < s.priceOut
  · have hb : rationals.positive s.price_out = true := decide_eq_true (p := 0 < s.priceOut) hpos
    rw [if_pos hpos, hb]
    rfl
  · have hb : rationals.positive s.price_out = false := decide_eq_false (p := 0 < s.priceOut) hpos
    rw [if_neg hpos, hb]
    rfl

/-- Output that is left can be paid for. -/
theorem outputLeft_paid (hout : 0 < s.priceOut) (h : outputLeft s est_in = .ok remaining)
    (hpos : 1 ≤ remaining) : (remaining : ℚ) * s.priceOut ≤
      s.budget - s.spent - (est_in : ℚ) * s.priceIn := by
  rw [outputLeft_eq, if_pos hout] at h
  cases h
  have hone := le_trans hpos (min_le_right _ _)
  have hle : ((min (s.max_output_tokens - s.output_tokens) (truncate
      ((s.budget - s.spent - (est_in : ℚ) * s.priceIn) / s.priceOut)) : ℤ) : ℚ) ≤
      (s.budget - s.spent - (est_in : ℚ) * s.priceIn) / s.priceOut :=
    le_trans (by exact_mod_cast min_le_right _ _) (truncate_le hone)
  exact (le_div_iff₀ hout).1 hle

/-- **The limits refuse only what is spent.** -/
theorem limits_refused (h : limits b s size rest body = .error (.refusal r)) : Spent s size := by
  rcases limits_eq_refusal h with hrequests | hinput | ⟨remaining, hleft, hlow⟩
  · exact .inl hrequests
  · exact .inr (.inl hinput)
  rw [outputLeft_eq] at hleft
  by_cases hout : 0 < s.priceOut
  · rw [if_pos hout] at hleft
    cases hleft
    rcases min_lt_iff.1 hlow with hlow | hlow
    · exact .inr (.inr (.inl hlow))
    · refine .inr (.inr (.inr ⟨hout, ?_⟩))
      by_contra hnot
      have hone := truncate_pos.2 ((one_le_div hout).2 (not_lt.1 hnot))
      omega
  · rw [if_neg hout] at hleft
    cases hleft
    exact .inr (.inr (.inl hlow))

/-- What passes the limits is not spent. -/
theorem Admits.not_spent (h : Admits b s size rest body adm) : ¬ Spent s size := by
  obtain ⟨remaining, hleft, hpos, _⟩ := h.output
  have hrequests := h.requests
  have hinput := h.input
  rintro (hs | hs | hs | ⟨hout, hs⟩)
  · omega
  · omega
  · rw [outputLeft_eq] at hleft
    cases hleft
    split at hpos
    · have := le_trans hpos (min_le_left _ _)
      omega
    · omega
  · have hpaid := outputLeft_paid hout hleft hpos
    have hone : (1 : ℚ) ≤ (remaining : ℚ) := by exact_mod_cast hpos
    nlinarith

/-- A charge within the estimate and the cap is covered by the budget. -/
theorem Admits.covered (h : Admits b s size rest body adm) (hp : Priced s size) {i o : Int}
    (hi : i ≤ adm.est_in) (ho : o ≤ adm.clamp) :
    s.spent + ((i : ℚ) * s.priceIn + (o : ℚ) * s.priceOut) ≤ s.budget := by
  obtain ⟨remaining, hleft, hpos, hclamp⟩ := h.clamp_le
  rw [h.est_in] at hi hleft
  have hin : (i : ℚ) * s.priceIn ≤ (estimate size : ℚ) * s.priceIn :=
    mul_le_mul_of_nonneg_right (by exact_mod_cast hi) hp.1
  rcases hp.2 with hout | ⟨hfree, hfits⟩
  · have hpaid := outputLeft_paid hout hleft hpos
    have hcap : (o : ℚ) * s.priceOut ≤ (remaining : ℚ) * s.priceOut :=
      mul_le_mul_of_nonneg_right (by exact_mod_cast le_trans ho hclamp) hout.le
    linarith
  · rw [hfree, mul_zero]
    linarith

/-- What the meter adds. -/
theorem meter_rationals (s : Session rationals) (usage : Int × Int) (status : Nat) :
    (meter s usage status).2.spent =
        s.spent + ((usage.1 : ℚ) * s.priceIn + (usage.2 : ℚ) * s.priceOut) ∧
      (meter s usage status).2.input_tokens = s.input_tokens + usage.1 ∧
      (meter s usage status).2.budget = s.budget ∧
      (meter s usage status).2.max_input_tokens = s.max_input_tokens := ⟨rfl, rfl, rfl, rfl⟩

/-- The budget holds. -/
structure WithinBudget (s : Session rationals) : Prop where
  usd : s.spent ≤ s.budget
  input : s.input_tokens ≤ s.max_input_tokens

/-- One request keeps the budget. -/
theorem Handles.withinBudget (h : Handles b s a s') (hs : WithinBudget s) (hc : Covered s a) :
    WithinBudget s' := by
  cases h with
  | refused limited => exact ⟨hs.usd, hs.input⟩
  | raised limited => exact hs
  | @served adm limited honest =>
    have hadm := limits_eq_ok limited
    have hpriced := hc.resolve_left hadm.not_spent
    obtain ⟨husd, hinput, hmax, hmaxin⟩ :=
      meter_rationals adm.session (charge a.usage a.status adm.est_in adm.clamp) a.status
    rw [hadm.session] at husd hinput hmax hmaxin
    rw [hadm.session]
    have hroom := hadm.input
    have hest := hadm.est_in
    have hpos : 1 ≤ estimate a.size := le_max_left _ _
    -- a charge is a report, the estimate with the cap, or nothing
    have hcharge : (charge a.usage a.status adm.est_in adm.clamp).1 ≤ adm.est_in ∧
        s.spent + (((charge a.usage a.status adm.est_in adm.clamp).1 : ℚ) * s.priceIn +
          ((charge a.usage a.status adm.est_in adm.clamp).2 : ℚ) * s.priceOut) ≤ s.budget := by
      unfold charge
      cases husage : a.usage with
      | some u =>
        obtain ⟨hi, ho⟩ := honest u husage
        exact ⟨hi, hadm.covered hpriced hi ho⟩
      | none =>
        show (unmetered a.status adm.est_in adm.clamp).1 ≤ _ ∧ _
        unfold unmetered
        split
        · exact ⟨le_refl _, hadm.covered hpriced le_rfl le_rfl⟩
        · refine ⟨by show (0 : ℤ) ≤ adm.est_in; omega, ?_⟩
          have husd0 := hs.usd
          simpa using husd0
    constructor
    · rw [hmax, husd]
      exact hcharge.2
    · rw [hmaxin, hinput]
      have := hcharge.1
      show s.input_tokens + _ ≤ s.max_input_tokens
      omega

/-- **The budget of a session**: it holds after any requests whose price it covers, and the limits
refuse only what is spent. -/
theorem usd_budget (h : Conc.Reachable Fresh (Handles b) Covered s) :
    (s.spent ≤ s.budget ∧ s.input_tokens ≤ s.max_input_tokens) ∧
    ∀ size rest body r, limits b s size rest body = .error (.refusal r) → Spent s size := by
  refine ⟨?_, fun size rest body r => limits_refused⟩
  have hinv : WithinBudget s := h.inv
    (fun s hs => ⟨by rw [hs.usd]; exact hs.max_usd, by rw [hs.input_tokens]; exact hs.max_input_tokens⟩)
    fun s a s' hs hok hstep => hstep.withinBudget hs hok
  exact ⟨hinv.usd, hinv.input⟩

end Budget

/-! ## A session with free output -/

/-- A session with a budget of one dollar. An input token costs a dollar, output is free. -/
def freeOutput : Session rationals where
  session_id := py "s"
  episode_id := py "e"
  provider := .anthropic
  model := py "m"
  upstream := py "https://api"
  price_in := (1 : ℚ)
  price_out := (0 : ℚ)
  max_requests := 10
  max_input_tokens := 1000
  max_output_tokens := 1000
  max_usd := (1 : ℚ)

theorem freeOutput_fresh : Fresh freeOutput := ⟨rfl, rfl, by decide, zero_le_one⟩

/-- A message of this size, and an answer that reports what was estimated. -/
def sampleMessage (size : Nat) : Handled :=
  ⟨size, py "/v1/messages", [], some (estimate size, 1), 200⟩

/-- The message when it has passed the limits. -/
def sampleAdmission (size : Nat) : Admission rationals :=
  ⟨{ freeOutput with requests := 1 }, [(py "max_tokens", .int 1000)], estimate size, 1000⟩

/-- A message of four bytes costs a dollar. -/
theorem usd_budget_sample :
    let s := (meter (sampleAdmission 4).session (1, 1) 200).2
    (s.spent ≤ s.budget ∧ s.input_tokens ≤ s.max_input_tokens) ∧
    ∀ size rest body r, limits sampleBuiltins s size rest body = .error (.refusal r) → Spent s size := by
  have hfits : freeOutput.spent + ((estimate 4 : ℤ) : ℚ) * freeOutput.priceIn ≤ freeOutput.budget := by
    show (0 : ℚ) + ((1 : ℤ) : ℚ) * 1 ≤ 1
    norm_num
  have hcovered : Covered freeOutput (sampleMessage 4) :=
    .inr ⟨show (0 : ℚ) ≤ 1 by norm_num, .inr ⟨rfl, hfits⟩⟩
  have hserved : Handles sampleBuiltins freeOutput (sampleMessage 4)
      (meter (sampleAdmission 4).session (1, 1) 200).2 :=
    .served (show limits _ _ _ _ _ = .ok (sampleAdmission 4) from rfl) (by decide)
  exact usd_budget (.next (.start freeOutput_fresh) hcovered hserved)

/-- **Input is not paid for when output is free**: a message of four hundred bytes. -/
theorem free_output_overspends : ∃ s,
    Conc.Reachable Fresh (Handles sampleBuiltins) Conc.anyAct s ∧ ¬ s.spent ≤ s.budget := by
  have hserved : Handles sampleBuiltins freeOutput (sampleMessage 400)
      (meter (sampleAdmission 400).session (100, 1) 200).2 :=
    .served (show limits _ _ _ _ _ = .ok (sampleAdmission 400) from rfl) (by decide)
  refine ⟨_, .next (.start freeOutput_fresh) trivial hserved, ?_⟩
  show ¬ ((0 : ℚ) + (((100 : ℤ) : ℚ) * 1 + ((1 : ℤ) : ℚ) * 0) ≤ 1)
  norm_num

end Valops.ModelBroker
