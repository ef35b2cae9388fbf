import Valops.Bundle.Params
import Valops.Common.Builtins
import Valops.Verifier.Rules

/-!
# Rule files

`validate_rule` checks a whole rule when a bundle is built, and `window` reads its stability window when
the verifier runs. The checks of a window end with its being there.
-/

set_option autoImplicit false

namespace Valops.Rules

open Py

/-- A computation among those that may also raise a `RuleError`. -/
def raising {α : Type} (x : Except Exc α) : Except Refusal α :=
  match x with
  | .ok a => .ok a
  | .error e => .error (.exc e)

/-- `CLASSES`. -/
def CLASSES : List PyStr := [py "validator_health", py "telemetry_health"]

mutual

/-- `_fields`. -/
def _fields : Json → Except Exc (List Json)
  | .obj p =>
    match connective p with
    | some key =>
      match _h : Json.lookup key p with
      | some (.arr subs) => fieldsOfAll subs
      | _ => .error (.other .typeError)
    | none => (index (.obj p) "field").map fun field => [field]
  | _ => .error (.other .typeError)
termination_by p => sizeOf p
decreasing_by
  have := sizeOf_lookup _h
  simp only [Json.obj.sizeOf_spec, Json.arr.sizeOf_spec] at *
  omega

/-- The fields of the parts of a connective. -/
def fieldsOfAll : List Json → Except Exc (List Json)
  | [] => .ok []
  | sub :: subs => do
    let fields ← _fields sub
    let rest ← fieldsOfAll subs
    pure (fields ++ rest)
termination_by subs => sizeOf subs

end

/-- The command of a field. -/
def commandOf (path : PyStr) : PyStr := path.takeWhile fun c => c != 46

/-- A field comes from a sampled command, or from the telemetry. -/
def checkField (name : PyStr) (samples : List Json) (field : Json) : Except Refusal Unit :=
  match field with
  | .str path =>
    refuseIf (!(samples.any fun cid => cid.eqStr (commandOf path)) && !(py "telemetry.").isPrefixOf path) name
      [.text (py "field "), .text path, .text (py " not produced by a sampled command")]
  -- anything else has no `split`
  | _ => .error (.exc (.other .attributeError))

/-- The keys that a rule must have. -/
def ruleKeys : List PyStr := ["id", "applies_to", "samples", "predicate", "window"].map py

/-- `if k not in rule: raise RuleError(...)`. -/
def requireKey (rule : Json) (name k : PyStr) : Except Refusal Unit := do
  let present ← raising (Register.contains rule k)
  refuseIf (!present) name [.text (py "missing "), .text k]

/-- `validate_rule`. -/
def validate_rule (rule : Json) (name : PyStr) : Except Refusal Unit := do
  ruleKeys.forM (requireKey rule name)
  let applies_to ← raising (index rule "applies_to")
  let cls ← raising (get applies_to "class")
  refuseIf (!(CLASSES.any fun c => cls.eqStr c)) name
    (msg "applies_to.class must be one of ('validator_health', 'telemetry_health')")
  let samples ← raising (index rule "samples")
  match samples with
  | .arr (cid :: cids) => do
    let predicate ← raising (index rule "predicate")
    validate_pred predicate name
    let fields ← raising (_fields predicate)
    fields.forM (checkField name (cid :: cids))
  | _ => refuseIf true name (msg "samples must list command ids")

/-- `window`. -/
def window (b : Builtins) (param : Json → Json → Except Exc Json) (rule : Json) : Except Exc Int := do
  let w ← index rule "window"
  let v ← resolve param w
  b.int v

theorem raising_eq_ok {α : Type} {x : Except Exc α} {a : α} : raising x = .ok a ↔ x = .ok a := by
  cases x <;> simp [raising]

/-- What a sequence of checks that succeeds went through. -/
theorem checked_bind {α : Type} {x : Except Refusal α} {f : α → Except Refusal Unit}
    (h : x >>= f = .ok ()) : ∃ a, x = .ok a ∧ f a = .ok () := by
  cases x with
  | error e => cases h
  | ok a => exact ⟨a, rfl, h⟩

theorem forM_eq_ok {ε α : Type} {f : α → Except ε Unit} {xs : List α} :
    xs.forM f = .ok () ↔ ∀ x ∈ xs, f x = .ok () := by
  induction xs with
  | nil => exact iff_of_true rfl fun _ h => absurd h List.not_mem_nil
  | cons x xs ih =>
    rw [List.forall_mem_cons, ← ih]
    show (f x >>= fun _ => xs.forM f) = _ ↔ _
    cases hx : f x with
    | error e => exact iff_of_false (fun h => by cases h) fun h => by cases h.1
    | ok u => exact ⟨fun h => ⟨rfl, h⟩, fun h => h.2⟩

/-- **What is true of a rule that was checked**: its predicate is accepted, and its window is there. -/
theorem checked_rule {rule : Json} {name : PyStr} (h : validate_rule rule name = .ok ()) :
    ∃ kvs predicate, rule = .obj kvs ∧ Json.lookup (py "predicate") kvs = some predicate ∧
      Accepted predicate ∧ (Json.lookup (py "window") kvs).isSome = true := by
  obtain ⟨_, hkeys, h⟩ := checked_bind h
  obtain ⟨applies_to, happlies, h⟩ := checked_bind h
  -- only a mapping has an item with that name
  cases rule with
  | obj kvs =>
    obtain ⟨cls, -, h⟩ := checked_bind h
    obtain ⟨-, -, h⟩ := checked_bind h
    obtain ⟨samples, -, h⟩ := checked_bind h
    split at h
    · obtain ⟨predicate, hpred, h⟩ := checked_bind h
      obtain ⟨_, hvalid, -⟩ := checked_bind h
      have hlookup : Json.lookup (py "predicate") kvs = some predicate :=
        orRaise_eq_ok.1 (raising_eq_ok.1 hpred)
      refine ⟨kvs, predicate, rfl, hlookup, accepted_of_validate predicate hvalid, ?_⟩
      obtain ⟨present, hpresent, hno⟩ := checked_bind (forM_eq_ok.1 hkeys (py "window") (by decide))
      have hsome : present = true := by
        cases present with
        | true => rfl
        | false => exact absurd (refuseIf_eq_ok.1 hno) (by decide)
      rw [hsome] at hpresent
      exact Except.ok.inj (raising_eq_ok.1 hpresent)
    · exact absurd (refuseIf_eq_ok.1 h) (by decide)
  | null => cases happlies
  | bool _ => cases happlies
  | int _ => cases happlies
  | float _ => cases happlies
  | str _ => cases happlies
  | arr _ => cases happlies

end Valops.Rules
