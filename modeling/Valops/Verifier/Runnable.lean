import Valops.Bundle.Bounds
import Valops.Bundle.Builder

/-!
# Rules that run

The builder checks the shape of a rule and nothing that its references and its window refer to. So a
rule of an accepted bundle runs on a sample exactly if no comparison that the evaluation comes to has a
dangling reference, and the window is a number of at least one (`rule_runs_iff`).

The meaning of a predicate does not mention the evaluation: `Holds` says what is true, and `ComesTo`
which comparisons are looked at, from left to right, until the first that decides.
-/

set_option autoImplicit false

namespace Valops.Rules

open Py

/-! ## The meaning of a predicate -/

section Meaning

variable (param : Json → Json → Except Exc Json) (sample : Fields)

/-- A comparison that is true: its field is there, its value can be looked up and be compared. -/
def LeafHolds (p : Fields) : Prop :=
  ∃ path op value actual v, Json.lookup (py "field") p = some (.str path) ∧
    Json.lookup (py "op") p = some (.str (Op.text op)) ∧ Json.lookup (py "value") p = some value ∧
    fieldOf sample path = some actual ∧ resolve param value = .ok v ∧ op.apply actual v = some true

/-- What is true of a sample. -/
inductive Holds : Json → Prop
  | leaf {p : Fields} (hleaf : connective p = none) (h : LeafHolds param sample p) : Holds (.obj p)
  | all {p : Fields} {subs : List Json} (hkey : connective p = some (py "all_of"))
      (hsubs : Json.lookup (py "all_of") p = some (.arr subs)) (h : ∀ sub ∈ subs, Holds sub) :
      Holds (.obj p)
  | any {p : Fields} {subs : List Json} {sub : Json} (hkey : connective p = some (py "any_of"))
      (hsubs : Json.lookup (py "any_of") p = some (.arr subs)) (hsub : sub ∈ subs) (h : Holds sub) :
      Holds (.obj p)

/-- The comparisons that are looked at: behind true parts of an `all_of`, and behind parts of an `any_of`
that are not. -/
inductive ComesTo : Json → Fields → Prop
  | leaf {p : Fields} (hleaf : connective p = none) : ComesTo (.obj p) p
  | all {p leaf : Fields} {front back : List Json} {sub : Json}
      (hkey : connective p = some (py "all_of"))
      (hsubs : Json.lookup (py "all_of") p = some (.arr (front ++ sub :: back)))
      (hfront : ∀ q ∈ front, Holds param sample q) (h : ComesTo sub leaf) : ComesTo (.obj p) leaf
  | any {p leaf : Fields} {front back : List Json} {sub : Json}
      (hkey : connective p = some (py "any_of"))
      (hsubs : Json.lookup (py "any_of") p = some (.arr (front ++ sub :: back)))
      (hfront : ∀ q ∈ front, ¬ Holds param sample q) (h : ComesTo sub leaf) : ComesTo (.obj p) leaf

/-- The value of a comparison can be looked up, or the field is not there. -/
def Known (leaf : Fields) : Prop :=
  ∀ path value, Json.lookup (py "field") leaf = some (.str path) →
    (fieldOf sample path).isSome = true → Json.lookup (py "value") leaf = some value →
    ∀ e, resolve param value = .error e → e = .other .typeError

end Meaning

/-! ## Evaluation and meaning -/

section Evaluation

variable {param : Json → Json → Except Exc Json} {sample : Fields} {p : Fields} {subs : List Json}

theorem holds_leaf_iff (hleaf : connective p = none) :
    Holds param sample (.obj p) ↔ LeafHolds param sample p := by
  refine ⟨fun h => ?_, .leaf hleaf⟩
  cases h with
  | leaf _ h => exact h
  | all hkey => cases hleaf.symm.trans hkey
  | any hkey => cases hleaf.symm.trans hkey

theorem holds_all_iff (hkey : connective p = some (py "all_of"))
    (hsubs : Json.lookup (py "all_of") p = some (.arr subs)) :
    Holds param sample (.obj p) ↔ ∀ sub ∈ subs, Holds param sample sub := by
  refine ⟨fun h => ?_, .all hkey hsubs⟩
  cases h with
  | leaf hleaf => cases hleaf.symm.trans hkey
  | all _ hsubs' h =>
    cases hsubs.symm.trans hsubs'
    exact h
  | any hkey' => exact absurd (hkey.symm.trans hkey') (by decide)

theorem holds_any_iff (hkey : connective p = some (py "any_of"))
    (hsubs : Json.lookup (py "any_of") p = some (.arr subs)) :
    Holds param sample (.obj p) ↔ ∃ sub ∈ subs, Holds param sample sub := by
  refine ⟨fun h => ?_, fun ⟨_, hsub, h⟩ => .any hkey hsubs hsub h⟩
  cases h with
  | leaf hleaf => cases hleaf.symm.trans hkey
  | all hkey' => exact absurd (hkey.symm.trans hkey') (by decide)
  | any _ hsubs' hsub h =>
    cases hsubs.symm.trans hsubs'
    exact ⟨_, hsub, h⟩

theorem comesTo_leaf_iff {leaf : Fields} (hleaf : connective p = none) :
    ComesTo param sample (.obj p) leaf ↔ leaf = p := by
  constructor
  · intro h
    cases h with
    | leaf => rfl
    | all hkey => cases hleaf.symm.trans hkey
    | any hkey => cases hleaf.symm.trans hkey
  · rintro rfl
    exact .leaf hleaf

theorem comesTo_all_iff {leaf : Fields} (hkey : connective p = some (py "all_of"))
    (hsubs : Json.lookup (py "all_of") p = some (.arr subs)) :
    ComesTo param sample (.obj p) leaf ↔ ∃ front sub back, subs = front ++ sub :: back ∧
      (∀ q ∈ front, Holds param sample q) ∧ ComesTo param sample sub leaf := by
  constructor
  · intro h
    cases h with
    | leaf hleaf => cases hleaf.symm.trans hkey
    | all _ hsubs' hfront h =>
      cases hsubs.symm.trans hsubs'
      exact ⟨_, _, _, rfl, hfront, h⟩
    | any hkey' => exact absurd (hkey.symm.trans hkey') (by decide)
  · rintro ⟨front, sub, back, rfl, hfront, h⟩
    exact .all hkey hsubs hfront h

theorem comesTo_any_iff {leaf : Fields} (hkey : connective p = some (py "any_of"))
    (hsubs : Json.lookup (py "any_of") p = some (.arr subs)) :
    ComesTo param sample (.obj p) leaf ↔ ∃ front sub back, subs = front ++ sub :: back ∧
      (∀ q ∈ front, ¬ Holds param sample q) ∧ ComesTo param sample sub leaf := by
  constructor
  · intro h
    cases h with
    | leaf hleaf => cases hleaf.symm.trans hkey
    | all hkey' => exact absurd (hkey.symm.trans hkey') (by decide)
    | any _ hsubs' hfront h =>
      cases hsubs.symm.trans hsubs'
      exact ⟨_, _, _, rfl, hfront, h⟩
  · rintro ⟨front, sub, back, rfl, hfront, h⟩
    exact .any hkey hsubs hfront h

/-- What evaluates to a truth value evaluates to the right one. -/
def Sound (param : Json → Json → Except Exc Json) (sample : Fields) (p : Json) : Prop :=
  ∀ c, evaluate param sample p = .ok c → (c = true ↔ Holds param sample p)

theorem evaluateAll_sound (h : ∀ sub ∈ subs, Sound param sample sub) {c : Bool}
    (heq : evaluateAll param sample subs = .ok c) :
    c = true ↔ ∀ sub ∈ subs, Holds param sample sub := by
  induction subs generalizing c with
  | nil =>
    rw [evaluateAll] at heq
    cases heq
    exact iff_of_true rfl fun _ hsub => absurd hsub List.not_mem_nil
  | cons sub subs ih =>
    rw [evaluateAll] at heq
    obtain ⟨first, hfirst, hrest⟩ := bind_eq_ok.1 heq
    have hsound := h sub List.mem_cons_self first hfirst
    rw [List.forall_mem_cons, ← hsound]
    cases first with
    | true =>
      rw [ih (fun q hq => h q (List.mem_cons_of_mem _ hq)) hrest]
      exact ⟨fun hall => ⟨rfl, hall⟩, And.right⟩
    | false =>
      cases hrest
      exact iff_of_false Bool.false_ne_true fun hf => Bool.false_ne_true hf.1

theorem evaluateAny_sound (h : ∀ sub ∈ subs, Sound param sample sub) {c : Bool}
    (heq : evaluateAny param sample subs = .ok c) :
    c = true ↔ ∃ sub ∈ subs, Holds param sample sub := by
  induction subs generalizing c with
  | nil =>
    rw [evaluateAny] at heq
    cases heq
    exact iff_of_false Bool.false_ne_true fun h => List.not_mem_nil h.choose_spec.1
  | cons sub subs ih =>
    rw [evaluateAny] at heq
    obtain ⟨first, hfirst, hrest⟩ := bind_eq_ok.1 heq
    have hsound := h sub List.mem_cons_self first hfirst
    rw [List.exists_mem_cons_iff, ← hsound]
    cases first with
    | true =>
      cases hrest
      exact iff_of_true rfl (.inl rfl)
    | false =>
      rw [ih (fun q hq => h q (List.mem_cons_of_mem _ hq)) hrest]
      exact ⟨.inr, fun hor => hor.resolve_left Bool.false_ne_true⟩

/-- **The conjunction returns** exactly if every part behind true ones does. -/
theorem evaluateAll_returns (h : ∀ sub ∈ subs, Sound param sample sub) :
    (∃ c, evaluateAll param sample subs = .ok c) ↔
      ∀ front sub back, subs = front ++ sub :: back → (∀ q ∈ front, Holds param sample q) →
        ∃ c, evaluate param sample sub = .ok c := by
  induction subs with
  | nil =>
    refine iff_of_true ⟨true, by rw [evaluateAll]⟩ fun front sub back heq => ?_
    cases front <;> cases heq
  | cons sub subs ih =>
    have ih := ih fun q hq => h q (List.mem_cons_of_mem _ hq)
    rw [evaluateAll]
    constructor
    · rintro ⟨c, hc⟩ front q back heq hfront
      obtain ⟨first, hfirst, hrest⟩ := bind_eq_ok.1 hc
      cases front with
      | nil =>
        cases heq
        exact ⟨first, hfirst⟩
      | cons q' front =>
        cases heq
        obtain ⟨hhold, hfront⟩ := List.forall_mem_cons.1 hfront
        rw [(h sub List.mem_cons_self first hfirst).2 hhold] at hrest
        exact ih.1 ⟨c, hrest⟩ front q back rfl hfront
    · intro hall
      obtain ⟨first, hfirst⟩ := hall [] sub subs rfl fun _ hq => absurd hq List.not_mem_nil
      rw [hfirst]
      cases first with
      | false => exact ⟨false, rfl⟩
      | true =>
        refine ih.2 fun front q back heq hfront => ?_
        have hhold := (h sub List.mem_cons_self true hfirst).1 rfl
        exact hall (sub :: front) q back (by rw [heq]; rfl) (List.forall_mem_cons.2 ⟨hhold, hfront⟩)

/-- **The disjunction returns** exactly if every part behind others that are not true does. -/
theorem evaluateAny_returns (h : ∀ sub ∈ subs, Sound param sample sub) :
    (∃ c, evaluateAny param sample subs = .ok c) ↔
      ∀ front sub back, subs = front ++ sub :: back → (∀ q ∈ front, ¬ Holds param sample q) →
        ∃ c, evaluate param sample sub = .ok c := by
  induction subs with
  | nil =>
    refine iff_of_true ⟨false, by rw [evaluateAny]⟩ fun front sub back heq => ?_
    cases front <;> cases heq
  | cons sub subs ih =>
    have ih := ih fun q hq => h q (List.mem_cons_of_mem _ hq)
    rw [evaluateAny]
    constructor
    · rintro ⟨c, hc⟩ front q back heq hfront
      obtain ⟨first, hfirst, hrest⟩ := bind_eq_ok.1 hc
      cases front with
      | nil =>
        cases heq
        exact ⟨first, hfirst⟩
      | cons q' front =>
        cases heq
        obtain ⟨hno, hfront⟩ := List.forall_mem_cons.1 hfront
        cases first with
        | true => exact absurd ((h sub List.mem_cons_self true hfirst).1 rfl) hno
        | false => exact ih.1 ⟨c, hrest⟩ front q back rfl hfront
    · intro hall
      obtain ⟨first, hfirst⟩ := hall [] sub subs rfl fun _ hq => absurd hq List.not_mem_nil
      rw [hfirst]
      cases first with
      | true => exact ⟨true, rfl⟩
      | false =>
        refine ih.2 fun front q back heq hfront => ?_
        have hno : ¬ Holds param sample sub := fun hhold =>
          Bool.false_ne_true ((h sub List.mem_cons_self false hfirst).2 hhold)
        exact hall (sub :: front) q back (by rw [heq]; rfl) (List.forall_mem_cons.2 ⟨hno, hfront⟩)

section Leaf

variable {path : PyStr} {op : Op} {value : Json} (hleaf : connective p = none)
  (hfield : Json.lookup (py "field") p = some (.str path))
  (hop : Json.lookup (py "op") p = some (.str op.text))
  (hvalue : Json.lookup (py "value") p = some value)

include hleaf hfield hop hvalue

/-- A comparison evaluates to its meaning, or its value cannot be looked up. -/
theorem evaluate_comparison :
    (Known param sample p ∧ ∃ c, evaluate param sample (.obj p) = .ok c ∧
      (c = true ↔ LeafHolds param sample p)) ∨
    (¬ Known param sample p ∧ ∃ e, evaluate param sample (.obj p) = .error e) := by
  have hholds : ∀ actual v, fieldOf sample path = some actual → resolve param value = .ok v →
      (op.apply actual v = some true ↔ LeafHolds param sample p) := by
    intro actual v hactual hv
    refine ⟨fun h => ⟨path, op, value, actual, v, hfield, hop, hvalue, hactual, hv, h⟩, ?_⟩
    rintro ⟨path', op', value', actual', v', hfield', hop', hvalue', hactual', hv', h⟩
    cases hfield.symm.trans hfield'
    cases hvalue.symm.trans hvalue'
    cases hactual.symm.trans hactual'
    cases hv.symm.trans hv'
    have hsame : some op' = some op := by
      rw [← Op.ofJson_eq_some.2 rfl, ← Op.ofJson_eq_some.2 rfl, Option.some.inj (hop.symm.trans hop')]
    cases hsame
    exact h
  rw [evaluate_leaf hleaf, evaluateLeaf, hfield]
  dsimp only
  cases hactual : fieldOf sample path with
  | none =>
    refine .inl ⟨fun path' value' hfield' hsome => ?_, false, rfl, ?_⟩
    · cases hfield.symm.trans hfield'
      rw [hactual] at hsome
      cases hsome
    · refine iff_of_false Bool.false_ne_true ?_
      rintro ⟨path', _, _, actual', _, hfield', -, -, hactual', -⟩
      cases hfield.symm.trans hfield'
      cases hactual.symm.trans hactual'
  | some actual =>
    dsimp only
    rw [compare_of_accepted actual hop hvalue]
    have hknown : Known param sample p ↔ ∀ e, resolve param value = .error e → e = .other .typeError := by
      refine ⟨fun h => h path value hfield (by rw [hactual]; rfl) hvalue, ?_⟩
      intro h path' value' _ _ hvalue'
      cases hvalue.symm.trans hvalue'
      exact h
    rw [hknown]
    cases hv : resolve param value with
    | error e =>
      rw [error_bind, typeErrorFalse]
      by_cases he : e = .other .typeError
      · rw [he, if_pos rfl]
        refine .inl ⟨fun e' he' => (Except.error.inj he').symm, false, rfl, ?_⟩
        refine iff_of_false Bool.false_ne_true ?_
        rintro ⟨_, _, value', _, v', -, -, hvalue', -, hv', -⟩
        cases hvalue.symm.trans hvalue'
        cases hv.symm.trans hv'
      · rw [if_neg fun h => he (Except.error.inj h)]
        exact .inr ⟨fun h => he (h e rfl), e, rfl⟩
    | ok v =>
      refine .inl ⟨by simp, ?_⟩
      rw [ok_bind, typeErrorFalse, ← hholds actual v hactual hv]
      cases happ : op.apply actual v with
      | none => exact ⟨false, if_pos rfl, iff_of_false Bool.false_ne_true fun h => by cases h⟩
      | some c => exact ⟨c, if_neg (fun h => by cases h), ⟨fun h => by rw [h], Option.some.inj⟩⟩

end Leaf

/-- **The evaluation of an accepted predicate is sound.** -/
theorem evaluate_sound {q : Json} (hq : Accepted q) : Sound param sample q := by
  induction hq with
  | leaf hleaf hfield hop hvalue =>
    intro c hc
    rw [holds_leaf_iff hleaf]
    rcases @evaluate_comparison param sample _ _ _ _ hleaf hfield hop hvalue with
      ⟨-, c', hc', hiff⟩ | ⟨-, e, he⟩
    · cases hc.symm.trans hc'
      exact hiff
    · cases hc.symm.trans he
  | node hkey hsubs _ _ ih =>
    intro c hc
    rcases @evaluate_connective param _ _ _ hkey hsubs with ⟨rfl, heval⟩ | ⟨rfl, heval⟩
    · rw [heval] at hc
      rw [holds_all_iff hkey hsubs]
      exact evaluateAll_sound ih hc
    · rw [heval] at hc
      rw [holds_any_iff hkey hsubs]
      exact evaluateAny_sound ih hc

/-- **The evaluation of an accepted predicate returns** exactly if the value of every comparison that it
comes to is known. -/
theorem evaluate_returns_iff {q : Json} (hq : Accepted q) :
    (∃ c, evaluate param sample q = .ok c) ↔
      ∀ leaf, ComesTo param sample q leaf → Known param sample leaf := by
  induction hq with
  | leaf hleaf hfield hop hvalue =>
    have hcases := @evaluate_comparison param sample _ _ _ _ hleaf hfield hop hvalue
    constructor
    · rintro ⟨c, hc⟩ leaf hcomes
      cases (comesTo_leaf_iff hleaf).1 hcomes
      rcases hcases with ⟨hknown, -⟩ | ⟨-, e, he⟩
      · exact hknown
      · cases hc.symm.trans he
    · intro hall
      rcases hcases with ⟨-, c, hc, -⟩ | ⟨hno, -⟩
      · exact ⟨c, hc⟩
      · exact absurd (hall _ (.leaf hleaf)) hno
  | node hkey hsubs _ hall ih =>
    have hsound := fun sub hsub => @evaluate_sound param sample sub (hall sub hsub)
    rcases @evaluate_connective param _ _ _ hkey hsubs with ⟨rfl, heval⟩ | ⟨rfl, heval⟩
    · rw [heval, evaluateAll_returns hsound]
      constructor
      · intro h leaf hcomes
        obtain ⟨front, sub, back, rfl, hfront, hsub⟩ := (comesTo_all_iff hkey hsubs).1 hcomes
        have hmem : sub ∈ front ++ sub :: back := List.mem_append_right _ List.mem_cons_self
        exact (ih sub hmem).1 (h front sub back rfl hfront) leaf hsub
      · rintro h front sub back rfl hfront
        have hmem : sub ∈ front ++ sub :: back := List.mem_append_right _ List.mem_cons_self
        refine (ih sub hmem).2 fun leaf hleaf => h leaf ?_
        exact (comesTo_all_iff hkey hsubs).2 ⟨front, sub, back, rfl, hfront, hleaf⟩
    · rw [heval, evaluateAny_returns hsound]
      constructor
      · intro h leaf hcomes
        obtain ⟨front, sub, back, rfl, hfront, hsub⟩ := (comesTo_any_iff hkey hsubs).1 hcomes
        have hmem : sub ∈ front ++ sub :: back := List.mem_append_right _ List.mem_cons_self
        exact (ih sub hmem).1 (h front sub back rfl hfront) leaf hsub
      · rintro h front sub back rfl hfront
        have hmem : sub ∈ front ++ sub :: back := List.mem_append_right _ List.mem_cons_self
        refine (ih sub hmem).2 fun leaf hleaf => h leaf ?_
        exact (comesTo_any_iff hkey hsubs).2 ⟨front, sub, back, rfl, hfront, hleaf⟩

end Evaluation

/-! ## References -/

/-- An index. -/
def indexOf : Json → Option Int
  | .int i => some i
  | .bool c => some (if c then 1 else 0)
  | _ => none

/-- An index beyond a sequence of that length. -/
def Beyond (n : Nat) (k : Json) : Prop := ∃ i, indexOf k = some i ∧ (i < -n ∨ (n : Int) ≤ i)

/-- A value has no item with that key or index. -/
def Missing (v k : Json) : Prop :=
  match v with
  | .obj kvs => k.hashable = true ∧ ∀ s, k = .str s → Json.lookup s kvs = none
  | .arr xs => Beyond xs.length k
  | .str s => Beyond s.length k
  | _ => False

/-- A reference to a parameter that is not there, or to a part of it that is not there. -/
def Dangling (thresholds value : Json) : Prop :=
  ∃ kvs pid, value = .obj kvs ∧ Json.lookup (py "param") kvs = some pid ∧
    (Missing thresholds pid ∨ ∃ v key, item thresholds pid = .ok v ∧
      Json.lookup (py "key") kvs = some key ∧ key ≠ .null ∧ Missing v key)

section References

variable {thresholds value v k : Json}

/-- What raises something else than `TypeError`. -/
def Escapes {α : Type} (x : Except Exc α) : Prop := ∃ e, x = .error e ∧ e ≠ .other .typeError

theorem position_none_iff {n : Nat} {i : Int} : position? n i = none ↔ i < -n ∨ (n : Int) ≤ i := by
  unfold position?
  split <;> split <;> simp <;> omega

theorem position_lt {n j : Nat} {i : Int} (h : position? n i = some j) : j < n := by
  unfold position? at h
  split at h <;> split at h <;> cases h <;> omega

theorem itemAt_escapes_iff {n : Nat} {get : Nat → Option Json} (hget : ∀ i < n, (get i).isSome = true) :
    Escapes (itemAt n get k) ↔ Beyond n k := by
  have hindex : ∀ i, Escapes (orRaise ((position? n i).bind get) (.other .indexError)) ↔
      i < -n ∨ (n : Int) ≤ i := by
    intro i
    rw [← position_none_iff]
    cases hp : position? n i with
    | none => exact iff_of_true ⟨_, rfl, by decide⟩ rfl
    | some j =>
      obtain ⟨w, hw⟩ := Option.isSome_iff_exists.1 (hget j (position_lt hp))
      rw [Option.bind_some, hw]
      exact iff_of_false (fun ⟨_, h, _⟩ => by cases h) (fun h => by cases h)
  have hother : indexOf k = none → itemAt n get k = .error (.other .typeError) →
      (Escapes (itemAt n get k) ↔ Beyond n k) := by
    intro hk heq
    refine iff_of_false ?_ ?_
    · rintro ⟨e, he, hne⟩
      rw [heq] at he
      cases he
      exact hne rfl
    · rintro ⟨i, hi, -⟩
      cases hk.symm.trans hi
  cases k with
  | int i => exact (hindex i).trans ⟨fun h => ⟨i, rfl, h⟩, fun ⟨_, hi, h⟩ => by cases hi; exact h⟩
  | bool c => exact (hindex _).trans ⟨fun h => ⟨_, rfl, h⟩, fun ⟨_, hi, h⟩ => by cases hi; exact h⟩
  | null => exact hother rfl rfl
  | float x => exact hother rfl rfl
  | str s => exact hother rfl rfl
  | arr xs => exact hother rfl rfl
  | obj kvs => exact hother rfl rfl

theorem item_escapes_iff : Escapes (item v k) ↔ Missing v k := by
  have hother : item v k = .error (.other .typeError) → ¬ Escapes (item v k) := by
    rintro heq ⟨e, he, hne⟩
    rw [heq] at he
    cases he
    exact hne rfl
  cases v with
  | obj kvs =>
    unfold item Missing
    dsimp only
    cases hk : k.hashable with
    | false =>
      refine iff_of_false ?_ fun h => Bool.false_ne_true h.1
      rintro ⟨e, he, hne⟩
      rw [hashed, hk] at he
      cases he
      exact hne rfl
    | true =>
      rw [hashed, hk]
      cases k with
      | str s =>
        show Escapes (orRaise (Json.lookup s kvs) (.other .keyError)) ↔ _
        cases hl : Json.lookup s kvs with
        | none => exact iff_of_true ⟨_, rfl, by decide⟩ ⟨rfl, fun s' hs => by cases hs; exact hl⟩
        | some w =>
          refine iff_of_false (fun ⟨_, h, _⟩ => by cases h) fun h => ?_
          cases hl.symm.trans (h.2 s rfl)
      | null => exact iff_of_true ⟨_, rfl, by decide⟩ ⟨rfl, nofun⟩
      | bool _ => exact iff_of_true ⟨_, rfl, by decide⟩ ⟨rfl, nofun⟩
      | int _ => exact iff_of_true ⟨_, rfl, by decide⟩ ⟨rfl, nofun⟩
      | float _ => exact iff_of_true ⟨_, rfl, by decide⟩ ⟨rfl, nofun⟩
      | arr _ => exact iff_of_true ⟨_, rfl, by decide⟩ ⟨rfl, nofun⟩
      | obj _ => exact iff_of_true ⟨_, rfl, by decide⟩ ⟨rfl, nofun⟩
  | arr xs =>
    refine itemAt_escapes_iff fun i hi => ?_
    rw [List.getElem?_eq_getElem hi]
    rfl
  | str s =>
    refine itemAt_escapes_iff fun i hi => ?_
    rw [List.getElem?_eq_getElem hi]
    rfl
  | null => exact iff_of_false (hother rfl) id
  | bool _ => exact iff_of_false (hother rfl) id
  | int _ => exact iff_of_false (hother rfl) id
  | float _ => exact iff_of_false (hother rfl) id

/-- **A look-up raises something else than `TypeError`** exactly if the reference dangles. -/
theorem resolve_escapes_iff :
    Escapes (resolve (bundleParam thresholds) value) ↔ Dangling thresholds value := by
  have hplain : (∀ kvs pid, value = .obj kvs → Json.lookup (py "param") kvs ≠ some pid) →
      resolve (bundleParam thresholds) value = .ok value →
      (Escapes (resolve (bundleParam thresholds) value) ↔ Dangling thresholds value) := by
    intro hno heq
    refine iff_of_false ?_ ?_
    · rintro ⟨e, he, -⟩
      cases heq.symm.trans he
    · rintro ⟨kvs, pid, hobj, hpid, -⟩
      exact hno kvs pid hobj hpid
  cases value with
  | obj kvs =>
    cases hpid : Json.lookup (py "param") kvs with
    | none =>
      refine hplain ?_ (by rw [resolve, hpid])
      rintro kvs' pid heq hpid'
      cases heq
      cases hpid.symm.trans hpid'
    | some pid =>
      have hdangling : Dangling thresholds (.obj kvs) ↔ (Missing thresholds pid ∨ ∃ v key,
          item thresholds pid = .ok v ∧ Json.lookup (py "key") kvs = some key ∧ key ≠ .null ∧
            Missing v key) := by
        refine ⟨fun h => ?_, fun h => ⟨kvs, pid, rfl, hpid, h⟩⟩
        obtain ⟨kvs', pid', heq, hpid', h⟩ := h
        cases heq
        cases hpid.symm.trans hpid'
        exact h
      rw [hdangling, resolve, hpid]
      dsimp only
      rw [← item_escapes_iff, bundleParam]
      cases hv : item thresholds pid with
      | error e =>
        refine ⟨.inl, fun h => h.elim id ?_⟩
        rintro ⟨v, _, hv', -⟩
        cases hv'
      | ok v =>
        rw [ok_bind]
        have hnot : ¬ Escapes (Except.ok v : Except Exc Json) := by
          rintro ⟨_, h, _⟩
          cases h
        cases hkey : Json.lookup (py "key") kvs with
        | none =>
          rw [Option.getD_none, if_pos rfl]
          refine iff_of_false hnot fun h => h.elim hnot ?_
          rintro ⟨_, _, -, hkey', -⟩
          cases hkey'
        | some key =>
          rw [Option.getD_some]
          by_cases hnull : key = .null
          · rw [if_pos hnull]
            refine iff_of_false hnot fun h => h.elim hnot ?_
            rintro ⟨_, _, -, hkey', hne, -⟩
            cases hkey'
            exact hne hnull
          · rw [if_neg hnull, item_escapes_iff]
            refine ⟨fun h => .inr ⟨v, key, rfl, rfl, hnull, h⟩, fun h => h.elim (absurd · hnot) ?_⟩
            rintro ⟨v', key', hv', hkey', -, h⟩
            cases hv'
            cases hkey'
            exact h
  | null => exact hplain (by simp) rfl
  | bool _ => exact hplain (by simp) rfl
  | int _ => exact hplain (by simp) rfl
  | float _ => exact hplain (by simp) rfl
  | str _ => exact hplain (by simp) rfl
  | arr _ => exact hplain (by simp) rfl

end References

/-! ## Windows -/

/-- A number of at least one, or a text of one. -/
def AtLeastOne (b : Builtins) : Json → Prop
  | .int z => 1 ≤ z
  | .bool c => c = true
  | .float (.num neg mag) =>
    mag.val < binary64.top ∧ (2 ^ binary64.unit : Int) ≤ Double.signedUnits neg mag.val
  | .str s => ∃ z, b.int_of_text s = some z ∧ 1 ≤ z
  | _ => False

theorem one_le_tdiv_iff {z d : Int} (hd : 0 < d) : 1 ≤ z.tdiv d ↔ d ≤ z := by
  constructor
  · intro h
    by_contra hlt
    have hle : z.tdiv d ≤ (d - 1).tdiv d := Int.tdiv_le_tdiv hd (by omega)
    have hzero : (d - 1).tdiv d = 0 := Int.tdiv_eq_zero_of_lt (by omega) (by omega)
    omega
  · intro h
    exact Int.le_tdiv_of_mul_le hd (by omega)

/-- **The window is a number of at least one** exactly if what it says is one. -/
theorem int_atLeastOne_iff {b : Builtins} {v : Json} :
    (∃ n, b.int v = .ok n ∧ 1 ≤ n) ↔ AtLeastOne b v := by
  cases v with
  | int z => exact ⟨fun ⟨_, h, hn⟩ => by cases h; exact hn, fun h => ⟨z, rfl, h⟩⟩
  | bool c => cases c <;> simp [Builtins.int, AtLeastOne]
  | str s => simp [Builtins.int, AtLeastOne]
  | float x =>
    cases x with
    | nan => simp [Builtins.int, AtLeastOne]
    | num neg mag =>
      have hpos : (0 : Int) < 2 ^ binary64.unit := Int.pow_pos (by decide)
      have hle := Nat.le_of_lt_succ mag.isLt
      show (∃ n, orRaise (Double.num neg mag).trunc? (.other .overflowError) = .ok n ∧ 1 ≤ n) ↔ _
      rw [Double.trunc?, AtLeastOne]
      split
      · rename_i htop
        exact iff_of_false (fun ⟨_, h, _⟩ => by cases h) (fun h => by omega)
      · rename_i htop
        rw [← one_le_tdiv_iff hpos]
        exact ⟨fun ⟨_, h, hn⟩ => by cases h; exact ⟨by omega, hn⟩, fun h => ⟨_, rfl, h.2⟩⟩
  | null => simp [Builtins.int, AtLeastOne]
  | arr _ => simp [Builtins.int, AtLeastOne]
  | obj _ => simp [Builtins.int, AtLeastOne]

/-! ## The rules of an accepted bundle -/

/-- A rule of a bundle that the builder accepts, with the thresholds of the bundle. -/
def OfBundle (b : Builtins) (u : UnicodeData) (thresholds rule : Json) : Prop :=
  ∃ stage register generated, ∃ name ∈ Builder.Stage.rules stage,
    Builder.build b u stage register = .ok generated ∧ index generated "parameters" = .ok thresholds ∧
    stage.yaml (py "verifier/" ++ name) = .ok rule

/-- The rule runs on a sample: its predicate has a truth value and its window is at least one. -/
def Runs (b : Builtins) (thresholds rule : Json) (sample : Fields) : Prop :=
  (∃ predicate c, index rule "predicate" = .ok predicate ∧
    evaluate (bundleParam thresholds) sample predicate = .ok c) ∧
  ∃ n, window b (bundleParam thresholds) rule = .ok n ∧ 1 ≤ n

/-- No comparison that is looked at, with its field in the sample, has a dangling reference. -/
def Resolved (thresholds rule : Json) (sample : Fields) : Prop :=
  ∃ predicate, index rule "predicate" = .ok predicate ∧
    ∀ leaf path value, ComesTo (bundleParam thresholds) sample predicate leaf →
      Json.lookup (py "field") leaf = some (.str path) → (fieldOf sample path).isSome = true →
      Json.lookup (py "value") leaf = some value → ¬ Dangling thresholds value

/-- The window is, or refers to, a number of at least one. -/
def WindowStated (b : Builtins) (thresholds rule : Json) : Prop :=
  ∃ w v, index rule "window" = .ok w ∧ resolve (bundleParam thresholds) w = .ok v ∧ AtLeastOne b v

section Bundles

variable {b : Builtins} {u : UnicodeData} {thresholds rule : Json}

theorem lifted_bind {ε α : Type} {f : ε → Builder.Refusal} {x : Except ε α}
    {g : α → Except Builder.Refusal Unit} (h : Builder.lifted f x >>= g = .ok ()) :
    ∃ a, x = .ok a ∧ g a = .ok () := by
  cases x with
  | error e => cases h
  | ok a => exact ⟨a, rfl, h⟩

theorem unit_bind {x : Except Builder.Refusal Unit} {g : Unit → Except Builder.Refusal Unit}
    (h : x >>= g = .ok ()) : x = .ok () ∧ g () = .ok () := by
  cases x with
  | error e => cases h
  | ok a => exact ⟨rfl, h⟩

/-- The builder checks every rule file. -/
theorem validated_rules {stage : Builder.Stage} (h : Builder._validate b u stage = .ok ()) :
    ∀ name ∈ stage.rules, Builder.checkRule stage name = .ok () := by
  unfold Builder._validate at h
  obtain ⟨-, h⟩ := unit_bind h
  obtain ⟨_, -, h⟩ := lifted_bind h
  obtain ⟨_, -, h⟩ := lifted_bind h
  obtain ⟨_, -, h⟩ := lifted_bind h
  obtain ⟨-, h⟩ := unit_bind h
  obtain ⟨_, -, h⟩ := lifted_bind h
  obtain ⟨-, h⟩ := unit_bind h
  obtain ⟨_, -, h⟩ := lifted_bind h
  obtain ⟨_, -, h⟩ := lifted_bind h
  obtain ⟨_, -, h⟩ := lifted_bind h
  obtain ⟨-, h⟩ := unit_bind h
  obtain ⟨-, h⟩ := unit_bind h
  exact forM_eq_ok.1 h

/-- A rule of an accepted bundle was checked. -/
theorem OfBundle.checked (h : OfBundle b u thresholds rule) : ∃ name, validate_rule rule name = .ok () := by
  obtain ⟨stage, register, generated, name, hname, hbuild, -, hrule⟩ := h
  have hvalid : Builder._validate b u stage = .ok () := by
    unfold Builder.build at hbuild
    cases hgen : Builder.lifted .register (Register.generate_thresholds register) with
    | error e =>
      rw [hgen] at hbuild
      cases hbuild
    | ok out =>
      rw [hgen] at hbuild
      cases hv : Builder._validate b u stage with
      | error e =>
        change (Builder._validate b u stage >>= _) = _ at hbuild
        rw [hv] at hbuild
        cases hbuild
      | ok _ => rfl
  have hcheck := validated_rules hvalid name hname
  unfold Builder.checkRule at hcheck
  obtain ⟨rule', hrule', hcheck⟩ := lifted_bind hcheck
  cases hrule.symm.trans hrule'
  refine ⟨name, ?_⟩
  cases hv : validate_rule rule name with
  | error e =>
    rw [hv] at hcheck
    cases hcheck
  | ok _ => rfl

/-- **A rule of an accepted bundle runs on a sample** exactly if no reference that is looked up dangles
and the window is a number of at least one. -/
theorem rule_runs_iff (h : OfBundle b u thresholds rule) (sample : Fields) :
    Runs b thresholds rule sample ↔ Resolved thresholds rule sample ∧ WindowStated b thresholds rule := by
  obtain ⟨name, hchecked⟩ := h.checked
  obtain ⟨kvs, predicate, rfl, hpred, haccepted, hwindow⟩ := checked_rule hchecked
  obtain ⟨w, hw⟩ := Option.isSome_iff_exists.1 hwindow
  have hpred' : index (.obj kvs) "predicate" = .ok predicate := orRaise_eq_ok.2 hpred
  have hw' : index (.obj kvs) "window" = .ok w := orRaise_eq_ok.2 hw
  have hknown : ∀ leaf, Known (bundleParam thresholds) sample leaf ↔
      ∀ path value, Json.lookup (py "field") leaf = some (.str path) →
        (fieldOf sample path).isSome = true → Json.lookup (py "value") leaf = some value →
        ¬ Dangling thresholds value := by
    intro leaf
    refine forall_congr' fun path => forall_congr' fun value => ?_
    refine imp_congr_right fun _ => imp_congr_right fun _ => imp_congr_right fun _ => ?_
    rw [← resolve_escapes_iff, Escapes]
    exact ⟨fun h ⟨e, he, hne⟩ => hne (h e he), fun h e he => of_not_not fun hne => h ⟨e, he, hne⟩⟩
  refine and_congr ?_ ?_
  · constructor
    · rintro ⟨predicate', c, hp, hc⟩
      cases hpred'.symm.trans hp
      refine ⟨predicate, hpred', fun leaf path value hcomes => ?_⟩
      exact (hknown leaf).1 ((evaluate_returns_iff haccepted).1 ⟨c, hc⟩ leaf hcomes) path value
    · rintro ⟨predicate', hp, hall⟩
      cases hpred'.symm.trans hp
      obtain ⟨c, hc⟩ := (evaluate_returns_iff haccepted).2 fun leaf hcomes =>
        (hknown leaf).2 fun path value => hall leaf path value hcomes
      exact ⟨predicate, c, hpred', hc⟩
  · rw [WindowStated, window, hw', ok_bind]
    constructor
    · rintro ⟨n, hn, hone⟩
      obtain ⟨v, hv, hint⟩ := bind_eq_ok.1 hn
      exact ⟨w, v, rfl, hv, int_atLeastOne_iff.1 ⟨n, hint, hone⟩⟩
    · rintro ⟨w', v, hw'', hv, hone⟩
      cases hw''
      obtain ⟨n, hint, hone⟩ := int_atLeastOne_iff.2 hone
      exact ⟨n, by rw [hv]; exact hint, hone⟩

end Bundles

/-! ## A misspelt key -/

/-- A rule with this window. -/
def sampleRule (window : Json) : Json :=
  .mkObj [(py "id", .str (py "caught_up")), (py "applies_to", .mkObj [(py "class", .str (py "validator_health"))]),
    (py "samples", .arr [.str (py "catchup")]),
    (py "predicate", .mkObj [(py "field", .str (py "catchup.parsed")), (py "op", .str (py "eq")),
      (py "value", .bool true)]),
    (py "window", window)]

/-- A configuration. -/
def sampleConfiguration : Json :=
  .mkObj [(py "provider", .str (py "anthropic")), (py "adapter", .str (py "native")),
    (py "admission", .str (py "admitted")), (py "model", .str (py "m")),
    (py "runtime", .mkObj [(py "version", .str (py "1"))])]

/-- The files of a small bundle with one rule. -/
def sampleFiles (window : Json) : Fields :=
  [(py "command_table.yaml", .mkObj [(py "commands", .obj [])]),
    (py "deployment.yaml", .mkObj [(py "client", .str (py "agave")), (py "cluster", .str (py "testnet")),
      (py "declared_consensus_mode", .str (py "tower")), (py "expected_version", .str (py "1")),
      (py "identity_pubkey", .str (py "k")), (py "validator_id", .str (py "v"))]),
    (py "providers.yaml", .mkObj [(py "configurations", .mkObj [(py "c", sampleConfiguration)]),
      (py "roles", .mkObj (Role.all.map fun r => (r.text, .str (py "c"))))]),
    (py "pricing.yaml", .mkObj [(py "anthropic", .mkObj [(py "m",
      .mkObj [(py "input_per_mtok", .int 1), (py "output_per_mtok", .int 1)])])]),
    (py "skills/index.yaml", .null), (py "verifier/r.yaml", sampleRule window)]

/-- The directory of the small bundle. -/
def sampleStage (window : Json) : Builder.Stage where
  is_file _ := true
  yaml path := orRaise (Json.lookup path (sampleFiles window)) (.other .osError)
  rules := [py "r.yaml"]

/-- A reference to a part of P-17. -/
def reference (key : String) : Json := .mkObj [(py "param", .str (py "P-17")), (py "key", .str (py key))]

/-- The thresholds of the small bundle. -/
def sampleThresholds (window : Json) : Option Json :=
  (Builder.build sampleBuiltins asciiData (sampleStage window)
    (Register.sampleRegister (Register.sampleLimits []))).toOption.bind fun generated =>
      (index generated "parameters").toOption

theorem sampleRule_ofBundle {window thresholds : Json} (h : sampleThresholds window = some thresholds) :
    OfBundle sampleBuiltins asciiData thresholds (sampleRule window) := by
  obtain ⟨generated, hbuild, hindex⟩ := Option.bind_eq_some_iff.1 h
  exact ⟨sampleStage window, _, generated, py "r.yaml", List.mem_singleton_self _,
    toOption_eq_some.1 hbuild, toOption_eq_some.1 hindex, rfl⟩

/-- **A window that is not there.** The builder accepts a rule whose window refers to a part of P-17 that
P-17 does not have; computing the window raises. -/
theorem misspelt_window : ¬ ∀ (b : Builtins) (u : UnicodeData) (thresholds rule : Json) (sample : Fields),
    OfBundle b u thresholds rule → Runs b thresholds rule sample := by
  intro h
  have hraises : (sampleThresholds (reference "windows")).map (fun thresholds =>
      (window sampleBuiltins (bundleParam thresholds) (sampleRule (reference "windows"))).isOk) =
      some false := by decide +kernel
  obtain ⟨thresholds, hsome, hfalse⟩ := Option.map_eq_some_iff.1 hraises
  obtain ⟨-, n, hn, -⟩ := h _ _ _ _ [] (sampleRule_ofBundle hsome)
  rw [hn] at hfalse
  cases hfalse

/-- With the right key the rule runs. -/
theorem stated_window : ∃ thresholds, sampleThresholds (reference "window") = some thresholds ∧
    Runs sampleBuiltins thresholds (sampleRule (reference "window"))
      [(py "catchup", .obj [(py "parsed", .bool true)])] := by
  have hfive : (sampleThresholds (reference "window")).map (fun thresholds =>
      (resolve (bundleParam thresholds) (reference "window")).toOption) = some (some (.int 5)) := by
    decide +kernel
  obtain ⟨thresholds, hsome, hfive⟩ := Option.map_eq_some_iff.1 hfive
  refine ⟨thresholds, hsome, (rule_runs_iff (sampleRule_ofBundle hsome) _).2 ⟨⟨_, rfl, ?_⟩, ?_⟩⟩
  · intro leaf path value hcomes _ _ hvalue
    rw [(comesTo_leaf_iff rfl).1 hcomes] at hvalue
    cases hvalue
    rintro ⟨kvs, _, hobj, -⟩
    cases hobj
  · exact ⟨_, .int 5, rfl, toOption_eq_some.1 hfive, (by decide : (1 : Int) ≤ 5)⟩

end Valops.Rules
