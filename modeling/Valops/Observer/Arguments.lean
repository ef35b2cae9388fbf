import Valops.Observer.Validate

/-!
# What arguments are accepted

`BASE58` ends in `$`, so a public key followed by a line feed passes; and a number is compared with
whatever the table has for its bounds. A request is checked exactly unless one of these two decides
(`validate_args_exact_iff`).
-/

set_option autoImplicit false

namespace Valops.Observer

open Py Regex

/-! ## The pattern -/

/-- A string of 32 to 44 characters of base 58. -/
def IsKey (s : PyStr) : Prop := 32 ≤ s.length ∧ s.length ≤ 44 ∧ ∀ c ∈ s, isBase58 c = true

instance (s : PyStr) : Decidable (IsKey s) := inferInstanceAs (Decidable (_ ∧ _))

/-- **What the pattern matches**: a key, or a key and a line feed. -/
theorem base58_iff {s : PyStr} :
    isMatch BASE58 s = true ↔ IsKey s ∨ ∃ k, IsKey k ∧ s = k ++ [10] := by
  rw [isMatch, here_isSome]
  simp only [BASE58, seqs, atStart, atLastEnd, mem_ends_seq, mem_ends_look, mem_ends_rep_char]
  constructor
  · rintro ⟨q, m, ⟨-, rfl⟩, t, ⟨n, rfl, hlen, hall, hlo, hhi⟩, hend, rfl⟩
    have hn : n ≤ 44 := hhi 44 rfl
    have hkey : IsKey (s.take n) := by
      refine ⟨?_, ?_, hall⟩
      · rw [List.length_take, Place.start] at *
        exact le_min hlo (hlo.trans hlen)
      · exact (List.length_take_le n s).trans hn
    have hsplit := List.take_append_drop n s
    rcases Bool.or_eq_true_iff.1 hend with h | h
    · left
      have hrest : s.drop n = [] := List.isEmpty_iff.1 h
      rw [hrest, List.append_nil] at hsplit
      exact hsplit ▸ hkey
    · right
      have hrest : s.drop n = [10] := eq_of_beq h
      exact ⟨s.take n, hkey, by rw [← hrest, hsplit]⟩
  · -- the match ends behind the key
    have hends : ∀ (k rest : PyStr), IsKey k → s = k ++ rest → (rest.isEmpty || rest == [10]) = true →
        ∃ q m, (([] : PyStr).isEmpty = true ∧ m = Place.start s) ∧ ∃ t, (∃ n, t = m.skip n ∧
          n ≤ m.after.length ∧ (∀ c ∈ m.after.take n, isBase58 c = true) ∧ 32 ≤ n ∧
          ∀ h ∈ some 44, n ≤ max 32 h) ∧ (t.after.isEmpty || t.after == [10]) = true ∧ q = t := by
      rintro k rest ⟨hlo, hhi, hall⟩ rfl hrest
      refine ⟨_, _, ⟨rfl, rfl⟩, _, ⟨k.length, rfl, ?_, ?_, hlo, ?_⟩, ?_, rfl⟩
      · exact (List.prefix_append k rest).length_le
      · rw [Place.start, List.take_left]
        exact hall
      · rintro h ⟨⟩
        exact hhi.trans (le_max_right _ _)
      · rw [Place.skip_after, Place.start, List.drop_left]
        exact hrest
    rintro (hkey | ⟨k, hkey, rfl⟩)
    · obtain ⟨q, m, hm, t, ht, hend⟩ := hends s [] hkey (List.append_nil s).symm rfl
      exact ⟨q, m, hm, t, ht, hend⟩
    · obtain ⟨q, m, hm, t, ht, hend⟩ := hends k [10] hkey rfl rfl
      exact ⟨q, m, hm, t, ht, hend⟩

/-! ## One argument -/

/-- A number within the bounds that are stated: neither below the one nor above the other. -/
def InBounds (spec : ArgSpec) (z : Int) : Prop :=
  (spec.min = .null ∨ (Json.int z).pyLt spec.min = some false) ∧
    (spec.max = .null ∨ spec.max.pyLt (.int z) = some false)

/-- The value has the declared type. -/
def Conforms (spec : ArgSpec) (v : Json) : Prop :=
  match spec.type with
  | .int => ∃ z, v = .int z ∧ InBounds spec z
  | .pubkey => ∃ s, v = .str s ∧ IsKey s

/-- The value is a number, and it is compared with a bound that is none. -/
def Incomparable (spec : ArgSpec) (v : Json) : Prop :=
  spec.type = .int ∧ ∃ z, v = .int z ∧
    ((spec.min ≠ .null ∧ (Json.int z).pyLt spec.min = none) ∨
      ((spec.min = .null ∨ (Json.int z).pyLt spec.min = some false) ∧
        spec.max ≠ .null ∧ spec.max.pyLt (.int z) = none))

/-- The value is a public key and a line feed. -/
def WithLineFeed (spec : ArgSpec) (v : Json) : Prop :=
  spec.type = .pubkey ∧ ∃ k, IsKey k ∧ v = .str (k ++ [10])

/-- Anything else. -/
def Malformed (spec : ArgSpec) (v : Json) : Prop :=
  ¬ Conforms spec v ∧ ¬ Incomparable spec v ∧ ¬ WithLineFeed spec v

theorem not_key_lineFeed {k : PyStr} : ¬ IsKey (k ++ [10]) := fun h => by
  have := h.2.2 10 (List.mem_append_right _ (List.mem_singleton_self 10))
  cases this

/-- What comparing with a bound may give. -/
theorem beyond_cases (bound : Json) (violates : Json → Option Bool) :
    ((bound = .null ∨ violates bound = some false) ∧ beyond bound violates = .ok false) ∨
    (bound ≠ .null ∧ violates bound = some true ∧ beyond bound violates = .ok true) ∨
    (bound ≠ .null ∧ violates bound = none ∧ beyond bound violates = .error (.exc (.other .typeError))) := by
  unfold beyond
  by_cases h : bound = .null
  · exact .inl ⟨.inl h, if_pos h⟩
  · rw [if_neg h]
    match hv : violates bound with
    | some false => exact .inl ⟨.inr rfl, rfl⟩
    | some true => exact .inr (.inl ⟨h, rfl, rfl⟩)
    | none => exact .inr (.inr ⟨h, rfl, rfl⟩)

/-- **One argument**: it conforms and passes, it is refused, it cannot be compared, or it is a key
with a line feed and passes. -/
theorem checkArg_cases (name : PyStr) (spec : ArgSpec) (v : Json) :
    (Conforms spec v ∧ checkArg name spec v = .ok ()) ∨
    (Malformed spec v ∧ ∃ text, checkArg name spec v = .error (.arg text)) ∨
    (Incomparable spec v ∧ checkArg name spec v = .error (.exc (.other .typeError))) ∨
    (WithLineFeed spec v ∧ ¬ Conforms spec v ∧ checkArg name spec v = .ok ()) := by
  obtain ⟨type, min, max, required⟩ := spec
  cases type with
  | int =>
    cases v with
    | int z =>
      rcases beyond_cases min fun m => (Json.int z).pyLt m with ⟨hlow, hmin⟩ | ⟨hne, hlow, hmin⟩ |
        ⟨hne, hlow, hmin⟩
      · rcases beyond_cases max fun m => m.pyLt (.int z) with ⟨hhigh, hmax⟩ | ⟨hne, hhigh, hmax⟩ |
          ⟨hne, hhigh, hmax⟩
        · refine .inl ⟨⟨z, rfl, hlow, hhigh⟩, ?_⟩
          simp only [checkArg, hmin, hmax]
          rfl
        · refine .inr (.inl ⟨⟨?_, ?_, nofun⟩, ?_⟩)
          · rintro ⟨_, ⟨⟩, -, hin⟩
            rcases hin with hin | hin
            · exact hne hin
            · cases hin.symm.trans hhigh
          · rintro ⟨-, _, ⟨⟩, ⟨hne', hnone⟩ | ⟨-, -, hnone⟩⟩
            · rcases hlow with hlow | hlow
              · exact hne' hlow
              · cases hlow.symm.trans hnone
            · cases hnone.symm.trans hhigh
          · simp only [checkArg, hmin, hmax]
            exact ⟨_, rfl⟩
        · refine .inr (.inr (.inl ⟨⟨rfl, z, rfl, .inr ⟨hlow, hne, hhigh⟩⟩, ?_⟩))
          simp only [checkArg, hmin, hmax]
          rfl
      · refine .inr (.inl ⟨⟨?_, ?_, nofun⟩, ?_⟩)
        · rintro ⟨_, ⟨⟩, hin, -⟩
          rcases hin with hin | hin
          · exact hne hin
          · cases hin.symm.trans hlow
        · rintro ⟨-, _, ⟨⟩, ⟨-, hnone⟩ | ⟨hin, -⟩⟩
          · cases hnone.symm.trans hlow
          · rcases hin with hin | hin
            · exact hne hin
            · cases hin.symm.trans hlow
        · simp only [checkArg, hmin]
          exact ⟨_, rfl⟩
      · refine .inr (.inr (.inl ⟨⟨rfl, z, rfl, .inl ⟨hne, hlow⟩⟩, ?_⟩))
        simp only [checkArg, hmin]
        rfl
    | null | bool _ | float _ | str _ | arr _ | obj _ =>
      exact .inr (.inl ⟨⟨nofun, nofun, nofun⟩, _, rfl⟩)
  | pubkey =>
    cases v with
    | str s =>
      by_cases h : isMatch BASE58 s = true
      · have hok : checkArg name ⟨.pubkey, min, max, required⟩ (.str s) = .ok () := by
          simp [checkArg, refuseArg, h]
        rcases base58_iff.1 h with hkey | ⟨k, hkey, rfl⟩
        · exact .inl ⟨⟨s, rfl, hkey⟩, hok⟩
        · refine .inr (.inr (.inr ⟨⟨rfl, k, hkey, rfl⟩, ?_, hok⟩))
          rintro ⟨_, ⟨⟩, h⟩
          exact not_key_lineFeed h
      · refine .inr (.inl ⟨⟨?_, nofun, ?_⟩, ?_⟩)
        · rintro ⟨_, ⟨⟩, hkey⟩
          exact h (base58_iff.2 (.inl hkey))
        · rintro ⟨-, k, hkey, ⟨⟩⟩
          exact h (base58_iff.2 (.inr ⟨k, hkey, rfl⟩))
        · simp [checkArg, refuseArg, h]
    | null | bool _ | float _ | int _ | arr _ | obj _ =>
      exact .inr (.inl ⟨⟨nofun, nofun, nofun⟩, _, rfl⟩)

/-! ## All arguments -/

section All

variable {cmd : Command} {args kvs out : Fields} {a : PyStr × ArgSpec}

/-- The map has declared arguments only, all that are required, and all of the declared types. -/
structure Conforming (cmd : Command) (out : Fields) : Prop where
  declared : ∀ kv ∈ out, ∃ a ∈ cmd.args, a.1 = kv.1
  required : ∀ a ∈ cmd.args, a.2.required = true → ∃ v, Json.lookup a.1 out = some v
  typed : ∀ a ∈ cmd.args, ∀ v, Json.lookup a.1 out = some v → Conforms a.2 v

/-- An argument is missing, or it is given and refused. -/
def RefusedIn (args : Fields) (a : PyStr × ArgSpec) : Prop :=
  match Json.lookup a.1 args with
  | none => a.2.required = true
  | some v => Malformed a.2 v

/-- An argument is given, and it is a number that cannot be compared with its bounds. -/
def IncomparableIn (args : Fields) (a : PyStr × ArgSpec) : Prop :=
  ∃ v, Json.lookup a.1 args = some v ∧ Incomparable a.2 v

/-- An argument is given, and it is a key and a line feed. -/
def LineFeedIn (args : Fields) (a : PyStr × ArgSpec) : Prop :=
  ∃ v, Json.lookup a.1 args = some v ∧ WithLineFeed a.2 v

/-- What the loop over the declared arguments does. -/
inductive Checked (args : Fields) (specs : List (PyStr × ArgSpec)) : Except ArgFailure Fields → Prop
  | ok (out : Fields) (hpass : ∀ a ∈ specs, ¬ RefusedIn args a ∧ ¬ IncomparableIn args a)
      (hout : out = specs.filterMap fun a => (Json.lookup a.1 args).map fun v => (a.1, v)) :
      Checked args specs (.ok out)
  | refused (text : Msg) (front : List (PyStr × ArgSpec)) (a : PyStr × ArgSpec)
      (back : List (PyStr × ArgSpec)) (hsplit : specs = front ++ a :: back) (ha : RefusedIn args a)
      (hfront : ∀ x ∈ front, ¬ RefusedIn args x ∧ ¬ IncomparableIn args x) :
      Checked args specs (.error (.arg text))
  | raised (front : List (PyStr × ArgSpec)) (a : PyStr × ArgSpec) (back : List (PyStr × ArgSpec))
      (hsplit : specs = front ++ a :: back) (ha : IncomparableIn args a)
      (hfront : ∀ x ∈ front, ¬ RefusedIn args x ∧ ¬ IncomparableIn args x) :
      Checked args specs (.error (.exc (.other .typeError)))

/-- One more argument in front, which passes. -/
theorem Checked.cons {specs : List (PyStr × ArgSpec)} {r : Except ArgFailure Fields}
    (h : Checked args specs r) (ha : ¬ RefusedIn args a ∧ ¬ IncomparableIn args a) :
    Checked args (a :: specs) (r.map fun out =>
      ((Json.lookup a.1 args).map fun v => (a.1, v)).toList ++ out) := by
  cases h with
  | ok out hpass hout =>
    refine .ok _ (List.forall_mem_cons.2 ⟨ha, hpass⟩) ?_
    rw [hout, List.filterMap_cons]
    cases Json.lookup a.1 args <;> rfl
  | refused text front x back hsplit hx hfront =>
    exact .refused text (a :: front) x back (by rw [hsplit]; rfl) hx
      (List.forall_mem_cons.2 ⟨ha, hfront⟩)
  | raised front x back hsplit hx hfront =>
    exact .raised (a :: front) x back (by rw [hsplit]; rfl) hx (List.forall_mem_cons.2 ⟨ha, hfront⟩)

/-- **The loop over the declared arguments.** -/
theorem checkArgs_checked (args : Fields) (specs : List (PyStr × ArgSpec)) :
    Checked args specs (checkArgs args specs) := by
  induction specs with
  | nil => exact .ok [] (fun _ h => absurd h List.not_mem_nil) rfl
  | cons a specs ih =>
    obtain ⟨name, spec⟩ := a
    rw [checkArgs]
    cases hl : Json.lookup name args with
    | none =>
      dsimp only
      cases hreq : spec.required with
      | true =>
        have href : RefusedIn args (name, spec) := by
          rw [RefusedIn, hl]
          exact hreq
        exact .refused _ [] _ specs rfl href fun _ h => absurd h List.not_mem_nil
      | false =>
        have hpass : ¬ RefusedIn args (name, spec) ∧ ¬ IncomparableIn args (name, spec) := by
          rw [RefusedIn, IncomparableIn, hl]
          exact ⟨fun h => Bool.false_ne_true (hreq.symm.trans h), fun ⟨v, hv, _⟩ => nomatch hv⟩
        have h := ih.cons hpass
        simp only [hl, Option.map_none, Option.toList_none, List.nil_append] at h
        cases hr : checkArgs args specs with
        | ok out => rw [hr] at h; exact h
        | error e => rw [hr] at h; exact h
    | some v =>
      dsimp only
      have hsome : ∀ {P : ArgSpec → Json → Prop}, (∃ w, Json.lookup name args = some w ∧ P spec w) ↔
          P spec v := fun {P} => by
        rw [hl]
        exact ⟨fun ⟨w, hw, h⟩ => Option.some.inj hw ▸ h, fun h => ⟨v, rfl, h⟩⟩
      have href : RefusedIn args (name, spec) ↔ Malformed spec v := by rw [RefusedIn, hl]
      have hinc : IncomparableIn args (name, spec) ↔ Incomparable spec v := hsome
      have hgo : checkArg name spec v = .ok () → ¬ Malformed spec v → ¬ Incomparable spec v →
          Checked args ((name, spec) :: specs) (do
            checkArg name spec v
            let out ← checkArgs args specs
            pure ((name, v) :: out)) := by
        intro hok hm hi
        have h := ih.cons (a := (name, spec)) ⟨mt href.1 hm, mt hinc.1 hi⟩
        rw [hok]
        cases hr : checkArgs args specs with
        | ok out =>
          rw [hr, hl] at h
          exact h
        | error e =>
          rw [hr, hl] at h
          exact h
      rcases checkArg_cases name spec v with ⟨hc, hok⟩ | ⟨hm, text, herr⟩ | ⟨hi, herr⟩ | ⟨hn, hc, hok⟩
      · refine hgo hok (fun hm => hm.1 hc) fun hi => ?_
        -- a value that conforms has been compared
        obtain ⟨htype, z, rfl, hbad⟩ := hi
        rw [Conforms, htype] at hc
        obtain ⟨_, ⟨⟩, hmin, hmax⟩ := hc
        rcases hbad with ⟨hne, hnone⟩ | ⟨-, hne, hnone⟩
        · rcases hmin with hmin | hmin
          · exact hne hmin
          · cases hmin.symm.trans hnone
        · rcases hmax with hmax | hmax
          · exact hne hmax
          · cases hmax.symm.trans hnone
      · rw [herr]
        exact .refused text [] _ specs rfl (href.2 hm) fun _ h => absurd h List.not_mem_nil
      · rw [herr]
        exact .raised [] _ specs rfl (hinc.2 hi) fun _ h => absurd h List.not_mem_nil
      · refine hgo hok (fun hm => hm.2.2 hn) fun hi => ?_
        cases hn.1.symm.trans hi.1

/-- The values that the loop returns are those of the request. -/
theorem lookup_returned {name : PyStr} : ∀ {specs : List (PyStr × ArgSpec)}, (∃ a ∈ specs, a.1 = name) →
    Json.lookup name (specs.filterMap fun a => (Json.lookup a.1 args).map fun v => (a.1, v)) =
      Json.lookup name args := by
  intro specs
  induction specs with
  | nil => exact fun ⟨a, ha, _⟩ => absurd ha List.not_mem_nil
  | cons a specs ih =>
    rintro ⟨x, hx, rfl⟩
    rw [List.filterMap_cons]
    by_cases heq : a.1 = x.1
    · cases hl : Json.lookup a.1 args with
      | none =>
        rw [Option.map_none]
        dsimp only
        by_cases hrest : ∃ y ∈ specs, y.1 = x.1
        · exact ih hrest
        · -- then nothing of the rest has the name
          rw [← heq, hl]
          cases hl' : Json.lookup a.1
              (specs.filterMap fun a => (Json.lookup a.1 args).map fun v => (a.1, v)) with
          | none => rfl
          | some w =>
            obtain ⟨y, hy, hmap⟩ := List.mem_filterMap.1 (Json.lookup_mem hl')
            obtain ⟨v, -, hv⟩ := Option.map_eq_some_iff.1 hmap
            exact absurd ⟨y, hy, (congrArg Prod.fst hv).trans heq⟩ hrest
      | some v =>
        rw [Option.map_some]
        dsimp only
        rw [Json.lookup, if_pos heq.symm, ← heq, hl]
    · have hrest : ∃ y ∈ specs, y.1 = x.1 := by
        rcases List.mem_cons.1 hx with rfl | hx
        · exact absurd rfl heq
        · exact ⟨x, hx, rfl⟩
      cases hl : Json.lookup a.1 args with
      | none => exact ih hrest
      | some v =>
        rw [Option.map_some]
        dsimp only
        rw [Json.lookup, if_neg (Ne.symm heq)]
        exact ih hrest

/-- What is given and cannot be compared is not refused. -/
theorem not_refused_of_incomparable (h : IncomparableIn args a) : ¬ RefusedIn args a := by
  obtain ⟨v, hv, hi⟩ := h
  rw [RefusedIn, hv]
  exact fun hm => hm.2.1 hi

theorem not_conforms_of_lineFeed {spec : ArgSpec} {v : Json} (h : WithLineFeed spec v) :
    ¬ Conforms spec v := by
  obtain ⟨htype, k, hk, rfl⟩ := h
  rw [Conforms, htype]
  rintro ⟨_, ⟨⟩, hkey⟩
  exact not_key_lineFeed hkey

theorem Conforming.not_refused (h : Conforming cmd args) (ha : a ∈ cmd.args) : ¬ RefusedIn args a := by
  rw [RefusedIn]
  cases hl : Json.lookup a.1 args with
  | none =>
    intro hreq
    obtain ⟨v, hv⟩ := h.required a ha hreq
    cases hl.symm.trans hv
  | some v => exact fun hm => hm.1 (h.typed a ha v hl)

/-- Arguments that pass without a line feed conform. -/
theorem conforming_of_pass (hpass : ∀ a ∈ cmd.args, ¬ RefusedIn args a ∧ ¬ IncomparableIn args a)
    (hplain : ∀ a ∈ cmd.args, ¬ LineFeedIn args a) : Conforming cmd
      (cmd.args.filterMap fun a => (Json.lookup a.1 args).map fun v => (a.1, v)) := by
  have hlookup : ∀ a ∈ cmd.args, Json.lookup a.1
      (cmd.args.filterMap fun a => (Json.lookup a.1 args).map fun v => (a.1, v)) =
        Json.lookup a.1 args := fun a ha => lookup_returned ⟨a, ha, rfl⟩
  refine ⟨fun kv hkv => ?_, fun a ha hreq => ?_, fun a ha v hv => ?_⟩
  · obtain ⟨a, ha, hmap⟩ := List.mem_filterMap.1 hkv
    obtain ⟨v, -, hv⟩ := Option.map_eq_some_iff.1 hmap
    exact ⟨a, ha, congrArg Prod.fst hv⟩
  · rw [hlookup a ha]
    cases hl : Json.lookup a.1 args with
    | some v => exact ⟨v, rfl⟩
    | none =>
      refine absurd ?_ (hpass a ha).1
      rw [RefusedIn, hl]
      exact hreq
  · rw [hlookup a ha] at hv
    by_contra hc
    refine (hpass a ha).1 ?_
    rw [RefusedIn, hv]
    exact ⟨hc, fun hi => (hpass a ha).2 ⟨v, hv, hi⟩, fun hn => hplain a ha ⟨v, hv, hn⟩⟩

/-! ## Requests -/

/-- The text of a value of the declared type. -/
def ArgText (spec : ArgSpec) (s : PyStr) : Prop :=
  match spec.type with
  | .int => ∃ z, s = intText z ∧ InBounds spec z
  | .pubkey => IsKey s

/-- **The arguments of a request are checked exactly**: they are refused, or what is returned
conforms; what conforms is accepted; and what is filled into the command line is the text of a value
of the declared type. -/
structure Exact (b : Builtins) (cmd : Command) (args : Json) : Prop where
  outcome : (∃ text, validate_args cmd args = .error (.arg text)) ∨
    ∃ out, validate_args cmd args = .ok out ∧ Conforming cmd out
  accepts : ∀ kvs, args = .obj kvs → Conforming cmd kvs → ∃ out, validate_args cmd args = .ok out
  filled : ∀ (out local_ : Fields) (argv : List PyStr), validate_args cmd args = .ok out →
    assemble_argv b cmd out local_ = .ok argv →
    ∀ (i : Nat) (tok key s : PyStr) (v : Json), (cmd.tokens out)[i]? = some tok →
      placeholder tok = some key → Json.lookup key out = some v → argv[i]? = some s →
        ∃ a ∈ cmd.args, a.1 = key ∧ ArgText a.2 s

/-- **The request does not turn on the two exceptions**: an argument is refused, and no number
before it meets a bound that is none; or no number does, and no public key ends in a line feed. -/
def Plain (cmd : Command) : Json → Prop
  | .obj kvs => unknownArgs cmd kvs ≠ [] ∨
      (∃ front a back, cmd.args = front ++ a :: back ∧ RefusedIn kvs a ∧
        ∀ x ∈ front, ¬ IncomparableIn kvs x) ∨
      ∀ a ∈ cmd.args, ¬ IncomparableIn kvs a ∧ ¬ LineFeedIn kvs a
  | _ => True

/-- Filling goes token by token. -/
theorem fillAll_getElem {b : Builtins} {local_ : Fields} : ∀ {toks argv : List PyStr},
    fillAll b args local_ toks = .ok argv → ∀ (i : Nat) (tok s : PyStr), toks[i]? = some tok → argv[i]? = some s →
      fill b args local_ tok = .ok s := by
  intro toks
  induction toks with
  | nil =>
    intro argv _ i tok s htok
    simp at htok
  | cons t toks ih =>
    intro argv h i tok s htok hs
    rw [fillAll] at h
    cases ht : fill b args local_ t with
    | error e => rw [ht] at h; cases h
    | ok t' =>
      cases hr : fillAll b args local_ toks with
      | error e => rw [ht, hr] at h; cases h
      | ok rest =>
        rw [ht, hr] at h
        cases h
        cases i with
        | zero =>
          cases htok
          cases hs
          exact ht
        | succ i => exact ih hr i tok s htok hs

/-- What is filled in from conforming arguments. -/
theorem filled_of_conforming {b : Builtins} {local_ : Fields} {argv : List PyStr}
    (h : Conforming cmd out) (hargv : assemble_argv b cmd out local_ = .ok argv) :
    ∀ (i : Nat) (tok key s : PyStr) (v : Json), (cmd.tokens out)[i]? = some tok →
      placeholder tok = some key → Json.lookup key out = some v → argv[i]? = some s →
        ∃ a ∈ cmd.args, a.1 = key ∧ ArgText a.2 s := by
  intro i tok key s v htok hkey hv hs
  have hfill := fillAll_getElem hargv i tok s htok hs
  rw [fill, hkey] at hfill
  dsimp only at hfill
  rw [hv] at hfill
  cases hfill
  obtain ⟨a, ha, heq⟩ := h.declared _ (Json.lookup_mem hv)
  refine ⟨a, ha, heq, ?_⟩
  have hc := h.typed a ha v (by rw [heq]; exact hv)
  unfold Conforms at hc
  unfold ArgText
  cases htype : a.2.type with
  | int =>
    rw [htype] at hc
    obtain ⟨z, rfl, hin⟩ := hc
    exact ⟨z, rfl, hin⟩
  | pubkey =>
    rw [htype] at hc
    obtain ⟨k, rfl, hkey⟩ := hc
    exact hkey

/-- The part after the unknown arguments have been ruled out. -/
theorem exact_iff_of_known {b : Builtins} {v : Json} (hval : validate_args cmd v = checkArgs kvs cmd.args)
    (hobj : ∀ fs, v = .obj fs → fs = kvs) : Exact b cmd v ↔
      ((∃ front a back, cmd.args = front ++ a :: back ∧ RefusedIn kvs a ∧
        ∀ x ∈ front, ¬ IncomparableIn kvs x) ∨
      ∀ a ∈ cmd.args, ¬ IncomparableIn kvs a ∧ ¬ LineFeedIn kvs a) := by
  have hchecked := checkArgs_checked kvs cmd.args
  constructor
  · rintro ⟨houtcome, -, -⟩
    rw [hval] at houtcome
    generalize checkArgs kvs cmd.args = r at hchecked houtcome
    cases hchecked with
    | ok out hpass hout =>
      right
      intro a ha
      refine ⟨(hpass a ha).2, fun ⟨w, hw, hn⟩ => ?_⟩
      obtain ⟨text, ⟨⟩⟩ | ⟨_, ⟨⟩, hconf⟩ := houtcome
      refine not_conforms_of_lineFeed hn (hconf.typed a ha w ?_)
      rw [hout, lookup_returned ⟨a, ha, rfl⟩, hw]
    | refused text front a back hsplit ha hfront =>
      exact .inl ⟨front, a, back, hsplit, ha, fun x hx => (hfront x hx).2⟩
    | raised front a back hsplit ha hfront =>
      obtain ⟨text, ⟨⟩⟩ | ⟨_, ⟨⟩, -⟩ := houtcome
  · intro hplain
    have hnot : (∀ a ∈ cmd.args, ¬ RefusedIn kvs a ∧ ¬ IncomparableIn kvs a) →
        ∀ a ∈ cmd.args, ¬ LineFeedIn kvs a := by
      intro hpass
      rcases hplain with ⟨front, a, back, hsplit, ha, -⟩ | hplain
      · exact absurd ha (hpass a (by rw [hsplit]; simp)).1
      · exact fun a ha => (hplain a ha).2
    generalize hr : checkArgs kvs cmd.args = r at hchecked
    cases hchecked with
    | ok out hpass hout =>
      have hconf : Conforming cmd out := hout ▸ conforming_of_pass hpass (hnot hpass)
      have hok : validate_args cmd v = .ok out := hval.trans hr
      refine ⟨.inr ⟨out, hok, hconf⟩, fun _ _ _ => ⟨out, hok⟩, fun out' local_ argv hout' hargv => ?_⟩
      cases hok.symm.trans hout'
      exact filled_of_conforming hconf hargv
    | refused text front a back hsplit ha hfront =>
      have herr : validate_args cmd v = .error (.arg text) := hval.trans hr
      refine ⟨.inl ⟨text, herr⟩, fun fs hfs hconf => ?_, fun out local_ argv hout => ?_⟩
      · rw [hobj fs hfs] at hconf
        exact absurd ha (hconf.not_refused (by rw [hsplit]; simp))
      · cases herr.symm.trans hout
    | raised front a back hsplit ha hfront =>
      -- whichever of the two comes first, there is a contradiction
      exfalso
      rcases hplain with ⟨front', a', back', hsplit', ha', hfront'⟩ | hplain
      · rcases List.append_eq_append_iff.1 (hsplit.symm.trans hsplit') with
          ⟨mid, hmid, hrest⟩ | ⟨mid, hmid, hrest⟩
        · cases mid with
          | nil =>
            cases (List.cons.inj hrest).1
            exact not_refused_of_incomparable ha ha'
          | cons x mid =>
            cases (List.cons.inj hrest).1
            exact hfront' a (by rw [hmid]; simp) ha
        · cases mid with
          | nil =>
            cases (List.cons.inj hrest).1
            exact not_refused_of_incomparable ha ha'
          | cons x mid =>
            cases (List.cons.inj hrest).1
            exact (hfront a' (by rw [hmid]; simp)).1 ha'
      · exact (hplain a (by rw [hsplit]; simp)).1 ha

/-- **When arguments are checked exactly.** -/
theorem validate_args_exact_iff (b : Builtins) (cmd : Command) (args : Json) :
    Exact b cmd args ↔ Plain cmd args := by
  have herror : ∀ {v : Json} {text : Msg}, validate_args cmd v = .error (.arg text) →
      (∀ kvs, v = .obj kvs → ¬ Conforming cmd kvs) → Exact b cmd v := by
    intro v text herr hno
    refine ⟨.inl ⟨text, herr⟩, fun kvs hv hconf => absurd hconf (hno kvs hv), fun out local_ argv hout => ?_⟩
    cases herr.symm.trans hout
  cases args with
  | obj kvs =>
    rw [Plain]
    cases hu : unknownArgs cmd kvs with
    | nil =>
      have hval : validate_args cmd (.obj kvs) = checkArgs kvs cmd.args := by
        rw [validate_args, hu]
        rfl
      rw [exact_iff_of_known hval fun fs hfs => (Json.obj.inj hfs).symm]
      exact (or_iff_right fun h => h rfl).symm
    | cons name rest =>
      refine iff_of_true ?_ (.inl (List.cons_ne_nil _ _))
      have herr : ∃ text, validate_args cmd (.obj kvs) = .error (.arg text) := by
        rw [validate_args, hu]
        exact ⟨_, rfl⟩
      obtain ⟨text, herr⟩ := herr
      refine herror herr fun fs hfs hconf => ?_
      cases hfs
      have hname : name ∈ unknownArgs cmd kvs := by rw [hu]; exact List.mem_cons_self
      obtain ⟨hmem, hall⟩ := List.mem_filter.1 hname
      obtain ⟨kv, hkv, rfl⟩ := List.mem_map.1 hmem
      obtain ⟨a, ha, heq⟩ := hconf.declared kv hkv
      exact absurd heq (by simpa using List.all_eq_true.1 hall a ha)
  | null =>
    have hval : validate_args cmd .null = checkArgs [] cmd.args := rfl
    refine iff_of_true ((exact_iff_of_known hval nofun).2 (.inr fun a _ => ?_)) trivial
    constructor
    · rintro ⟨v, hv, -⟩
      cases hv
    · rintro ⟨v, hv, -⟩
      cases hv
  | bool _ | int _ | float _ | str _ | arr _ =>
    exact iff_of_true (herror rfl nofun) trivial

/-! ### A key with a line feed -/

/-- A command with a public key. -/
def balanceOf : Command where
  id := py "balance_of"
  kind := .exec
  argv := [py "solana", py "balance", [123] ++ py "identity_pubkey" ++ [125]]
  args := [(py "identity_pubkey", { type := .pubkey, required := true })]
  timeout_s := .zero

/-- A key and a line feed. -/
def keyWithLineFeed : Json := .obj [(py "identity_pubkey", .str (List.replicate 44 49 ++ [10]))]

theorem line_feed_accepted : ¬ ∀ cmd args, Exact sampleBuiltins cmd args := by
  intro h
  have hok : validate_args balanceOf keyWithLineFeed =
      .ok [(py "identity_pubkey", .str (List.replicate 44 49 ++ [10]))] := by decide +kernel
  rcases (h balanceOf keyWithLineFeed).outcome with ⟨text, herr⟩ | ⟨out, hout, hconf⟩
  · cases hok.symm.trans herr
  · cases hok.symm.trans hout
    obtain ⟨s, hs, hkey⟩ := hconf.typed _ List.mem_cons_self _ rfl
    cases hs
    exact absurd hkey (by decide +kernel)

end All

end Valops.Observer
