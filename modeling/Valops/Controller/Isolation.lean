import Valops.Controller.Artefacts
import Valops.Py.Within

/-!
# The isolation check of the judge's view

`assert_judge_isolated` looks for the prose of others in the serialised view, where every string is
escaped. A leaked text is therefore found in every view that contains it exactly when the text occurs
in its own escaped form; plain printable ASCII does, a line break, a quotation mark or a letter
outside ASCII in general does not.

Main results: `leak_raises`, `leak_detected_iff`.
-/

set_option autoImplicit false

namespace Valops.Controller

open Py Store

/-! ## Leaks -/

/-- The text is a claim, a test or the expected evidence of a hypothesis, or the note of a check of a
verdict. -/
def Prose (rec : Record) (t : PyStr) : Prop :=
  (∃ h ∈ rec.hypotheses, t = h.claim ∨ t = h.test ∨ t = h.expected_evidence) ∨
    ∃ v ∈ rec.verdicts, ∃ c ∈ v.checks, get c "note" = .ok (.str t)

/-- A string of the view outside `under_judgement` contains the text. -/
def Leaks (view : Fields) (t : PyStr) : Prop :=
  ∃ kv ∈ view, kv.1 ≠ py "under_judgement" ∧ ∃ s, Json.Within s kv.2 ∧ t <:+: s

/-- The text occurs in its own form in a string literal. -/
def SurvivesEscaping (t : PyStr) : Prop := t <:+: charsText true t

/-- The serialised view, without the artefact under judgement. -/
def blobOf (view : Fields) : Option PyStr :=
  dumps (.obj (view.filter fun kv => kv.1 ≠ py "under_judgement"))

/-! ## What a check that passes has seen -/

theorem seq_eq_ok {α : Type} {x : Except Raised Unit} {y : Except Raised α} {a : α} :
    (x >>= fun _ => y) = .ok a ↔ x = .ok () ∧ y = .ok a := by
  cases x <;> simp [bind, Except.bind]

theorem forM_eq_ok {α : Type} {f : α → Except Raised Unit} (xs : List α) :
    xs.forM f = .ok () ↔ ∀ x ∈ xs, f x = .ok () := by
  induction xs with
  | nil => exact ⟨fun _ x hx => absurd hx List.not_mem_nil, fun _ => rfl⟩
  | cons y ys ih =>
    rw [List.forall_mem_cons, ← ih]
    exact seq_eq_ok

theorem assertAbsent_eq_ok {blob t : PyStr} {text : Msg} :
    assertAbsent blob t text = .ok () ↔ ¬ (12 ≤ t.length ∧ t <:+: blob) := by
  unfold assertAbsent
  split
  · rename_i h
    exact ⟨nofun, fun hno => absurd h hno⟩
  · rename_i h
    exact ⟨fun _ => h, fun _ => rfl⟩

/-- **When the check passes.** -/
theorem isolated_iff {view : Fields} {rec : Record} : assert_judge_isolated view rec = .ok () ↔
    (∀ k ∈ forbidden_keys, Json.lookup k view = none) ∧ ∃ blob, blobOf view = some blob ∧
      (∀ h ∈ rec.hypotheses, ∀ t ∈ [h.claim, h.test, h.expected_evidence],
        ¬ (12 ≤ t.length ∧ t <:+: blob)) ∧
      ∀ v ∈ rec.verdicts, ∀ c ∈ v.checks, assertNote blob c = .ok () := by
  have hkeys : (forbidden_keys.filter fun k => (Json.lookup k view).isSome).isEmpty = true ↔
      ∀ k ∈ forbidden_keys, Json.lookup k view = none := by
    rw [List.isEmpty_iff, List.filter_eq_nil_iff]
    simp only [Bool.not_eq_true, Option.isSome_eq_false_iff, Option.isNone_iff_eq_none]
  have hhyps : ∀ blob, (rec.hypotheses.forM fun h =>
      [("claim", h.claim), ("test", h.test), ("expected_evidence", h.expected_evidence)].forM fun f =>
        assertAbsent blob f.2 [.text (py "judge view contains hypothesis "), .text h.id, .text (py " "),
          .text (py f.1)]) = .ok () ↔ ∀ h ∈ rec.hypotheses,
            ∀ t ∈ [h.claim, h.test, h.expected_evidence], ¬ (12 ≤ t.length ∧ t <:+: blob) := by
    intro blob
    rw [forM_eq_ok]
    refine forall₂_congr fun h hh => ?_
    rw [forM_eq_ok]
    simp only [List.forall_mem_cons, assertAbsent_eq_ok]
    simp
  have hnotes : ∀ blob, (rec.verdicts.forM fun v => v.checks.forM fun c => assertNote blob c) =
      .ok () ↔ ∀ v ∈ rec.verdicts, ∀ c ∈ v.checks, assertNote blob c = .ok () := by
    intro blob
    rw [forM_eq_ok]
    exact forall₂_congr fun v hv => forM_eq_ok _
  unfold assert_judge_isolated
  rw [← hkeys]
  dsimp only
  cases hpresent : (forbidden_keys.filter fun k => (Json.lookup k view).isSome).isEmpty with
  | false =>
    refine iff_of_false (fun h => ?_) (fun h => Bool.false_ne_true h.1)
    cases h
  | true =>
    rw [eq_self, true_and]
    change (raising (orRaise (blobOf view) (.other .valueError)) >>= _) = _ ↔ _
    cases hblob : blobOf view with
    | none =>
      refine iff_of_false (fun h => ?_) ?_
      · cases h
      · rintro ⟨_, h, _⟩
        cases h
    | some blob =>
      refine (seq_eq_ok.trans (and_congr (hhyps blob) (hnotes blob))).trans ?_
      constructor
      · exact fun h => ⟨blob, rfl, h⟩
      · rintro ⟨_, ⟨⟩, h⟩
        exact h

/-- A check that passes has not found longer prose in the serialised view. -/
theorem absent_of_isolated {view : Fields} {rec : Record}
    (h : assert_judge_isolated view rec = .ok ()) :
    ∃ blob, blobOf view = some blob ∧ ∀ t, Prose rec t → 12 ≤ t.length → ¬ t <:+: blob := by
  obtain ⟨-, blob, hblob, hhyps, hnotes⟩ := isolated_iff.1 h
  refine ⟨blob, hblob, ?_⟩
  rintro t (⟨h, hh, ht⟩ | ⟨v, hv, c, hc, hnote⟩) hlen hin
  · exact hhyps h hh t (by simpa using ht) ⟨hlen, hin⟩
  · have hok := hnotes v hv c hc
    rw [assertNote, hnote] at hok
    exact assertAbsent_eq_ok.1 hok ⟨hlen, hin⟩

/-! ## Detection -/

theorem text_infix_blob {view : Fields} {blob : PyStr} (hblob : blobOf view = some blob)
    {kv : PyStr × Json} (hkv : kv ∈ view) (hkey : kv.1 ≠ py "under_judgement") {s : PyStr}
    (hs : Json.Within s kv.2) : charsText true s <:+: blob := by
  unfold blobOf dumps at hblob
  split at hblob
  · cases hblob
    have hshown := (List.mem_filter (p := fun x => decide (x.1 ≠ py "under_judgement"))).2
      ⟨hkv, decide_eq_true hkey⟩
    exact @Json.escaped_infix_text .default _ _ (.field hshown hs)
  · cases hblob

/-- **A leaked text that survives escaping is detected**, whatever the view and the record. -/
theorem leak_raises {view : Fields} {rec : Record} {t : PyStr} (hlen : 12 ≤ t.length)
    (ht : SurvivesEscaping t) (hprose : Prose rec t) (hleak : Leaks view t) :
    ∃ e, assert_judge_isolated view rec = .error e := by
  cases h : assert_judge_isolated view rec with
  | error e => exact ⟨e, rfl⟩
  | ok u =>
    obtain ⟨blob, hblob, habsent⟩ := absent_of_isolated h
    obtain ⟨kv, hkv, hkey, s, hs, hin⟩ := hleak
    have hin : t <:+: blob :=
      (ht.trans (charsText_within hin)).trans (text_infix_blob hblob hkv hkey hs)
    exact absurd hin (habsent t hprose hlen)

/-- A text of characters that are written as they are survives. -/
theorem survives_of_plain {t : PyStr} (h : ∀ c ∈ t, charText true c = [c]) : SurvivesEscaping t := by
  have hsame : charsText true t = t := by
    induction t with
    | nil => rfl
    | cons c t ih =>
      obtain ⟨hc, ht⟩ := List.forall_mem_cons.1 h
      rw [charsText, List.flatMap_cons, hc]
      exact congrArg (c :: ·) (ih ht)
  unfold SurvivesEscaping
  rw [hsame]

/-- A hypothesis with this claim. -/
def hypothesisOf (t : PyStr) : Hypothesis where
  id := []
  step_session := .null
  rank := 1
  claim := t
  test := []
  expected_evidence := []
  status := .open
  evidence_refs := []
  status_history := []
  t := []

/-- A record with one hypothesis. -/
def claiming (t : PyStr) : Record := { empty_record [] with hypotheses := [hypothesisOf t] }

/-- A view that carries the text between two runs of a character. -/
def padded (c : Nat) (t : PyStr) : Fields :=
  [(py "class", .str (List.replicate t.length c ++ t ++ List.replicate t.length c))]

theorem leaks_padded (c : Nat) (t : PyStr) : Leaks (padded c t) t := by
  refine ⟨_, List.mem_cons_self, ?_, _, .here, _, _, rfl⟩
  show py "class" ≠ py "under_judgement"
  decide

theorem blobOf_padded {c : Nat} (t : PyStr) (hc : charText true c = [c]) :
    blobOf (padded c t) = some ((123 :: (strText true (py "class") ++ [58, 32, 34])) ++
      (List.replicate t.length c ++
        (charsText true t ++ (List.replicate t.length c ++ [34, 125])))) := by
  have hrun := @charsText_replicate true c hc t.length
  have hchars : charsText true (List.replicate t.length c ++ t ++ List.replicate t.length c) =
      List.replicate t.length c ++ (charsText true t ++ List.replicate t.length c) := by
    conv_rhs => rw [← hrun]
    simp only [charsText, List.flatMap_append, List.append_assoc]
  have hview : (padded c t).filter (fun kv => kv.1 ≠ py "under_judgement") = padded c t := by
    refine List.filter_eq_self.2 fun kv hkv => ?_
    cases List.mem_singleton.1 hkv
    show decide (py "class" ≠ py "under_judgement") = true
    decide
  have hprint : (Json.obj (padded c t)).printable = true := by
    rw [Json.printable, Json.printableFields_iff]
    intro kv hkv
    cases List.mem_singleton.1 hkv
    rfl
  rw [blobOf, hview, dumps, if_pos hprint]
  congr 1
  simp only [padded, Json.text, Json.fieldsText, Json.fieldText, strText, List.isEmpty_nil, if_true,
    Style.default, hchars]
  simp only [List.append_assoc, List.cons_append, List.nil_append, List.append_nil]

theorem isolated_padded {c : Nat} {t : PyStr} (hc : charText true c = [c])
    (hblob : ∀ blob, blobOf (padded c t) = some blob → ¬ t <:+: blob) :
    assert_judge_isolated (padded c t) (claiming t) = .ok () := by
  refine isolated_iff.2 ⟨fun k hk => ?_, _, blobOf_padded t hc, ?_, ?_⟩
  · rw [padded, Json.lookup, if_neg]
    · rfl
    · rintro rfl
      revert hk
      decide
  · intro h hh u hu hin
    cases List.mem_singleton.1 (show h ∈ [hypothesisOf t] from hh)
    have hcases : u = t ∨ u = [] := by
      simpa [hypothesisOf] using hu
    rcases hcases with rfl | rfl
    · exact hblob _ (blobOf_padded u hc) hin.2
    · cases hin.1
  · exact fun v hv => absurd hv List.not_mem_nil

/-- A text that does not survive escaping is not found between the two runs: outside them there is too
little text, and inside them there is its escaped form. -/
theorem not_infix_padded {c : Nat} {t : PyStr} (hlen : 12 ≤ t.length) (hne : t ≠ [])
    (hc : charText true c = [c]) (hhead : t.head hne ≠ c) (hlast : t.getLast hne ≠ c)
    (ht : ¬ SurvivesEscaping t) (blob : PyStr) (hblob : blobOf (padded c t) = some blob) :
    ¬ t <:+: blob := by
  intro hin
  rw [blobOf_padded t hc] at hblob
  cases hblob
  rcases infix_of_padded hne hhead hlast le_rfl hin with hin | hin
  · have := hin.length_le
    have hshort : (123 :: (strText true (py "class") ++ [58, 32, 34])).length = 11 := by decide
    omega
  rcases infix_of_padded hne hhead hlast le_rfl hin with hin | hin
  · exact ht hin
  · have := hin.length_le
    have hshort : ([34, 125] : PyStr).length = 2 := rfl
    omega

/-- **When a leaked text is detected**: in every view of every record that has it exactly if it occurs
in its own escaped form. -/
theorem leak_detected_iff (t : PyStr) (hlen : 12 ≤ t.length) :
    (∀ (view : Fields) (rec : Record), Prose rec t → Leaks view t →
      ∃ e, assert_judge_isolated view rec = .error e) ↔ SurvivesEscaping t := by
  constructor
  · intro h
    by_contra ht
    have hne : t ≠ [] := by
      rintro rfl
      cases hlen
    obtain ⟨c, hplain, hhead, hlast⟩ := exists_plain t hne
    have hc := @charText_plain true c hplain
    have hprose : Prose (claiming t) t := .inl ⟨hypothesisOf t, List.mem_cons_self, .inl rfl⟩
    obtain ⟨e, he⟩ := h (padded c t) (claiming t) hprose (leaks_padded c t)
    have hok := isolated_padded hc (not_infix_padded hlen hne hc hhead hlast ht)
    cases hok.symm.trans he
  · exact fun ht view rec hprose hleak => leak_raises hlen ht hprose hleak

/-- A claim of two lines. -/
def twoLines : PyStr := py "vote latency" ++ 10 :: py "above the limit"

/-- **A leaked claim of two lines is not found.** -/
theorem leak_missed :
    ¬ ∀ (view : Fields) (rec : Record) (t : PyStr), 12 ≤ t.length → Prose rec t → Leaks view t →
      ∃ e, assert_judge_isolated view rec = .error e := by
  intro h
  have hprose : Prose (claiming twoLines) twoLines :=
    .inl ⟨hypothesisOf twoLines, List.mem_cons_self, .inl rfl⟩
  obtain ⟨e, he⟩ := h [(py "trigger", .str twoLines)] (claiming twoLines) twoLines (by decide) hprose
    ⟨_, List.mem_cons_self, by decide, _, .here, List.infix_refl _⟩
  have hok : assert_judge_isolated [(py "trigger", .str twoLines)] (claiming twoLines) = .ok () := by
    decide +kernel
  cases hok.symm.trans he

/-- The same claim on one line is found, also in the middle of a longer text. -/
theorem leak_found :
    ∃ e, assert_judge_isolated
      [(py "trigger", .arr [.str (py "note: vote latency above the limit")])]
      (claiming (py "vote latency above the limit")) = .error e := by
  refine (leak_detected_iff (py "vote latency above the limit") (by decide)).2
    (survives_of_plain (by decide)) _ _ (.inl ⟨hypothesisOf _, List.mem_cons_self, .inl rfl⟩) ?_
  exact ⟨_, List.mem_cons_self, by decide, _, .item List.mem_cons_self .here,
    ⟨py "note: ", [], by decide⟩⟩

end Valops.Controller
