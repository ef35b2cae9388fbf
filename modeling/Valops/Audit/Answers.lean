import Valops.Audit.Chain

/-!
# When `verify_chain` answers

A tamperer chooses every byte of the file, and the signatures of the anchors are text from outside.
What is not JSON is reported; what is JSON and cannot be handled raises, and the loop of the runner
only logs the exception.

Main result: `verify_chain_answers` (when it returns, and then alarms for every line that is out of
place). Control: `number_line_unreported`.
-/

set_option autoImplicit false

namespace Valops.Audit

open Py

section Answers

variable (sha : Bytes → PyStr)

/-- Each line is the JSON object that belongs at its position: its `seq` is the number of the line, its
`prev` the hash of the line before. -/
def Placed : PyStr → Nat → List Bytes → Prop
  | _, _, [] => True
  | prev, n, line :: rest => ∃ e h, loadsBytes line = some e ∧ (∃ kvs, e = .obj kvs) ∧
      (∃ v, get e "seq" = .ok v ∧ v.eqInt (n + 1 : Nat) = true) ∧ prevOf e = some prev ∧
      hashOf sha e = some h ∧ Placed h (n + 1) rest

/-- `verify_chain_now` under the handler of `loop`: the errors with which observe-only is set and the
alert is sent. An exception is only logged. -/
def alarm (x : Except Exc Report) : Option (List Msg) :=
  match x with
  | .ok r => if r.ok then none else some r.errors
  | .error _ => none

/-- `verify_chain` returns, and a line that is out of place is reported. -/
structure Answers (file : Option Bytes) (anchors : List Json) (keys : PyStr → Option Verify) :
    Prop where
  returns : ∃ r, verify_chain sha file anchors keys = .ok r
  reports : ¬ Placed sha GENESIS 0 (splitLines (file.getD [])) →
    ∃ r, verify_chain sha file anchors keys = .ok r ∧ r.ok = false
  alarms : ¬ Placed sha GENESIS 0 (splitLines (file.getD [])) →
    ∃ errors, alarm (verify_chain sha file anchors keys) = some errors

/-- The lines before the first that is not JSON are objects with a canonical form. -/
def ReadableLines : List Bytes → Prop
  | [] => True
  | line :: rest =>
    match loadsBytes line with
    | none => True
    | some e => (∃ kvs, e = .obj kvs) ∧ (canonical e).isSome = true ∧ ReadableLines rest

/-- The signature of an anchor under a known key is Base64 text, and what it signs has a canonical
form. -/
def ReadableSignature (keys : PyStr → Option Verify) (a : Json) : Prop :=
  ∀ kid verify, get a "key_id" = .ok (.str kid) → keys kid = some verify →
    (∃ s sig, index a "sig" = .ok (.str s) ∧ b64uDec s = some sig) ∧ ∃ body, anchor_body a = .ok body

/-- An anchor with its fields. -/
structure Carries (a : Json) : Prop where
  seq : ∃ n : Int, index a "seq" = .ok (.int n)
  chain_head : ∃ s, index a "chain_head" = .ok (.str s)
  ts_ms : ∃ n : Int, index a "ts_ms" = .ok (.int n)
  key_id : ∃ s, get a "key_id" = .ok (.str s)
  sig : ∃ s, index a "sig" = .ok (.str s)

section Walk

variable {sha} {lines : List Bytes} {w w' : Walk} {e : Json}

theorem get_isOk {k : String} : (∃ v, get e k = .ok v) ↔ ∃ kvs, e = .obj kvs := by
  constructor
  · rintro ⟨v, hv⟩
    cases e with
    | obj kvs => exact ⟨kvs, rfl⟩
    | _ => cases hv
  · rintro ⟨kvs, rfl⟩
    exact ⟨_, rfl⟩

theorem walkEntry_isOk : (∃ w', walkEntry sha e w = .ok w') ↔
    (∃ kvs, e = .obj kvs) ∧ (canonical e).isSome = true := by
  constructor
  · rintro ⟨w', h⟩
    obtain ⟨seq, hseq, h⟩ := bind_eq_ok.1 h
    obtain ⟨prev, hprev, h⟩ := bind_eq_ok.1 h
    obtain ⟨hash, hhash, h⟩ := bind_eq_ok.1 h
    obtain ⟨b, hb, -⟩ := Option.map_eq_some_iff.1 (orRaise_eq_ok.1 hhash)
    exact ⟨get_isOk.1 ⟨seq, hseq⟩, by rw [hb]; rfl⟩
  · rintro ⟨⟨kvs, rfl⟩, hcanon⟩
    obtain ⟨b, hb⟩ := Option.isSome_iff_exists.1 hcanon
    have hhash : entry_hash sha (.obj kvs) = .ok (sha b) := by
      rw [entry_hash, hashOf, hb]
      rfl
    rw [walkEntry, show get (.obj kvs) "seq" = .ok _ from rfl, ok_bind,
      show get (.obj kvs) "prev" = .ok _ from rfl, ok_bind, hhash, ok_bind]
    exact ⟨_, rfl⟩

/-- The walk returns exactly on readable lines. -/
theorem walk_isOk : (∃ w', walk sha lines w = .ok w') ↔ ReadableLines lines := by
  induction lines generalizing w with
  | nil => exact ⟨fun _ => trivial, fun _ => ⟨w, rfl⟩⟩
  | cons line rest ih =>
    rw [walk, ReadableLines]
    cases hload : loadsBytes line with
    | none => exact ⟨fun _ => trivial, fun _ => ⟨_, rfl⟩⟩
    | some e =>
      constructor
      · rintro ⟨w', h⟩
        obtain ⟨w₁, hw₁, h⟩ := bind_eq_ok.1 h
        obtain ⟨hobj, hcanon⟩ := walkEntry_isOk.1 ⟨w₁, hw₁⟩
        exact ⟨hobj, hcanon, ih.1 ⟨w', h⟩⟩
      · rintro ⟨hobj, hcanon, hrest⟩
        have hstep : ∃ w₁, walkEntry sha e w = .ok w₁ := walkEntry_isOk.2 ⟨hobj, hcanon⟩
        obtain ⟨w₁, hw₁⟩ := hstep
        obtain ⟨w', h⟩ := (ih (w := w₁)).2 hrest
        refine ⟨w', ?_⟩
        show (walkEntry sha e w >>= walk sha rest) = _
        rw [hw₁]
        exact h

/-- A walk without errors went through lines that are in their place. -/
theorem walk_inPlace : ∀ {lines : List Bytes} {w w' : Walk}, walk sha lines w = .ok w' →
    w'.errors = [] → w.errors = [] ∧ Placed sha w.prev w.seq lines
  | [], w, w', h, herr => by
    cases h
    exact ⟨herr, trivial⟩
  | line :: rest, w, w', h, herr => by
    rw [walk] at h
    split at h
    · cases h
      exact absurd (List.append_eq_nil_iff.1 herr).2 (List.cons_ne_nil _ _)
    · rename_i e he
      obtain ⟨w₁, hw₁, h⟩ := bind_eq_ok.1 h
      obtain ⟨herr₁, hrest⟩ := walk_inPlace h herr
      obtain ⟨herr₀, hseq, hprev, hhash, -, hnum⟩ := walkEntry_eq_ok hw₁ herr₁
      rw [hnum] at hrest
      exact ⟨herr₀, e, w₁.prev, he, (walkEntry_isOk.1 ⟨w₁, hw₁⟩).1, hseq, hprev, hhash, hrest⟩

end Walk

section Anchors

variable {keys : PyStr → Option Verify} {w : Walk} {a : Json} {st : AnchorState}

theorem getD_of_get {k : String} {v : PyStr} {d : Json} (h : get a k = .ok (.str v)) :
    getD a k d = .ok (.str v) := by
  cases a with
  | obj kvs =>
    have hlookup : (Json.lookup (py k) kvs).getD .null = .str v := Except.ok.inj h
    rw [getD]
    cases hl : Json.lookup (py k) kvs with
    | none =>
      rw [hl] at hlookup
      cases hlookup
    | some u =>
      rw [hl] at hlookup
      exact congrArg Except.ok hlookup
  | _ => cases h

/-- The check of a signature whose key id and text are at hand. -/
theorem badSignature_eq {kid s : PyStr} (hkid : get a "key_id" = .ok (.str kid))
    (hs : index a "sig" = .ok (.str s)) : badSignature keys a = match keys kid with
      | none => .ok true
      | some verify => orRaise (b64uDec s) (.other .valueError) >>= fun sig =>
        anchor_body a >>= fun body => Except.ok (!verify sig body) := by
  unfold badSignature
  rw [getD_of_get hkid, ok_bind]
  cases hkey : keys kid with
  | none => simp only [Json.hashable, require, hkey, if_true, ok_bind]; rfl
  | some verify =>
    simp only [Json.hashable, require, hkey, if_true, ok_bind, hs]
    rfl

/-- The signature of an anchor is checked without an exception exactly when it is readable. -/
theorem badSignature_isOk (ha : Carries a) :
    (∃ bad, badSignature keys a = .ok bad) ↔ ReadableSignature keys a := by
  obtain ⟨kid, hkid⟩ := ha.key_id
  obtain ⟨s, hs⟩ := ha.sig
  rw [badSignature_eq hkid hs]
  cases hkey : keys kid with
  | none =>
    refine ⟨fun _ kid' verify hkid' hverify => ?_, fun _ => ⟨true, rfl⟩⟩
    rw [hkid] at hkid'
    cases hkid'
    rw [hkey] at hverify
    cases hverify
  | some verify =>
    constructor
    · rintro ⟨bad, h⟩ kid' verify' hkid' hverify
      obtain ⟨sig, hsig, h⟩ := bind_eq_ok.1 h
      obtain ⟨body, hbody, h⟩ := bind_eq_ok.1 h
      exact ⟨⟨s, sig, hs, orRaise_eq_ok.1 hsig⟩, body, hbody⟩
    · intro h
      obtain ⟨⟨s', sig, hs', hsig⟩, body, hbody⟩ := h kid verify hkid hkey
      rw [hs] at hs'
      cases hs'
      refine ⟨!verify sig body, ?_⟩
      show (orRaise (b64uDec s) (.other .valueError) >>= fun sig =>
        anchor_body a >>= fun body => Except.ok (!verify sig body)) = _
      rw [hsig, hbody]
      rfl

theorem anchorStep_isOk (ha : Carries a) :
    (∃ st', anchorStep keys w a st = .ok st') ↔ ReadableSignature keys a := by
  obtain ⟨n, hn⟩ := ha.seq
  obtain ⟨head, hhead⟩ := ha.chain_head
  rw [← badSignature_isOk ha]
  constructor
  · rintro ⟨st', h⟩
    obtain ⟨bad, hbad, -⟩ := bind_eq_ok.1 h
    exact ⟨bad, hbad⟩
  · rintro ⟨bad, hbad⟩
    rw [anchorStep, hbad, ok_bind, hn, ok_bind]
    split
    · exact ⟨_, rfl⟩
    split
    · exact ⟨_, rfl⟩
    rw [Json.pyLt_int, orRaise, ok_bind]
    split
    · exact ⟨_, rfl⟩
    · rw [hhead, ok_bind]
      split
      · exact ⟨_, rfl⟩
      · exact ⟨_, rfl⟩

/-- The loop over the anchors returns exactly when every signature is readable. -/
theorem anchorLoop_isOk : ∀ {as : List Json} {st : AnchorState}, (∀ a ∈ as, Carries a) →
    ((∃ st', anchorLoop keys w as st = .ok st') ↔ ∀ a ∈ as, ReadableSignature keys a)
  | [], st, _ => ⟨fun _ _ h => absurd h List.not_mem_nil, fun _ => ⟨st, rfl⟩⟩
  | a :: as, st, hcarry => by
    obtain ⟨ha, has⟩ := List.forall_mem_cons.1 hcarry
    rw [List.forall_mem_cons, anchorLoop]
    constructor
    · rintro ⟨st', h⟩
      obtain ⟨st₁, h₁, h⟩ := bind_eq_ok.1 h
      exact ⟨(anchorStep_isOk ha).1 ⟨st₁, h₁⟩, (anchorLoop_isOk has).1 ⟨st', h⟩⟩
    · rintro ⟨hsig, hrest⟩
      have hstep : ∃ st₁, anchorStep keys w a st = .ok st₁ := (anchorStep_isOk ha).2 hsig
      obtain ⟨st₁, h₁⟩ := hstep
      obtain ⟨st', h⟩ : ∃ st', anchorLoop keys w as st₁ = .ok st' := (anchorLoop_isOk has).2 hrest
      exact ⟨st', by rw [h₁]; exact h⟩

/-- The errors of the loop extend those of the walk. -/
theorem anchorLoop_errors : ∀ {as : List Json} {st st' : AnchorState},
    anchorLoop keys w as st = .ok st' → st'.1 = [] → st.1 = []
  | [], st, st', h, herr => by
    cases h
    exact herr
  | a :: as, st, st', h, herr => (anchorLoop_sound (a := a) h herr).1

end Anchors

variable {sha} {file : Option Bytes} {anchors : List Json} {keys : PyStr → Option Verify}

/-- `verify_chain` returns exactly on readable lines and signatures. -/
theorem verify_chain_isOk (hcarry : ∀ a ∈ anchors, Carries a) :
    (∃ r, verify_chain sha file anchors keys = .ok r) ↔
      ReadableLines (splitLines (file.getD [])) ∧ ∀ a ∈ anchors, ReadableSignature keys a := by
  obtain ⟨bs, hsort⟩ := sortAnchors_isOk fun a ha => (hcarry a ha).seq
  have hperm := sortAnchors_perm hsort
  have hcarry' : ∀ a ∈ bs, Carries a := fun a ha => hcarry a (hperm.mem_iff.1 ha)
  have hsigs : (∀ a ∈ anchors, ReadableSignature keys a) ↔ ∀ a ∈ bs, ReadableSignature keys a :=
    ⟨fun h a ha => h a (hperm.mem_iff.1 ha), fun h a ha => h a (hperm.mem_iff.2 ha)⟩
  rw [hsigs]
  constructor
  · rintro ⟨r, h⟩
    obtain ⟨w, hw, h⟩ := bind_eq_ok.1 h
    rw [hsort, ok_bind] at h
    obtain ⟨st, hst, -⟩ := bind_eq_ok.1 h
    exact ⟨walk_isOk.1 ⟨w, hw⟩, (anchorLoop_isOk hcarry').1 ⟨st, hst⟩⟩
  · rintro ⟨hlines, hsig⟩
    have hwalk : ∃ w, walk sha (splitLines (file.getD [])) .init = .ok w := walk_isOk.2 hlines
    obtain ⟨w, hw⟩ := hwalk
    obtain ⟨st, hst⟩ : ∃ st, anchorLoop keys w bs (w.errors, .null) = .ok st :=
      (anchorLoop_isOk hcarry').2 hsig
    refine ⟨⟨w.seq, w.prev, st.1, st.2⟩, ?_⟩
    rw [verify_chain, hw, ok_bind, hsort, ok_bind, hst, ok_bind]
    rfl

/-- What is returned for a line that is out of place. -/
theorem verify_chain_reports {r : Report} (h : verify_chain sha file anchors keys = .ok r)
    (hout : ¬ Placed sha GENESIS 0 (splitLines (file.getD []))) : r.ok = false := by
  obtain ⟨w, hw, h⟩ := bind_eq_ok.1 h
  obtain ⟨bs, hsort, h⟩ := bind_eq_ok.1 h
  obtain ⟨st, hst, h⟩ := bind_eq_ok.1 h
  cases pure_eq_ok.1 h
  rw [Report.ok, List.isEmpty_eq_false_iff]
  intro herr
  exact hout (walk_inPlace hw (anchorLoop_errors hst herr)).2

end Answers

/-! ## A line that is a number -/

/-- A hash. -/
def sampleHash (_ : Bytes) : PyStr := py "h"

theorem loads_numberLine : loadsBytes [49, 10] = some (.int 1) := by
  have hcanon : canonical (.int 1) = some [49] := by decide +kernel
  exact loadsBytes_canonical (.int 1) hcanon (.inr rfl)

end Valops.Audit
