import Valops.Py.RoundTrip
import Valops.Py.Base64
import Valops.Common.Rpc
import Valops.Audit.Linked

/-!
# The chain file and `verify_chain`

A chain file has one entry a line, in canonical form. `verify_chain` walks an arbitrary file, stops
at the first line that is not JSON, and compares the hashes it computed with every anchor.

SHA-256 is the parameter `sha`; a trusted key is its verification function. Main results:
`walk_sound` (a walk without errors went through a linked chain), `walk_complete` (a linked chain is
walked without errors) and `anchorLoop_sound`, `anchorLoop_complete` for the anchors.
-/

set_option autoImplicit false

namespace Valops.Audit

open Py HashChain

/-- `"0" * 64`. -/
def GENESIS : PyStr := List.replicate 64 48

/-- `Verifier.verify`: signature, data. -/
abbrev Verify := Bytes → Bytes → Bool

section Entries

variable (sha : Bytes → PyStr)

/-- The hash of an entry, when it has a canonical form. -/
def hashOf (e : Json) : Option PyStr := (canonical e).map sha

/-- `entry_hash`. -/
def entry_hash (e : Json) : Except Exc PyStr := orRaise (hashOf sha e) (.other .valueError)

/-- The hash an entry names as its predecessor's. -/
def prevOf (e : Json) : Option PyStr :=
  match get e "prev" with
  | .ok (.str s) => some s
  | _ => none

/-- The entries of a chain, from one hash to another. -/
abbrev LinkedEntries : PyStr → List Json → PyStr → Prop := Linked (hashOf sha) prevOf

end Entries

/-- The values under these keys, `a[k]` for each. -/
def pick (a : Json) : List String → Except Exc Fields
  | [] => .ok []
  | k :: ks => do
    let v ← index a k
    let rest ← pick a ks
    pure ((py k, v) :: rest)

/-- `anchor_body`. -/
def anchor_body (a : Json) : Except Exc Bytes := do
  let kvs ← pick a ["chain_head", "seq", "ts_ms", "key_id"]
  orRaise (canonical (Json.mkObj kvs)) (.other .valueError)

/-! ## Lines -/

/-- The lines of a binary file, each with its newline. -/
def splitLines : Bytes → List Bytes
  | [] => []
  | b :: bs =>
    if b = 10 then [b] :: splitLines bs
    else
      match splitLines bs with
      | [] => [[b]]
      | l :: ls => (b :: l) :: ls

theorem splitLines_line {line : Bytes} (h : (10 : UInt8) ∉ line) (rest : Bytes) :
    splitLines (line ++ 10 :: rest) = (line ++ [10]) :: splitLines rest := by
  induction line with
  | nil => rfl
  | cons b line ih =>
    have hb : b ≠ 10 := fun h' => h (by rw [h']; exact List.mem_cons_self)
    have hline : (10 : UInt8) ∉ line := fun h' => h (List.mem_cons_of_mem _ h')
    rw [List.cons_append, splitLines, if_neg hb, ih hline]
    rfl

/-- One entry as a line of the file. -/
def entryLine (e : Json) : Option Bytes := (canonical e).map (· ++ [10])

/-- The file that holds these entries. -/
def chainFile : List Json → Option Bytes
  | [] => some []
  | e :: es =>
    match entryLine e, chainFile es with
    | some l, some f => some (l ++ f)
    | _, _ => none

theorem chainFile_snoc {e : Json} {l : Bytes} (hl : entryLine e = some l) :
    ∀ {es : List Json} {f : Bytes}, chainFile es = some f → chainFile (es ++ [e]) = some (f ++ l)
  | [], f, h => by
    cases h
    simp [chainFile, hl]
  | x :: es, f, h => by
    rw [chainFile] at h
    split at h
    · rename_i l' f' hl' hf'
      cases h
      have ih := chainFile_snoc hl hf'
      simp only [List.cons_append, chainFile, hl', ih, List.append_assoc]
    · cases h

/-- **A file of entries reads back as those entries.** -/
theorem splitLines_chainFile : ∀ {es : List Json} {f : Bytes}, (∀ e ∈ es, e.WF) →
    chainFile es = some f → (splitLines f).map loadsBytes = es.map some
  | [], f, _, h => by
    cases h
    rfl
  | e :: es, f, hwf, h => by
    obtain ⟨he, hes⟩ := List.forall_mem_cons.1 hwf
    rw [chainFile] at h
    split at h
    · rename_i l f' hl hf
      cases h
      obtain ⟨b, hb, rfl⟩ := Option.map_eq_some_iff.1 hl
      have ih := splitLines_chainFile hes hf
      have hload := loadsBytes_canonical he hb (Or.inr rfl)
      rw [List.append_assoc, List.singleton_append,
        splitLines_line (newline_not_mem_canonical hb), List.map_cons, ih, hload]
      rfl
    · cases h

/-- What follows the entries starts a line of its own. -/
theorem splitLines_chainFile_append (rest : Bytes) : ∀ {es : List Json} {f : Bytes},
    chainFile es = some f → splitLines (f ++ rest) = splitLines f ++ splitLines rest
  | [], f, h => by
    cases h
    rfl
  | e :: es, f, h => by
    rw [chainFile] at h
    split at h
    · rename_i l f' hl hf
      cases h
      obtain ⟨b, hb, rfl⟩ := Option.map_eq_some_iff.1 hl
      have hline := newline_not_mem_canonical hb
      have hcut : ∀ g : Bytes, b ++ [10] ++ g = b ++ 10 :: g := fun g => by simp
      rw [List.append_assoc, hcut, hcut, splitLines_line hline, splitLines_line hline,
        splitLines_chainFile_append rest hf, List.cons_append]
    · cases h

/-! ## `verify_chain` -/

/-- The state of the walk: the errors, the hash of each line so far, the last of them, their
number. -/
structure Walk where
  errors : List Msg
  hashes : List PyStr
  prev : PyStr
  seq : Nat

/-- Before the first line. -/
def Walk.init : Walk := ⟨[], [], GENESIS, 0⟩

/-- What `verify_chain` returns; `ok` is `not errors`. -/
structure Report where
  entries : Nat
  head : PyStr
  errors : List Msg
  newest_anchor_seq : Json

/-- `report["ok"]`. -/
def Report.ok (r : Report) : Bool := r.errors.isEmpty

section Verify

variable (sha : Bytes → PyStr)

/-- One parsed line. -/
def walkEntry (e : Json) (w : Walk) : Except Exc Walk := do
  let n := w.seq + 1
  let seq ← get e "seq"
  let seqErr : List Msg := if seq.eqInt n then [] else
    [[.text (py "line "), .str (.int n), .text (py ": seq "), .str seq, .text (py " != "), .str (.int n)]]
  let prev ← get e "prev"
  let prevErr : List Msg := if prev.eqStr w.prev then [] else
    [[.text (py "seq "), .str (.int n), .text (py ": prev link broken")]]
  let h ← entry_hash sha e
  pure ⟨w.errors ++ seqErr ++ prevErr, w.hashes ++ [h], h, n⟩

/-- The walk over the lines. A line that is not JSON ends it. -/
def walk : List Bytes → Walk → Except Exc Walk
  | [], w => .ok w
  | line :: rest, w =>
    match loadsBytes line with
    | none => .ok { w with errors := w.errors ++
        [[.text (py "line "), .str (.int (w.seq + 1 : Nat)), .text (py ": unparseable")]] }
    | some e => do
      let w ← walkEntry sha e w
      walk rest w

/-- `hashes.get(k)` for a number `k`. -/
def hashAt (hashes : List PyStr) (k : Json) : Option PyStr :=
  ((hashes.zipIdx 1).find? fun p => k.eqInt p.2).map Prod.fst

/-- `hashes.get(a["seq"]) == a["chain_head"]`. -/
def sameHead (hashes : List PyStr) (seq head : Json) : Bool :=
  match hashAt hashes seq with
  | some h => head.eqStr h
  | none => head.pyEq .null

/-- `b64u_dec` of a value. -/
def b64u_dec (v : Json) : Except Exc Bytes :=
  match v with
  | .str s => orRaise (b64uDec s) (.other .valueError)
  | _ => .error (.other .typeError)

/-- Whether the signature of an anchor does not verify. -/
def badSignature (keys : PyStr → Option Verify) (a : Json) : Except Exc Bool := do
  let kid ← getD a "key_id" (.str [])
  require kid.hashable (.other .typeError)
  match (match kid with | .str s => keys s | _ => none) with
  | none => pure true
  | some verify => do
    let sig ← index a "sig"
    let sig ← b64u_dec sig
    let body ← anchor_body a
    pure (!verify sig body)

/-- What the loop over the anchors carries: the errors and the newest anchor's `seq`. -/
abbrev AnchorState := List Msg × Json

/-- `f"anchor at seq {a['seq']}..."`. -/
def anchorMsg (seq : Json) (text : String) : Msg :=
  [.text (py "anchor at seq "), .str seq, .text (py text)]

/-- One anchor. -/
def anchorStep (keys : PyStr → Option Verify) (w : Walk) (a : Json) (st : AnchorState) :
    Except Exc AnchorState := do
  let bad ← badSignature keys a
  let seq ← index a "seq"
  if bad then pure (st.1 ++ [anchorMsg seq ": signature invalid"], st.2)
  else if seq.eqInt 0 then pure st
  else do
    let beyond ← orRaise (Json.pyLt (.int w.seq) seq) (.other .typeError)
    if beyond then
      pure (st.1 ++ [anchorMsg seq " beyond local chain end " ++
        [.str (.int w.seq), .text (py " (truncation)")]], seq)
    else do
      let head ← index a "chain_head"
      if sameHead w.hashes seq head then pure (st.1, seq)
      else
        pure (st.1 ++ [anchorMsg seq ": local chain differs from anchored head (rewrite)"], seq)

/-- The loop over the sorted anchors. -/
def anchorLoop (keys : PyStr → Option Verify) (w : Walk) :
    List Json → AnchorState → Except Exc AnchorState
  | [], st => .ok st
  | a :: as, st => do
    let st ← anchorStep keys w a st
    anchorLoop keys w as st

/-- Each anchor with its sort key `a["seq"]`. -/
def keyed : List Json → Except Exc (List (Json × Json))
  | [] => .ok []
  | a :: as => do
    let k ← index a "seq"
    let rest ← keyed as
    pure ((a, k) :: rest)

/-- `sorted(anchors, key=lambda a: a["seq"])`. -/
def sortAnchors (anchors : List Json) : Except Exc (List Json) := do
  let ks ← keyed anchors
  let ks ← orRaise (sorted (fun a b => Json.pyLt a.2 b.2) ks) (.other .typeError)
  pure (ks.map Prod.fst)

/-- `verify_chain`; `file` is `none` when the path does not exist. -/
def verify_chain (file : Option Bytes) (anchors : List Json) (keys : PyStr → Option Verify) :
    Except Exc Report := do
  let w ← walk sha (splitLines (file.getD [])) .init
  let as ← sortAnchors anchors
  let st ← anchorLoop keys w as (w.errors, .null)
  pure ⟨w.seq, w.prev, st.1, st.2⟩

end Verify

/-! ## The walk -/

section WalkResults

variable {sha : Bytes → PyStr}

/-- An entry that is in its place: its number, its predecessor's hash, its own hash. -/
theorem walkEntry_eq_ok {e : Json} {w w' : Walk} (h : walkEntry sha e w = .ok w')
    (herr : w'.errors = []) :
    w.errors = [] ∧ (∃ v, get e "seq" = .ok v ∧ v.eqInt (w.seq + 1 : Nat) = true) ∧
      prevOf e = some w.prev ∧ hashOf sha e = some w'.prev ∧
      w'.hashes = w.hashes ++ [w'.prev] ∧ w'.seq = w.seq + 1 := by
  unfold walkEntry at h
  obtain ⟨seq, hseq, h⟩ := bind_eq_ok.1 h
  obtain ⟨prev, hprev, h⟩ := bind_eq_ok.1 h
  obtain ⟨hash, hhash, h⟩ := bind_eq_ok.1 h
  cases pure_eq_ok.1 h
  obtain ⟨hleft, hprevErr⟩ := List.append_eq_nil_iff.1 herr
  obtain ⟨hold, hseqErr⟩ := List.append_eq_nil_iff.1 hleft
  refine ⟨hold, ⟨seq, hseq, ?_⟩, ?_, orRaise_eq_ok.1 hhash, rfl, rfl⟩
  · by_contra hne
    rw [if_neg hne] at hseqErr
    cases hseqErr
  · have heq : prev.eqStr w.prev = true := by
      by_contra hne
      rw [if_neg hne] at hprevErr
      cases hprevErr
    rw [prevOf, hprev, Json.eqStr_iff.1 heq]

/-- **A walk that ends without errors went through a linked chain.** -/
theorem walk_sound : ∀ {lines : List Bytes} {w w' : Walk}, walk sha lines w = .ok w' →
    w'.errors = [] → w.errors = [] ∧
      ∃ es : List Json, lines.map loadsBytes = es.map some ∧
        LinkedEntries sha w.prev es w'.prev ∧ w'.seq = w.seq + es.length ∧
        ∃ hs : List PyStr, w'.hashes = w.hashes ++ hs ∧ es.map (hashOf sha) = hs.map some
  | [], w, w', h, herr => by
    cases h
    exact ⟨herr, [], rfl, .nil _, rfl, [], (List.append_nil _).symm, rfl⟩
  | line :: rest, w, w', h, herr => by
    rw [walk] at h
    split at h
    · cases h
      exact absurd (List.append_eq_nil_iff.1 herr).2 (List.cons_ne_nil _ _)
    · rename_i e he
      obtain ⟨w1, hw1, h⟩ := bind_eq_ok.1 h
      obtain ⟨herr1, es, hes, hlinked, hseq, hs, hhs, hhash⟩ := walk_sound h herr
      obtain ⟨herr0, _, hprev, hhash1, hhs1, hseq1⟩ := walkEntry_eq_ok hw1 herr1
      refine ⟨herr0, e :: es, ?_, .cons hprev hhash1 hlinked, ?_, w1.prev :: hs, ?_, ?_⟩
      · rw [List.map_cons, List.map_cons, he, hes]
      · rw [hseq, hseq1, List.length_cons]
        omega
      · rw [hhs, hhs1, List.append_assoc]
        rfl
      · rw [List.map_cons, List.map_cons, hhash1, hhash]

/-- What the walk demands of the `i`-th entry besides its links. -/
def Numbered : Nat → List Json → Prop
  | _, [] => True
  | n, e :: es => get e "seq" = .ok (.int (n + 1 : Nat)) ∧ Numbered (n + 1) es

theorem numbered_snoc {e : Json} : ∀ {es : List Json} {n : Nat}, Numbered n es →
    get e "seq" = .ok (.int (n + es.length + 1 : Nat)) → Numbered n (es ++ [e])
  | [], _, _, he => ⟨he, trivial⟩
  | x :: es, n, h, he => by
    refine ⟨h.1, numbered_snoc h.2 ?_⟩
    rw [he, List.length_cons]
    congr 3
    omega

theorem walkEntry_complete {e : Json} {w : Walk} {h : PyStr} (herr : w.errors = [])
    (hseq : get e "seq" = .ok (.int (w.seq + 1 : Nat))) (hprev : prevOf e = some w.prev)
    (hhash : hashOf sha e = some h) :
    walkEntry sha e w = .ok ⟨[], w.hashes ++ [h], h, w.seq + 1⟩ := by
  have hp : get e "prev" = .ok (.str w.prev) := by
    unfold prevOf at hprev
    split at hprev
    · rename_i s hs
      cases hprev
      exact hs
    · cases hprev
  unfold walkEntry
  simp only [hseq, hp, entry_hash, hhash, orRaise, herr, bind, Except.bind, Json.eqInt, Json.eqStr,
    decide_true, if_true, List.append_nil, pure, Except.pure]

/-- **A linked and numbered chain is walked without errors.** -/
theorem walk_complete : ∀ {lines : List Bytes} {es : List Json} {w : Walk} {k : PyStr},
    lines.map loadsBytes = es.map some → w.errors = [] → Numbered w.seq es →
    LinkedEntries sha w.prev es k →
    ∃ hs : List PyStr, walk sha lines w = .ok ⟨[], w.hashes ++ hs, k, w.seq + es.length⟩ ∧
      es.map (hashOf sha) = hs.map some
  | [], [], w, k, _, herr, _, hl => by
    cases hl
    refine ⟨[], ?_, rfl⟩
    rw [walk, List.append_nil]
    obtain ⟨_, _, _, _⟩ := w
    cases herr
    rfl
  | [], _ :: _, _, _, h, _, _, _ => by cases h
  | _ :: _, [], _, _, h, _, _, _ => by cases h
  | line :: lines, e :: es, w, k, h, herr, hnum, hl => by
    simp only [List.map_cons, List.cons.injEq] at h
    cases hl with
    | @cons _ h1 _ _ _ hprev hhash hrest =>
      have hstep := walkEntry_complete herr hnum.1 hprev hhash
      obtain ⟨hs, hwalk, hmap⟩ := walk_complete (w := ⟨[], w.hashes ++ [h1], h1, w.seq + 1⟩)
        h.2 rfl hnum.2 hrest
      refine ⟨h1 :: hs, ?_, ?_⟩
      · rw [walk, h.1]
        simp only [hstep, bind, Except.bind, hwalk, List.append_assoc, List.singleton_append,
          List.length_cons]
        congr 2
        omega
      · rw [List.map_cons, List.map_cons, hhash, hmap]

end WalkResults

/-! ## The anchors -/

section AnchorResults

variable {keys : PyStr → Option Verify} {w : Walk}

theorem hashAt_int {hashes : List PyStr} {n : Nat} (hn : 0 < n) :
    hashAt hashes (.int n) = hashes[n - 1]? := by
  have key : ∀ (l : List PyStr) (i : Nat), i ≤ n →
      ((l.zipIdx i).find? fun p => (Json.int n).eqInt p.2).map Prod.fst = l[n - i]? := by
    intro l
    induction l with
    | nil => intro i _; rfl
    | cons x l ih =>
      intro i hi
      rw [List.zipIdx_cons, List.find?_cons]
      by_cases hin : i = n
      · subst hin
        simp [Json.eqInt]
      · have hne : (Json.int n).eqInt (i : Nat) = false := by
          simp only [Json.eqInt, decide_eq_false_iff_not, Nat.cast_inj]
          exact fun h => hin h.symm
        have hsub : n - i = (n - (i + 1)) + 1 := by omega
        rw [hne, hsub, List.getElem?_cons_succ]
        exact ih (i + 1) (by omega)
  exact key hashes 1 hn

/-- The errors of a step extend the errors before. -/
theorem anchorStep_errors {a : Json} {st st' : AnchorState}
    (h : anchorStep keys w a st = .ok st') : ∃ new, st'.1 = st.1 ++ new := by
  unfold anchorStep at h
  obtain ⟨bad, _, h⟩ := bind_eq_ok.1 h
  obtain ⟨seq, _, h⟩ := bind_eq_ok.1 h
  split at h
  · cases h
    exact ⟨_, rfl⟩
  split at h
  · cases h
    exact ⟨[], (List.append_nil _).symm⟩
  obtain ⟨beyond, _, h⟩ := bind_eq_ok.1 h
  split at h
  · cases h
    exact ⟨_, rfl⟩
  obtain ⟨head, _, h⟩ := bind_eq_ok.1 h
  split at h
  · cases h
    exact ⟨[], (List.append_nil _).symm⟩
  · cases h
    exact ⟨_, rfl⟩

/-- An anchor at entry `n` that causes no error is the hash of line `n`. -/
theorem anchorStep_sound {a : Json} {st st' : AnchorState} {n : Nat} {h : PyStr} (hn : 0 < n)
    (hseq : index a "seq" = .ok (.int n)) (hhead : index a "chain_head" = .ok (.str h))
    (hstep : anchorStep keys w a st = .ok st') (herr : st'.1 = []) :
    n ≤ w.seq ∧ w.hashes[n - 1]? = some h := by
  unfold anchorStep at hstep
  obtain ⟨bad, _, hstep⟩ := bind_eq_ok.1 hstep
  rw [hseq] at hstep
  obtain ⟨seq, hs, hstep⟩ := bind_eq_ok.1 hstep
  cases hs
  have h0 : (Json.int n).eqInt 0 = false := by
    simp only [Json.eqInt, decide_eq_false_iff_not]
    omega
  rw [h0, hhead] at hstep
  split at hstep
  · cases hstep
    exact absurd (List.append_eq_nil_iff.1 herr).2 (List.cons_ne_nil _ _)
  rw [if_neg Bool.false_ne_true] at hstep
  obtain ⟨beyond, hb, hstep⟩ := bind_eq_ok.1 hstep
  rw [Json.pyLt_int, orRaise_eq_ok, Option.some.injEq] at hb
  split at hstep
  · cases hstep
    exact absurd (List.append_eq_nil_iff.1 herr).2 (List.cons_ne_nil _ _)
  rename_i hnb
  obtain ⟨head, hh, hstep⟩ := bind_eq_ok.1 hstep
  cases hh
  have hle : n ≤ w.seq := by
    rw [← hb] at hnb
    simp only [decide_eq_true_eq, Nat.cast_lt] at hnb
    omega
  have hsame : sameHead w.hashes (.int n) (.str h) = true := by
    by_contra hne
    rw [if_neg hne] at hstep
    cases hstep
    exact absurd (List.append_eq_nil_iff.1 herr).2 (List.cons_ne_nil _ _)
  refine ⟨hle, ?_⟩
  rw [sameHead, hashAt_int hn] at hsame
  cases hx : w.hashes[n - 1]? with
  | none =>
    rw [hx] at hsame
    cases hsame
  | some x =>
    rw [hx] at hsame
    cases Json.eqStr_iff.1 hsame
    rfl

/-- If the loop ends without errors, so did the step for each anchor. -/
theorem anchorLoop_sound {a : Json} : ∀ {as : List Json} {st st' : AnchorState},
    anchorLoop keys w as st = .ok st' → st'.1 = [] → st.1 = [] ∧
      (a ∈ as → ∃ s s', anchorStep keys w a s = .ok s' ∧ s'.1 = [])
  | [], st, st', h, herr => by
    cases h
    exact ⟨herr, fun hm => absurd hm List.not_mem_nil⟩
  | b :: as, st, st', h, herr => by
    rw [anchorLoop] at h
    obtain ⟨st1, h1, h⟩ := bind_eq_ok.1 h
    obtain ⟨herr1, hmem⟩ := anchorLoop_sound (a := a) h herr
    obtain ⟨new, hnew⟩ := anchorStep_errors h1
    have hold : st.1 = [] := by
      rw [hnew] at herr1
      exact (List.append_eq_nil_iff.1 herr1).1
    refine ⟨hold, fun hm => ?_⟩
    rcases List.mem_cons.1 hm with rfl | hm
    · exact ⟨st, st1, h1, herr1⟩
    · exact hmem hm

theorem keyed_fst : ∀ {as : List Json} {ks : List (Json × Json)}, keyed as = .ok ks →
    ks.map Prod.fst = as
  | [], ks, h => by
    cases h
    rfl
  | a :: as, ks, h => by
    rw [keyed] at h
    obtain ⟨k, _, h⟩ := bind_eq_ok.1 h
    obtain ⟨rest, hrest, h⟩ := bind_eq_ok.1 h
    cases pure_eq_ok.1 h
    rw [List.map_cons, keyed_fst hrest]

/-- Sorting keeps every anchor. -/
theorem sortAnchors_perm {as bs : List Json} (h : sortAnchors as = .ok bs) : bs.Perm as := by
  unfold sortAnchors at h
  obtain ⟨ks, hks, h⟩ := bind_eq_ok.1 h
  obtain ⟨ks', hks', h⟩ := bind_eq_ok.1 h
  cases pure_eq_ok.1 h
  have hp := (sorted_perm (orRaise_eq_ok.1 hks')).map Prod.fst
  rwa [keyed_fst hks] at hp

theorem keyed_int : ∀ {as : List Json}, (∀ a ∈ as, ∃ n : Int, index a "seq" = .ok (.int n)) →
    ∃ ks, keyed as = .ok ks ∧ ∀ k ∈ ks, ∃ n : Int, k.2 = .int n
  | [], _ => ⟨[], rfl, fun k hk => absurd hk List.not_mem_nil⟩
  | a :: as, h => by
    obtain ⟨⟨n, hn⟩, has⟩ := List.forall_mem_cons.1 h
    obtain ⟨ks, hks, hint⟩ := keyed_int has
    refine ⟨(a, .int n) :: ks, ?_, List.forall_mem_cons.2 ⟨⟨n, rfl⟩, hint⟩⟩
    rw [keyed, hn, hks]
    rfl

theorem sortAnchors_isOk {as : List Json}
    (h : ∀ a ∈ as, ∃ n : Int, index a "seq" = .ok (.int n)) : ∃ bs, sortAnchors as = .ok bs := by
  obtain ⟨ks, hks, hint⟩ := keyed_int h
  have hcmp : ∀ x ∈ ks, ∀ y ∈ ks, (Json.pyLt x.2 y.2).isSome = true := by
    intro x hx y hy
    obtain ⟨n, hn⟩ := hint x hx
    obtain ⟨m, hm⟩ := hint y hy
    rw [hn, hm, Json.pyLt_int]
    rfl
  obtain ⟨zs, hzs⟩ := Option.isSome_iff_exists.1
    (sorted_isSome (fun a b : Json × Json => Json.pyLt a.2 b.2) hcmp)
  refine ⟨zs.map Prod.fst, ?_⟩
  rw [sortAnchors, hks]
  simp only [bind, Except.bind, hzs, orRaise, pure, Except.pure]

/-- An anchor that verifies and names the hash of its line causes no error. -/
theorem anchorStep_complete {a : Json} {n : Nat} {h : PyStr} {v : Json}
    (hsig : badSignature keys a = .ok false) (hseq : index a "seq" = .ok (.int n))
    (hhead : index a "chain_head" = .ok (.str h)) (hle : n ≤ w.seq)
    (hhash : 0 < n → w.hashes[n - 1]? = some h) :
    ∃ v', anchorStep keys w a ([], v) = .ok ([], v') := by
  rw [anchorStep, hsig, ok_bind, hseq, ok_bind, if_neg Bool.false_ne_true]
  by_cases h0 : n = 0
  · have heq : (Json.int n).eqInt 0 = true := by
      rw [h0]
      rfl
    rw [if_pos heq]
    exact ⟨v, rfl⟩
  · have hpos : 0 < n := Nat.pos_of_ne_zero h0
    have hne : ¬ (Json.int n).eqInt 0 = true := by
      simp only [Json.eqInt, decide_eq_true_eq]
      omega
    have hlt : decide ((w.seq : Int) < (n : Int)) = false := by
      rw [decide_eq_false_iff_not]
      omega
    have hsame : sameHead w.hashes (.int n) (.str h) = true := by
      rw [sameHead, hashAt_int hpos, hhash hpos]
      exact decide_eq_true rfl
    have hcmp : orRaise (Json.pyLt (.int w.seq) (.int n)) (.other .typeError) = .ok false := by
      rw [orRaise_eq_ok, Json.pyLt_int, hlt]
    rw [if_neg hne, hcmp, ok_bind, if_neg Bool.false_ne_true, hhead, ok_bind, if_pos hsame]
    exact ⟨.int n, rfl⟩

theorem anchorLoop_complete : ∀ {as : List Json} {v : Json},
    (∀ a ∈ as, ∀ v, ∃ v', anchorStep keys w a ([], v) = .ok ([], v')) →
    ∃ v', anchorLoop keys w as ([], v) = .ok ([], v')
  | [], v, _ => ⟨v, rfl⟩
  | a :: as, v, h => by
    obtain ⟨ha, has⟩ := List.forall_mem_cons.1 h
    obtain ⟨v1, h1⟩ := ha v
    obtain ⟨v2, h2⟩ := anchorLoop_complete (v := v1) has
    refine ⟨v2, ?_⟩
    rw [anchorLoop, h1]
    exact h2

end AnchorResults

end Valops.Audit
