import Valops.Bundle.Manifest
import Valops.Py.Framing

/-!
# Evaluation ledgers

A record is written as one line of canonical JSON that carries the hash of the line before it. The
reader splits the file with `str.splitlines`, which also ends a line at U+0085, U+2028 and U+2029, and
these the canonical form does not escape. A record that contains one of them is cut into pieces, of
which the first is not JSON.

Main result: `verifies_iff`, when a ledger verifies and a replaced line is noticed.
-/

set_option autoImplicit false

namespace Valops.EvalLedger

open Py

/-! ## The functions -/

/-- `"0" * 64`. -/
def zeros : PyStr := List.replicate 64 48

section Functions

variable (sha256_hex : Bytes → PyStr)

/-- The hash of the last line; a file that is not there has none. -/
def lastHash : Option Bytes → Except Exc PyStr
  | none => .ok zeros
  | some file => do
    let text ← orRaise (decodeText file) (.other .valueError)
    match (splitlines text).getLast? with
    | none => .ok zeros
    | some line => do
      let bytes ← orRaise (encodeUtf8 line) (.other .valueError)
      pure (sha256_hex bytes)

/-- `{**record, "ts": ts, "prev": prev}`. -/
def entry (record : Fields) (ts : Double) (prev : PyStr) : Json :=
  Json.mkObj (record ++ [(py "ts", .float ts), (py "prev", .str prev)])

/-- `append`: the file afterwards and the entry. -/
def append (file : Option Bytes) (record : Fields) (ts : Double) : Except Exc (Bytes × Json) := do
  let prev ← lastHash sha256_hex file
  let bytes ← orRaise (canonical (entry record ts prev)) (.other .valueError)
  pure (file.getD [] ++ bytes ++ [10], entry record ts prev)

/-- The loop of `verify`. -/
def verifyLoop : PyStr → List PyStr → Except Exc Bool
  | _, [] => .ok true
  | prev, line :: rest => do
    let v ← orRaise (loads line) (.other .valueError)
    let p ← index v "prev"
    if p ≠ .str prev then pure false
    else do
      let bytes ← orRaise (encodeUtf8 line) (.other .valueError)
      verifyLoop (sha256_hex bytes) rest

/-- `verify`. -/
def verify (file : Option Bytes) : Except Exc Bool := do
  let bytes ← orRaise file (.other .osError)
  let text ← orRaise (decodeText bytes) (.other .valueError)
  verifyLoop sha256_hex zeros (splitlines text)

/-! ## Runs -/

/-- Records appended one after another to a fresh file, which is empty or not there yet. -/
inductive LedgerRun : Option Bytes → List Fields → Prop
  | absent : LedgerRun none []
  | empty : LedgerRun (some []) []
  | append {file : Option Bytes} {rs : List Fields} {r : Fields} {ts : Double} {p : Bytes × Json} :
      LedgerRun file rs → (Json.obj r).WF → append sha256_hex file r ts = .ok p →
      LedgerRun (some p.1) (rs ++ [r])

/-- One line, and not the last one, is another one. -/
def Replaced (text text' : PyStr) (l l' : PyStr) : Prop :=
  ∃ front next back, splitlines text = front ++ l :: next :: back ∧
    splitlines text' = front ++ l' :: next :: back ∧ l' ≠ l

/-- The hashes of these two texts do not collide. -/
def CollisionFree (l l' : PyStr) : Prop :=
  ∀ b b', encodeUtf8 l = some b → encodeUtf8 l' = some b' → sha256_hex b = sha256_hex b' → b = b'

/-- The ledger verifies, and no longer does so once a line before the last has been replaced. -/
def Verifies (file : Option Bytes) : Prop :=
  verify sha256_hex file = .ok true ∧
    ∀ bytes bytes' text text' l l', file = some bytes → decodeText bytes = some text →
      decodeText bytes' = some text' → Replaced text text' l l' → CollisionFree sha256_hex l l' →
      verify sha256_hex (some bytes') ≠ .ok true

end Functions

/-- A character that does not end a line, or that the canonical form escapes. -/
def inLine (c : Nat) : Bool := !(c == 0x85 || c == 0x2028 || c == 0x2029)

/-- No key of the record and no string in it contains U+0085, U+2028 or U+2029, the two fields aside
that `append` sets. -/
def OneLine (r : Fields) : Prop := ∀ kv ∈ r, kv.1 ≠ py "ts" → kv.1 ≠ py "prev" →
  kv.1.all inLine = true ∧ kv.2.everyChar inLine = true

/-! ## Lines that are linked -/

section Linked

variable (sha256_hex : Bytes → PyStr)

/-- Every line is JSON and carries the hash of the line before it. -/
def Linked : PyStr → List PyStr → Prop
  | _, [] => True
  | prev, l :: rest => ∃ v b, loads l = some v ∧ index v "prev" = .ok (.str prev) ∧
      encodeUtf8 l = some b ∧ Linked (sha256_hex b) rest

/-- The hash that the next line carries. -/
def endHash : PyStr → List PyStr → PyStr
  | prev, [] => prev
  | _, l :: rest => endHash (sha256_hex ((encodeUtf8 l).getD [])) rest

variable {sha256_hex} {prev : PyStr} {ls ms : List PyStr} {l l' : PyStr}

theorem verifyLoop_iff : verifyLoop sha256_hex prev ls = .ok true ↔ Linked sha256_hex prev ls := by
  induction ls generalizing prev with
  | nil => exact iff_of_true rfl trivial
  | cons l rest ih =>
    constructor
    · intro h
      obtain ⟨v, hv, h⟩ := bind_eq_ok.1 h
      obtain ⟨p, hp, h⟩ := bind_eq_ok.1 h
      split at h
      · cases pure_eq_ok.1 h
      · rename_i hsame
        obtain ⟨b, hb, h⟩ := bind_eq_ok.1 h
        rw [not_not.1 hsame] at hp
        exact ⟨v, b, orRaise_eq_ok.1 hv, hp, orRaise_eq_ok.1 hb, ih.1 h⟩
    · rintro ⟨v, b, hv, hp, hb, h⟩
      rw [verifyLoop, hv]
      show (index v "prev" >>= _) = _
      rw [hp, ok_bind, if_neg (not_not.2 rfl), hb]
      exact ih.2 h

theorem linked_append : Linked sha256_hex prev (ls ++ ms) ↔
    Linked sha256_hex prev ls ∧ Linked sha256_hex (endHash sha256_hex prev ls) ms := by
  induction ls generalizing prev with
  | nil => exact ⟨fun h => ⟨trivial, h⟩, fun h => h.2⟩
  | cons l rest ih =>
    constructor
    · rintro ⟨v, b, hv, hp, hb, h⟩
      obtain ⟨hrest, hms⟩ := ih.1 h
      refine ⟨⟨v, b, hv, hp, hb, hrest⟩, ?_⟩
      rw [endHash, hb]
      exact hms
    · rintro ⟨⟨v, b, hv, hp, hb, hrest⟩, hms⟩
      rw [endHash, hb] at hms
      exact ⟨v, b, hv, hp, hb, ih.2 ⟨hrest, hms⟩⟩

theorem Linked.loads_of_mem (h : Linked sha256_hex prev ls) (hl : l ∈ ls) :
    ∃ v, loads l = some v := by
  induction ls generalizing prev with
  | nil => cases hl
  | cons m rest ih =>
    obtain ⟨v, b, hv, _, _, hrest⟩ := h
    rcases List.mem_cons.1 hl with rfl | hl
    · exact ⟨v, hv⟩
    · exact ih hrest hl

/-- **A linked ledger with one line replaced is not linked.** The next line carries the hash of the line
that was there. -/
theorem not_linked_replaced {front back : List PyStr} {next : PyStr}
    (h : Linked sha256_hex prev (front ++ l :: next :: back)) (hne : l' ≠ l)
    (hfree : CollisionFree sha256_hex l l') :
    ¬ Linked sha256_hex prev (front ++ l' :: next :: back) := by
  intro h'
  obtain ⟨v, b, _, _, hb, w, _, hw, hprev, _⟩ := (linked_append.1 h).2
  obtain ⟨v', b', _, _, hb', w', _, hw', hprev', _⟩ := (linked_append.1 h').2
  rw [hw] at hw'
  cases hw'
  rw [hprev] at hprev'
  have hsame : b = b' := hfree b b' hb hb' (Json.str.inj (Except.ok.inj hprev'))
  exact hne (encodeUtf8_injective hb' (hsame ▸ hb))

end Linked

/-! ## The lines of a ledger -/

/-- The line of an entry. -/
def line (e : Json) : PyStr := e.text .compact

/-- The text of a file with these entries. -/
def linesText (es : List Json) : PyStr := es.flatMap fun e => line e ++ [10]

section Lines

variable {sha256_hex : Bytes → PyStr} {file : Option Bytes} {rs : List Fields} {r : Fields}
  {ts : Double} {prev : PyStr} {e : Json} {es : List Json} {p : Bytes × Json}

theorem inLine_iff {c : Nat} (h : 32 ≤ c) : inLine c = true ↔ isLineBreak c = false := by
  rw [← not_iff_not, Bool.not_eq_true, Bool.not_eq_false]
  simp only [inLine, isLineBreak, List.contains_eq_mem, List.mem_cons, List.not_mem_nil, or_false,
    Bool.not_eq_false', Bool.or_eq_true, beq_iff_eq, decide_eq_true_eq]
  omega

/-- Which entries are one line of the file. -/
theorem oneLine_iff (hs : e.scalar = true) :
    e.everyChar inLine = true ↔ ∀ c ∈ line e, isLineBreak c = false := by
  have hascii : ∀ c < 128, inLine c = true := by
    intro c hc
    simp only [inLine, Bool.not_eq_true', Bool.or_eq_false_iff, beq_eq_false_iff_ne]
    omega
  rw [everyChar_iff_text hascii]
  exact forall₂_congr fun c hc => inLine_iff (control_not_mem_text hs c hc)

theorem lookup_of_mem {kvs : Fields} (h : Json.SortedKeys kvs) {kv : PyStr × Json} (hkv : kv ∈ kvs) :
    Json.lookup kv.1 kvs = some kv.2 := by
  induction kvs with
  | nil => cases hkv
  | cons x rest ih =>
    obtain ⟨k, v⟩ := x
    have hkeys := List.pairwise_cons.1 h
    rw [Json.lookup]
    rcases List.mem_cons.1 hkv with rfl | hkv
    · exact if_pos rfl
    · have hlt := hkeys.1 kv.1 (List.mem_map_of_mem hkv)
      rw [if_neg (ne_of_gt hlt)]
      exact ih hkeys.2 hkv

/-- The fields of an entry. -/
theorem lookup_entry (hr : (Json.obj r).WF) (k : PyStr) :
    Json.lookup k (Json.mkFields (r ++ [(py "ts", .float ts), (py "prev", .str prev)])) =
      if k = py "prev" then some (.str prev) else if k = py "ts" then some (.float ts)
      else Json.lookup k r := by
  have hsplit : r ++ [(py "ts", .float ts), (py "prev", .str prev)] =
      (r ++ [(py "ts", .float ts)]) ++ [(py "prev", .str prev)] := by simp
  rw [hsplit, Json.mkFields, List.foldl_append, List.foldl_append, ← Json.mkFields,
    Json.mkFields_sorted (Json.wf_obj_iff.1 hr).1]
  simp only [List.foldl_cons, List.foldl_nil]
  split
  · rename_i hk
    rw [hk, Json.lookup_insertField_self]
  · rename_i hk
    rw [Json.lookup_insertField_of_ne hk]
    split
    · rename_i hts
      rw [hts, Json.lookup_insertField_self]
    · rename_i hts
      rw [Json.lookup_insertField_of_ne hts]

theorem entry_wf (hr : (Json.obj r).WF) : (entry r ts prev).WF := by
  refine Json.wf_mkObj fun kv hkv => ?_
  rcases List.mem_append.1 hkv with hkv | hkv
  · exact (Json.wf_obj_iff.1 hr).2 kv hkv
  · rcases List.mem_pair.1 hkv with rfl | rfl
    · exact .float ts
    · exact .str prev

/-- An entry is one line iff its record is. -/
theorem entry_oneLine (hr : (Json.obj r).WF) (hprev : ∀ c ∈ prev, c < 128) :
    (entry r ts prev).everyChar inLine = true ↔ OneLine r := by
  have hascii : ∀ c < 128, inLine c = true := by
    intro c hc
    simp only [inLine, Bool.not_eq_true', Bool.or_eq_false_iff, beq_eq_false_iff_ne]
    omega
  have hsorted := (Json.wf_obj_iff.1 hr).1
  have hwf : (entry r ts prev).WF := entry_wf hr
  have hfields := (Json.wf_obj_iff.1 hwf).1
  rw [entry, Json.mkObj, Json.everyChar, Json.everyCharFields_iff]
  constructor
  · intro h kv hkv hts hp
    refine h kv (Json.lookup_mem (k := kv.1) ?_)
    rw [lookup_entry hr, if_neg hp, if_neg hts]
    exact lookup_of_mem hsorted hkv
  · intro h kv hkv
    have hlook := lookup_of_mem hfields hkv
    rw [lookup_entry hr] at hlook
    split at hlook
    · rename_i hp
      rw [hp, ← Option.some.inj hlook]
      refine ⟨by decide, List.all_eq_true.2 fun c hc => hascii c (hprev c hc)⟩
    · rename_i hp
      split at hlook
      · rename_i hts
        rw [hts, ← Option.some.inj hlook]
        exact ⟨by decide, rfl⟩
      · rename_i hts
        exact h kv (Json.lookup_mem hlook) hts hp

/-! ## What a run leaves -/

theorem linesText_append (es fs : List Json) :
    linesText (es ++ fs) = linesText es ++ linesText fs := List.flatMap_append

/-- Entries that are one line each are read as these lines. -/
theorem splitlines_linesText (h : ∀ e ∈ es, ∀ c ∈ line e, isLineBreak c = false) (rest : PyStr) :
    splitlines (linesText es ++ rest) = es.map line ++ splitlines rest := by
  induction es with
  | nil => rfl
  | cons e es ih =>
    obtain ⟨he, hes⟩ := List.forall_mem_cons.1 h
    have hcut : linesText (e :: es) ++ rest = line e ++ 10 :: (linesText es ++ rest) := by
      simp [linesText]
    rw [hcut, splitlines_line _ he (by decide) (by decide), ih hes]
    rfl

/-- The entries of a file, as they were written. -/
structure Written (sha256_hex : Bytes → PyStr) (file : Option Bytes) (rs : List Fields)
    (es : List Json) : Prop where
  text : encodeUtf8 (linesText es) = some (file.getD [])
  present : file.isSome = true ∨ rs = []
  objects : ∀ e ∈ es, e.WF ∧ e.printable = true ∧ e.scalar = true ∧ ∃ kvs, e = .obj kvs
  records : (∀ e ∈ es, e.everyChar inLine = true) ↔ ∀ r ∈ rs, OneLine r
  linked : (∀ e ∈ es, e.everyChar inLine = true) → Linked sha256_hex zeros (es.map line)

theorem index_entry (hr : (Json.obj r).WF) :
    index (entry r ts prev) "prev" = .ok (.str prev) := by
  show orRaise (Json.lookup (py "prev") (Json.mkFields _)) _ = _
  rw [lookup_entry hr, if_pos rfl]
  rfl

theorem endHash_getLast (ls : List PyStr) : endHash sha256_hex prev ls =
    (ls.getLast?.map fun l => sha256_hex ((encodeUtf8 l).getD [])).getD prev := by
  induction ls generalizing prev with
  | nil => rfl
  | cons l rest ih =>
    rw [endHash, ih]
    cases rest with
    | nil => rfl
    | cons m rest =>
      rw [List.getLast?_cons_cons]
      cases hlast : (m :: rest).getLast? with
      | none => exact absurd (List.getLast?_eq_none_iff.1 hlast) (List.cons_ne_nil m rest)
      | some x => rfl

/-- The hash that a record gets is that of the last line of the file. -/
theorem lastHash_eq {text : PyStr} (h : encodeUtf8 text = some (file.getD []))
    (hprev : lastHash sha256_hex file = .ok prev) :
    prev = endHash sha256_hex zeros (splitlines text) := by
  cases file with
  | none =>
    obtain rfl : text = [] := encodeUtf8_injective h rfl
    exact (Except.ok.inj hprev).symm
  | some bytes =>
    have hdecode : decodeText bytes = some text := decodeText_encodeUtf8 h
    rw [lastHash, hdecode] at hprev
    rw [endHash_getLast]
    obtain ⟨t, ht, hprev⟩ := bind_eq_ok.1 hprev
    obtain rfl : text = t := Option.some.inj (orRaise_eq_ok.1 ht)
    cases hlast : (splitlines text).getLast? with
    | none =>
      rw [hlast] at hprev
      exact (Except.ok.inj hprev).symm
    | some l =>
      rw [hlast] at hprev
      obtain ⟨b, hb, hprev⟩ := bind_eq_ok.1 hprev
      rw [← pure_eq_ok.1 hprev]
      show _ = sha256_hex ((encodeUtf8 l).getD [])
      rw [orRaise_eq_ok.1 hb]
      rfl

theorem endHash_ascii (hascii : ∀ b, ∀ c ∈ sha256_hex b, c < 128) (hprev : ∀ c ∈ prev, c < 128)
    (ls : List PyStr) : ∀ c ∈ endHash sha256_hex prev ls, c < 128 := by
  induction ls generalizing prev with
  | nil => exact hprev
  | cons l rest ih => exact ih (hascii _)

theorem zeros_ascii : ∀ c ∈ zeros, c < 128 := by decide

/-- One more record; the step of the run lemma. -/
theorem Written.append (hascii : ∀ b, ∀ c ∈ sha256_hex b, c < 128)
    (h : Written sha256_hex file rs es) (hr : (Json.obj r).WF)
    (happend : EvalLedger.append sha256_hex file r ts = .ok p) :
    ∃ e, Written sha256_hex (some p.1) (rs ++ [r]) (es ++ [e]) := by
  obtain ⟨prev, hprev, happend⟩ := bind_eq_ok.1 happend
  obtain ⟨bytes, hbytes, happend⟩ := bind_eq_ok.1 happend
  have hcanonical : canonical (entry r ts prev) = some bytes := orRaise_eq_ok.1 hbytes
  have hp : p.1 = file.getD [] ++ bytes ++ [10] := by rw [← pure_eq_ok.1 happend]
  have hend : prev = endHash sha256_hex zeros (splitlines (linesText es)) := lastHash_eq h.text hprev
  have hprevAscii : ∀ c ∈ prev, c < 128 := hend ▸ endHash_ascii hascii zeros_ascii _
  have hwf : (entry r ts prev).WF := entry_wf hr
  obtain ⟨hprintable, hscalar⟩ := scalar_of_canonical hcanonical
  have hsplit : (∀ x ∈ es ++ [entry r ts prev], x.everyChar inLine = true) ↔
      (∀ x ∈ es, x.everyChar inLine = true) ∧ OneLine r := by
    rw [List.forall_mem_append, List.forall_mem_singleton, entry_oneLine hr hprevAscii]
  refine ⟨entry r ts prev, ?_, .inl rfl, ?_, ?_, ?_⟩
  · have hline := encode_of_canonical hcanonical
    have hnewline : encodeUtf8 [10] = some [10] := rfl
    have hall := encodeUtf8_append h.text (encodeUtf8_append hline hnewline)
    rw [linesText_append, Option.getD_some, hp, List.append_assoc, ← hall]
    simp [linesText, line]
  · exact List.forall_mem_append.2 ⟨h.objects,
      List.forall_mem_singleton.2 ⟨hwf, hprintable, hscalar, _, rfl⟩⟩
  · rw [hsplit, h.records, List.forall_mem_append, List.forall_mem_singleton]
  · intro hall
    obtain ⟨hes, hone⟩ := hsplit.1 hall
    rw [List.map_append, linked_append]
    refine ⟨h.linked hes, entry r ts prev, bytes, ?_, ?_, encode_of_canonical hcanonical, trivial⟩
    · have hloads := loads_text blank_compact hwf hprintable hscalar [] fun c hc => absurd hc List.not_mem_nil
      rwa [List.append_nil] at hloads
    · have hlines : splitlines (linesText es) = es.map line := by
        have hread := splitlines_linesText (fun x hx => (oneLine_iff (h.objects x hx).2.2.1).1 (hes x hx)) []
        rwa [List.append_nil, show splitlines [] = [] from rfl, List.append_nil] at hread
      rw [← hlines, ← hend]
      exact index_entry hr

/-- **What a run leaves**; induction on the run. -/
theorem run_written (hascii : ∀ b, ∀ c ∈ sha256_hex b, c < 128) (h : LedgerRun sha256_hex file rs) :
    ∃ es, Written sha256_hex file rs es := by
  induction h with
  | absent =>
    exact ⟨[], rfl, .inr rfl, fun _ h => absurd h List.not_mem_nil,
      iff_of_true (fun _ h => absurd h List.not_mem_nil) (fun _ h => absurd h List.not_mem_nil),
      fun _ => trivial⟩
  | empty =>
    exact ⟨[], rfl, .inl rfl, fun _ h => absurd h List.not_mem_nil,
      iff_of_true (fun _ h => absurd h List.not_mem_nil) (fun _ h => absurd h List.not_mem_nil),
      fun _ => trivial⟩
  | append _ hr happend ih =>
    obtain ⟨es, hes⟩ := ih
    obtain ⟨e, he⟩ := hes.append hascii hr happend
    exact ⟨es ++ [e], he⟩

/-- **A broken entry's first piece is not JSON.** It is the front of an object's text, and what was cut
off is not white space. -/
theorem not_linked_of_broken (hes : ∀ x ∈ es, x.WF ∧ x.printable = true ∧ x.scalar = true ∧ ∃ kvs, x = .obj kvs)
    (hbroken : ∃ x ∈ es, x.everyChar inLine ≠ true) :
    ¬ Linked sha256_hex prev (splitlines (linesText es)) := by
  intro hlinked
  -- the first broken entry
  have hfind : (es.find? fun x => !x.everyChar inLine).isSome = true := by
    rw [List.find?_isSome]
    obtain ⟨x, hx, hne⟩ := hbroken
    exact ⟨x, hx, by simpa using hne⟩
  obtain ⟨e, he⟩ := Option.isSome_iff_exists.1 hfind
  obtain ⟨hne, before, after, rfl, hbefore⟩ := List.find?_eq_some_iff_append.1 he
  obtain ⟨hwf, hp, hs, kvs, rfl⟩ := hes e (by simp)
  have hfront : ∀ x ∈ before, ∀ c ∈ line x, isLineBreak c = false := by
    intro x hx
    refine (oneLine_iff (hes x (List.mem_append_left _ hx)).2.2.1).1 ?_
    simpa using hbefore x hx
  -- its first line break
  have hchar : ((line (.obj kvs)).find? isLineBreak).isSome = true := by
    rw [List.find?_isSome]
    by_contra hnone
    have hone : ∀ c ∈ line (.obj kvs), isLineBreak c = false := by
      intro c hc
      rw [← Bool.not_eq_true]
      exact fun hbreak => hnone ⟨c, hc, hbreak⟩
    rw [(oneLine_iff hs).2 hone] at hne
    cases hne
  obtain ⟨c, hc⟩ := Option.isSome_iff_exists.1 hchar
  obtain ⟨hbreak, piece, rest, hline, hpiece⟩ := List.find?_eq_some_iff_append.1 hc
  have hpiece : ∀ x ∈ piece, isLineBreak x = false := fun x hx => by simpa using hpiece x hx
  have hc32 : 32 ≤ c := by
    refine control_not_mem_text hs c ?_
    show c ∈ line (.obj kvs)
    rw [hline]
    simp
  have hcut : linesText (before ++ .obj kvs :: after) =
      linesText before ++ (piece ++ c :: (rest ++ 10 :: linesText after)) := by
    rw [linesText_append]
    show _ ++ (line (.obj kvs) ++ [10] ++ linesText after) = _
    rw [hline]
    simp
  rw [hcut, splitlines_linesText hfront, splitlines_line _ hpiece hbreak (by omega)] at hlinked
  obtain ⟨w, hw⟩ := hlinked.loads_of_mem (l := piece) (by simp)
  obtain ⟨t, ht⟩ : ∃ t, piece = 123 :: t := by
    have hopen : line (.obj kvs) = 123 :: (Json.fieldsText .compact kvs ++ [125]) := rfl
    cases piece with
    | nil =>
      rw [hopen] at hline
      have h123 : 123 = c := (List.cons.inj hline).1
      subst h123
      exact absurd hbreak (by decide)
    | cons x t =>
      rw [hopen] at hline
      exact ⟨t, by rw [(List.cons.inj hline).1]⟩
  have hloads : loads (line (.obj kvs)) = some (.obj kvs) := by
    have htext := loads_text blank_compact hwf hp hs [] fun c hc => absurd hc List.not_mem_nil
    rwa [List.append_nil] at htext
  rw [hline, ht] at hloads
  rw [ht] at hw
  have hws := loads_extend hw hloads c List.mem_cons_self
  simp only [isWs, Bool.or_eq_true, beq_iff_eq] at hws
  have h32 : c = 32 := by omega
  subst h32
  exact absurd hbreak (by decide)

theorem verify_iff {text : PyStr} {bytes : Bytes} (h : decodeText bytes = some text) :
    verify sha256_hex (some bytes) = .ok true ↔ Linked sha256_hex zeros (splitlines text) := by
  rw [← verifyLoop_iff, verify]
  show ((orRaise (decodeText bytes) _ >>= _) = _) ↔ _
  rw [h]
  rfl

/-- **When a ledger verifies and notices a replaced line**: iff it exists and no record has a key or a
string with one of the three characters. -/
theorem verifies_iff (hascii : ∀ b, ∀ c ∈ sha256_hex b, c < 128) (h : LedgerRun sha256_hex file rs) :
    Verifies sha256_hex file ↔ file.isSome = true ∧ ∀ r ∈ rs, OneLine r := by
  obtain ⟨es, hes⟩ := run_written hascii h
  rw [← hes.records]
  constructor
  · rintro ⟨hverify, _⟩
    cases file with
    | none => cases hverify
    | some bytes =>
      have hdecode : decodeText bytes = some (linesText es) := decodeText_encodeUtf8 hes.text
      refine ⟨rfl, fun x hx => ?_⟩
      rw [verify_iff hdecode] at hverify
      by_contra hbroken
      exact not_linked_of_broken hes.objects ⟨x, hx, hbroken⟩ hverify
  · rintro ⟨hpresent, hone⟩
    obtain ⟨bytes, rfl⟩ := Option.isSome_iff_exists.1 hpresent
    have hdecode : decodeText bytes = some (linesText es) := decodeText_encodeUtf8 hes.text
    have hlines : splitlines (linesText es) = es.map line := by
      have hread := splitlines_linesText
        (fun x hx => (oneLine_iff (hes.objects x hx).2.2.1).1 (hone x hx)) []
      rwa [List.append_nil, show splitlines [] = [] from rfl, List.append_nil] at hread
    have hlinked : Linked sha256_hex zeros (splitlines (linesText es)) := hlines ▸ hes.linked hone
    refine ⟨(verify_iff hdecode).2 hlinked, ?_⟩
    intro b bytes' text text' l l' hb htext htext' hreplaced hfree
    cases hb
    obtain rfl : linesText es = text := Option.some.inj (hdecode.symm.trans htext)
    obtain ⟨front, next, back, hold, hnew, hne⟩ := hreplaced
    rw [ne_eq, verify_iff htext', hnew]
    exact not_linked_replaced (hold ▸ hlinked) hne hfree

end Lines

/-! ### Free text in a rubric -/

def exampleTs : Double := .num false ⟨0x41D954FC40200000, Double.exampleTime_lt⟩

/-- A reason, and a reason that was pasted with a next-line character. -/
def reason : Fields := [(py "FB-6", .str (py "slow"))]
def pastedReason : Fields := [(py "FB-6", .str (py "slow" ++ 0x85 :: py "disk"))]

/-- The line and the file of one record. -/
def lineOf (r : Fields) : Bytes := (canonical (entry r exampleTs zeros)).getD []
def fileOf (r : Fields) : Bytes := lineOf r ++ [10]

/-- SHA-256 of the line of the first reason. -/
def digestReason : PyStr := py "dcab01c0cffcc4bc" ++ py "1f3710a427d0ef5e" ++
  py "5b49f6faa8f15095" ++ py "1fabc55758670f26"

/-- SHA-256 as a table of what is hashed below. -/
def exampleSha (b : Bytes) : PyStr := if b = lineOf reason then digestReason else zeros

theorem exampleSha_ascii (b : Bytes) : ∀ c ∈ exampleSha b, c < 128 := by
  unfold exampleSha
  split
  · decide
  · exact zeros_ascii

set_option maxRecDepth 10000 in
theorem append_example : append exampleSha none reason exampleTs =
      .ok (fileOf reason, entry reason exampleTs zeros) ∧
    append exampleSha none pastedReason exampleTs =
      .ok (fileOf pastedReason, entry pastedReason exampleTs zeros) := by
  decide +kernel

theorem wf_reason (s : PyStr) : (Json.obj [(py "FB-6", .str s)]).WF :=
  Json.wf_obj_iff.2 ⟨List.pairwise_singleton _ _, List.forall_mem_singleton.2 (.str s)⟩

theorem run_reason : LedgerRun exampleSha (some (fileOf reason)) ([] ++ [reason]) :=
  LedgerRun.append (p := (fileOf reason, entry reason exampleTs zeros)) .absent (wf_reason _)
    append_example.1

theorem verifies_reason : Verifies exampleSha (some (fileOf reason)) ↔
    (some (fileOf reason)).isSome = true ∧ ∀ r ∈ [] ++ [reason], OneLine r :=
  verifies_iff exampleSha_ascii run_reason

set_option maxRecDepth 10000 in
/-- A ledger that holds the pasted text cannot be read. -/
theorem pasted_reason_breaks :
    LedgerRun exampleSha (some (fileOf pastedReason)) ([] ++ [pastedReason]) ∧
    verify exampleSha (some (fileOf pastedReason)) = .error (.other .valueError) ∧
    ¬ Verifies exampleSha (some (fileOf pastedReason)) := by
  have hverify : verify exampleSha (some (fileOf pastedReason)) = .error (.other .valueError) := by
    decide +kernel
  refine ⟨.append .absent (wf_reason _) append_example.2, hverify, fun h => ?_⟩
  have htrue := h.1
  rw [hverify] at htrue
  cases htrue

end Valops.EvalLedger
