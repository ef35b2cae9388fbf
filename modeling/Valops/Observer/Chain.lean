import Valops.Audit.SingleWriter
import Valops.Py.Lines

/-!
# The daemon's local chain

`LocalChain` of the observer daemon: it loads its file and refuses a broken one, appends an entry for
every request it served, and signs checkpoints. The hash of an entry is taken of its canonical form,
on loading too, so a file is known by the entries it parses to.

Main results: `loadChain_spec` (what a daemon holds after loading), `loadChain_chainFile` (it loads
what it wrote) and `checkpoint_spec`.
-/

set_option autoImplicit false

namespace Valops.Observer

open Py Audit HashChain

/-- The object. `hashes` has the hash for every number up to `seq`; `entries` is only recorded. -/
structure LocalChain where
  seq : Nat
  hashes : List PyStr
  entries : List Json

/-- Before the first entry. -/
def LocalChain.new : LocalChain := ⟨0, [GENESIS], []⟩

/-- `self.hashes[self.seq]`. -/
def LocalChain.head (c : LocalChain) : PyStr := c.hashes.getD c.seq []

/-- What the daemon records of a request it served; the values of the request came out of the
decoder. -/
structure Served where
  request_id : Json
  command_id : Json
  status : PyStr
  output_hash : PyStr
  elapsed_ms : Double
  decoded : request_id.WF ∧ command_id.WF

section Chain

variable (sha : Bytes → PyStr)

/-- One line of `__init__`. -/
def loadLine (n : Nat) (line : Bytes) (c : LocalChain) : Except Exc LocalChain := do
  let e ← orRaise (loadsBytes line) (.other .valueError)
  let broken := .other .runtimeError
  let prev ← index e "prev"
  require (prev.eqStr c.head) broken
  let seq ← index e "seq"
  require (seq.eqInt n) broken
  let h ← entry_hash sha e
  pure ⟨n, c.hashes ++ [h], c.entries ++ [e]⟩

/-- The loop of `__init__`. -/
def loadLinesFrom : Nat → List Bytes → LocalChain → Except Exc LocalChain
  | _, [], c => .ok c
  | n, line :: rest, c => do
    let c ← loadLine sha n line c
    loadLinesFrom (n + 1) rest c

/-- `LocalChain(path, signer)` on a file. -/
def loadChain (file : Bytes) : Except Exc LocalChain := loadLinesFrom sha 1 (byteLines file) .new

/-- The entry `append` builds. -/
def LocalChain.entry (c : LocalChain) (ts : Double) (x : Served) : Json :=
  Json.mkObj [(py "seq", .int (c.seq + 1 : Nat)), (py "ts", .float ts), (py "prev", .str c.head),
    (py "request_id", x.request_id), (py "command_id", x.command_id), (py "status", .str x.status),
    (py "output_hash", .str x.output_hash), (py "elapsed_ms", .float x.elapsed_ms)]

/-- `append`: the object and its file; without a canonical form nothing is written. -/
def LocalChain.append (c : LocalChain) (file : Bytes) (ts : Double) (x : Served) :
    LocalChain × Bytes :=
  match canonical (c.entry ts x) with
  | none => (c, file)
  | some b => (⟨c.seq + 1, c.hashes ++ [sha b], c.entries ++ [c.entry ts x]⟩, file ++ (b ++ [10]))

/-- An optional number. -/
def optNat (n : Option Nat) : Json := (n.map fun k => Json.int k).getD .null

/-- An optional string. -/
def optText (s : Option PyStr) : Json := (s.map Json.str).getD .null

/-- The signed part of a checkpoint. -/
def LocalChain.unsigned (c : LocalChain) (since_seq : Option Nat) (ts : Double) : Fields :=
  let since := since_seq.filter fun k => decide (k ≤ c.seq)
  [(py "seq", .int c.seq), (py "head", .str c.head), (py "ts", .float ts),
    (py "since_seq", optNat since), (py "since_head", optText (since.bind fun k => c.hashes[k]?))]

/-- `checkpoint`. -/
def LocalChain.checkpoint (sign : Bytes → Bytes) (c : LocalChain) (since_seq : Option Nat)
    (ts : Double) : Except Exc Fields := do
  let body ← orRaise (canonical (Json.mkObj (c.unsigned since_seq ts))) (.other .valueError)
  pure (c.unsigned since_seq ts ++ [(py "sig", .str (b64u (sign body)))])

end Chain

/-! ## What the object holds -/

section Holds

variable {sha : Bytes → PyStr} {c c' : LocalChain} {file : Bytes} {ts : Double} {x : Served}

/-- The object holds a linked chain, and its hash for every number. -/
structure Holds (sha : Bytes → PyStr) (c : LocalChain) : Prop where
  wf : ∀ e ∈ c.entries, e.WF
  linked : LinkedEntries sha GENESIS c.entries c.head
  seq : c.seq = c.entries.length
  length : c.hashes.length = c.seq + 1
  hashes : ∀ k ≤ c.seq, c.hashes[k]? = headAt sha c.entries k

theorem holds_new : Holds sha .new where
  wf := nofun
  linked := .nil GENESIS
  seq := rfl
  length := rfl
  hashes := by
    intro k hk
    obtain rfl : k = 0 := Nat.le_zero.1 hk
    rfl

/-- The hash at a number does not depend on what comes later. -/
theorem headAt_append (es more : List Json) {k : Nat} (hk : k ≤ es.length) :
    headAt sha (es ++ more) k = headAt sha es k := by
  cases k with
  | zero => rfl
  | succ k => rw [headAt, headAt, List.getElem?_append_left hk]

/-- One more entry, linked to the last one. -/
theorem Holds.extend (h : Holds sha c) {e : Json} {k : PyStr} (hwf : e.WF)
    (hprev : prevOf e = some c.head) (hhash : hashOf sha e = some k) :
    Holds sha ⟨c.seq + 1, c.hashes ++ [k], c.entries ++ [e]⟩ := by
  have hhead : LocalChain.head ⟨c.seq + 1, c.hashes ++ [k], c.entries ++ [e]⟩ = k := by
    show (c.hashes ++ [k]).getD (c.seq + 1) [] = k
    rw [← h.length]
    simp
  refine ⟨List.forall_mem_append.2 ⟨h.wf, List.forall_mem_singleton.2 hwf⟩, ?_, ?_, ?_, ?_⟩
  · rw [hhead]
    exact h.linked.snoc hprev hhash
  · simp [h.seq]
  · simp [h.length]
  · intro n hn
    rcases Nat.lt_or_ge n (c.seq + 1) with hlt | hge
    · have hle : n ≤ c.entries.length := by
        rw [← h.seq]
        exact Nat.le_of_lt_succ hlt
      show (c.hashes ++ [k])[n]? = headAt sha (c.entries ++ [e]) n
      rw [List.getElem?_append_left (by rw [h.length]; exact hlt), headAt_append _ _ hle]
      exact h.hashes n (Nat.le_of_lt_succ hlt)
    · obtain rfl : n = c.seq + 1 := Nat.le_antisymm hn hge
      show (c.hashes ++ [k])[c.seq + 1]? = ((c.entries ++ [e])[c.seq]?).bind (hashOf sha)
      rw [List.getElem?_append_right (by rw [h.length]), h.length, Nat.sub_self, h.seq,
        List.getElem?_append_right (le_refl _), Nat.sub_self]
      exact hhash.symm

/-! ## Loading -/

theorem loadLine_eq_ok {n : Nat} {line : Bytes} (h : loadLine sha n line c = .ok c') :
    ∃ e k, loadsBytes line = some e ∧ prevOf e = some c.head ∧ hashOf sha e = some k ∧
      c' = ⟨n, c.hashes ++ [k], c.entries ++ [e]⟩ := by
  unfold loadLine at h
  obtain ⟨e, he, h⟩ := bind_eq_ok.1 h
  obtain ⟨prev, hprev, h⟩ := bind_eq_ok.1 h
  obtain ⟨_, hlink, h⟩ := bind_eq_ok.1 h
  obtain ⟨seq, _, h⟩ := bind_eq_ok.1 h
  obtain ⟨_, _, h⟩ := bind_eq_ok.1 h
  obtain ⟨k, hk, h⟩ := bind_eq_ok.1 h
  refine ⟨e, k, orRaise_eq_ok.1 he, ?_, orRaise_eq_ok.1 hk, (pure_eq_ok.1 h).symm⟩
  rw [Json.eqStr_iff.1 (require_eq_ok.1 hlink)] at hprev
  unfold index at hprev
  split at hprev
  · rw [prevOf, get, getD, orRaise_eq_ok.1 hprev]
    rfl
  · cases hprev

theorem loadLinesFrom_holds : ∀ {lines : List Bytes} {c c' : LocalChain}, Holds sha c →
    loadLinesFrom sha (c.seq + 1) lines c = .ok c' → Holds sha c'
  | [], c, c', hc, h => by
    cases h
    exact hc
  | line :: rest, c, c', hc, h => by
    rw [loadLinesFrom] at h
    obtain ⟨c₁, h₁, h⟩ := bind_eq_ok.1 h
    obtain ⟨e, k, he, hprev, hk, rfl⟩ := loadLine_eq_ok h₁
    exact loadLinesFrom_holds (hc.extend (loadsBytes_wf he) hprev hk) h

/-- **A daemon that starts holds a linked chain.** -/
theorem loadChain_spec (h : loadChain sha file = .ok c) : Holds sha c :=
  loadLinesFrom_holds (c := .new) holds_new h

/-- No carriage return occurs in a canonical form either. -/
theorem return_not_mem_canonical {v : Json} {b : Bytes} (h : canonical v = some b) :
    (13 : UInt8) ∉ b := by
  apply ascii_not_mem_encodeUtf8 (n := 13) (by decide) _ _ (encode_of_canonical h)
  intro hmem
  have := control_not_mem_text (scalar_of_canonical h).2 13 hmem
  omega

/-- The lines of a chain file, without their newlines, parse to its entries. -/
theorem byteLines_chainFile : ∀ {es : List Json} {file : Bytes}, (∀ e ∈ es, e.WF) →
    chainFile es = some file → (byteLines file).map loadsBytes = es.map some
  | [], file, _, h => by
    cases h
    rfl
  | e :: es, file, hwf, h => by
    obtain ⟨he, hes⟩ := List.forall_mem_cons.1 hwf
    rw [chainFile] at h
    split at h
    · rename_i l f hl hf
      cases h
      obtain ⟨b, hb, rfl⟩ := Option.map_eq_some_iff.1 hl
      have ih := byteLines_chainFile hes hf
      have hload := loadsBytes_canonical he hb (Or.inl rfl)
      rw [List.append_nil] at hload
      rw [List.append_assoc, List.singleton_append, byteLines_line _ (newline_not_mem_canonical hb)
        (return_not_mem_canonical hb), List.map_cons, ih, hload]
      rfl
    · cases h

theorem loadLinesFrom_entries : ∀ {lines : List Bytes} {es : List Json} {n : Nat}
    {c c' : LocalChain}, lines.map loadsBytes = es.map some →
    loadLinesFrom sha n lines c = .ok c' → c'.entries = c.entries ++ es
  | [], [], n, c, c', _, h => by
    cases h
    rw [List.append_nil]
  | [], _ :: _, _, _, _, hparse, _ => by cases hparse
  | _ :: _, [], _, _, _, hparse, _ => by cases hparse
  | line :: lines, e :: es, n, c, c', hparse, h => by
    simp only [List.map_cons, List.cons.injEq] at hparse
    rw [loadLinesFrom] at h
    obtain ⟨c₁, h₁, h⟩ := bind_eq_ok.1 h
    obtain ⟨e', k, he, _, _, rfl⟩ := loadLine_eq_ok h₁
    cases hparse.1.symm.trans he
    rw [loadLinesFrom_entries hparse.2 h, List.append_assoc]
    rfl

/-- **A daemon loads the entries it wrote.** -/
theorem loadChain_chainFile {es : List Json} (hwf : ∀ e ∈ es, e.WF) (hfile : chainFile es = some file)
    (h : loadChain sha file = .ok c) : c.entries = es :=
  loadLinesFrom_entries (byteLines_chainFile hwf hfile) h

/-! ## Appending -/

variable (file ts x) in
/-- What an append does: nothing, or one entry in the object and in the file. -/
theorem append_cases (h : Holds sha c) : c.append sha file ts x = (c, file) ∨
    ∃ b, canonical (c.entry ts x) = some b ∧ (c.append sha file ts x).2 = file ++ (b ++ [10]) ∧
      (c.append sha file ts x).1.entries = c.entries ++ [c.entry ts x] ∧
      (c.entry ts x).WF ∧ Holds sha (c.append sha file ts x).1 := by
  cases hb : canonical (c.entry ts x) with
  | none =>
    left
    rw [LocalChain.append, hb]
  | some b =>
    right
    have hwf : (c.entry ts x).WF := Json.wf_mkObj (by simp [x.decoded])
    have hhash : hashOf sha (c.entry ts x) = some (sha b) := by
      rw [hashOf, hb]
      rfl
    rw [LocalChain.append, hb]
    exact ⟨b, rfl, rfl, rfl, hwf, h.extend hwf rfl hhash⟩

/-! ## Checkpoints -/

/-- A signed checkpoint of a chain, asked for since a number. -/
structure CheckpointOf (sha : Bytes → PyStr) (sign : Bytes → Bytes) (es : List Json)
    (since_seq : Option Nat) (ck : Params) : Prop where
  seq : index (.obj ck.fields) "seq" = .ok (.int es.length)
  printable : (Json.int es.length).printable = true
  head : ∃ h, index (.obj ck.fields) "head" = .ok (.str h) ∧ LinkedEntries sha GENESIS es h
  since : ∀ k, since_seq = some k → k ≤ es.length →
    ck.get "since_seq" = .int k ∧ ck.get "since_head" = optText (headAt sha es k)
  signed : ∃ body, canonical (Json.mkObj (["seq", "head", "ts", "since_seq", "since_head"].map
      fun k => (py k, ck.get k))) = some body ∧
    getD (.obj ck.fields) "sig" (.str []) = .ok (.str (b64u (sign body)))

/-- The values of a checkpoint are strings and numbers. -/
theorem checkpoint_wf {sign : Bytes → Bytes} {since_seq : Option Nat} {kvs : Fields}
    (h : c.checkpoint sign since_seq ts = .ok kvs) : ∀ kv ∈ kvs, kv.2.WF := by
  unfold LocalChain.checkpoint at h
  obtain ⟨body, _, h⟩ := bind_eq_ok.1 h
  rw [← pure_eq_ok.1 h]
  have hnat : ∀ n : Option Nat, (optNat n).WF := by
    intro n
    cases n <;> simp [optNat]
  have htext : ∀ s : Option PyStr, (optText s).WF := by
    intro s
    cases s <;> simp [optText]
  simp [LocalChain.unsigned, hnat, htext]

/-- **What a daemon signs of its chain.** -/
theorem checkpoint_spec (hc : Holds sha c) {sign : Bytes → Bytes} {since_seq : Option Nat}
    {kvs : Fields} (h : c.checkpoint sign since_seq ts = .ok kvs) :
    CheckpointOf sha sign c.entries since_seq (Params.ofFields kvs (checkpoint_wf h)) := by
  have hkvs := h
  unfold LocalChain.checkpoint at hkvs
  obtain ⟨body, hbody, hkvs⟩ := bind_eq_ok.1 hkvs
  have heq := pure_eq_ok.1 hkvs
  subst heq
  have hcanonical := orRaise_eq_ok.1 hbody
  refine ⟨?_, ?_, ⟨c.head, rfl, hc.linked⟩, ?_, body, hcanonical, rfl⟩
  · rw [← hc.seq]
    rfl
  · obtain ⟨hprintable, _⟩ := scalar_of_canonical hcanonical
    rw [Json.mkObj, Json.printable, Json.printableFields_iff] at hprintable
    have hseq : Json.lookup (py "seq") (Json.mkFields (c.unsigned since_seq ts)) =
        some (.int c.seq) := rfl
    rw [← hc.seq]
    exact hprintable _ (Json.lookup_mem hseq)
  · intro k hk hle
    rw [← hc.seq] at hle
    have hfilter : since_seq.filter (fun k => decide (k ≤ c.seq)) = some k := by
      rw [hk]
      simp [hle]
    constructor
    · show optNat (since_seq.filter fun k => decide (k ≤ c.seq)) = _
      rw [hfilter]
      rfl
    · show optText ((since_seq.filter fun k => decide (k ≤ c.seq)).bind fun k => c.hashes[k]?) = _
      rw [hfilter, Option.bind_some, hc.hashes k hle]

end Holds

end Valops.Observer
