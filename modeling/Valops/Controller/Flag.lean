import Valops.Conc.Path
import Valops.Conc.Runs
import Valops.Controller.Preflight
import Valops.Py.Surrogates

/-!
# The observe-only flag

`set` writes the file only where there is none, and `get` takes a file that it cannot read for no
flag. A call of `set` that is interrupted after it has opened the file leaves a part of the text;
no later call repairs it, and the flag reads as not set. Where the call that creates the file
completes, the flag is a latch: `get` returns a reason at every later time and `run` reports it.

Main results: `latched` and `unlatched`.
-/

set_option autoImplicit false

namespace Valops.Controller

open Py Store Conc

namespace ObserveOnlyFlag

/-! ## The file -/

/-- The file: absent, or its bytes. -/
abbrev File := Option Bytes

/-- `json.dumps({"reason": reason, "ts": now()})`. -/
def text (reason : PyStr) (ts : Double) : PyStr :=
  (Json.obj [(py "reason", .str reason), (py "ts", .float ts)]).text .default

theorem dumps_eq (reason : PyStr) (ts : Double) :
    dumps (.obj [(py "reason", .str reason), (py "ts", .float ts)]) = some (text reason ts) := rfl

/-- Its bytes. -/
def content (reason : PyStr) (ts : Double) : Bytes := (encodeUtf8 (text reason ts)).getD []

/-- How far a call of `set` gets: not as far as opening the file, or to a number of bytes, or to its
end. -/
inductive Progress where
  | before
  | bytes (n : Nat)
  | complete
  deriving DecidableEq

/-- `set`; it does nothing where the file exists. -/
def set (file : File) (reason : PyStr) (ts : Double) (p : Progress) : File :=
  match file, p with
  | some bytes, _ => some bytes
  | none, .before => none
  | none, .bytes n => some ((content reason ts).take n)
  | none, .complete => some (content reason ts)

/-- `get`. -/
def get (file : File) : Except Exc Json :=
  match file with
  -- `FileNotFoundError`
  | none => .ok .null
  | some bytes =>
    match (decodeUtf8 bytes).bind loads with
    -- `ValueError`, of which a `UnicodeDecodeError` is one
    | none => .ok .null
    | some v =>
      match index v "reason" with
      | .error (.other .keyError) => .ok .null
      | r => r

/-! ## Runs -/

/-- The file, and whether `set` has been called; this is only recorded. -/
structure State where
  file : File := none
  called : Bool := false

/-- A call of `set`, or a restart of the controller. -/
inductive Act where
  | set (reason : PyStr) (text : IsText reason) (ts : Double) (p : Progress)
  | restart

inductive Moves : State → Act → State → Prop
  | set {s : State} {reason : PyStr} {text : IsText reason} {ts : Double} {p : Progress} :
      Moves s (.set reason text ts p) ⟨ObserveOnlyFlag.set s.file reason ts p, true⟩
  | restart {s : State} : Moves s .restart s

def Initial (s : State) : Prop := s = {}

/-- A call that finds no file writes its text to the end, and has a reason. -/
def Completes (s : State) : Act → Prop
  | .set reason _ _ p => s.file = none → p = .complete ∧ reason ≠ []
  | .restart => True

/-- The operations of `run`, the flag answered from this file. -/
def Answers (file : File) (_ : Unit) : (o : Op) → Res o → Unit → Prop
  | .flag_get, r, _ => r = get file
  | _, _, _ => True

/-- The flag has a reason, and every pre-flight that returns reports it. -/
def Reports (b : Builtins) (file : File) : Prop :=
  ∃ reason : PyStr, reason ≠ [] ∧ get file = .ok (.str reason) ∧
    ∀ brokers anchor_interval_s max_anchor_lag_s tr pf,
      PathE (Answers file) (run b brokers anchor_interval_s max_anchor_lag_s) tr (.ok pf) →
        py "observe-only: " ++ b.str (.str reason) ∈ pf.observe_only

/-! ## Reading what was written -/

theorem ascii_charText {c d : Nat} (h : d ∈ charText true c) : d < 128 := by
  by_cases hc : c < 128
  · rcases mem_charText h with hd | ⟨rfl, -⟩
    · exact hd.2
    · exact hc
  · unfold charText at h
    repeat rw [if_neg (by omega)] at h
    rw [if_neg (by simp; omega)] at h
    split at h
    · exact (mem_unitEscape h).2
    · rcases List.mem_append.1 h with h | h
      · exact (mem_unitEscape h).2
      · exact (mem_unitEscape h).2

theorem ascii_strText (s : PyStr) : ∀ d ∈ strText true s, d < 128 := by
  intro d hd
  rcases List.mem_cons.1 hd with rfl | hd
  · decide
  rcases List.mem_append.1 hd with hd | hd
  · obtain ⟨c, -, hc⟩ := List.mem_flatMap.1 hd
    exact ascii_charText hc
  · cases List.mem_singleton.1 hd
    decide

theorem ascii_floatText (x : Double) : ∀ d ∈ floatText x, d < 128 := by
  cases x with
  | nan => decide
  | num neg mag =>
    have hmag : ∀ d ∈ magText mag.val, d < 128 := by
      intro d hd
      have hnum := magText_chars (Nat.le_of_lt_succ mag.isLt) d hd
      simp only [isNumberChar, isDigit, Bool.or_eq_true, Bool.and_eq_true, decide_eq_true_eq,
        beq_iff_eq] at hnum
      omega
    rw [floatText]
    refine List.forall_mem_append.2 ⟨?_, ?_⟩
    · split
      · decide
      · exact List.forall_mem_nil _
    · split
      · decide
      · exact hmag

/-- The text, written out from its second field on. -/
def tsText (ts : Double) : PyStr :=
  44 :: 32 :: 34 :: (charsText true (py "ts") ++ 34 :: 58 :: 32 :: (floatText ts ++ [125]))

theorem text_eq (reason : PyStr) (ts : Double) : text reason ts =
    123 :: 34 :: (charsText true (py "reason") ++ 34 :: 58 :: 32 :: 34 ::
      (charsText true reason ++ 34 :: tsText ts)) := by
  simp [text, tsText, Json.text, Json.fieldsText, Json.fieldText, strText, Style.default]

theorem ascii_text (reason : PyStr) (ts : Double) : ∀ d ∈ text reason ts, d < 128 := by
  have hform : text reason ts = [123] ++ (strText true (py "reason") ++ ([58, 32] ++
      (strText true reason ++ ([44, 32] ++ (strText true (py "ts") ++ ([58, 32] ++
        (floatText ts ++ [125]))))))) := by
    simp [text, Json.text, Json.fieldsText, Json.fieldText, Style.default]
  rw [hform]
  simp only [List.forall_mem_append]
  exact ⟨by decide, ascii_strText _, by decide, ascii_strText _, by decide, ascii_strText _, by decide,
    ascii_floatText ts, by decide⟩

theorem decode_content (reason : PyStr) (ts : Double) :
    decodeUtf8 (content reason ts) = some (text reason ts) := by
  have hsome := encodeUtf8_isSome fun c hc => isScalar_of_lt (ascii_text reason ts c hc)
  obtain ⟨bytes, hbytes⟩ := Option.isSome_iff_exists.1 hsome
  rw [content, hbytes]
  exact decodeUtf8_encodeUtf8 hbytes

theorem scan_ts (ts : Double) (n : Nat) : scanFields (n + 6)
    (34 :: (charsText true (py "ts") ++ 34 :: 58 :: 32 :: (floatText ts ++ [125]))) =
      some ([(py "ts", .float ts)], []) := by
  have hkey := scanString_charsText true (s := py "ts") (by decide)
    (58 :: 32 :: (floatText ts ++ [125])) (n + 4) (by show 2 < _; omega)
  have hvalue := @scanValue_float ts [125] (numberEnd_cons (by decide)) (n + 3)
  have hskip : skipWs (32 :: (floatText ts ++ [125])) = floatText ts ++ [125] := by
    refine @skipWs_pad [32] (by decide) _ fun c t hc => ?_
    obtain ⟨c', t', hct, hstart⟩ := text_head .default (.float ts)
    have hct : floatText ts = c' :: t' := hct
    rw [hct] at hc
    cases hc
    simp only [startsValue, Bool.and_eq_true, Bool.not_eq_true'] at hstart
    exact hstart.1
  rw [scanFields, scanField]
  simp only [dropPrefix, if_true, hkey, skipWs_cons (c := 58) rfl, hskip, hvalue, Option.map_some]
  rfl

theorem scan_reason {reason : PyStr} (h : IsText reason) (ts : Double) (n : Nat)
    (hn : reason.length + 6 < n) : scanFields (n + 6)
      (34 :: (charsText true (py "reason") ++ 34 :: 58 :: 32 :: 34 ::
        (charsText true reason ++ 34 :: tsText ts))) =
      some ([(py "reason", .str (joinUnits reason)), (py "ts", .float ts)], []) := by
  have hkey := scanString_charsText true (s := py "reason") (by decide)
    (58 :: 32 :: 34 :: (charsText true reason ++ 34 :: tsText ts)) (n + 4) (by show 6 < _; omega)
  have hvalue := scanString_joined h (tsText ts) (n + 3) (by omega)
  have hrest := scan_ts ts (n - 1)
  rw [show n - 1 + 6 = n + 5 by omega] at hrest
  have hreason : scanValue (n + 4) (34 :: (charsText true reason ++ 34 :: tsText ts)) =
      some (.str (joinUnits reason), tsText ts) := by
    rw [scanValue, if_pos rfl, hvalue]
    rfl
  rw [scanFields, scanField]
  simp only [dropPrefix, if_true, hkey, skipWs_cons (c := 58) rfl]
  have hskip : ∀ t, skipWs (32 :: 34 :: t) = 34 :: t := fun t => rfl
  simp only [hskip, hreason, Option.map_some]
  have hcomma : dropPrefix [44] (skipWs (tsText ts)) = some (32 :: 34 ::
      (charsText true (py "ts") ++ 34 :: 58 :: 32 :: (floatText ts ++ [125]))) := rfl
  simp only [hcomma, hskip, hrest, Option.map_some]

/-- **What `get` reads of a complete file**: the reason, with its surrogates joined. -/
theorem get_content {reason : PyStr} (h : IsText reason) (ts : Double) :
    get (some (content reason ts)) = .ok (.str (joinUnits reason)) := by
  have hlen : reason.length + 10 ≤ (text reason ts).length := by
    have hreason := length_le_charsText true reason
    have hkey : (charsText true (py "reason")).length = 6 := by decide
    rw [text_eq]
    simp only [List.length_cons, List.length_append, hkey]
    omega
  have hloads : loads (text reason ts) = some (Json.mkObj
      [(py "reason", .str (joinUnits reason)), (py "ts", .float ts)]) := by
    have hscan := scan_reason h ts (3 * (text reason ts).length + 3 - 7) (by omega)
    rw [show 3 * (text reason ts).length + 3 - 7 + 6 = 3 * (text reason ts).length + 2 by omega] at hscan
    have hskip : skipWs (text reason ts) = text reason ts := by
      rw [text_eq]
      rfl
    have hvalue : ∀ fuel, fuel = 3 * (text reason ts).length + 2 →
        scanValue (fuel + 1) (text reason ts) =
          some (Json.mkObj [(py "reason", .str (joinUnits reason)), (py "ts", .float ts)], []) := by
      rintro fuel hfuel
      rw [← hfuel] at hscan
      have hquote : ∀ t, skipWs (34 :: t) = 34 :: t := fun t => rfl
      have hopen : ∀ t, dropPrefix [125] (34 :: t) = none := fun t => rfl
      rw [text_eq, scanValue, if_neg (by decide), if_neg (by decide), if_pos rfl]
      simp only [hquote, hopen, hscan, Option.map_some]
    rw [loads, hskip, hvalue _ rfl]
    rfl
  rw [get, decode_content]
  show (match loads (text reason ts) with
    | none => _
    | some v => _) = _
  rw [hloads]
  rfl

/-! ## What the pre-flight reports -/

section Preflight

variable {b : Builtins} {file : File}

/-- A flag that is set is reported. -/
theorem flagReasons_reports {v : Json} (hget : get file = .ok v) (hv : v.truthy = true)
    {tr : List (Event Unit Op Res)} {pf : Preflight}
    (h : PathE (Answers file) (flagReasons b) tr (.ok pf)) :
    py "observe-only: " ++ b.str v ∈ pf.observe_only := by
  obtain ⟨e, he, -⟩ | ⟨front, back, r, rfl, hcall, hpure⟩ := pathE_bind.1 h
  · cases he
  obtain ⟨front', back', r', rfl, hask, hret⟩ := path_bind.1 hcall
  obtain ⟨s, s', rfl, hanswer⟩ := path_perform.1 hask
  have hanswer : r' = get file := hanswer
  rw [hanswer, hget] at hret
  obtain ⟨-, hr⟩ := path_ret.1 hret
  cases hr
  obtain ⟨-, hpf⟩ := path_ret.1 hpure
  rw [if_pos hv] at hpf
  cases hpf
  exact List.mem_singleton_self _

/-- The reasons of the flag are among those of the run. -/
theorem run_reports {brokers : List PyStr} {anchor_interval_s max_anchor_lag_s : Json}
    {tr : List (Event Unit Op Res)} {pf : Preflight} {reason : PyStr}
    (hflag : ∀ tr qf, PathE (Answers file) (flagReasons b) tr (.ok qf) → reason ∈ qf.observe_only)
    (h : PathE (Answers file) (run b brokers anchor_interval_s max_anchor_lag_s) tr (.ok pf)) :
    reason ∈ pf.observe_only := by
  obtain ⟨e, he, -⟩ | ⟨front, back, flag, rfl, hf, h⟩ := pathE_bind.1 h
  · cases he
  obtain ⟨e, he, -⟩ | ⟨_, _, bundle, -, -, h⟩ := pathE_bind.1 h
  · cases he
  obtain ⟨e, he, -⟩ | ⟨_, _, audit, -, -, h⟩ := pathE_bind.1 h
  · cases he
  obtain ⟨e, he, -⟩ | ⟨_, _, pings, -, -, h⟩ := pathE_bind.1 h
  · cases he
  obtain ⟨e, he, -⟩ | ⟨_, _, sandbox, -, -, h⟩ := pathE_bind.1 h
  · cases he
  obtain ⟨-, hpf⟩ := path_ret.1 h
  cases hpf
  have hmem := hflag _ _ hf
  simp only [Preflight.append, List.mem_append]
  exact .inl (.inl (.inl (.inl hmem)))

end Preflight

/-! ## The latch -/

/-- The file is not there yet, or complete. -/
def Whole (s : State) : Prop :=
  (s.called = false ∧ s.file = none) ∨
    ∃ reason ts, IsText reason ∧ reason ≠ [] ∧ s.file = some (content reason ts)

theorem Whole.step {s s' : State} {a : Act} (h : Whole s) (hok : Completes s a) (hm : Moves s a s') :
    Whole s' := by
  cases hm with
  | @set reason text ts p =>
    rcases h with ⟨-, hnone⟩ | ⟨reason', ts', htext, hne, hfile⟩
    · obtain ⟨rfl, hne⟩ := hok hnone
      refine .inr ⟨reason, ts, text, hne, ?_⟩
      rw [hnone]
      rfl
    · refine .inr ⟨reason', ts', htext, hne, ?_⟩
      rw [hfile]
      rfl
  | restart => exact h

/-- **The flag is a latch where the call that creates the file completes**: once `set` has been
called, the flag has a reason and every pre-flight reports it. -/
theorem latched (b : Builtins) {s : State} (h : Conc.Reachable Initial Moves Completes s)
    (hcalled : s.called = true) : Reports b s.file := by
  have hwhole : Whole s := by
    refine h.inv (I := Whole) ?_ fun _ _ _ => Whole.step
    rintro _ rfl
    exact .inl ⟨rfl, rfl⟩
  rcases hwhole with ⟨hno, -⟩ | ⟨reason, ts, htext, hne, hfile⟩
  · cases hcalled.symm.trans hno
  have hget := get_content htext ts
  have hjoined := joinUnits_ne_nil hne
  rw [hfile]
  refine ⟨joinUnits reason, hjoined, hget, fun brokers anchor lag tr pf hrun => ?_⟩
  refine run_reports (fun tr qf => flagReasons_reports hget ?_) hrun
  show (!(joinUnits reason).isEmpty) = true
  rw [List.isEmpty_eq_false_iff.2 hjoined]
  rfl

/-- The reason of the examples. -/
def brokenChain : PyStr := py "audit chain: broken"

theorem brokenChain_isText : IsText brokenChain := by
  unfold IsText
  decide

/-- **A call that is interrupted between opening and writing unlatches the flag** for good: the next
call finds a file and leaves it as it is. -/
theorem unlatched : ¬ ∀ (b : Builtins) (s : State), Conc.Reachable Initial Moves Conc.anyAct s →
    s.called = true → Reports b s.file := by
  intro h
  have hopened : Moves {} (.set brokenChain brokenChain_isText .zero (.bytes 0)) ⟨some [], true⟩ := .set
  have hagain : Moves ⟨some [], true⟩ (.set brokenChain brokenChain_isText .zero .complete)
      ⟨some [], true⟩ := .set
  have hstart : Conc.Reachable Initial Moves Conc.anyAct {} := .start rfl
  have hreach := (hstart.next trivial hopened).next trivial hagain
  obtain ⟨reason, -, hget, -⟩ := h sampleBuiltins _ hreach rfl
  have hnone : get (some []) = .ok .null := by decide +kernel
  cases hnone.symm.trans hget

/-- A call that completes and a call that finds its file. -/
theorem latched_sample : Reports sampleBuiltins (some (content brokenChain .zero)) := by
  have htext : IsText (py "again") := by
    unfold IsText
    decide
  have hstart : Conc.Reachable Initial Moves Completes {} := .start rfl
  have hok : Completes {} (.set brokenChain brokenChain_isText .zero .complete) :=
    fun _ => ⟨rfl, by decide⟩
  have hok' : Completes ⟨some (content brokenChain .zero), true⟩ (.set (py "again") htext .zero .before) :=
    fun hnone => absurd hnone (Option.some_ne_none _)
  have hset : Moves {} (.set brokenChain brokenChain_isText .zero .complete)
      ⟨some (content brokenChain .zero), true⟩ := .set
  have hagain : Moves ⟨some (content brokenChain .zero), true⟩ (.set (py "again") htext .zero .before)
      ⟨some (content brokenChain .zero), true⟩ := .set
  have hreach := (hstart.next hok hset).next hok' hagain
  have hreports := latched sampleBuiltins hreach rfl
  exact hreports

end ObserveOnlyFlag

end Valops.Controller
