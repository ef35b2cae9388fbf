import Valops.Observer.Parsers
import Valops.Observer.Redact
import Valops.Observer.Table
import Valops.Py.Decode
import Valops.Py.RoundTrip

/-!
# Builtins of the observer daemon

The commands that the daemon implements itself. What they read of the host are the answers of a
`Host`; an `OSError` among them is reported, everything else that they raise is not.

Main result: `runBuiltin_scalar`, the text of a builtin can be encoded.
-/

set_option autoImplicit false

namespace Valops.Observer

open Py

/-- What the operating system raises: an `OSError`, with the name of its class, or something else. -/
inductive HostError where
  | os (name : PyStr)
  | other (e : Exc)
  deriving DecidableEq

abbrev Answer (α : Type) := Except HostError α

/-- What the host answers. A file is opened by a path or by a descriptor; a call of `systemctl` or `ss`
may run into its timeout. `percent` and `gib` round: `round(100.0 * a / b, 2)` and
`round(n / 2**30, 2)`. -/
structure Host where
  file : Json → Answer Bytes
  disk_usage : Json → Answer (Nat × Nat)
  meminfo : Answer PyStr
  is_active : Json → Answer (Option PyStr)
  loadavg : Answer Double
  sshd_config : Answer PyStr
  ss : Answer (Option PyStr)
  fail2ban : Bool
  updates : Option (Answer PyStr)
  glob : PyStr → PyStr → Answer (List PyStr)
  mtime : PyStr → Answer Double
  health : Json → Json → Double × Bool × Option PyStr
  percent : Int → Int → Except Exc Double
  gib : Nat → Except Exc Double

/-- The text and the value of a builtin; `probe` has the latency and the health of `rpc_latency`. -/
structure Built where
  text : PyStr
  structured : Json
  probe : Option (Double × Bool) := none

/-- A computation among those that ask the host. -/
def inside {α : Type} (x : Except Exc α) : Answer α :=
  match x with
  | .ok a => .ok a
  | .error e => .error (.other e)

/-- `except OSError: pass`. -/
def unlessOs {α : Type} (x : Answer α) (a : α) : Answer α :=
  match x with
  | .error (.os _) => .ok a
  | x => x

/-! ## Text -/

/-- `xs[start:]`. -/
def sliceFrom {α : Type} (xs : List α) (start : Int) : List α :=
  if 0 ≤ start then xs.drop start.toNat else xs.drop (xs.length - start.natAbs)

/-- `"\n".join(lines)`. -/
def joinNewline (lines : List PyStr) : PyStr := List.intercalate [10] lines

/-- `s.split()`, with the word that is being read. -/
def wordsLoop : PyStr → PyStr → List PyStr
  | w, [] => if w.isEmpty then [] else [w]
  | w, c :: rest =>
    if isSpace c then (if w.isEmpty then [] else [w]) ++ wordsLoop [] rest
    else wordsLoop (w ++ [c]) rest

/-- `s.split()`. -/
def words (s : PyStr) : List PyStr := wordsLoop [] s

/-- `s.strip()`. -/
def strip (s : PyStr) : PyStr := ((s.dropWhile isSpace).reverse.dropWhile isSpace).reverse

/-- The part after the last occurrence of a character. -/
def afterLast (c : Nat) (s : PyStr) : PyStr := (s.reverse.takeWhile fun d => d ≠ c).reverse

/-- A set of strings, sorted. -/
def sortedSet (xs : List PyStr) : List PyStr := xs.dedup.mergeSort (· ≤ ·)

/-- A result and its text. -/
def dumped (structured : Json) (probe : Option (Double × Bool)) : Answer Built := do
  let text ← inside (orRaise (dumps structured) (.other .valueError))
  pure ⟨text, structured, probe⟩

namespace Host

variable (b : Builtins) (u : UnicodeData) (h : Host)

/-! ## The log file -/

/-- Numbers of the size of a file offset. -/
def isOffset (n : Int) : Bool := decide (-2 ^ 63 ≤ n ∧ n < 2 ^ 63)

/-- `_tail_bytes`. -/
def _tail_bytes (path : Json) (max_bytes : Int) : Answer Bytes := do
  let data ← h.file path
  let start := max 0 (data.length - max_bytes)
  inside (require (isOffset start && isOffset max_bytes) (.other .overflowError))
  let rest := data.drop start.toNat
  pure (if max_bytes < 0 then rest else rest.take max_bytes.toNat)

/-- The tail of the log file, at most as long as the configuration says. -/
def logTail (key : String) (bytes : Int) (local_ : Fields) : Answer PyStr := do
  let path ← inside (index (.obj local_) "logfile")
  let m ← inside (getD (.obj local_) key (.int bytes))
  let max_bytes ← inside (b.int m)
  let raw ← h._tail_bytes path max_bytes
  pure (decodeReplace raw)

/-- `log_tail`. -/
def log_tail (args local_ : Fields) : Answer Built := do
  let v ← inside (index (.obj args) "lines")
  let lines ← inside (b.int v)
  let raw ← h.logTail b "log_tail_max_bytes" 262144 local_
  let text := joinNewline (sliceFrom (splitlines raw) (-lines))
  let count : Int := if text.isEmpty then 0 else text.count 10 + 1
  pure { text, structured := .obj [(py "lines", .int (min lines count))] }

/-- The lines that name a start of the validator, each with the line before it. -/
def startLines : Option PyStr → List PyStr → List PyStr
  | _, [] => []
  | before, ln :: rest =>
    (if py "Starting validator with" <:+: ln then before.toList ++ [ln] else []) ++
      startLines (some ln) rest

/-- `running_version`. -/
def running_version (local_ : Fields) : Answer Built := do
  let raw ← h.logTail b "log_scan_max_bytes" (8 * 1024 * 1024) local_
  let text := joinNewline (sliceFrom (startLines none (splitlines raw)) (-4))
  pure { text, structured := Observer.running_version u text }

/-! ## The host -/

/-- The path of a volume. -/
def volumePath (name : String) (local_ : Fields) : Except Exc Json := do
  let path ← get (.obj local_) (name ++ "_path")
  if path.truthy then pure path
  else if name = "ledger" then index (.obj local_) "ledger"
  else pure .null

/-- What is free on a volume. -/
def volume (path : Json) : Answer Json := do
  let du ← h.disk_usage path
  let pct ← inside (h.percent du.1 du.2)
  let gib ← inside (h.gib du.1)
  pure (Json.mkObj [(py "free_pct", .float pct), (py "free_gib", .float gib)])

/-- A volume that cannot be read is reported. -/
def volumeOrError (path : Json) : Answer Json :=
  match h.volume path with
  | .error (.os name) => .ok (.obj [(py "error", .str name)])
  | x => x

/-- `vols`. -/
def volumes (local_ : Fields) : List String → Answer Fields
  | [] => .ok []
  | name :: rest => do
    let path ← inside (volumePath name local_)
    if path.truthy then do
      let v ← h.volumeOrError path
      let vols ← volumes local_ rest
      pure ((py name, v) :: vols)
    else volumes local_ rest

/-- One line of `/proc/meminfo`. -/
def meminfoLine (mem : Fields) (ln : PyStr) : Except Exc Fields := do
  require (decide (58 ∈ ln)) (.other .valueError)
  let k := ln.takeWhile fun c => c ≠ 58
  let v := (ln.dropWhile fun c => c ≠ 58).drop 1
  if k = py "MemTotal" ∨ k = py "MemAvailable" then do
    let w ← orRaise (words v).head? (.other .indexError)
    let n ← b.int (.str w)
    pure (Json.insertField k (.int n) mem)
  else pure mem

/-- `mem`. -/
def memory : Answer Fields :=
  match h.meminfo with
  | .ok text => inside ((splitlines text).foldlM (meminfoLine b) [])
  | .error (.os _) => .ok []
  | .error (.other e) => .error (.other e)

/-- `_systemctl_is_active`. -/
def _systemctl_is_active (unit : Json) : Answer PyStr := do
  let out ← unlessOs (h.is_active unit) none
  let state := strip (out.getD [])
  pure (if state.isEmpty then py "unknown" else state)

/-- `min(frees) if frees else None`. -/
def least (vols : Fields) : Json :=
  let frees := vols.filterMap fun kv =>
    match kv.2 with
    | .obj v => Json.lookup (py "free_pct") v
    | _ => none
  match frees with
  | [] => .null
  | x :: rest => rest.foldl (fun x y => if Json.pyLt y x = some true then y else x) x

/-- `round(100.0 * mem["MemAvailable"] / mem["MemTotal"], 2) if len(mem) == 2 else None`. -/
def available (mem : Fields) : Except Exc Json :=
  match Json.lookup (py "MemAvailable") mem, Json.lookup (py "MemTotal") mem with
  | some (.int a), some (.int t) => do
    let x ← h.percent a t
    pure (.float x)
  | _, _ => .ok .null

/-- `host_metrics`. -/
def host_metrics (local_ : Fields) : Answer Built := do
  let vols ← h.volumes local_ ["ledger", "accounts"]
  let mem ← h.memory b
  let unit ← inside (getD (.obj local_) "unit_name" (.str (py "sol.service")))
  let state ← h._systemctl_is_active unit
  let avail ← inside (h.available mem)
  let load ← h.loadavg
  dumped (Json.mkObj [(py "parsed", .bool true), (py "volumes", Json.mkObj vols),
    (py "min_free_pct", least vols), (py "mem_available_pct", avail), (py "load1", .float load),
    (py "unit_state", .str state), (py "unit_active", .bool (decide (state = py "active")))]) none

/-- `pw_auth`: the last line that sets it. -/
def passwordAuthentication (text : PyStr) : PyStr :=
  (splitlines text).foldl (fun pw ln =>
    if (py "passwordauthentication").isPrefixOf (lower u (strip ln)) then
      lower u ((words (strip ln)).getLastD []) else pw) (py "unknown")

/-- `ports`. -/
def ports (text : PyStr) : List PyStr :=
  (sortedSet ((splitlines text).filterMap fun ln => (words ln)[3]?.map (afterLast 58))).take 100

/-- `host_hygiene`. -/
def host_hygiene : Answer Built := do
  let config ← unlessOs (h.sshd_config) []
  let out ← unlessOs h.ss none
  let pending ← unlessOs ((h.updates.elim (.ok none) fun x => some <$> x)) none
  dumped (Json.mkObj [(py "parsed", .bool true),
    (py "ssh_password_authentication", .str (passwordAuthentication u config)),
    (py "fail2ban_present", .bool h.fail2ban),
    (py "listening_tcp_ports", .arr ((ports (out.getD [])).map Json.str)),
    (py "pending_updates_note", (pending.map fun s => Json.str (s.take 500)).getD .null)]) none

/-- The entries of one kind of file; one that cannot be read is left out. -/
def stateFiles : List PyStr → Answer (List Json)
  | [] => .ok []
  | p :: rest => do
    let t ← unlessOs (some <$> h.mtime p) none
    let files ← stateFiles rest
    pure ((t.map fun t => Json.mkObj [(py "name", .str (afterLast 47 p)),
      (py "mtime", .float t)]).toList ++ files)

/-- The files that match a pattern in the ledger directory. -/
def matching (ledger : Json) (pat : String) : Answer (List Json) :=
  match ledger with
  | .str dir => do
    let paths ← h.glob dir (py pat)
    h.stateFiles ((paths.mergeSort (· ≤ ·)).take 10)
  | _ => .error (.other (.other .typeError))

/-- `consensus_state_files`. -/
def consensus_state_files (local_ : Fields) : Answer Built := do
  let ledger ← inside (index (.obj local_) "ledger")
  let tower ← h.matching ledger "tower-*.bin"
  let votes ← h.matching ledger "vote_history-*.bin"
  dumped (Json.mkObj [(py "parsed", .bool true), (py "tower", .arr tower),
    (py "vote_history", .arr votes)]) none

/-- `rpc_latency`. -/
def rpc_latency (local_ : Fields) : Answer Built := do
  let url ← inside (getD (.obj local_) "rpc_url" (.str (py "http://127.0.0.1:8899")))
  let timeout ← inside (getD (.obj local_) "rpc_timeout_s" (.int 5))
  let (ms, ok, err) := h.health url timeout
  dumped (Json.mkObj [(py "parsed", .bool true), (py "latency_ms", .float ms), (py "healthy", .bool ok),
    (py "error", (err.map Json.str).getD .null)]) (some (ms, ok))

end Host

/-! ## The table -/

/-- The builtins. -/
inductive Builtin where
  | log_tail | running_version | host_metrics | host_hygiene | consensus_state_files | rpc_latency
  deriving DecidableEq

def Builtin.text : Builtin → PyStr
  | .log_tail => py "log_tail"
  | .running_version => py "running_version"
  | .host_metrics => py "host_metrics"
  | .host_hygiene => py "host_hygiene"
  | .consensus_state_files => py "consensus_state_files"
  | .rpc_latency => py "rpc_latency"

/-- `BUILTINS[cid]`. -/
def builtinOf (cid : PyStr) : Option Builtin :=
  [Builtin.log_tail, .running_version, .host_metrics, .host_hygiene, .consensus_state_files,
    .rpc_latency].find? fun x => x.text = cid

/-- `BUILTINS[cid](args, local)`. -/
def runBuiltin (b : Builtins) (u : UnicodeData) (h : Host) (cid : PyStr) (args local_ : Fields) :
    Answer Built :=
  match builtinOf cid with
  | none => .error (.other (.other .keyError))
  | some .log_tail => h.log_tail b args local_
  | some .running_version => h.running_version b u local_
  | some .host_metrics => h.host_metrics b local_
  | some .host_hygiene => h.host_hygiene u
  | some .consensus_state_files => h.consensus_state_files local_
  | some .rpc_latency => h.rpc_latency local_

/-! ## The text of a builtin -/

section Scalar

variable {b : Builtins} {u : UnicodeData} {h : Host} {args local_ : Fields} {built : Built}

/-- A text that can be encoded. -/
def ScalarText (s : PyStr) : Prop := ∀ c ∈ s, isScalar c = true

theorem then_answer {α β : Type} {x : Answer α} {f : α → Answer β} {y : β} (h : (x >>= f) = .ok y) :
    ∃ a, x = .ok a ∧ f a = .ok y := by
  cases x with
  | ok a => exact ⟨a, rfl, h⟩
  | error e => cases h

theorem joinNewline_scalar : ∀ {lines : List PyStr}, (∀ l ∈ lines, ScalarText l) →
    ScalarText (joinNewline lines)
  | [], _ => fun c hc => absurd hc List.not_mem_nil
  | [l], h => by
    intro c hc
    rw [joinNewline, List.intercalate_singleton] at hc
    exact h l List.mem_cons_self c hc
  | l :: m :: rest, h => by
    obtain ⟨hl, hrest⟩ := List.forall_mem_cons.1 h
    intro c hc
    rw [joinNewline, List.intercalate_cons_cons, List.mem_append, List.mem_append] at hc
    rcases hc with (hc | hc) | hc
    · exact hl c hc
    · rw [List.mem_singleton.1 hc]
      rfl
    · exact joinNewline_scalar hrest c hc

theorem sliceFrom_mem {α : Type} {xs : List α} {start : Int} {x : α} (h : x ∈ sliceFrom xs start) :
    x ∈ xs := by
  unfold sliceFrom at h
  split at h <;> exact List.mem_of_mem_drop h

theorem startLines_mem {l : PyStr} : ∀ {before : Option PyStr} {lines : List PyStr},
    l ∈ Host.startLines before lines → l ∈ before ∨ l ∈ lines := by
  intro before lines
  induction lines generalizing before with
  | nil => exact fun h => absurd h List.not_mem_nil
  | cons ln rest ih =>
    intro h
    rw [Host.startLines, List.mem_append] at h
    rcases h with h | h
    · split at h
      · rcases List.mem_append.1 h with h | h
        · exact .inl (by simpa using h)
        · rw [List.mem_singleton.1 h]
          exact .inr List.mem_cons_self
      · cases h
    · rcases ih h with h | h
      · cases h
        exact .inr List.mem_cons_self
      · exact .inr (List.mem_cons_of_mem ln h)

theorem splitlinesLoop_scalar (line rest : PyStr) (hline : ScalarText line) (hrest : ScalarText rest) :
    ∀ l ∈ splitlinesLoop line rest, ScalarText l := by
  induction line, rest using splitlinesLoop.induct with
  | case1 => exact fun l hl => absurd hl (by simp [splitlinesLoop])
  | case2 line h =>
    intro l hl
    rw [splitlinesLoop, if_neg h, List.mem_singleton] at hl
    rw [hl]
    exact hline
  | case3 line rest ih =>
    intro l hl
    rw [splitlinesLoop] at hl
    rcases List.mem_cons.1 hl with rfl | hl
    · exact hline
    · refine ih (fun c hc => absurd hc List.not_mem_nil) (fun c hc => ?_) l hl
      exact hrest c (List.mem_cons_of_mem _ (List.mem_cons_of_mem _ hc))
  | case4 line c rest hno hbreak ih =>
    have heq : splitlinesLoop line (c :: rest) = line :: splitlinesLoop [] rest := by
      rw [splitlinesLoop, if_pos hbreak]
      exact hno
    rw [heq]
    intro l hl
    rcases List.mem_cons.1 hl with rfl | hl
    · exact hline
    · exact ih (fun c hc => absurd hc List.not_mem_nil) (fun d hd => hrest d (List.mem_cons_of_mem c hd)) l hl
  | case5 line c rest hno hbreak ih =>
    have heq : splitlinesLoop line (c :: rest) = splitlinesLoop (line ++ [c]) rest := by
      rw [splitlinesLoop, if_neg hbreak]
      exact hno
    rw [heq]
    intro l hl
    refine ih (fun d hd => ?_) (fun d hd => hrest d (List.mem_cons_of_mem c hd)) l hl
    rcases List.mem_append.1 hd with hd | hd
    · exact hline d hd
    · rw [List.mem_singleton.1 hd]
      exact hrest c List.mem_cons_self

/-- Some lines of a text that can be encoded, joined again. -/
theorem lines_scalar {lines : List PyStr} {text : PyStr} (htext : ScalarText text)
    (hlines : ∀ l ∈ lines, l ∈ splitlines text) : ScalarText (joinNewline lines) :=
  joinNewline_scalar fun l hl =>
    splitlinesLoop_scalar [] text (fun _ hc => absurd hc List.not_mem_nil) htext l (hlines l hl)

theorem logTail_scalar {key : String} {bytes : Int} {raw : PyStr}
    (hraw : h.logTail b key bytes local_ = .ok raw) : ScalarText raw := by
  unfold Host.logTail at hraw
  obtain ⟨path, _, hraw⟩ := then_answer hraw
  obtain ⟨m, _, hraw⟩ := then_answer hraw
  obtain ⟨max_bytes, _, hraw⟩ := then_answer hraw
  obtain ⟨data, _, hraw⟩ := then_answer hraw
  cases hraw
  exact decodeReplace_scalar data

theorem dumped_scalar {structured : Json} {probe : Option (Double × Bool)}
    (hd : dumped structured probe = .ok built) : ScalarText built.text := by
  unfold dumped at hd
  obtain ⟨text, htext, hd⟩ := then_answer hd
  cases hd
  intro c hc
  unfold dumps at htext
  split at htext
  · cases htext
    exact isScalar_of_lt (text_default_ascii structured c hc)
  · cases htext

/-- **The text of a builtin can be encoded.** -/
theorem runBuiltin_scalar {cid : PyStr} (hrun : runBuiltin b u h cid args local_ = .ok built) :
    ScalarText built.text := by
  unfold runBuiltin at hrun
  split at hrun
  · cases hrun
  · unfold Host.log_tail at hrun
    obtain ⟨v, _, hrun⟩ := then_answer hrun
    obtain ⟨lines, _, hrun⟩ := then_answer hrun
    obtain ⟨raw, hraw, hrun⟩ := then_answer hrun
    cases hrun
    exact lines_scalar (logTail_scalar hraw) fun l hl => sliceFrom_mem hl
  · unfold Host.running_version at hrun
    obtain ⟨raw, hraw, hrun⟩ := then_answer hrun
    cases hrun
    refine lines_scalar (logTail_scalar hraw) fun l hl => ?_
    exact (startLines_mem (sliceFrom_mem hl)).resolve_left nofun
  · unfold Host.host_metrics at hrun
    obtain ⟨vols, _, hrun⟩ := then_answer hrun
    obtain ⟨mem, _, hrun⟩ := then_answer hrun
    obtain ⟨unit, _, hrun⟩ := then_answer hrun
    obtain ⟨state, _, hrun⟩ := then_answer hrun
    obtain ⟨avail, _, hrun⟩ := then_answer hrun
    obtain ⟨load, _, hrun⟩ := then_answer hrun
    exact dumped_scalar hrun
  · unfold Host.host_hygiene at hrun
    obtain ⟨config, _, hrun⟩ := then_answer hrun
    obtain ⟨out, _, hrun⟩ := then_answer hrun
    obtain ⟨pending, _, hrun⟩ := then_answer hrun
    exact dumped_scalar hrun
  · unfold Host.consensus_state_files at hrun
    obtain ⟨ledger, _, hrun⟩ := then_answer hrun
    obtain ⟨tower, _, hrun⟩ := then_answer hrun
    obtain ⟨votes, _, hrun⟩ := then_answer hrun
    exact dumped_scalar hrun
  · unfold Host.rpc_latency at hrun
    obtain ⟨url, _, hrun⟩ := then_answer hrun
    obtain ⟨timeout, _, hrun⟩ := then_answer hrun
    exact dumped_scalar hrun

end Scalar

end Valops.Observer
