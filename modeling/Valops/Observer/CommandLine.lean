import Valops.Observer.Validate

/-!
# The subcommand of an assembled command line

The loader takes the first token that is neither dashed nor a placeholder for the subcommand. The
command line is read with the placeholders filled and with the values of options, so another token
may stand in that place. `confined_iff` says when the executed subcommand is a read-only one.
-/

set_option autoImplicit false

namespace Valops.Observer

open Py Regex

/-! ## How a command line is read -/

/-- A dashed token. -/
def isOption (tok : PyStr) : Bool := (py "-").isPrefixOf tok

/-- The option of the executable that takes the following token as its value. -/
def takesValue (x : Executable) (tok : PyStr) : Bool := decide (x = .agave_validator ∧ tok = py "-l")

/-- The reading of some tokens: a subcommand has been found, or only options have been read, and the
last one may still take a value. -/
inductive Reading where
  | found (sub : PyStr)
  | options (pending : Bool)

/-- The tokens after the executable are read. -/
def reading (x : Executable) : Bool → List PyStr → Reading
  | pending, [] => .options pending
  | true, _ :: rest => reading x false rest
  | false, tok :: rest =>
    if takesValue x tok then reading x true rest
    else if isOption tok then reading x false rest
    else .found tok

/-- The subcommand of a command line. -/
def subcommandOf (x : Executable) (pending : Bool) (toks : List PyStr) : Option PyStr :=
  match reading x pending toks with
  | .found sub => some sub
  | .options _ => none

theorem subcommandOf_append (x : Executable) : ∀ (pending : Bool) (front back : List PyStr),
    subcommandOf x pending (front ++ back) =
      match reading x pending front with
      | .found sub => some sub
      | .options later => subcommandOf x later back := by
  intro pending front
  induction front generalizing pending with
  | nil => exact fun back => by cases pending <;> rfl
  | cons tok front ih =>
    intro back
    cases pending with
    | true => exact ih false back
    | false =>
      rw [List.cons_append, subcommandOf, reading, reading]
      by_cases hv : takesValue x tok = true
      · rw [if_pos hv, if_pos hv]
        exact ih true back
      · rw [if_neg hv, if_neg hv]
        by_cases ho : isOption tok = true
        · rw [if_pos ho, if_pos ho]
          exact ih false back
        · rw [if_neg ho, if_neg ho]

/-! ## What the loader accepts -/

/-- The loader passes over the token. -/
def passedOver (tok : PyStr) : Bool := isOption tok || (placeholder tok).isSome

/-- The token is used as it is, and it is none of those that are refused. -/
def Harmless (u : UnicodeData) (tok : PyStr) : Prop :=
  placeholder tok = none → (∀ c ∈ tok, isMeta c = false) ∧ lower u tok ∉ STATE_CHANGING

/-- What is true of an accepted `exec` command. -/
structure ReadOnly (u : UnicodeData) (cmd : Command) : Prop where
  line : ∃ (x : Executable) (front : List PyStr) (sub : PyStr) (back : List PyStr),
    cmd.argv = x.text :: (front ++ sub :: back) ∧ (∀ tok ∈ front, passedOver tok = true) ∧
      passedOver sub = false ∧ sub ∈ READ_ONLY_EXEC x
  argv : ∀ tok ∈ cmd.argv, Harmless u tok
  optional : ∀ o ∈ cmd.optional_argv, ∀ tok ∈ o.2, Harmless u tok

section Loader

variable {b : Builtins} {u : UnicodeData} {cid : PyStr} {e : Json} {α β : Type}

theorem then_ok {x : Except Refusal α} {f : α → Except Refusal β} {y : β} (h : (x >>= f) = .ok y) :
    ∃ a, x = .ok a ∧ f a = .ok y := by
  cases x with
  | ok a => exact ⟨a, rfl, h⟩
  | error e => cases h

theorem refuseIf_ok {c : Bool} {text : Msg} {r : Unit} (h : refuseIf c cid text = .ok r) : c = false := by
  cases c with
  | false => rfl
  | true => cases h

theorem raising_ok {x : Except Exc α} {a : α} (h : raising x = .ok a) : x = .ok a := by
  cases x with
  | ok v =>
    cases h
    rfl
  | error e => cases h

/-- A text without a match has no character of the class. -/
theorem meta_free {tok : PyStr} (h : (META.search tok).isSome = false) : ∀ c ∈ tok, isMeta c = false := by
  have hnone := searchFrom_eq_none (Option.isNone_iff_eq_none.1 (Option.isSome_eq_false_iff.1 h))
  intro c hc
  obtain ⟨front, back, rfl⟩ := List.append_of_mem hc
  have hplace := hnone front.length (by simp)
  rw [here_eq_none, META] at hplace
  by_contra hmeta
  have hmem : ((Place.mk [] (front ++ c :: back) []).skip front.length).skip 1 ∈
      ends (char isMeta) ((Place.mk [] (front ++ c :: back) []).skip front.length) := by
    refine mem_ends_char.2 ⟨c, back, ?_, by simpa using hmeta, rfl⟩
    rw [Place.skip_after, List.drop_left]
  rw [hplace] at hmem
  exact absurd hmem List.not_mem_nil

/-- **What `_check_tokens` accepts.** -/
theorem check_tokens_ok : ∀ {vs : List Json} {toks : List PyStr}, _check_tokens u cid vs = .ok toks →
    vs = toks.map Json.str ∧ ∀ tok ∈ toks, Harmless u tok := by
  intro vs
  induction vs with
  | nil =>
    intro toks h
    cases h
    exact ⟨rfl, fun _ h => absurd h List.not_mem_nil⟩
  | cons v vs ih =>
    intro toks h
    cases v with
    | str tok =>
      rw [_check_tokens] at h
      obtain ⟨_, -, h⟩ := then_ok h
      cases hp : placeholder tok with
      | some key =>
        rw [hp] at h
        obtain ⟨_, -, h⟩ := then_ok h
        obtain ⟨rest, hrest, h⟩ := then_ok h
        cases h
        obtain ⟨rfl, hall⟩ := ih hrest
        refine ⟨rfl, List.forall_mem_cons.2 ⟨fun hnone => ?_, hall⟩⟩
        cases hp.symm.trans hnone
      | none =>
        rw [hp] at h
        obtain ⟨_, hmeta, h⟩ := then_ok h
        obtain ⟨_, hlower, h⟩ := then_ok h
        obtain ⟨rest, hrest, h⟩ := then_ok h
        cases h
        obtain ⟨rfl, hall⟩ := ih hrest
        refine ⟨rfl, List.forall_mem_cons.2 ⟨fun _ => ⟨meta_free (refuseIf_ok hmeta), ?_⟩, hall⟩⟩
        exact of_decide_eq_false (refuseIf_ok hlower)
    | null | bool _ | int _ | float _ | arr _ | obj _ => cases h

/-- **What the loader takes for the subcommand.** -/
theorem subcommand_ok {sub : PyStr} : ∀ {toks : List PyStr},
    subcommand (toks.map Json.str) = .ok (some sub) → ∃ front back, toks = front ++ sub :: back ∧
      (∀ tok ∈ front, passedOver tok = true) ∧ passedOver sub = false := by
  intro toks
  induction toks with
  | nil => exact fun h => nomatch h
  | cons tok toks ih =>
    intro h
    rw [List.map_cons, subcommand] at h
    split at h
    · rename_i hpass
      obtain ⟨front, back, rfl, hfront, hsub⟩ := ih h
      exact ⟨tok :: front, back, rfl, List.forall_mem_cons.2 ⟨hpass, hfront⟩, hsub⟩
    · rename_i hpass
      cases h
      exact ⟨[], toks, rfl, fun _ h => absurd h List.not_mem_nil, Bool.eq_false_iff.2 hpass⟩

theorem executable_ok {v : Json} {x : Executable} (h : executable v = .ok (some x)) : v = .str x.text := by
  unfold executable at h
  split at h
  · have hfind := List.find?_some (Except.ok.inj h)
    exact Json.eqStr_iff.1 hfind
  · cases h

theorem readArgv_ok {argv : List PyStr} (h : readArgv u cid e = .ok argv) :
    (∃ (x : Executable) (front : List PyStr) (sub : PyStr) (back : List PyStr),
      argv = x.text :: (front ++ sub :: back) ∧ (∀ tok ∈ front, passedOver tok = true) ∧
        passedOver sub = false ∧ sub ∈ READ_ONLY_EXEC x) ∧ ∀ tok ∈ argv, Harmless u tok := by
  unfold readArgv at h
  obtain ⟨v, -, h⟩ := then_ok h
  obtain ⟨vs, -, h⟩ := then_ok h
  cases vs with
  | nil => cases h
  | cons exe vs =>
    obtain ⟨x, hx, h⟩ := then_ok h
    cases x with
    | none => cases h
    | some x =>
      obtain ⟨s, hs, h⟩ := then_ok h
      obtain ⟨_, hread, h⟩ := then_ok h
      obtain ⟨hvs, hall⟩ := check_tokens_ok h
      cases argv with
      | nil => cases hvs
      | cons tok toks =>
        rw [List.map_cons] at hvs
        obtain ⟨hexe, rfl⟩ := List.cons.inj hvs
        have htok := (executable_ok (raising_ok hx)).symm.trans hexe
        cases s with
        | none => cases hread
        | some s =>
          obtain ⟨front, back, rfl, hfront, hsub⟩ := subcommand_ok (raising_ok hs)
          have hmem := refuseIf_ok hread
          simp only [Option.any_some, Bool.not_eq_false', decide_eq_true_eq] at hmem
          exact ⟨⟨x, front, s, back, by rw [Json.str.inj htok], hfront, hsub, hmem⟩, hall⟩

theorem readOptional_ok {args : List (PyStr × ArgSpec)} : ∀ {kvs : Fields}
    {opt : List (PyStr × List PyStr)}, readOptional u cid args kvs = .ok opt →
      ∀ o ∈ opt, ∀ tok ∈ o.2, Harmless u tok := by
  intro kvs
  induction kvs with
  | nil =>
    intro opt h
    cases h
    exact fun _ h => absurd h List.not_mem_nil
  | cons kv kvs ih =>
    intro opt h
    obtain ⟨aname, toks⟩ := kv
    rw [readOptional] at h
    obtain ⟨_, -, h⟩ := then_ok h
    obtain ⟨vs, -, h⟩ := then_ok h
    obtain ⟨strs, hcheck, h⟩ := then_ok h
    obtain ⟨rest, hrest, h⟩ := then_ok h
    cases h
    exact List.forall_mem_cons.2 ⟨(check_tokens_ok hcheck).2, ih hrest⟩

/-- **What is true of an accepted `exec` entry.** -/
theorem readCommand_readOnly {cmd : Command} (h : readCommand b u cid e = .ok cmd)
    (hexec : cmd.kind = .exec) : ReadOnly u cmd := by
  unfold readCommand at h
  obtain ⟨_, -, h⟩ := then_ok h
  obtain ⟨_, -, h⟩ := then_ok h
  obtain ⟨_, -, h⟩ := then_ok h
  obtain ⟨kind, -, h⟩ := then_ok h
  obtain ⟨a, -, h⟩ := then_ok h
  obtain ⟨kvs, -, h⟩ := then_ok h
  obtain ⟨args, -, h⟩ := then_ok h
  split at h
  · obtain ⟨argv, hargv, h⟩ := then_ok h
    obtain ⟨o, -, h⟩ := then_ok h
    obtain ⟨ofields, -, h⟩ := then_ok h
    obtain ⟨opt, hopt, h⟩ := then_ok h
    obtain ⟨_, -, h⟩ := then_ok h
    obtain ⟨_, -, h⟩ := then_ok h
    obtain ⟨_, -, h⟩ := then_ok h
    obtain ⟨_, -, h⟩ := then_ok h
    obtain ⟨_, -, h⟩ := then_ok h
    obtain ⟨_, -, h⟩ := then_ok h
    obtain ⟨_, -, h⟩ := then_ok h
    cases h
    obtain ⟨hline, hall⟩ := readArgv_ok hargv
    exact ⟨hline, hall, readOptional_ok hopt⟩
  · split at h
    · obtain ⟨_, -, h⟩ := then_ok h
      obtain ⟨_, -, h⟩ := then_ok h
      obtain ⟨_, -, h⟩ := then_ok h
      obtain ⟨_, -, h⟩ := then_ok h
      obtain ⟨_, -, h⟩ := then_ok h
      obtain ⟨_, -, h⟩ := then_ok h
      cases h
      cases hexec
    · split at h
      · obtain ⟨_, -, h⟩ := then_ok h
        cases h
        cases hexec
      · cases h

/-- Every command of an accepted table was read from an entry. -/
theorem mem_readCommands {x : PyStr × Command} : ∀ {kvs : Fields} {cmds : List (PyStr × Command)},
    readCommands b u kvs = .ok cmds → x ∈ cmds → ∃ e, (x.1, e) ∈ kvs ∧ readCommand b u x.1 e = .ok x.2 := by
  intro kvs
  induction kvs with
  | nil =>
    intro cmds h hx
    cases h
    exact absurd hx List.not_mem_nil
  | cons kv kvs ih =>
    intro cmds h hx
    obtain ⟨id, e⟩ := kv
    rw [readCommands] at h
    obtain ⟨cmd, hcmd, h⟩ := then_ok h
    obtain ⟨rest, hrest, h⟩ := then_ok h
    cases h
    rcases List.mem_cons.1 hx with rfl | hx
    · exact ⟨e, List.mem_cons_self, hcmd⟩
    · obtain ⟨e', he', hread⟩ := ih hrest hx
      exact ⟨e', List.mem_cons_of_mem _ he', hread⟩

theorem mem_load {data : Json} {t : CommandTable} {x : PyStr × Command}
    (h : load_table_data b u data = .ok t) (hx : x ∈ t.commands) :
    ∃ e, readCommand b u x.1 e = .ok x.2 := by
  unfold load_table_data at h
  split at h
  · obtain ⟨cmds, hcmds, h⟩ := then_ok h
    obtain ⟨_, -, h⟩ := then_ok h
    obtain ⟨_, -, h⟩ := then_ok h
    cases h
    obtain ⟨e, -, he⟩ := mem_readCommands hcmds hx
    exact ⟨e, he⟩
  · cases h

end Loader

/-! ## The executed command line -/

section Executed

variable {b : Builtins} {u : UnicodeData} {cmd : Command} {args local_ : Fields} {argv : List PyStr}

/-- The tokens in front of the one the loader takes for the subcommand. -/
def Command.front (cmd : Command) : List PyStr := cmd.argv.tail.takeWhile passedOver

/-- The tokens behind it, those of the optional arguments included. -/
def Command.back (cmd : Command) (args : Fields) : List PyStr :=
  (cmd.tokens args).drop (cmd.front.length + 2)

/-- **The command is read-only**: its executable is one of the two, the subcommand it is executed with
is a read-only one, and no token that is used as it stands has a shell metacharacter or changes
state. -/
structure Confined (u : UnicodeData) (cmd : Command) (argv : List PyStr) : Prop where
  executed : ∃ x : Executable, argv.head? = some x.text ∧
    ∃ sub ∈ READ_ONLY_EXEC x, subcommandOf x false argv.tail = some sub
  literals : ∀ tok, tok ∈ cmd.argv ∨ (∃ o ∈ cmd.optional_argv, tok ∈ o.2) → placeholder tok = none →
    (∀ c ∈ tok, isMeta c = false) ∧ lower u tok ∉ STATE_CHANGING ∧ tok ∉ STATE_CHANGING

/-- Nothing in front of the loader's subcommand is read as one, or that is a read-only one as well;
and if the loader's subcommand is the value of an option, the one behind it is a read-only one. -/
def ReadsOn (x : Executable) (front back : List PyStr) : Prop :=
  match reading x false front with
  | .options false => True
  | .options true => ∃ sub ∈ READ_ONLY_EXEC x, subcommandOf x false back = some sub
  | .found sub => sub ∈ READ_ONLY_EXEC x

/-- The same for the tokens of a command with their placeholders filled. -/
def ReadsOnIn (b : Builtins) (cmd : Command) (args local_ : Fields) : Prop :=
  ∀ (x : Executable) (front back : List PyStr), cmd.argv.head? = some x.text →
    fillAll b args local_ cmd.front = .ok front → fillAll b args local_ (cmd.back args) = .ok back →
      ReadsOn x front back

theorem fillAll_append : ∀ {front back argv : List PyStr},
    fillAll b args local_ (front ++ back) = .ok argv → ∃ f k, fillAll b args local_ front = .ok f ∧
      fillAll b args local_ back = .ok k ∧ argv = f ++ k := by
  intro front
  induction front with
  | nil => exact fun {back argv} h => ⟨[], argv, rfl, h, rfl⟩
  | cons tok front ih =>
    intro back argv h
    rw [List.cons_append, fillAll] at h
    cases ht : fill b args local_ tok with
    | error e =>
      rw [ht] at h
      cases h
    | ok t =>
      cases hr : fillAll b args local_ (front ++ back) with
      | error e =>
        rw [ht, hr] at h
        cases h
      | ok rest =>
        rw [ht, hr] at h
        cases h
        obtain ⟨f, k, hf, hk, rfl⟩ := ih hr
        refine ⟨t :: f, k, ?_, hk, rfl⟩
        rw [fillAll, ht, hf]
        rfl

/-- A literal token is used as it is. -/
theorem fillAll_literal {tok : PyStr} {toks : List PyStr} (h : placeholder tok = none)
    (hargv : fillAll b args local_ (tok :: toks) = .ok argv) :
    ∃ rest, fillAll b args local_ toks = .ok rest ∧ argv = tok :: rest := by
  have hfill : fill b args local_ tok = .ok tok := by rw [fill, h]
  rw [fillAll, hfill] at hargv
  cases hr : fillAll b args local_ toks with
  | error e =>
    rw [hr] at hargv
    cases hargv
  | ok rest =>
    rw [hr] at hargv
    cases hargv
    exact ⟨rest, rfl, rfl⟩

theorem executable_literal (x : Executable) : placeholder x.text = none := by
  cases x <;> decide +kernel

theorem executable_injective {x y : Executable} (h : x.text = y.text) : x = y := by
  cases x <;> cases y <;> first
    | rfl
    | exact absurd h (by decide)

/-- The read-only subcommands are no options. -/
theorem subcommandOf_literal {x : Executable} {sub : PyStr} {back : List PyStr}
    (h : isOption sub = false) : subcommandOf x false (sub :: back) = some sub := by
  have hvalue : takesValue x sub = false := by
    refine decide_eq_false fun hx => ?_
    rw [hx.2] at h
    exact absurd h (by decide)
  rw [subcommandOf, reading, if_neg (by rw [hvalue]; exact Bool.false_ne_true),
    if_neg (by rw [h]; exact Bool.false_ne_true)]

theorem not_mem_state_changing {tok : PyStr} (h : lower u tok ∉ STATE_CHANGING) : tok ∉ STATE_CHANGING := by
  intro hmem
  have hascii : ∀ t ∈ STATE_CHANGING, ∀ c ∈ t, c < 128 ∧ isUpper c = false := by decide +kernel
  rw [lower_of_ascii u (hascii tok hmem)] at h
  exact h hmem

/-- **When the executed subcommand is a read-only one**, for an accepted command. -/
theorem confined_of_readOnly (hro : ReadOnly u cmd) (hargv : assemble_argv b cmd args local_ = .ok argv) :
    Confined u cmd argv ↔ ReadsOnIn b cmd args local_ := by
  obtain ⟨x, front, sub, back, hline, hfront, hsub, hmem⟩ := hro.line
  obtain ⟨hopt, hlit⟩ := Bool.or_eq_false_iff.1 hsub
  have hnone : placeholder sub = none := Option.isNone_iff_eq_none.1 (Option.isSome_eq_false_iff.1 hlit)
  have hliterals : ∀ tok, tok ∈ cmd.argv ∨ (∃ o ∈ cmd.optional_argv, tok ∈ o.2) →
      placeholder tok = none →
        (∀ c ∈ tok, isMeta c = false) ∧ lower u tok ∉ STATE_CHANGING ∧ tok ∉ STATE_CHANGING := by
    intro tok htok hn
    have hharmless : Harmless u tok := by
      rcases htok with htok | ⟨o, ho, htok⟩
      · exact hro.argv tok htok
      · exact hro.optional o ho tok htok
    obtain ⟨hmeta, hlower⟩ := hharmless hn
    exact ⟨hmeta, hlower, not_mem_state_changing hlower⟩
  -- the tokens in front of the subcommand and behind it
  have hfronts : cmd.front = front := by
    rw [Command.front, hline, List.tail_cons, List.takeWhile_append_of_pos hfront,
      List.takeWhile_cons_of_neg (by rw [hsub]; exact Bool.false_ne_true), List.append_nil]
  have htokens : cmd.tokens args = x.text :: (front ++ sub :: cmd.back args) := by
    have hback : cmd.back args = back ++
        (cmd.optional_argv.filter fun o => (Json.lookup o.1 args).isSome).flatMap Prod.snd := by
      rw [Command.back, hfronts, Command.tokens, hline, List.cons_append, List.drop_succ_cons]
      simp [List.drop_append]
    rw [hback, Command.tokens, hline]
    simp
  rw [assemble_argv, htokens] at hargv
  obtain ⟨rest, hrest, rfl⟩ := fillAll_literal (executable_literal x) hargv
  obtain ⟨f, k, hf, hk, rfl⟩ := fillAll_append hrest
  obtain ⟨bs, hbs, rfl⟩ := fillAll_literal hnone hk
  -- what is executed is read through the filled tokens in front
  have hread : (∃ s ∈ READ_ONLY_EXEC x, subcommandOf x false (f ++ sub :: bs) = some s) ↔ ReadsOn x f bs := by
    rw [subcommandOf_append, ReadsOn]
    cases hr : reading x false f with
    | found s => simp
    | options pending =>
      cases pending with
      | false =>
        refine iff_of_true ⟨sub, hmem, subcommandOf_literal hopt⟩ trivial
      | true => exact Iff.rfl
  have hconfined : Confined u cmd (x.text :: (f ++ sub :: bs)) ↔
      ∃ s ∈ READ_ONLY_EXEC x, subcommandOf x false (f ++ sub :: bs) = some s := by
    constructor
    · rintro ⟨⟨y, hy, hs⟩, -⟩
      cases executable_injective (Option.some.inj hy)
      exact hs
    · exact fun hs => ⟨⟨x, rfl, hs⟩, hliterals⟩
  rw [hconfined, hread]
  constructor
  · intro h y f' b' hy hf' hb'
    rw [hline] at hy
    cases executable_injective (Option.some.inj hy)
    rw [hfronts] at hf'
    cases hf.symm.trans hf'
    cases hbs.symm.trans hb'
    exact h
  · exact fun h => h x f bs (by rw [hline]; rfl) (by rw [hfronts]; exact hf) hbs

/-- **When the executed subcommand is a read-only one**, for a command of an accepted table. -/
theorem confined_iff {data : Json} {t : CommandTable} {cid : PyStr}
    (hload : load_table_data b u data = .ok t) (hcmd : (cid, cmd) ∈ t.commands)
    (hexec : cmd.kind = .exec) (hargv : assemble_argv b cmd args local_ = .ok argv) :
    Confined u cmd argv ↔ ReadsOnIn b cmd args local_ := by
  obtain ⟨e, he⟩ := mem_load hload hcmd
  exact confined_of_readOnly (readCommand_readOnly he hexec) hargv

/-! ### Two tables -/

/-- A placeholder. -/
def slot (key : String) : PyStr := 123 :: (py key ++ [125])

/-- A table with one command. -/
def tableOf (cid : String) (argv : List PyStr) : Json :=
  .obj [(py "commands", .obj [(py cid, .obj [(py "kind", .str (py "exec")),
    (py "read_only", .bool true), (py "argv", .arr (argv.map Json.str))])])]

/-- The command of such a table. -/
def commandOf (cid : String) (argv : List PyStr) : Command where
  id := py cid
  kind := .exec
  argv := argv
  timeout_s := (Double.ofInt? 15).getD .zero

/-- `monitor`, with the ledger as the value of its option. -/
def monitorLine : List PyStr := [py "agave-validator", py "-l", slot "ledger", py "monitor"]

/-- `plugin`, with `monitor` as the value of its option. -/
def pluginLine : List PyStr := [py "agave-validator", py "-l", py "monitor", py "plugin", py "unload"]

theorem confined_monitor : Confined asciiData (commandOf "validator_monitor" monitorLine)
    [py "agave-validator", py "-l", py "/mnt/ledger", py "monitor"] := by
  have hload : load_table_data sampleBuiltins asciiData (tableOf "validator_monitor" monitorLine) =
      .ok ⟨1, [(py "validator_monitor", commandOf "validator_monitor" monitorLine)]⟩ := by
    decide +kernel
  have hargv : assemble_argv sampleBuiltins (commandOf "validator_monitor" monitorLine) []
      [(py "ledger", .str (py "/mnt/ledger"))] =
        .ok [py "agave-validator", py "-l", py "/mnt/ledger", py "monitor"] := by decide +kernel
  refine (confined_iff hload List.mem_cons_self rfl hargv).2 fun x front back hx hfront _ => ?_
  cases x with
  | solana => exact absurd hx (by decide)
  | agave_validator =>
    have hf : fillAll sampleBuiltins [] [(py "ledger", .str (py "/mnt/ledger"))]
        (commandOf "validator_monitor" monitorLine).front = .ok [py "-l", py "/mnt/ledger"] := by
      decide +kernel
    cases hf.symm.trans hfront
    trivial

/-- The loader takes the value of an option for the subcommand. -/
theorem plugin_executed : ¬ ∀ (b : Builtins) (u : UnicodeData) (data : Json) (t : CommandTable)
    (cid : PyStr) (cmd : Command) (request : Json) (args local_ : Fields) (argv : List PyStr),
    load_table_data b u data = .ok t → (cid, cmd) ∈ t.commands → cmd.kind = .exec →
      validate_args cmd request = .ok args → assemble_argv b cmd args local_ = .ok argv →
        Confined u cmd argv := by
  intro h
  have hload : load_table_data sampleBuiltins asciiData (tableOf "plugins" pluginLine) =
      .ok ⟨1, [(py "plugins", commandOf "plugins" pluginLine)]⟩ := by decide +kernel
  have hargv : assemble_argv sampleBuiltins (commandOf "plugins" pluginLine) [] [] = .ok pluginLine := by
    decide +kernel
  obtain ⟨x, hx, sub, hmem, hsub⟩ := (h _ _ _ _ _ _ .null [] [] _ hload List.mem_cons_self rfl rfl
    hargv).executed
  cases x with
  | solana => exact absurd hx (by decide)
  | agave_validator =>
    have hplugin : subcommandOf .agave_validator false pluginLine.tail = some (py "plugin") := by
      decide +kernel
    cases Option.some.inj (hplugin.symm.trans hsub)
    exact absurd hmem (by decide)

end Executed

end Valops.Observer
