import Valops.Common.Schema

/-!
# Roles, states and tools

The enumerations that travel as strings, and the part of the tool table the store applies: for
each tool its roles, the episode states in which it is legal, and the input schemas the store
checks again.
-/

set_option autoImplicit false

namespace Valops

open Py

/-- The member of an enumeration that a value names. -/
def named {α : Type} (all : List α) (text : α → PyStr) (v : Json) : Option α :=
  all.find? fun a => v.eqStr (text a)

theorem named_eq_some {α : Type} {all : List α} {text : α → PyStr} {v : Json} {a : α}
    (h : named all text v = some a) : v = .str (text a) := by
  have heq := List.find?_some (p := fun a => v.eqStr (text a)) h
  exact Json.eqStr_iff.1 heq

/-- `hash(v)`, which raises `TypeError` on lists and dicts. -/
def hashed (v : Json) : Except Exc Unit := require v.hashable (.other .typeError)

/-! ## Enumerations -/

/-- The worker roles. -/
inductive Role where
  | diagnostician | change_planner | proposal_judge | reporter
  deriving DecidableEq, Repr

namespace Role

def text : Role → PyStr
  | diagnostician => py "diagnostician"
  | change_planner => py "change_planner"
  | proposal_judge => py "proposal_judge"
  | reporter => py "reporter"

/-- `ROLES`. -/
def all : List Role := [diagnostician, change_planner, proposal_judge, reporter]

def ofJson : Json → Option Role := named all text

@[simp] theorem ofJson_text (r : Role) : ofJson (.str r.text) = some r := by cases r <;> decide

theorem ofJson_eq_some {v : Json} {r : Role} : ofJson v = some r ↔ v = .str r.text :=
  ⟨named_eq_some, fun h => h ▸ ofJson_text r⟩

theorem text_injective {r r' : Role} (h : r.text = r'.text) : r = r' := by
  have hr := ofJson_text r
  rw [h, ofJson_text] at hr
  exact (Option.some.inj hr).symm

end Role

/-- The states of an episode. -/
inductive EpisodeState where
  | «open» | diagnosing | recommending | judging | reporting | awaiting_operator | resolved
  | handed_off
  deriving DecidableEq, Repr

namespace EpisodeState

def text : EpisodeState → PyStr
  | «open» => py "open"
  | diagnosing => py "diagnosing"
  | recommending => py "recommending"
  | judging => py "judging"
  | reporting => py "reporting"
  | awaiting_operator => py "awaiting_operator"
  | resolved => py "resolved"
  | handed_off => py "handed_off"

/-- `STATES`. -/
def all : List EpisodeState :=
  [«open», diagnosing, recommending, judging, reporting, awaiting_operator, resolved, handed_off]

def ofJson : Json → Option EpisodeState := named all text

@[simp] theorem ofJson_text (s : EpisodeState) : ofJson (.str s.text) = some s := by
  cases s <;> decide

theorem ofJson_eq_some {v : Json} {s : EpisodeState} : ofJson v = some s ↔ v = .str s.text :=
  ⟨named_eq_some, fun h => h ▸ ofJson_text s⟩

end EpisodeState

/-- `MODES`. -/
inductive Mode where
  | tower | alpenglow | unknown
  deriving DecidableEq, Repr

namespace Mode

def text : Mode → PyStr
  | tower => py "tower"
  | alpenglow => py "alpenglow"
  | unknown => py "unknown"

def all : List Mode := [tower, alpenglow, unknown]

def ofJson : Json → Option Mode := named all text

@[simp] theorem ofJson_text (m : Mode) : ofJson (.str m.text) = some m := by cases m <;> decide

end Mode

/-- `CLASSES`. -/
inductive EpisodeClass where
  | validator_health | telemetry_health
  deriving DecidableEq, Repr

namespace EpisodeClass

def text : EpisodeClass → PyStr
  | validator_health => py "validator_health"
  | telemetry_health => py "telemetry_health"

def all : List EpisodeClass := [validator_health, telemetry_health]

def ofJson : Json → Option EpisodeClass := named all text

@[simp] theorem ofJson_text (c : EpisodeClass) : ofJson (.str c.text) = some c := by
  cases c <;> decide

end EpisodeClass

/-! ## Schemas -/

/-- `_STR`, or a string with another bound. -/
def strSchema (maxLength : Nat) : Schema :=
  .node { types := [.string], minLength := 1, maxLength := some maxLength } none []

/-- A string that matches `^[letters][0-9]+$`. -/
def idSchema (source : String) (letters : PyStr) : Schema :=
  .node { types := [.string], pattern := some (idPattern source letters) } none []

/-- A string out of a list. -/
def enumSchema (values : List String) : Schema :=
  .node { types := [.string], enum := some (values.map fun v => .str (py v)) } none []

/-- A list of items. -/
def listSchema (items : Schema) (minItems maxItems : Nat) : Schema :=
  .node { types := [.array], minItems := minItems, maxItems := some maxItems } (some items) []

/-- An object with these properties and no others. -/
def objectSchema (required : List String) (properties : List (String × Schema)) : Schema :=
  .node { types := [.object], required := required.map py, additionalProperties := false } none
    (properties.map fun prop => (py prop.1, prop.2))

/-- The input schema of `propose_recommendation`. -/
def recommendationSchema : Schema :=
  objectSchema ["hypothesis_id", "action_text", "skill", "preconditions", "expected_postcondition",
      "evidence_refs"]
    [("hypothesis_id", idSchema "^h[0-9]+$" (py "h")), ("action_text", strSchema 4000),
      ("skill", strSchema 80), ("preconditions", listSchema (strSchema 4000) 1 20),
      ("expected_postcondition", strSchema 4000),
      ("evidence_refs", listSchema (idSchema "^s[0-9]+$" (py "s")) 1 50)]

/-- The schema of `checks` in the input of `submit_verdict`. -/
def checksSchema : Schema :=
  listSchema
    (.node { types := [.object], required := [py "check", py "result"],
             additionalProperties := false } none
      [(py "check", strSchema 200), (py "result", enumSchema ["pass", "fail", "n/a"]),
        (py "note", .node { types := [.string], maxLength := some 2000 } none [])]) 1 30

/-! ## Tools -/

/-- `ToolSpec`, as far as the store applies it. -/
structure ToolSpec where
  roles : List Role
  states : List EpisodeState

/-- The operations of the agent endpoints whose tool the gate looks up. -/
inductive AgentOp where
  | append_hypothesis | append_hypothesis_status | append_recommendation | append_no_action
  | append_verdict | append_report
  deriving DecidableEq, Repr

/-- `TOOLS_BY_NAME[AGENT_OPS[op]]`. -/
def AgentOp.tool : AgentOp → ToolSpec
  | .append_hypothesis => ⟨[.diagnostician], [.diagnosing]⟩
  | .append_hypothesis_status => ⟨[.diagnostician], [.diagnosing]⟩
  | .append_recommendation => ⟨[.change_planner], [.recommending]⟩
  | .append_no_action => ⟨[.change_planner], [.recommending]⟩
  | .append_verdict => ⟨[.proposal_judge], [.judging]⟩
  | .append_report => ⟨[.reporter], [.reporting, .resolved]⟩

/-- The operation's name. -/
def AgentOp.name : AgentOp → PyStr
  | .append_hypothesis => py "append_hypothesis"
  | .append_hypothesis_status => py "append_hypothesis_status"
  | .append_recommendation => py "append_recommendation"
  | .append_no_action => py "append_no_action"
  | .append_verdict => py "append_verdict"
  | .append_report => py "append_report"

end Valops
