import Valops.ModelBroker.Providers

/-!
# One answer, whole and streamed

A provider reports the usage of an answer in one JSON body or in the events of a stream, each on one
`data:` line of a `text/event-stream`. The two readers of the broker should count the same.

Main result: `streamed_as_plain` (when they do). Controls: `cached_input_dropped`, `event_torn`.
-/

set_option autoImplicit false

namespace Valops.ModelBroker

open Py

/-! ## Event streams -/

section Lines

/-- The loop of the lines of an event stream, with the line it is in. -/
def eventLinesLoop : PyStr → PyStr → List PyStr
  | line, [] => if line = [] then [] else [line]
  | line, 0x0D :: 0x0A :: rest => line :: eventLinesLoop [] rest
  | line, c :: rest =>
    if c = 0x0A ∨ c = 0x0D then line :: eventLinesLoop [] rest else eventLinesLoop (line ++ [c]) rest

/-- The lines of an event stream: a line ends at a line feed, a carriage return, or both. -/
def eventLines (text : PyStr) : List PyStr := eventLinesLoop [] text

/-- The JSON values on the `data:` lines of an event stream. -/
def eventValues (text : PyStr) : List Json :=
  (((eventLines text).filter fun l => decide (py "data:" <+: l)).map fun l =>
    (((l.drop 5).dropWhile isSpace).reverse.dropWhile isSpace).reverse).filterMap loads

/-- No character of the text ends a line for `str.splitlines` only. -/
def Intact (text : PyStr) : Prop := ∀ c ∈ text, isLineBreak c = true → c = 0x0A ∨ c = 0x0D

theorem splitlinesLoop_intact (line text : PyStr) (h : Intact text) :
    splitlinesLoop line text = eventLinesLoop line text := by
  induction line, text using eventLinesLoop.induct with
  | case1 => rfl
  | case2 line hne => rw [splitlinesLoop, eventLinesLoop]
  | case3 line rest ih =>
    rw [splitlinesLoop, eventLinesLoop, ih]
    exact fun c hc => h c (List.mem_cons_of_mem _ (List.mem_cons_of_mem _ hc))
  | case4 line c rest hcr hc ih =>
    have hbreak : isLineBreak c = true := by
      rcases hc with rfl | rfl <;> rfl
    rw [splitlinesLoop, eventLinesLoop, if_pos hbreak, if_pos hc, ih]
    · exact fun d hd => h d (List.mem_cons_of_mem _ hd)
    · exact hcr
    · exact hcr
  | case5 line c rest hcr hc ih =>
    have hbreak : isLineBreak c ≠ true := fun hb => hc (h c List.mem_cons_self hb)
    rw [splitlinesLoop, eventLinesLoop, if_neg hbreak, if_neg hc, ih]
    · exact fun d hd => h d (List.mem_cons_of_mem _ hd)
    · exact hcr
    · exact hcr

theorem dataLines_intact {text : PyStr} (h : Intact text) :
    (dataLines text).filterMap loads = eventValues text := by
  rw [dataLines, splitlines, splitlinesLoop_intact [] text h]
  rfl

end Lines

/-! ## Reports of usage -/

/-- The figures of an answer. -/
structure Figures where
  input : Nat
  cache_creation : Nat
  cache_read : Nat
  output : Nat
  thoughts : Nat

namespace Figures

/-- The cached input tokens. -/
def cached (f : Figures) : Nat := f.cache_creation + f.cache_read

/-- The input and output tokens that a provider charges for. -/
def total (f : Figures) : Provider → Int × Int
  | .anthropic => (f.input + f.cached, f.output)
  | .openai => (f.input, f.output)
  | .google => (f.input, f.output + f.thoughts)

end Figures

/-- The record gives the figure. -/
def Gives (u : Fields) (k : String) (n : Nat) : Prop := field u k = .int n

/-- The record gives the figure, or says nothing of it because it is zero. -/
def Says (u : Fields) (k : String) (n : Nat) : Prop := Gives u k n ∨ n = 0 ∧ field u k = .null

/-- The usage record of a provider, for an answer with these figures. -/
def Reported (f : Figures) (u : Fields) : Provider → Prop
  | .anthropic => Gives u "input_tokens" f.input ∧ Gives u "output_tokens" f.output ∧
    Says u "cache_creation_input_tokens" f.cache_creation ∧
    Says u "cache_read_input_tokens" f.cache_read
  | .openai =>
    -- a chat completion and a response name them differently
    Gives u "prompt_tokens" f.input ∧ Gives u "completion_tokens" f.output ∨
    Json.lookup (py "prompt_tokens") u = none ∧ Json.lookup (py "completion_tokens") u = none ∧
      Gives u "input_tokens" f.input ∧ Gives u "output_tokens" f.output
  | .google => Says u "promptTokenCount" f.input ∧ Says u "candidatesTokenCount" f.output ∧
    Says u "thoughtsTokenCount" f.thoughts

/-- The field of a body that holds its usage record. -/
def usageKey : Provider → String
  | .google => "usageMetadata"
  | _ => "usage"

/-- A body that reports the figures. -/
def Body (p : Provider) (f : Figures) (body : Json) : Prop :=
  ∃ o u, body = .obj o ∧ field o (usageKey p) = .obj u ∧ Reported f u p

/-- The first event of an anthropic stream: the input figures. -/
def Start (f : Figures) (v : Json) : Prop :=
  ∃ o m u, v = .obj o ∧ field o "type" = .str (py "message_start") ∧ field o "message" = .obj m ∧
    field m "usage" = .obj u ∧ Gives u "input_tokens" f.input ∧
    Says u "cache_creation_input_tokens" f.cache_creation ∧
    Says u "cache_read_input_tokens" f.cache_read

/-- The last report of an anthropic stream: the output, and the input again where the API includes
it. -/
def Delta (f : Figures) (repeats : Bool) (v : Json) : Prop :=
  ∃ o u, v = .obj o ∧ field o "type" = .str (py "message_delta") ∧ field o "usage" = .obj u ∧
    Gives u "output_tokens" f.output ∧
    if repeats then Gives u "input_tokens" f.input else field u "input_tokens" = .null

/-- An event of the other providers that reports the figures so far. -/
def Cumulative (p : Provider) (f : Figures) (v : Json) : Prop :=
  Body p f v ∨ p = .openai ∧ ∃ o r u, v = .obj o ∧ field o "usage" = .null ∧
    field o "response" = .obj r ∧ field r "usage" = .obj u ∧ Reported f u p

/-- An event that reports nothing. -/
def Quiet (v : Json) : Provider → Prop
  | .anthropic => ∃ o, v = .obj o ∧ field o "type" ≠ .str (py "message_start") ∧
    field o "type" ≠ .str (py "message_delta")
  | .openai => ∃ o, v = .obj o ∧ field o "usage" = .null ∧
    (field o "response" = .null ∨ ∃ r, field o "response" = .obj r ∧ field r "usage" = .null)
  | .google => ∃ o, v = .obj o ∧ field o "usageMetadata" = .null

/-- The events of an answer with these figures; `repeats` where the last report gives the input
again. -/
inductive Events (f : Figures) (repeats : Bool) : Provider → List Json → Prop
  | anthropic {start last : Json} {contents rest : List Json} : Start f start →
      (∀ v ∈ contents, Quiet v .anthropic) → Delta f repeats last →
      (∀ v ∈ rest, Quiet v .anthropic) → Events f repeats .anthropic (start :: (contents ++ last :: rest))
  | cumulative {p : Provider} {last : Json} {contents rest : List Json} : p ≠ .anthropic →
      (∀ v ∈ contents, Quiet v p ∨ ∃ g, Cumulative p g v) → Cumulative p f last →
      (∀ v ∈ rest, Quiet v p) → Events f repeats p (contents ++ last :: rest)

/-- The last report gives the input again, and this is not the whole input. -/
def Recounted (p : Provider) (f : Figures) (repeats : Bool) : Prop :=
  p = .anthropic ∧ repeats = true ∧ f.input ≠ 0 ∧ f.cached ≠ 0

/-! ## Reading the reports -/

section Reading

variable (b : Builtins) {f : Figures} {u o : Fields} {k : String} {n : Nat} {p : Provider} {v : Json}

theorem Gives.present (h : Gives u k n) : (Json.lookup (py k) u).isSome = true := by
  rw [Gives, field] at h
  cases hl : Json.lookup (py k) u with
  | none => rw [hl] at h; cases h
  | some w => rfl

theorem Gives.lookup (h : Gives u k n) : Json.lookup (py k) u = some (.int n) := by
  rw [Gives, field] at h
  cases hl : Json.lookup (py k) u with
  | none => rw [hl] at h; cases h
  | some w =>
    rw [hl] at h
    exact congrArg some h

theorem Gives.count (h : Gives u k n) : count b (field u k) = .ok (n : Int) := by
  rw [Gives] at h
  rw [ModelBroker.count, h, orElse]
  split
  · rfl
  · rename_i hz
    have hn : (n : Int) = 0 := by simpa [Json.truthy] using hz
    rw [hn]
    rfl

theorem Says.count (h : Says u k n) : ModelBroker.count b (field u k) = .ok (n : Int) := by
  rcases h with h | ⟨rfl, h⟩
  · exact h.count b
  · rw [ModelBroker.count, h]
    rfl

theorem truthy_of_gives (h : Gives u k n) : (Json.obj u).truthy = true := by
  cases u with
  | nil => cases h
  | cons kv u => rfl

theorem anthropicInput_eq (hi : Gives u "input_tokens" f.input)
    (hc : Says u "cache_creation_input_tokens" f.cache_creation)
    (hr : Says u "cache_read_input_tokens" f.cache_read) :
    anthropicInput b u = .ok ((f.input : Int) + f.cached) := by
  rw [anthropicInput, hi.count b, hc.count b, hr.count b]
  exact congrArg Except.ok (by rw [Figures.cached]; push_cast; ring)

/-- A usage record that is not the google one gives a figure, so it is not empty. -/
theorem Reported.truthy (h : Reported f u p) (hp : p ≠ .google) : (Json.obj u).truthy = true := by
  cases p with
  | anthropic => exact truthy_of_gives h.1
  | openai =>
    rcases h with ⟨h, _⟩ | ⟨_, _, h, _⟩
    · exact truthy_of_gives h
    · exact truthy_of_gives h
  | google => exact absurd rfl hp

/-- The two counts of a usage record of openai. -/
theorem Reported.openai (h : Reported f u .openai) :
    eitherKey u "prompt_tokens" "input_tokens" = .int f.input ∧
      eitherKey u "completion_tokens" "output_tokens" = .int f.output := by
  rcases h with ⟨hi, ho⟩ | ⟨hp, hc, hi, ho⟩
  · rw [eitherKey, eitherKey, hi.lookup, ho.lookup]
    exact ⟨rfl, rfl⟩
  · rw [eitherKey, eitherKey, hp, hc]
    exact ⟨hi, ho⟩

theorem count_int (n : Nat) : count b (.int n) = .ok (n : Int) := by
  have h : Gives [(py "n", .int n)] "n" n := rfl
  exact h.count b

/-- What is read off an openai event whose usage record stands in one of its two places. -/
theorem usageOfObject_openai (hu : usageOf o "response" = .ok (.obj u)) (h : Reported f u .openai) :
    usageOfObject b .openai o = .ok (some (f.total .openai)) := by
  obtain ⟨hi, ho⟩ := h.openai
  rw [usageOfObject, hu]
  show (if _ then _ else _) = _
  rw [if_pos (.inl (by rw [hi]; exact Json.noConfusion)), hi, ho, count_int, count_int]
  rfl

/-- **A body is counted in full.** -/
theorem usage_of_body (h : Body p f v) : usage_from_json b p v = .ok (some (f.total p)) := by
  obtain ⟨o, u, rfl, hu, hr⟩ := h
  rw [usage_from_json]
  cases p with
  | anthropic =>
    have husage : usageOf o "message" = .ok (.obj u) := by
      rw [usageOf, show field o "usage" = .obj u from hu, if_pos (hr.truthy (by decide))]
      rfl
    obtain ⟨hi, ho, hc, hrd⟩ := hr
    rw [usageOfObject, husage]
    show (if _ then _ else _) = _
    rw [if_pos (.inl hi.present), anthropicInput_eq b hi hc hrd, ho.count b]
    rfl
  | openai =>
    apply usageOfObject_openai b _ hr
    rw [usageOf, show field o "usage" = .obj u from hu, if_pos (hr.truthy (by decide))]
    rfl
  | google =>
    obtain ⟨hi, ho, ht⟩ := hr
    rw [usageOfObject, show field o "usageMetadata" = .obj u from hu]
    show (_ >>= _) = _
    rw [hi.count b, ho.count b, ht.count b]
    rfl

end Reading

/-! ## Reading the events -/

section Stream

variable (b : Builtins) {f g : Figures} {p : Provider} {v : Json} {acc acc' : Partial}
  {repeats : Bool}

/-- The loop of `usage_from_stream` on the values of the events. -/
theorem streamLoop_values (ds : List PyStr) (acc : Partial) :
    streamLoop b p acc ds = (ds.filterMap loads).foldlM (streamEvent b p) acc := by
  induction ds generalizing acc with
  | nil => rfl
  | cons d ds ih =>
    rw [streamLoop]
    cases hd : loads d with
    | none => rw [List.filterMap_cons_none hd, ih]
    | some v =>
      rw [List.filterMap_cons_some hd, List.foldlM_cons]
      exact congrArg _ (funext fun acc => ih acc)

/-- An event of the other providers is read as a body. -/
theorem streamEvent_other (hp : p ≠ .anthropic) {r : Option (Int × Int)}
    (h : usage_from_json b p v = .ok r) :
    streamEvent b p acc v = .ok ((r.map fun io => (some io.1, some io.2)).getD acc) := by
  cases p with
  | anthropic => exact absurd rfl hp
  | openai =>
    rw [streamEvent, h]
    · cases r <;> rfl
    · exact hp
  | google =>
    rw [streamEvent, h]
    · cases r <;> rfl
    · exact hp

theorem usage_of_cumulative (h : Cumulative p g v) : usage_from_json b p v = .ok (some (g.total p)) := by
  rcases h with h | ⟨rfl, o, r, u, rfl, hu, hresp, hru, hr⟩
  · exact usage_of_body b h
  · rw [usage_from_json]
    apply usageOfObject_openai b _ hr
    have hne : (Json.obj r).truthy = true := by
      cases r with
      | nil => cases hru
      | cons kv r => rfl
    rw [usageOf, hu, hresp, if_neg (by decide), innerGet, orEmpty, if_pos hne]
    exact congrArg Except.ok hru

/-- A report of the figures so far replaces what was read before. -/
theorem streamEvent_cumulative (hp : p ≠ .anthropic) (h : Cumulative p g v) :
    streamEvent b p acc v = .ok (some (g.total p).1, some (g.total p).2) :=
  streamEvent_other b hp (usage_of_cumulative b h)

theorem usage_of_quiet (hp : p ≠ .anthropic) (h : Quiet v p) : usage_from_json b p v = .ok none := by
  cases p with
  | anthropic => exact absurd rfl hp
  | openai =>
    obtain ⟨o, rfl, hu, hresp⟩ := h
    rw [usage_from_json, usageOfObject, usageOf, hu, if_neg (by decide)]
    rcases hresp with hresp | ⟨r, hresp, hru⟩
    · rw [hresp]
      rfl
    · rw [hresp, innerGet, orEmpty]
      split
      · have hget : get (.obj r) "usage" = .ok .null := congrArg Except.ok hru
        rw [hget]
        rfl
      · rfl
  | google =>
    obtain ⟨o, rfl, hu⟩ := h
    rw [usage_from_json, usageOfObject, hu]
    rfl

/-- An event that reports nothing changes nothing. -/
theorem streamEvent_quiet (h : Quiet v p) : streamEvent b p acc v = .ok acc := by
  by_cases hp : p = .anthropic
  · subst hp
    obtain ⟨o, rfl, hstart, hdelta⟩ := h
    have hget : get (.obj o) "type" = .ok (field o "type") := rfl
    rw [streamEvent, hget]
    show (if _ then _ else _) = _
    rw [if_neg (fun h => hstart (Json.eqStr_iff.1 h)), if_neg (fun h => hdelta (Json.eqStr_iff.1 h))]
    rfl
  · exact streamEvent_other b hp (usage_of_quiet b hp h)

theorem streamEvent_start (h : Start f v) :
    streamEvent b .anthropic acc v = .ok (some ((f.input : Int) + f.cached), acc.2) := by
  obtain ⟨o, m, u, rfl, htype, hm, hu, hi, hc, hr⟩ := h
  have hget : get (.obj o) "type" = .ok (.str (py "message_start")) := congrArg Except.ok htype
  have hmessage : get (.obj o) "message" = .ok (.obj m) := congrArg Except.ok hm
  have husage : innerGet (.obj m) "usage" = .ok (.obj u) := by
    have hne : (Json.obj m).truthy = true := by
      cases m with
      | nil => cases hu
      | cons kv m => rfl
    rw [innerGet, orEmpty, if_pos hne]
    exact congrArg Except.ok hu
  have hor : orEmpty (.obj u) = .obj u := if_pos (truthy_of_gives hi)
  have htrue : (Json.str (py "message_start")).eqStr (py "message_start") = true :=
    Json.eqStr_iff.2 rfl
  have hinput := anthropicInput_eq b hi hc hr
  simp only [streamEvent, hget, hmessage, husage, hor, hinput, htrue, bind, Except.bind, if_true]
  rfl

/-- The last report sets the output, and the input where it gives one. -/
theorem streamEvent_delta (h : Delta f repeats v) :
    streamEvent b .anthropic acc v =
      .ok (if repeats = true ∧ f.input ≠ 0 then some (f.input : Int) else acc.1,
        some (f.output : Int)) := by
  obtain ⟨o, u, rfl, htype, hu, ho, hi⟩ := h
  have hget : get (.obj o) "type" = .ok (.str (py "message_delta")) := congrArg Except.ok htype
  have husage : get (.obj o) "usage" = .ok (.obj u) := congrArg Except.ok hu
  have hne : ¬ (Json.str (py "message_delta")).eqStr (py "message_start") = true := by decide
  have heq : (Json.str (py "message_delta")).eqStr (py "message_delta") = true :=
    Json.eqStr_iff.2 rfl
  simp only [streamEvent, hget, husage, hne, heq, ho.count b, bind, Except.bind, if_true]
  cases repeats with
  | false =>
    have hnull : field u "input_tokens" = .null := hi
    rw [hnull]
    rfl
  | true =>
    have hint : field u "input_tokens" = .int f.input := hi
    by_cases hz : f.input = 0
    · simp [hint, hz, Json.truthy]
    · simp [hint, hz, Json.truthy]

theorem fold_quiet {vs : List Json} (h : ∀ v ∈ vs, Quiet v p) (acc : Partial) :
    vs.foldlM (streamEvent b p) acc = .ok acc := by
  induction vs with
  | nil => rfl
  | cons v vs ih =>
    rw [List.foldlM_cons, streamEvent_quiet b (h v List.mem_cons_self)]
    exact ih fun w hw => h w (List.mem_cons_of_mem _ hw)

/-- Content events may report figures so far; none of them raises. -/
theorem fold_contents (hp : p ≠ .anthropic) {vs : List Json}
    (h : ∀ v ∈ vs, Quiet v p ∨ ∃ g, Cumulative p g v) (acc : Partial) :
    ∃ acc', vs.foldlM (streamEvent b p) acc = .ok acc' := by
  induction vs generalizing acc with
  | nil => exact ⟨acc, rfl⟩
  | cons v vs ih =>
    have hvs := fun w hw => h w (List.mem_cons_of_mem _ hw)
    rw [List.foldlM_cons]
    rcases h v List.mem_cons_self with hq | ⟨g, hg⟩
    · rw [streamEvent_quiet b hq]
      exact ih hvs acc
    · rw [streamEvent_cumulative b hp hg]
      exact ih hvs _

/-- What the stream is counted as: in full, or with the repeated input only. -/
def streamed (p : Provider) (f : Figures) (repeats : Bool) : Int × Int :=
  if p = .anthropic ∧ repeats = true ∧ f.input ≠ 0 then (f.input, f.output) else f.total p

/-- **The figures that the events leave.** -/
theorem fold_events {events : List Json} (h : Events f repeats p events) :
    events.foldlM (streamEvent b p) (none, none) =
      .ok (some (streamed p f repeats).1, some (streamed p f repeats).2) := by
  cases h with
  | @anthropic start last contents rest hstart hcontents hlast hrest =>
    rw [List.foldlM_cons, streamEvent_start b hstart]
    show (contents ++ last :: rest).foldlM (streamEvent b .anthropic) _ = _
    rw [List.foldlM_append, fold_quiet b hcontents]
    show (last :: rest).foldlM (streamEvent b .anthropic) _ = _
    rw [List.foldlM_cons, streamEvent_delta b hlast]
    show rest.foldlM (streamEvent b .anthropic) _ = _
    rw [fold_quiet b hrest, streamed]
    by_cases hr : repeats = true ∧ f.input ≠ 0
    · rw [if_pos hr, if_pos ⟨rfl, hr⟩]
    · rw [if_neg hr, if_neg (fun h => hr h.2)]
      rfl
  | @cumulative _ last contents rest hp hcontents hlast hrest =>
    obtain ⟨acc, hacc⟩ := fold_contents b hp hcontents (none, none)
    rw [List.foldlM_append, hacc]
    show (last :: rest).foldlM (streamEvent b p) _ = _
    rw [List.foldlM_cons, streamEvent_cumulative b hp hlast]
    show rest.foldlM (streamEvent b p) _ = _
    rw [fold_quiet b hrest, streamed, if_neg (fun h => hp h.1)]

/-- **What the events of an intact stream are counted as.** -/
theorem usage_of_events {text : PyStr} (hi : Intact text) (h : Events f repeats p (eventValues text)) :
    usage_from_stream b p text = .ok (some (streamed p f repeats)) := by
  have hne : dataLines text ≠ [] := by
    intro hnil
    have hvalues := dataLines_intact hi
    rw [hnil] at hvalues
    rw [← hvalues] at h
    generalize hevents : List.filterMap loads [] = events at h
    cases h with
    | anthropic => cases hevents
    | cumulative => exact absurd hevents.symm (List.append_ne_nil_of_right_ne_nil _ (List.cons_ne_nil _ _))
  have hevents : streamEvents p text = .ok (some (dataLines text)) := if_neg fun h => hne h.1
  rw [usage_from_stream, hevents]
  show (streamLoop b p (none, none) (dataLines text) >>= _) = _
  rw [streamLoop_values, dataLines_intact hi, fold_events b h]
  rfl

/-- A text without events is counted as nothing. -/
theorem usage_of_nothing {text : PyStr} (hp : p ≠ .google)
    (h : (dataLines text).filterMap loads = []) : usage_from_stream b p text = .ok none := by
  have hevents : streamEvents p text = .ok (some (dataLines text)) := if_neg fun h => hp h.2
  rw [usage_from_stream, hevents]
  show (streamLoop b p (none, none) (dataLines text) >>= _) = _
  rw [streamLoop_values, h]
  rfl

/-- The two counts differ exactly where cached input is left out. -/
theorem streamed_eq_iff : streamed p f repeats = f.total p ↔ ¬ Recounted p f repeats := by
  unfold streamed Recounted
  by_cases h : p = .anthropic ∧ repeats = true ∧ f.input ≠ 0
  · obtain ⟨rfl, hr, hz⟩ := h
    rw [if_pos ⟨rfl, hr, hz⟩]
    constructor
    · intro heq hc
      have hin : (f.input : Int) = f.input + f.cached := congrArg Prod.fst heq
      exact hc.2.2.2 (by omega)
    · intro hc
      have hzero : f.cached = 0 := by
        by_contra hne
        exact hc ⟨rfl, hr, hz, hne⟩
      rw [Figures.total, hzero]
      simp
  · rw [if_neg h]
    exact ⟨fun _ hc => h ⟨hc.1, hc.2.1, hc.2.2.1⟩, fun _ => rfl⟩

end Stream

/-! ## Agreement -/

/-- **Streamed and plain metering agree** on every intact stream, except where an anthropic answer
repeats its input next to cached input. -/
theorem streamed_as_plain (b : Builtins) {p : Provider} {f : Figures} {repeats : Bool} {body : Json}
    {text : PyStr} (hbody : Body p f body) (hevents : Events f repeats p (eventValues text))
    (hi : Intact text) :
    usage_from_stream b p text = usage_from_json b p body ↔ ¬ Recounted p f repeats := by
  rw [usage_of_events b hi hevents, usage_of_body b hbody, ← streamed_eq_iff]
  constructor
  · intro h
    exact Option.some.inj (Except.ok.inj h)
  · intro h
    rw [h]

section Controls

/-- Events as they are sent. -/
def sent (vs : List Json) : PyStr :=
  (vs.map fun v => py "data: " ++ Json.text ⟨false, [32]⟩ v ++ [10, 10]).flatten

/-- The figures of an answer with cached input. -/
def cachedFigures : Figures := ⟨10, 0, 5, 3, 0⟩

/-- Its usage record. -/
def cachedUsage : Fields :=
  [(py "cache_read_input_tokens", .int 5), (py "input_tokens", .int 10), (py "output_tokens", .int 3)]

def cachedBody : Json := .obj [(py "usage", .obj cachedUsage)]

def cachedStart : Json :=
  .obj [(py "message", .obj [(py "usage", .obj cachedUsage)]), (py "type", .str (py "message_start"))]

def cachedDelta (repeats : Bool) : Json :=
  .obj [(py "type", .str (py "message_delta")),
    (py "usage", .obj (if repeats then cachedUsage else [(py "output_tokens", .int 3)]))]

/-- The stream of the answer. -/
def cachedText (repeats : Bool) : PyStr := sent [cachedStart, cachedDelta repeats]

theorem cached_body : Body .anthropic cachedFigures cachedBody :=
  ⟨_, cachedUsage, rfl, rfl, rfl, rfl, .inr ⟨rfl, rfl⟩, .inl rfl⟩

theorem cached_events (repeats : Bool) :
    Events cachedFigures repeats .anthropic (eventValues (cachedText repeats)) := by
  have hvalues : eventValues (cachedText repeats) = [cachedStart, cachedDelta repeats] := by
    cases repeats with
    | false => decide +kernel
    | true => decide +kernel
  have hstart : Start cachedFigures cachedStart :=
    ⟨_, _, cachedUsage, rfl, rfl, rfl, rfl, rfl, .inr ⟨rfl, rfl⟩, .inl rfl⟩
  have hdelta : Delta cachedFigures repeats (cachedDelta repeats) := by
    cases repeats with
    | false => exact ⟨_, _, rfl, rfl, rfl, rfl, rfl⟩
    | true => exact ⟨_, cachedUsage, rfl, rfl, rfl, rfl, rfl⟩
  rw [hvalues]
  exact @Events.anthropic _ _ _ _ [] [] hstart (fun _ h => absurd h List.not_mem_nil) hdelta
    fun _ h => absurd h List.not_mem_nil

theorem cached_intact (repeats : Bool) : Intact (cachedText repeats) := by
  have h : ∀ r, (cachedText r).all (fun c => !isLineBreak c || c == 10 || c == 13) = true := by
    decide +kernel
  intro c hc hb
  have hall := List.all_eq_true.1 (h repeats) c hc
  simpa [hb] using hall

theorem streamed_as_plain_sample :
    usage_from_stream sampleBuiltins .anthropic (cachedText false) =
        usage_from_json sampleBuiltins .anthropic cachedBody ↔
      ¬ Recounted .anthropic cachedFigures false :=
  streamed_as_plain sampleBuiltins cached_body (cached_events false) (cached_intact false)

/-- **Cached input is dropped** when the last report repeats the input. -/
theorem cached_input_dropped : ∃ f body text, Body .anthropic f body ∧
    Events f true .anthropic (eventValues text) ∧ Intact text ∧
    usage_from_stream sampleBuiltins .anthropic text = .ok (some (10, 3)) ∧
    usage_from_json sampleBuiltins .anthropic body = .ok (some (15, 3)) :=
  ⟨cachedFigures, cachedBody, cachedText true, cached_body, cached_events true, cached_intact true,
    usage_of_events sampleBuiltins (cached_intact true) (cached_events true),
    usage_of_body sampleBuiltins cached_body⟩

/-- The last event of a response; its text has a line separator. -/
def separatedEvent : Json :=
  .obj [(py "response", .obj [(py "output", .str [0x2028]),
    (py "usage", .obj [(py "input_tokens", .int 10), (py "output_tokens", .int 3)])])]

/-- **An event is torn** at a separator that ends no line of an event stream, and nothing is read. -/
theorem event_torn : ∃ f body text, Body .openai f body ∧ Events f false .openai (eventValues text) ∧
    usage_from_stream sampleBuiltins .openai text = .ok none ∧
    usage_from_json sampleBuiltins .openai body = .ok (some (10, 3)) := by
  have hvalues : eventValues (sent [separatedEvent]) = [separatedEvent] := by decide +kernel
  have hbody : Body .openai cachedFigures cachedBody :=
    ⟨_, cachedUsage, rfl, rfl, .inr ⟨rfl, rfl, rfl, rfl⟩⟩
  have hlast : Cumulative .openai cachedFigures separatedEvent :=
    .inr ⟨rfl, _, _, _, rfl, rfl, rfl, rfl, .inr ⟨rfl, rfl, rfl, rfl⟩⟩
  refine ⟨cachedFigures, cachedBody, sent [separatedEvent], hbody, ?_, ?_,
    usage_of_body sampleBuiltins hbody⟩
  · rw [hvalues]
    exact @Events.cumulative _ _ _ _ [] [] (by decide) (fun _ h => absurd h List.not_mem_nil) hlast
      fun _ h => absurd h List.not_mem_nil
  · have hnone : (dataLines (sent [separatedEvent])).filterMap loads = [] := by decide +kernel
    exact usage_of_nothing sampleBuiltins (by decide) hnone

end Controls

end Valops.ModelBroker
