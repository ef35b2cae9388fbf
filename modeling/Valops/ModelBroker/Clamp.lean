import Valops.ModelBroker.Providers

/-!
# The output cap of a forwarded body

`clamp_output` rewrites one field. A body may carry others that limit the output, and the value it
rewrites may have been below one before.

Main result: `clamp_output_exact` (when every output limit in the forwarded body is the clamp, and
the clamp is between one and what remains).
-/

set_option autoImplicit false

namespace Valops.ModelBroker

open Py

/-- The values of those of some keys that a dict has. -/
def present (kvs : Fields) (ks : List String) : List Json :=
  ks.filterMap fun k => Json.lookup (py k) kvs

/-- The output limits of the provider's API that a body carries. -/
def limitFields (provider : Provider) (path : PyStr) (body : Fields) : List Json :=
  match provider with
  | .anthropic => present body ["max_tokens"]
  | .openai =>
    if py "/responses" <:+ path then present body ["max_output_tokens"]
    else present body ["max_tokens", "max_completion_tokens"]
  | .google =>
    match Json.lookup (py "generationConfig") body with
    | some (.obj gc) => present gc ["maxOutputTokens"]
    | _ => []

/-- The body limits its output by the clamp, whichever field the provider goes by. -/
structure Clamped (provider : Provider) (path : PyStr) (body : Fields) (remaining n : Int) :
    Prop where
  carried : limitFields provider path body ≠ []
  clamp : ∀ v ∈ limitFields provider path body, v = .int n
  positive : 1 ≤ n
  bounded : n ≤ remaining

/-- The value that `clamp_output` rewrites. -/
def asked (provider : Provider) (path : PyStr) (body : Fields) : Json :=
  match provider with
  | .anthropic => field body "max_tokens"
  | .openai =>
    if py "/responses" <:+ path then field body "max_output_tokens" else field body (chatKey body)
  | .google =>
    match (Json.lookup (py "generationConfig") body).getD (.obj []) with
    | .obj gc => field gc "maxOutputTokens"
    | _ => .null

/-- The output limits that it leaves as they are. -/
def untouched (provider : Provider) (path : PyStr) (body : Fields) : List Json :=
  match provider with
  | .openai =>
    if py "/responses" <:+ path ∨ (Json.lookup (py "max_tokens") body).isNone then []
    else present body ["max_completion_tokens"]
  | _ => []

/-- A worker's limits that come out right: what is asked for is nothing or at least one, and a second
limit is what the first one is clamped to. -/
structure WellAsked (b : Builtins) (provider : Provider) (path : PyStr) (body : Fields)
    (remaining : Int) : Prop where
  positive : ∀ z, b.int (orElse (asked provider path body) (.int remaining)) = .ok z → 1 ≤ z
  single : ∀ z, b.int (orElse (asked provider path body) (.int remaining)) = .ok z →
    ∀ v ∈ untouched provider path body, v = .int (min z remaining)

section Exact

variable {b : Builtins} {provider : Provider} {path : PyStr} {kvs kvs' body body' : Fields}
  {remaining n : Int} {k : String}

theorem clampField_eq_ok (h : clampField b kvs k remaining = .ok (kvs', n)) :
    ∃ z, b.int (orElse (field kvs k) (.int remaining)) = .ok z ∧ n = min z remaining ∧
      kvs' = Json.insertField (py k) (.int n) kvs := by
  unfold clampField capped at h
  obtain ⟨m, hm, h⟩ := bind_eq_ok.1 h
  obtain ⟨z, hz, hm⟩ := bind_eq_ok.1 hm
  cases pure_eq_ok.1 hm
  cases pure_eq_ok.1 h
  exact ⟨z, hz, rfl, rfl⟩

/-- The stream options are no limit. -/
theorem includeUsage_lookup (h : includeUsage body = .ok body') {key : PyStr}
    (hkey : key ≠ py "stream_options") : Json.lookup key body' = Json.lookup key body := by
  unfold includeUsage at h
  split at h
  · split at h
    · cases h
      exact Json.lookup_insertField_of_ne hkey _ _
    · cases h
  · cases h
    rfl

theorem present_singleton_insert (v : Json) :
    present (Json.insertField (py k) v kvs) [k] = [v] := by
  simp [present, Json.lookup_insertField_self]

/-- What `clamp_output` does: it puts the clamp of what was asked for where it was asked, and leaves
the other limits. -/
theorem clamp_output_eq_ok (h : clamp_output b provider path body remaining = .ok (body', n)) :
    ∃ z, b.int (orElse (asked provider path body) (.int remaining)) = .ok z ∧
      n = min z remaining ∧
      ∀ v, v ∈ limitFields provider path body' ↔ v = .int n ∨ v ∈ untouched provider path body := by
  unfold clamp_output at h
  cases provider with
  | anthropic =>
    obtain ⟨z, hz, hn, rfl⟩ := clampField_eq_ok h
    refine ⟨z, hz, hn, fun v => ?_⟩
    simp [limitFields, untouched, present_singleton_insert]
  | openai =>
    dsimp only at h
    split at h
    · rename_i hpath
      obtain ⟨z, hz, hn, rfl⟩ := clampField_eq_ok h
      refine ⟨z, ?_, hn, fun v => ?_⟩
      · simpa only [asked, if_pos hpath] using hz
      · simp [limitFields, untouched, hpath, present_singleton_insert]
    · rename_i hpath
      obtain ⟨⟨kvs, m⟩, hclamp, h⟩ := bind_eq_ok.1 h
      obtain ⟨kvs', husage, h⟩ := bind_eq_ok.1 h
      cases pure_eq_ok.1 h
      obtain ⟨z, hz, hn, rfl⟩ := clampField_eq_ok hclamp
      refine ⟨z, ?_, hn, fun v => ?_⟩
      · simpa only [asked, if_neg hpath] using hz
      have hfirst := includeUsage_lookup husage (show py "max_tokens" ≠ py "stream_options" by decide)
      have hsecond := includeUsage_lookup husage
        (show py "max_completion_tokens" ≠ py "stream_options" by decide)
      have hne : py "max_tokens" ≠ py "max_completion_tokens" := by decide
      -- the first field is rewritten if it is there, else the second
      cases hmax : Json.lookup (py "max_tokens") body with
      | some w =>
        have hkey : chatKey body = "max_tokens" := by simp [chatKey, hmax]
        rw [hkey] at hfirst hsecond
        rw [Json.lookup_insertField_self] at hfirst
        rw [Json.lookup_insertField_of_ne hne.symm] at hsecond
        simp [limitFields, untouched, hpath, present, hfirst, hsecond, hmax]
      | none =>
        have hkey : chatKey body = "max_completion_tokens" := by simp [chatKey, hmax]
        rw [hkey] at hfirst hsecond
        rw [Json.lookup_insertField_of_ne hne, hmax] at hfirst
        rw [Json.lookup_insertField_self] at hsecond
        simp [limitFields, untouched, hpath, present, hfirst, hsecond, hmax]
  | google =>
    dsimp only at h
    split at h
    · rename_i gc hgc
      obtain ⟨⟨gc', m⟩, hclamp, h⟩ := bind_eq_ok.1 h
      cases pure_eq_ok.1 h
      obtain ⟨z, hz, hn, rfl⟩ := clampField_eq_ok hclamp
      refine ⟨z, ?_, hn, fun v => ?_⟩
      · simpa only [asked, hgc] using hz
      · simp [limitFields, untouched, Json.lookup_insertField_self, present]
    · cases h

/-- **When the clamp is the bound on the output**, whichever limit of the body the provider goes
by. -/
theorem clamp_output_exact (hrem : 1 ≤ remaining)
    (h : clamp_output b provider path body remaining = .ok (body', n)) :
    Clamped provider path body' remaining n ↔ WellAsked b provider path body remaining := by
  obtain ⟨z, hz, hn, hlimits⟩ := clamp_output_eq_ok h
  constructor
  · intro hc
    have hpos := hc.positive
    refine ⟨fun y hy => ?_, fun y hy v hv => ?_⟩
    · cases hz.symm.trans hy
      omega
    · cases hz.symm.trans hy
      rw [← hn]
      exact hc.clamp v ((hlimits v).2 (.inr hv))
  · intro hask
    have hpos := hask.positive z hz
    refine ⟨?_, fun v hv => ?_, by omega, by omega⟩
    · exact List.ne_nil_of_mem ((hlimits (.int n)).2 (.inl rfl))
    · rcases (hlimits v).1 hv with rfl | hv
      · rfl
      · rw [hn]
        exact hask.single z hz v hv

end Exact

/-! ## A body that asks for less than one -/

/-- A message with a negative limit. -/
def negativeBody : Fields := Json.mkFields [(py "max_tokens", .int (-5))]

/-- A chat completion with two limits. -/
def twoLimits : Fields :=
  Json.mkFields [(py "max_completion_tokens", .int 1000000), (py "max_tokens", .int 10)]

theorem clamp_output_exact_sample :
    clamp_output sampleBuiltins .anthropic (py "/v1/messages")
        (Json.mkFields [(py "max_tokens", .int 100000)]) 64000 =
      .ok ([(py "max_tokens", .int 64000)], 64000) ∧
    (Clamped .anthropic (py "/v1/messages") [(py "max_tokens", .int 64000)] 64000 64000 ↔
      WellAsked sampleBuiltins .anthropic (py "/v1/messages")
        (Json.mkFields [(py "max_tokens", .int 100000)]) 64000) :=
  ⟨by decide, clamp_output_exact (by decide) (by decide)⟩

/-- A negative limit is forwarded as it is, and so is a second limit. -/
theorem limits_forwarded :
    ¬ ∀ (b : Builtins) provider path body body' (remaining n : Int), 1 ≤ remaining →
      clamp_output b provider path body remaining = .ok (body', n) →
      Clamped provider path body' remaining n := by
  intro h
  have hneg := h sampleBuiltins .anthropic (py "/v1/messages") negativeBody
    [(py "max_tokens", .int (-5))] 64000 (-5) (by decide) (by decide)
  have hpos := hneg.positive
  omega

example : ∃ kvs, clamp_output sampleBuiltins .openai (py "/v1/chat/completions") twoLimits 100 =
    .ok (kvs, 10) ∧ Json.lookup (py "max_completion_tokens") kvs = some (.int 1000000) :=
  ⟨_, rfl, by decide⟩

end Valops.ModelBroker
