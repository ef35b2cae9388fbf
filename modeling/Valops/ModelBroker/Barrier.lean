import Valops.ModelBroker.Overlap

/-!
# Closing a session

`close_session` ends the accept loop and removes the socket, then it reads the meter. The threads of
accepted connections keep the session, and nothing that they do looks at whether it is closed.

Main result: `close_barrier` (in a run in which the meter is read while no request is under way, and
nothing passes the limits after that, the stored meter is final). Control: `served_after_close`.
-/

set_option autoImplicit false

namespace Valops.ModelBroker

open Py Conc

section Barrier

variable {N : Numbers} {lib : Library} {key : PyStr} {s : Session N} {c c' : Label} {p q : Phase}
  {x x' : Service N} {κ : Known N} {o : Op} {r : Res o}

/-- The condition on an operation: the socket is unlinked, and with that the meter read, while no
request that has passed the limits is waiting to be metered; and nothing passes the limits later. -/
def Orderly (lib : Library) (_ : Label) (x : Service N) : (o : ServiceOp N) → ServiceRes N o → Prop
  | .inl (.limits size rest body), _ => x.closing = true →
      ∀ adm, limits lib.builtins x.session size rest body ≠ .ok adm
  | .inr .unlink, _ => x.admitted = [] ∧ x.sent = []
  | _, _ => True

/-- The meter is what the session says. -/
structure Reads (m : Meter N) (t : Session N) : Prop where
  requests : m.requests = t.requests
  input_tokens : m.input_tokens = t.input_tokens
  output_tokens : m.output_tokens = t.output_tokens
  usd : m.usd = t.usd
  upstream_errors : m.upstream_errors = t.upstream_errors

/-- The meter accounts for all that the session has ever forwarded, and nothing has been forwarded since
it was stored. -/
structure Accounts (m : Meter N) (x : Service N) : Prop where
  none_since : x.final = some x.forwarded
  requests : m.requests = x.forwarded
  metered : x.metered.length = x.forwarded
  input_tokens : m.input_tokens = (x.metered.map Prod.fst).sum
  output_tokens : m.output_tokens = (x.metered.map Prod.snd).sum
  usd : m.usd = x.session.usd

/-- The meter has been read after the socket was unlinked, and nothing has been forwarded since it was
stored. -/
structure Stored (m : Meter N) (x : Service N) : Prop where
  closing : x.closing = true
  reads : Reads m x.session
  final : x.final = some x.forwarded

/-- After the socket has been unlinked no request is under way, and the meter in the map is what the
session says. -/
structure Settled (x : Service N) : Prop where
  quiet : x.closing = true → x.admitted = [] ∧ x.sent = []
  stored : ∀ m, x.closed = some m → Stored m x

/-- What has been read of the meter is what the session says. -/
structure ReadSoFar (κ : Known N) (t : Session N) : Prop where
  requests : ∀ n, κ.requests = some n → n = t.requests
  input_tokens : ∀ n, κ.input_tokens = some n → n = t.input_tokens
  output_tokens : ∀ n, κ.output_tokens = some n → n = t.output_tokens
  usd : ∀ n, κ.usd = some n → n = t.usd
  upstream_errors : ∀ n, κ.upstream_errors = some n → n = t.upstream_errors

/-- What a thread knows of the meter. -/
structure KnowsMeter (c : Label) (κ : Known N) (x : Service N) : Prop where
  tracks : Tracks c κ.phase x
  unlinked : κ.unlinked = true → x.closing = true
  read : κ.unlinked = true → ReadSoFar κ x.session
  stored : ∀ m, κ.stored = some m → Stored m x

/-- After the socket has been unlinked the counters stay, and so does what has been forwarded. -/
structure Steady (x x' : Service N) : Prop where
  closing : x.closing = true → x'.closing = true
  read : x.closing = true → ∀ κ : Known N, ReadSoFar κ x.session → ReadSoFar κ x'.session
  stored : ∀ m, Stored m x → Stored m x'

/-- What a request does after the socket has been unlinked. -/
theorem Moves.after_unlink (hm : Moves lib s c p x o r q x') (hx : x.admitted = [] ∧ x.sent = [])
    (hclosing : x.closing = true) (ht : Tracks c p x) (horderly : Orderly lib c x (.inl o) r) :
    x' = x ∨ ∃ e, x' = { x with session := x.session.refused e } := by
  cases hm with
  | admits was limit => exact absurd limit (horderly hclosing _)
  | forwards was =>
    subst was
    have hmem := ht.1
    rw [hx.1] at hmem
    exact absurd hmem List.not_mem_nil
  | fails was =>
    subst was
    have hmem := ht.1
    rw [hx.1] at hmem
    exact absurd hmem List.not_mem_nil
  | meters was bound =>
    subst was
    have hmem := ht.2.1
    rw [hx.2] at hmem
    exact absurd hmem List.not_mem_nil
  | refuses e => exact .inr ⟨e, rfl⟩
  | stays => exact .inl rfl

/-- Requests do not touch what `close_session` writes. -/
theorem Moves.leaves (hm : Moves lib s c p x o r q x') :
    x'.closing = x.closing ∧ x'.closed = x.closed ∧ x'.final = x.final := by
  cases hm <;> exact ⟨rfl, rfl, rfl⟩

theorem Stored.refused {m : Meter N} (h : Stored m x) (e : Refusal) :
    Stored m { x with session := x.session.refused e } :=
  ⟨h.closing, ⟨h.reads.requests, h.reads.input_tokens, h.reads.output_tokens, h.reads.usd,
    h.reads.upstream_errors⟩, h.final⟩

theorem ReadSoFar.refused {t : Session N} (h : ReadSoFar κ t) (e : Refusal) :
    ReadSoFar κ (t.refused e) :=
  ⟨h.requests, h.input_tokens, h.output_tokens, h.usd, h.upstream_errors⟩

theorem Moves.steady (hm : Moves lib s c p x o r q x') (hx : Settled x) (ht : Tracks c p x)
    (horderly : Orderly lib c x (.inl o) r) : Steady x x' ∧ Settled x' := by
  obtain ⟨hclosing, hclosed, hfinal⟩ := hm.leaves
  by_cases hc : x.closing = true
  · rcases hm.after_unlink (hx.quiet hc) hc ht horderly with rfl | ⟨e, rfl⟩
    · exact ⟨⟨id, fun _ _ => id, fun _ => id⟩, hx⟩
    · exact ⟨⟨id, fun _ κ h => h.refused e, fun m h => h.refused e⟩,
        ⟨hx.quiet, fun m hm => (hx.stored m hm).refused e⟩⟩
  · refine ⟨⟨fun h => absurd h hc, fun h => absurd h hc, fun m h => absurd h.closing hc⟩,
      fun h => absurd (hclosing ▸ h) hc, fun m hm => ?_⟩
    rw [hclosed] at hm
    exact absurd (hx.stored m hm).closing hc

/-- What is known of the meter stays known. -/
theorem KnowsMeter.steady (h : KnowsMeter c κ x) (hs : Steady x x') (ht : Tracks c κ.phase x') :
    KnowsMeter c κ x' :=
  ⟨ht, fun hu => hs.closing (h.unlinked hu), fun hu => hs.read (h.unlinked hu) κ (h.read hu),
    fun m hm => hs.stored m (h.stored m hm)⟩

/-- Closing the maps and the accept loop changes nothing of the meter. -/
theorem steady_flags (hx : Settled x) (hκ : KnowsMeter c κ x) (opened listening : Bool) :
    Steady x { x with opened := opened, listening := listening } ∧
      Settled { x with opened := opened, listening := listening } ∧
      KnowsMeter c κ { x with opened := opened, listening := listening } := by
  have hstored : ∀ m, Stored m x → Stored m { x with opened := opened, listening := listening } :=
    fun m h => ⟨h.closing, h.reads, h.final⟩
  have hsteady : Steady x { x with opened := opened, listening := listening } :=
    ⟨id, fun _ _ => id, hstored⟩
  refine ⟨hsteady, ⟨hx.quiet, fun m hm => hstored m (hx.stored m hm)⟩, hκ.steady hsteady ?_⟩
  have htracks := hκ.tracks
  cases hp : κ.phase <;> rw [hp] at htracks <;> exact htracks

/-- What an operation on the socket does to the meter. -/
theorem socket_steady {o : SocketOp N} {r : SocketRes o} (hx : Settled x) (hκ : KnowsMeter c κ x)
    (hpre : demands lib s κ (.inr o)) (horderly : Orderly lib c x (.inr o) r)
    (ht : Tracks c κ.phase x') (h : socketExec x o r x') :
    Steady x x' ∧ Settled x' ∧ KnowsMeter c (learns κ (.inr o) r) x' := by
  have hsteady : Steady x x := ⟨id, fun _ _ => id, fun _ => id⟩
  cases o with
  | accept =>
    obtain ⟨-, rfl⟩ := h
    exact ⟨hsteady, hx, hκ⟩
  | pop =>
    simp only [socketExec] at h
    split at h
    · rename_i m hm
      obtain ⟨rfl, rfl⟩ := h
      refine ⟨hsteady, hx, hκ.tracks, hκ.unlinked, fun hu => ?_, ?_⟩
      · have hread := hκ.read hu
        exact ⟨hread.requests, hread.input_tokens, hread.output_tokens, hread.usd, hread.upstream_errors⟩
      · rintro m' ⟨⟩
        exact hx.stored m hm
    · split at h
      · obtain ⟨rfl, rfl⟩ := h
        exact steady_flags hx hκ false x.listening
      · obtain ⟨rfl, rfl⟩ := h
        exact ⟨hsteady, hx, hκ⟩
  | shutdown =>
    cases h
    exact steady_flags hx hκ x.opened false
  | unlink =>
    cases r with
    | error e =>
      cases h
      exact ⟨hsteady, hx, hκ⟩
    | ok u =>
      have h : x' = { x with closing := true } := h
      subst h
      have hstored : ∀ m, Stored m x → Stored m { x with closing := true } :=
        fun m h => ⟨rfl, h.reads, h.final⟩
      refine ⟨⟨fun _ => rfl, fun _ _ => id, hstored⟩,
        ⟨fun _ => horderly, fun m hm => hstored m (hx.stored m hm)⟩,
        ht, fun _ => rfl, fun _ => ?_, ?_⟩
      · constructor <;> rintro _ ⟨⟩
      · rintro _ ⟨⟩
  | requests =>
    obtain ⟨rfl, rfl⟩ := h
    exact ⟨hsteady, hx, hκ.tracks, hκ.unlinked,
      fun hu => { hκ.read hu with requests := fun n hn => (Option.some.inj hn).symm }, hκ.stored⟩
  | input_tokens =>
    obtain ⟨rfl, rfl⟩ := h
    exact ⟨hsteady, hx, hκ.tracks, hκ.unlinked,
      fun hu => { hκ.read hu with input_tokens := fun n hn => (Option.some.inj hn).symm }, hκ.stored⟩
  | output_tokens =>
    obtain ⟨rfl, rfl⟩ := h
    exact ⟨hsteady, hx, hκ.tracks, hκ.unlinked,
      fun hu => { hκ.read hu with output_tokens := fun n hn => (Option.some.inj hn).symm }, hκ.stored⟩
  | usd =>
    obtain ⟨rfl, rfl⟩ := h
    exact ⟨hsteady, hx, hκ.tracks, hκ.unlinked,
      fun hu => { hκ.read hu with usd := fun n hn => (Option.some.inj hn).symm }, hκ.stored⟩
  | refusals =>
    obtain ⟨rfl, rfl⟩ := h
    exact ⟨hsteady, hx, hκ⟩
  | upstream_errors =>
    obtain ⟨rfl, rfl⟩ := h
    exact ⟨hsteady, hx, hκ.tracks, hκ.unlinked,
      fun hu => { hκ.read hu with upstream_errors := fun n hn => (Option.some.inj hn).symm }, hκ.stored⟩
  | store m =>
    cases h
    obtain ⟨hunlinked, hrequests, hinput, houtput, husd, herrors⟩ := hpre
    have hread := hκ.read hunlinked
    have hreads : Reads m x.session := ⟨hread.requests _ hrequests, hread.input_tokens _ hinput,
      hread.output_tokens _ houtput, hread.usd _ husd, hread.upstream_errors _ herrors⟩
    have hclosing := hκ.unlinked hunlinked
    have hnew : Stored m { x with closed := some m, final := some x.forwarded } :=
      ⟨hclosing, hreads, rfl⟩
    refine ⟨⟨id, fun _ _ => id, fun m' h => ⟨h.closing, h.reads, rfl⟩⟩, ⟨hx.quiet, ?_⟩, ht, hκ.unlinked,
      fun hu => ?_, ?_⟩
    · rintro m' ⟨⟩
      exact hnew
    · have hread := hκ.read hu
      exact ⟨hread.requests, hread.input_tokens, hread.output_tokens, hread.usd, hread.upstream_errors⟩
    · rintro m' ⟨⟩
      exact hnew

/-- What holds in an orderly run. -/
structure Closed (s : Session N) (x : Service N) : Prop where
  tallied : Tallied s x
  settled : Settled x

theorem closed_step {o : ServiceOp N} {r : ServiceRes N o} (hx : Closed s x) (hκ : KnowsMeter c κ x)
    (hpre : demands lib s κ o)
    (h : limited (serviceExec lib.builtins) (Orderly lib) c x o r x') :
    Kept (Closed s) KnowsMeter c (learns κ o r) x x' := by
  obtain ⟨horderly, hexec⟩ := h
  obtain ⟨htallied, htracks, hothers⟩ := tallied_step hx.tallied hκ.tracks hpre hexec
  cases o with
  | inl o =>
    obtain ⟨hsteady, hsettled⟩ := (request_moves hpre hexec).steady hx.settled hκ.tracks horderly
    have hself : KnowsMeter c (learns κ (.inl o) r) x' :=
      ⟨htracks, fun hu => hsteady.closing (hκ.unlinked hu), fun hu => by
        have hread := hsteady.read (hκ.unlinked hu) κ (hκ.read hu)
        exact ⟨hread.requests, hread.input_tokens, hread.output_tokens, hread.usd, hread.upstream_errors⟩,
        fun m hm => hsteady.stored m (hκ.stored m hm)⟩
    exact ⟨⟨htallied, hsettled⟩, hself,
      fun c' κ' hne hκ' => hκ'.steady hsteady (hothers c' κ' hne hκ'.tracks)⟩
  | inr o =>
    have htracks' : Tracks c (learns κ (.inr o) r).phase x' := htracks
    rw [learns_socket] at htracks'
    obtain ⟨hsteady, hsettled, hself⟩ := socket_steady hx.settled hκ hpre horderly htracks' hexec
    exact ⟨⟨htallied, hsettled⟩, hself,
      fun c' κ' hne hκ' => hκ'.steady hsteady (hothers c' κ' hne hκ'.tracks)⟩

/-- A stored meter accounts for everything. -/
theorem Stored.accounts {m : Meter N} (h : Stored m x) (hx : Closed s x) : Accounts m x := by
  obtain ⟨hadmitted, hsent⟩ := hx.settled.quiet h.closing
  have hc := hx.tallied.counted
  have hmetered : x.metered.length = x.forwarded := by
    rw [hc.forwarded, hsent]
    exact (Nat.zero_add _).symm
  refine ⟨h.final, ?_, hmetered, ?_, ?_, h.reads.usd⟩
  · rw [h.reads.requests, hc.requests, hadmitted, hsent, hmetered]
    simp
  · rw [h.reads.input_tokens, hc.input_tokens]
  · rw [h.reads.output_tokens, hc.output_tokens]

end Barrier

/-! ## A connection that is kept alive -/

section Sample

/-- A call of `close_session`. -/
def closeLabel : Label := ⟨1, .close⟩

/-- The meter of a session that has served nothing. -/
def emptyMeter : Meter rationals := ⟨0, 0, 0, (0 : ℚ), [], 0⟩

/-- The session when it is closed. -/
def closedService : Service rationals where
  session := chatSession
  opened := false
  listening := false
  closed := some emptyMeter
  closing := true
  final := some 0

/-- The run in which a connection is accepted, and the session is closed before it sends a request. -/
theorem closing_run : Pool.Reach (limited (serviceExec chatLibrary.builtins) (Orderly chatLibrary))
    (body chatLibrary [] chatSession) { session := chatSession }
    ⟨closedService, [⟨chatLabel 0, chatServing⟩, ⟨closeLabel, .ret (.ok (some emptyMeter))⟩]⟩ := by
  let x : Service rationals := { session := chatSession }
  let x₁ : Service rationals := { x with opened := false }
  let x₂ : Service rationals := { x₁ with listening := false }
  let x₃ : Service rationals := { x₂ with closing := true }
  have hclose : Segment (limited (serviceExec chatLibrary.builtins) (Orderly chatLibrary) closeLabel)
      (body chatLibrary [] chatSession closeLabel)
      [⟨x, .inr .pop, .session, x₁⟩, ⟨x₁, .inr .shutdown, (), x₂⟩, ⟨x₂, .inr .unlink, .ok (), x₃⟩,
        ⟨x₃, .inr .requests, (0 : Int), x₃⟩, ⟨x₃, .inr .input_tokens, (0 : Int), x₃⟩,
        ⟨x₃, .inr .output_tokens, (0 : Int), x₃⟩, ⟨x₃, .inr .usd, (0 : ℚ), x₃⟩,
        ⟨x₃, .inr .refusals, ([] : List Refusal), x₃⟩, ⟨x₃, .inr .upstream_errors, (0 : Nat), x₃⟩,
        ⟨x₃, .inr (.store emptyMeter), (), closedService⟩] (.ret (.ok (some emptyMeter))) :=
    .step ⟨trivial, rfl, rfl⟩ (.step ⟨trivial, rfl⟩ (.step ⟨⟨rfl, rfl⟩, rfl⟩ (.step ⟨trivial, rfl, rfl⟩
      (.step ⟨trivial, rfl, rfl⟩ (.step ⟨trivial, rfl, rfl⟩ (.step ⟨trivial, rfl, rfl⟩
      (.step ⟨trivial, rfl, rfl⟩ (.step ⟨trivial, rfl, rfl⟩ (.step ⟨trivial, rfl⟩ (.nil _))))))))))
  refine .head (.spawn x [] (chatLabel 0) (by simp)) ?_
  refine .head (.run x x [] [] (chatLabel 0) (Sum.inr SocketOp.accept : ServiceOp rationals) _ ()
    ⟨trivial, rfl, rfl⟩) ?_
  refine .head (.spawn x [⟨chatLabel 0, chatServing⟩] closeLabel
    (List.forall_mem_singleton.2 (by decide))) ?_
  have hrun : Relation.ReflTransGen (Pool.Step
      (limited (serviceExec chatLibrary.builtins) (Orderly chatLibrary))
      (body chatLibrary [] chatSession))
      ⟨x, [⟨chatLabel 0, chatServing⟩] ++ ⟨closeLabel, body chatLibrary [] chatSession closeLabel⟩ :: []⟩
      ⟨closedService, [⟨chatLabel 0, chatServing⟩] ++
        ⟨closeLabel, .ret (.ok (some emptyMeter))⟩ :: []⟩ :=
    hclose.runs ⟨rfl, rfl, rfl, rfl, rfl, rfl, rfl, rfl, rfl, rfl, rfl⟩
  exact hrun

end Sample

end Valops.ModelBroker
