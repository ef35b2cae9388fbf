import Mathlib.Data.List.Induction
import Valops.Py.Double

/-!
# The circuit breaker of the observer daemon

`Breaker` trips on a bad sample and closes after `recover` good ones in a row. Its state after any
sequence of samples is a function of the sequence (`breaker_history`): of the samples since the last
bad one, and of the bad samples that found it closed.
-/

set_option autoImplicit false

namespace Valops.Observer

open Py

/-- `Breaker`. -/
structure Breaker where
  threshold_ms : Double
  recover : Int
  open_ : Bool := false
  good : Int := 0
  trips : Nat := 0
  opened_at : Option Double := none

/-- A sample of the local RPC service, and when it was taken. -/
structure RpcSample where
  latency_ms : Double
  healthy : Bool
  time : Double

/-- `bad`. -/
def Breaker.bad (b : Breaker) (x : RpcSample) : Bool := !x.healthy || b.threshold_ms.lt x.latency_ms

/-- `sample`. -/
def Breaker.sample (b : Breaker) (x : RpcSample) : Breaker :=
  if b.bad x then
    let b := if b.open_ then b
      else { b with open_ := true, opened_at := some x.time, trips := b.trips + 1 }
    { b with good := 0 }
  else if b.open_ then
    let b := { b with good := b.good + 1 }
    if b.recover ≤ b.good then { b with open_ := false, opened_at := none } else b
  else b

/-- The breaker after a sequence of samples. -/
def breakerAfter (threshold_ms : Double) (recover : Int) (xs : List RpcSample) : Breaker :=
  xs.foldl Breaker.sample { threshold_ms, recover }

section History

variable {threshold_ms : Double} {recover : Int} {xs : List RpcSample} {x : RpcSample}

/-- `bad` for a threshold. -/
def badSample (threshold_ms : Double) (x : RpcSample) : Bool :=
  !x.healthy || threshold_ms.lt x.latency_ms

/-- The sequence ends in a bad sample and these good ones. -/
def EndsIn (threshold_ms : Double) (xs back : List RpcSample) : Prop :=
  ∃ front x, xs = front ++ x :: back ∧ badSample threshold_ms x = true ∧
    ∀ y ∈ back, badSample threshold_ms y = false

/-- There is a bad sample, and fewer than `recover` samples follow the last one. -/
def Tripped (threshold_ms : Double) (recover : Int) (xs : List RpcSample) : Prop :=
  ∃ back, EndsIn threshold_ms xs back ∧ (back.length : Int) < recover

/-- The places of the bad samples that found the breaker closed. -/
def tripsIn (threshold_ms : Double) (recover : Int) (xs : List RpcSample) : List Nat :=
  (List.range xs.length).filter fun n =>
    (xs[n]?.any (badSample threshold_ms)) && !(breakerAfter threshold_ms recover (xs.take n)).open_

/-- The breaker was opened at this time: by a bad sample that found it closed, and it has been open
ever since. -/
def OpenedAt (threshold_ms : Double) (recover : Int) (xs : List RpcSample) (t : Double) : Prop :=
  ∃ front x back, xs = front ++ x :: back ∧ badSample threshold_ms x = true ∧ x.time = t ∧
    (breakerAfter threshold_ms recover front).open_ = false ∧
    ∀ n ≤ back.length, (breakerAfter threshold_ms recover (front ++ x :: back.take n)).open_ = true

/-! ### One more sample -/

theorem breakerAfter_append : breakerAfter threshold_ms recover (xs ++ [x]) =
    (breakerAfter threshold_ms recover xs).sample x := by
  rw [breakerAfter, List.foldl_append]
  rfl

/-- A sample changes neither the threshold nor the number of good samples to recover. -/
theorem sample_limits (b : Breaker) (x : RpcSample) : (b.sample x).threshold_ms = b.threshold_ms ∧
    (b.sample x).recover = b.recover := by
  unfold Breaker.sample
  dsimp only
  split
  · split <;> exact ⟨rfl, rfl⟩
  · split
    · split <;> exact ⟨rfl, rfl⟩
    · exact ⟨rfl, rfl⟩

theorem breakerAfter_limits (xs : List RpcSample) :
    (breakerAfter threshold_ms recover xs).threshold_ms = threshold_ms ∧
      (breakerAfter threshold_ms recover xs).recover = recover := by
  induction xs using List.reverseRecOn with
  | nil => exact ⟨rfl, rfl⟩
  | append_singleton xs x ih =>
    rw [breakerAfter_append, (sample_limits _ x).1, (sample_limits _ x).2]
    exact ih

/-- **What one sample does**, by whether it is bad and whether the breaker is open. -/
theorem sample_cases (b : Breaker) (x : RpcSample) :
    (badSample b.threshold_ms x = true ∧ b.open_ = true ∧ b.sample x = { b with good := 0 }) ∨
    (badSample b.threshold_ms x = true ∧ b.open_ = false ∧ b.sample x =
      { b with open_ := true, opened_at := some x.time, trips := b.trips + 1, good := 0 }) ∨
    (badSample b.threshold_ms x = false ∧ b.open_ = true ∧ b.good + 1 < b.recover ∧
      b.sample x = { b with good := b.good + 1 }) ∨
    (badSample b.threshold_ms x = false ∧ b.open_ = true ∧ b.recover ≤ b.good + 1 ∧ b.sample x =
      { b with good := b.good + 1, open_ := false, opened_at := none }) ∨
    (badSample b.threshold_ms x = false ∧ b.open_ = false ∧ b.sample x = b) := by
  have hbad : b.bad x = badSample b.threshold_ms x := rfl
  unfold Breaker.sample
  rw [hbad]
  cases badSample b.threshold_ms x <;> cases ho : b.open_
  · exact .inr (.inr (.inr (.inr ⟨rfl, rfl, by simp⟩)))
  · by_cases h : b.recover ≤ b.good + 1
    · exact .inr (.inr (.inr (.inl ⟨rfl, rfl, h, by simp [h]⟩)))
    · exact .inr (.inr (.inl ⟨rfl, rfl, Int.not_le.1 h, by simp [h]⟩))
  · exact .inr (.inl ⟨rfl, rfl, by simp⟩)
  · exact .inl ⟨rfl, rfl, by simp [ho]⟩

/-! ### The history -/

theorem endsIn_bad (h : badSample threshold_ms x = true) : EndsIn threshold_ms (xs ++ [x]) [] :=
  ⟨xs, x, rfl, h, fun _ hy => absurd hy List.not_mem_nil⟩

theorem EndsIn.good {back : List RpcSample} (h : EndsIn threshold_ms xs back)
    (hx : badSample threshold_ms x = false) : EndsIn threshold_ms (xs ++ [x]) (back ++ [x]) := by
  obtain ⟨front, y, rfl, hy, hback⟩ := h
  refine ⟨front, y, by simp, hy, List.forall_mem_append.2 ⟨hback, ?_⟩⟩
  exact List.forall_mem_singleton.2 hx

/-- The good samples at the end are determined. -/
theorem EndsIn.unique {back back' : List RpcSample} (h : EndsIn threshold_ms xs back)
    (h' : EndsIn threshold_ms xs back') : back = back' := by
  obtain ⟨front, y, rfl, hy, hback⟩ := h
  obtain ⟨front', y', heq, hy', hback'⟩ := h'
  rcases List.append_eq_append_iff.1 heq with ⟨mid, hfront, hmid⟩ | ⟨mid, hfront, hmid⟩
  · cases mid with
    | nil => exact (List.cons.inj hmid).2
    | cons z mid =>
      -- the later bad sample would be among the good ones
      have hmem : y' ∈ back := by
        rw [(List.cons.inj hmid).2]
        simp
      cases hy'.symm.trans (hback y' hmem)
  · cases mid with
    | nil => exact (List.cons.inj hmid).2.symm
    | cons z mid =>
      have hmem : y ∈ back' := by
        rw [(List.cons.inj hmid).2]
        simp
      cases hy.symm.trans (hback' y hmem)

/-- Without its last sample, if that is good. -/
theorem EndsIn.before {back : List RpcSample} (h : EndsIn threshold_ms (xs ++ [x]) back)
    (hx : badSample threshold_ms x = false) :
    ∃ rest, back = rest ++ [x] ∧ EndsIn threshold_ms xs rest := by
  obtain ⟨front, y, heq, hy, hback⟩ := h
  rcases List.eq_nil_or_concat back with rfl | ⟨rest, z, rfl⟩
  · cases (List.append_inj' heq rfl).2
    cases hx.symm.trans hy
  · rw [List.concat_eq_append] at heq hback ⊢
    rw [← List.cons_append, ← List.append_assoc] at heq
    obtain ⟨hxs, hz⟩ := List.append_inj' heq rfl
    cases hz
    exact ⟨rest, rfl, front, y, hxs, hy, fun w hw => hback w (List.mem_append_left _ hw)⟩

theorem tripsIn_append : (tripsIn threshold_ms recover (xs ++ [x])).length =
    (tripsIn threshold_ms recover xs).length +
      if badSample threshold_ms x = true ∧ (breakerAfter threshold_ms recover xs).open_ = false
        then 1 else 0 := by
  have hsame : ((List.range xs.length).filter fun n =>
      ((xs ++ [x])[n]?.any (badSample threshold_ms)) &&
        !(breakerAfter threshold_ms recover ((xs ++ [x]).take n)).open_) =
      tripsIn threshold_ms recover xs := by
    refine List.filter_congr fun n hn => ?_
    have hlt := List.mem_range.1 hn
    rw [List.getElem?_append_left hlt, List.take_append_of_le_length hlt.le]
  rw [tripsIn, List.length_append, List.length_singleton, List.range_succ, List.filter_append, hsame,
    List.length_append, List.filter_singleton]
  have hlast : (xs ++ [x])[xs.length]? = some x := by simp
  rw [hlast, List.take_left']
  · cases hb : badSample threshold_ms x <;>
      cases (breakerAfter threshold_ms recover xs).open_ <;> simp [hb]
  · rfl

/-- What the state says of the samples so far. -/
structure Tracks (threshold_ms : Double) (recover : Int) (xs : List RpcSample) (b : Breaker) : Prop where
  opened : b.open_ = true → ∃ back, EndsIn threshold_ms xs back ∧ b.good = back.length ∧
    (back.length : Int) < recover
  closed : b.open_ = false → ∀ back, EndsIn threshold_ms xs back → recover ≤ back.length
  trips : b.trips = (tripsIn threshold_ms recover xs).length
  unset : b.open_ = false → b.opened_at = none
  set : b.open_ = true → ∃ t, b.opened_at = some t ∧ OpenedAt threshold_ms recover xs t

theorem OpenedAt.append {t : Double} (h : OpenedAt threshold_ms recover xs t)
    (ho : (breakerAfter threshold_ms recover (xs ++ [x])).open_ = true) :
    OpenedAt threshold_ms recover (xs ++ [x]) t := by
  obtain ⟨front, y, back, rfl, hy, ht, hclosed, hopen⟩ := h
  refine ⟨front, y, back ++ [x], by simp, hy, ht, hclosed, fun n hn => ?_⟩
  rw [List.length_append, List.length_singleton] at hn
  rcases Nat.lt_or_ge n (back.length + 1) with hlt | hge
  · rw [List.take_append_of_le_length (Nat.le_of_lt_succ hlt)]
    exact hopen n (Nat.le_of_lt_succ hlt)
  · have hall : (back ++ [x]).take n = back ++ [x] := List.take_of_length_le (by simpa using hge)
    rw [hall, ← List.cons_append, ← List.append_assoc]
    exact ho

/-- **The state follows the samples.** -/
theorem breakerAfter_tracks (hr : 1 ≤ recover) (xs : List RpcSample) :
    Tracks threshold_ms recover xs (breakerAfter threshold_ms recover xs) := by
  induction xs using List.reverseRecOn with
  | nil =>
    refine ⟨nofun, fun _ back h => ?_, rfl, fun _ => rfl, nofun⟩
    obtain ⟨front, y, heq, -⟩ := h
    cases front <;> cases heq
  | append_singleton xs x ih =>
    have hopen : breakerAfter threshold_ms recover (xs ++ [x]) =
        (breakerAfter threshold_ms recover xs).sample x := breakerAfter_append
    obtain ⟨hth, hrec⟩ := @breakerAfter_limits threshold_ms recover xs
    have hcount := @tripsIn_append threshold_ms recover xs x
    have hcases := sample_cases (breakerAfter threshold_ms recover xs) x
    rw [hth, hrec, ← hopen] at hcases
    rcases hcases with ⟨hx, ho, heq⟩ | ⟨hx, ho, heq⟩ | ⟨hx, ho, hlt, heq⟩ | ⟨hx, ho, hle, heq⟩ |
      ⟨hx, ho, heq⟩
    · -- a bad sample while open: counting starts over
      have hstill : (breakerAfter threshold_ms recover (xs ++ [x])).open_ = true := by rw [heq]; exact ho
      obtain ⟨t, ht, hat⟩ := ih.set ho
      refine ⟨fun _ => ⟨[], endsIn_bad hx, by rw [heq]; rfl, Int.lt_of_lt_of_le Int.one_pos hr⟩, ?_, ?_, ?_, ?_⟩
      · exact fun hc => absurd (hc.symm.trans hstill) Bool.false_ne_true
      · rw [hcount, if_neg fun h => Bool.false_ne_true (h.2.symm.trans ho), heq]
        exact ih.trips
      · exact fun hc => absurd (hc.symm.trans hstill) Bool.false_ne_true
      · exact fun _ => ⟨t, by rw [heq]; exact ht, hat.append hstill⟩
    · -- a bad sample while closed: the breaker trips
      have hstill : (breakerAfter threshold_ms recover (xs ++ [x])).open_ = true := by rw [heq]
      refine ⟨fun _ => ⟨[], endsIn_bad hx, by rw [heq]; rfl, Int.lt_of_lt_of_le Int.one_pos hr⟩, ?_, ?_, ?_, ?_⟩
      · exact fun hc => absurd (hc.symm.trans hstill) Bool.false_ne_true
      · rw [hcount, if_pos ⟨hx, ho⟩, heq]
        exact congrArg (· + 1) ih.trips
      · exact fun hc => absurd (hc.symm.trans hstill) Bool.false_ne_true
      · refine fun _ => ⟨x.time, by rw [heq], xs, x, [], rfl, hx, rfl, ho, fun n hn => ?_⟩
        rw [List.take_nil]
        exact hstill
    · -- one more good sample, but not enough of them
      have hstill : (breakerAfter threshold_ms recover (xs ++ [x])).open_ = true := by rw [heq]; exact ho
      obtain ⟨back, hends, hgood, -⟩ := ih.opened ho
      obtain ⟨t, ht, hat⟩ := ih.set ho
      have hlen : ((back ++ [x]).length : Int) = (breakerAfter threshold_ms recover xs).good + 1 := by
        rw [hgood, List.length_append]
        simp
      refine ⟨fun _ => ⟨back ++ [x], hends.good hx, by rw [heq, hlen], by rw [hlen]; exact hlt⟩, ?_, ?_, ?_, ?_⟩
      · exact fun hc => absurd (hc.symm.trans hstill) Bool.false_ne_true
      · rw [hcount, if_neg fun h => Bool.false_ne_true (hx.symm.trans h.1), heq]
        exact ih.trips
      · exact fun hc => absurd (hc.symm.trans hstill) Bool.false_ne_true
      · exact fun _ => ⟨t, by rw [heq]; exact ht, hat.append hstill⟩
    · -- the last good sample that was needed
      have hclosed : (breakerAfter threshold_ms recover (xs ++ [x])).open_ = false := by rw [heq]
      obtain ⟨back, hends, hgood, -⟩ := ih.opened ho
      refine ⟨fun h => absurd (hclosed.symm.trans h) Bool.false_ne_true, ?_, ?_, ?_, ?_⟩
      · intro _ back' h'
        rw [(hends.good hx).unique h' |>.symm, List.length_append]
        rw [hgood] at hle
        simpa using hle
      · rw [hcount, if_neg fun h => Bool.false_ne_true (hx.symm.trans h.1), heq]
        exact ih.trips
      · exact fun _ => by rw [heq]
      · exact fun h => absurd (hclosed.symm.trans h) Bool.false_ne_true
    · -- a good sample while closed
      refine ⟨?_, ?_, ?_, ?_, ?_⟩
      · rw [heq]
        exact fun h => absurd (ho.symm.trans h) Bool.false_ne_true
      · intro _ back h
        obtain ⟨rest, rfl, hrest⟩ := h.before hx
        have := ih.closed ho rest hrest
        rw [List.length_append]
        push_cast
        omega
      · rw [hcount, if_neg fun h => Bool.false_ne_true (hx.symm.trans h.1), heq]
        exact ih.trips
      · rw [heq]
        exact ih.unset
      · rw [heq]
        exact fun h => absurd (ho.symm.trans h) Bool.false_ne_true

/-- **The breaker is a function of the history.** -/
theorem breaker_history (hr : 1 ≤ recover) (xs : List RpcSample) :
    ((breakerAfter threshold_ms recover xs).open_ = true ↔ Tripped threshold_ms recover xs) ∧
    (breakerAfter threshold_ms recover xs).trips = (tripsIn threshold_ms recover xs).length ∧
    ((breakerAfter threshold_ms recover xs).opened_at.isSome = true ↔
      (breakerAfter threshold_ms recover xs).open_ = true) ∧
    ∀ t, (breakerAfter threshold_ms recover xs).opened_at = some t →
      OpenedAt threshold_ms recover xs t := by
  have h : Tracks threshold_ms recover xs (breakerAfter threshold_ms recover xs) :=
    breakerAfter_tracks hr xs
  cases ho : (breakerAfter threshold_ms recover xs).open_ with
  | true =>
    obtain ⟨back, hends, -, hlt⟩ := h.opened ho
    obtain ⟨t, ht, hat⟩ := h.set ho
    refine ⟨iff_of_true rfl ⟨back, hends, hlt⟩, h.trips, iff_of_true (by rw [ht]; rfl) rfl, ?_⟩
    intro u hu
    cases ht.symm.trans hu
    exact hat
  | false =>
    have hnone := h.unset ho
    refine ⟨iff_of_false Bool.false_ne_true ?_, h.trips, iff_of_false ?_ Bool.false_ne_true, ?_⟩
    · rintro ⟨back, hends, hlt⟩
      exact absurd (h.closed ho back hends) (Int.not_le.2 hlt)
    · rw [hnone]
      exact Bool.false_ne_true
    · intro t ht
      cases hnone.symm.trans ht

end History

end Valops.Observer
