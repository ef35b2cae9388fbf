import Mathlib.Tactic

/-!
# Linked lists of hashes

Entries that each carry the digest of the entry before. `hash` and `prev` are partial: an entry may
have no digest, or name no predecessor. `Linked g es k` says that `es` starts from the digest `g`
and ends at the digest `k`.

Main result: `Linked.determined`. The last digest determines every entry, if no two different
entries of the two chains have the same digest.
-/

set_option autoImplicit false

namespace HashChain

variable {E D : Type} {hash prev : E → Option D}

/-- Each entry names the digest of the one before; `g` comes before the first, `k` is the last. -/
inductive Linked (hash prev : E → Option D) : D → List E → D → Prop
  | nil (g : D) : Linked hash prev g [] g
  | cons {g h k : D} {e : E} {es : List E} : prev e = some g → hash e = some h →
      Linked hash prev h es k → Linked hash prev g (e :: es) k

theorem Linked.append {g m k : D} {xs ys : List E} (hx : Linked hash prev g xs m)
    (hy : Linked hash prev m ys k) : Linked hash prev g (xs ++ ys) k := by
  induction hx with
  | nil g => exact hy
  | cons hp hh _ ih => exact .cons hp hh (ih hy)

theorem Linked.snoc {g k h : D} {es : List E} {e : E} (hes : Linked hash prev g es k)
    (hp : prev e = some k) (hh : hash e = some h) : Linked hash prev g (es ++ [e]) h :=
  hes.append (.cons hp hh (.nil h))

theorem Linked.split {g k : D} {xs ys : List E} (h : Linked hash prev g (xs ++ ys) k) :
    ∃ m, Linked hash prev g xs m ∧ Linked hash prev m ys k := by
  induction xs generalizing g with
  | nil => exact ⟨g, .nil g, h⟩
  | cons x xs ih =>
    cases h with
    | cons hp hh hrest =>
      obtain ⟨m, h1, h2⟩ := ih hrest
      exact ⟨m, .cons hp hh h1, h2⟩

theorem Linked.last {g k : D} {es : List E} {e : E} (h : Linked hash prev g (es ++ [e]) k) :
    ∃ m, Linked hash prev g es m ∧ prev e = some m ∧ hash e = some k := by
  obtain ⟨m, h1, h2⟩ := h.split
  cases h2 with
  | cons hp hh hnil =>
    cases hnil
    exact ⟨m, h1, hp, hh⟩

theorem Linked.end_unique {g k k' : D} {es : List E} (h : Linked hash prev g es k)
    (h' : Linked hash prev g es k') : k = k' := by
  induction h with
  | nil g =>
    cases h'
    rfl
  | cons _ hh _ ih =>
    cases h' with
    | cons _ hh' hrest =>
      obtain rfl : _ = _ := Option.some.inj (hh.symm.trans hh')
      exact ih hrest

/-- Every entry of a chain has a digest. -/
theorem Linked.hash_isSome {g k : D} {es : List E} (h : Linked hash prev g es k) :
    ∀ e ∈ es, (hash e).isSome = true := by
  induction h with
  | nil g => exact fun e he => absurd he List.not_mem_nil
  | cons _ hh _ ih =>
    refine List.forall_mem_cons.2 ⟨?_, ih⟩
    rw [hh]
    rfl

/-- **The last digest determines the chain**: two chains of one length with the same last digest are
equal, if digests of their entries do not collide. Induction from the last entry backwards. -/
theorem Linked.determined {xs : List E} : ∀ {ys : List E} {g g' k : D},
    (∀ x ∈ xs, ∀ y ∈ ys, ∀ d, hash x = some d → hash y = some d → x = y) →
    Linked hash prev g xs k → Linked hash prev g' ys k → xs.length = ys.length → xs = ys := by
  induction xs using List.reverseRecOn with
  | nil =>
    intro ys g g' k _ _ _ hlen
    exact (List.length_eq_zero_iff.1 hlen.symm).symm
  | append_singleton xs x ih =>
    intro ys g g' k hinj hx hy hlen
    cases ys using List.reverseRecOn with
    | nil => simp at hlen
    | append_singleton ys y =>
      obtain ⟨m, hxs, hpx, hhx⟩ := hx.last
      obtain ⟨m', hys, hpy, hhy⟩ := hy.last
      have hxy : x = y := hinj x (by simp) y (by simp) k hhx hhy
      obtain rfl : m = m' := by
        rw [hxy] at hpx
        exact Option.some.inj (hpx.symm.trans hpy)
      have hrest : xs = ys := by
        refine ih ?_ hxs hys (by simpa using hlen)
        intro a ha b hb
        exact hinj a (List.mem_append_left _ ha) b (List.mem_append_left _ hb)
      rw [hrest, hxy]

end HashChain
