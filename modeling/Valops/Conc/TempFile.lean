import Valops.Conc.Runs
import Mathlib.Logic.Function.Basic
import Mathlib.Data.List.Pairwise

/-!
# Storing by content through temporary files

Writers store values under the hash of the value. Each tests whether the name is there, opens a
temporary name that depends on the hash alone (the file is created, or cut to nothing), writes, and
renames. An open file is written through its number, whatever its name is by then. Between two steps
other writers go on, a writer may fail, and all of them may be stopped at once.

`Sound` is kept by every step if no writer opens a temporary name while another one has it open; then
what is there is what was hashed, and no rename fails. The hash and the values are parameters.
-/

set_option autoImplicit false

namespace Conc.TempFile

variable {ι κ α : Type}

/-! ## Files -/

/-- The two names that belong to a hash. -/
inductive Name (κ : Type) where
  | final (k : κ)
  | temp (k : κ)
  deriving DecidableEq

/-- A directory, and the contents of the files by their number. -/
structure Files (κ α : Type) where
  names : Name κ → Option Nat
  contents : List (List α)

/-- Opening for writing: the number of the file, which is empty then. -/
def Files.openTo [DecidableEq κ] (fs : Files κ α) (n : Name κ) : Nat × Files κ α :=
  match fs.names n with
  | some i => (i, { fs with contents := fs.contents.set i [] })
  | none => (fs.contents.length,
      ⟨Function.update fs.names n (some fs.contents.length), fs.contents ++ [[]]⟩)

/-- What a write at an offset makes of a file; a gap is filled. -/
def overlay [Inhabited α] (content : List α) (off : Nat) (part : List α) : List α :=
  (content ++ List.replicate (off - content.length) default).take off ++ part ++
    content.drop (off + part.length)

/-- A write to an open file. -/
def Files.write [Inhabited α] (fs : Files κ α) (i off : Nat) (part : List α) : Files κ α :=
  { fs with contents := fs.contents.modify i fun c => overlay c off part }

/-- A rename, which fails when the name is not there. -/
def Files.rename [DecidableEq κ] (fs : Files κ α) (src dst : Name κ) : Option (Files κ α) :=
  (fs.names src).map fun i =>
    { fs with names := Function.update (Function.update fs.names src none) dst (some i) }

/-- The value under a hash. -/
def Files.stored (fs : Files κ α) (k : κ) : Option (List α) :=
  (fs.names (.final k)).bind fun i => fs.contents[i]?

/-! ## Writers -/

/-- How far a writer is: it found no file, it has written so much to the open one, or the name is
there. -/
inductive Phase where
  | absent
  | writing (fd off : Nat)
  | present

/-- A writer of a value; `tag` is what it does it for. -/
structure Writer (ι α : Type) where
  tag : ι
  value : List α
  phase : Phase

/-- The files and the writers. -/
structure State (ι κ α : Type) where
  files : Files κ α
  writers : List (Writer ι α)

inductive Act (ι α : Type) where
  | test (tag : ι) (value : List α)
  | openTemp (w : Writer ι α)
  | write (w : Writer ι α) (n : Nat)
  | rename (w : Writer ι α)
  | leave (w : Writer ι α)
  | stop

variable (hash : List α → κ)

/-- One step of a writer, or the end of all of them. A writer leaves when it is done, or when it
fails. -/
inductive Step [DecidableEq κ] [Inhabited α] : State ι κ α → Act ι α → State ι κ α → Prop
  | absent {s : State ι κ α} {tag : ι} {value : List α} (h : s.files.names (.final (hash value)) = none) :
      Step s (.test tag value) ⟨s.files, ⟨tag, value, .absent⟩ :: s.writers⟩
  | present {s : State ι κ α} {tag : ι} {value : List α} {i : Nat}
      (h : s.files.names (.final (hash value)) = some i) :
      Step s (.test tag value) ⟨s.files, ⟨tag, value, .present⟩ :: s.writers⟩
  | openTemp {fs : Files κ α} {front back : List (Writer ι α)} {tag : ι} {value : List α} :
      Step ⟨fs, front ++ ⟨tag, value, .absent⟩ :: back⟩ (.openTemp ⟨tag, value, .absent⟩)
        ⟨(fs.openTo (.temp (hash value))).2,
          front ++ ⟨tag, value, .writing (fs.openTo (.temp (hash value))).1 0⟩ :: back⟩
  | write {fs : Files κ α} {front back : List (Writer ι α)} {tag : ι} {value : List α}
      {fd off n : Nat} (h : off + n ≤ value.length) :
      Step ⟨fs, front ++ ⟨tag, value, .writing fd off⟩ :: back⟩ (.write ⟨tag, value, .writing fd off⟩ n)
        ⟨fs.write fd off ((value.drop off).take n),
          front ++ ⟨tag, value, .writing fd (off + n)⟩ :: back⟩
  | rename {fs fs' : Files κ α} {front back : List (Writer ι α)} {tag : ι} {value : List α} {fd : Nat}
      (h : fs.rename (.temp (hash value)) (.final (hash value)) = some fs') :
      Step ⟨fs, front ++ ⟨tag, value, .writing fd value.length⟩ :: back⟩
        (.rename ⟨tag, value, .writing fd value.length⟩)
        ⟨fs', front ++ ⟨tag, value, .present⟩ :: back⟩
  | leave {fs : Files κ α} {front back : List (Writer ι α)} {w : Writer ι α} :
      Step ⟨fs, front ++ w :: back⟩ (.leave w) ⟨fs, front ++ back⟩
  | stop {s : State ι κ α} : Step s .stop ⟨s.files, []⟩

/-- The writer has the temporary name of the hash open. -/
def Writer.holds (k : κ) (w : Writer ι α) : Prop :=
  hash w.value = k ∧ ∃ fd off, w.phase = .writing fd off

/-- The condition on the steps: no temporary name is opened by two at once. -/
def Alone (s : State ι κ α) : Act ι α → Prop
  | .openTemp w => ∀ v ∈ s.writers, ¬ v.holds hash (hash w.value)
  | _ => True

/-! ## The invariant -/

/-- A name has a file of its own, and what is under a hash has it. -/
structure Tree (fs : Files κ α) : Prop where
  inj : ∀ n m i, fs.names n = some i → fs.names m = some i → n = m
  bound : ∀ n i, fs.names n = some i → i < fs.contents.length
  hashed : ∀ k i, fs.names (.final k) = some i → ∃ c, fs.contents[i]? = some c ∧ hash c = k

/-- What a writer relies on. -/
def Writer.Sound (fs : Files κ α) (w : Writer ι α) : Prop :=
  match w.phase with
  | .absent => True
  | .writing fd off => fs.names (.temp (hash w.value)) = some fd ∧
      fs.contents[fd]? = some (w.value.take off) ∧ off ≤ w.value.length
  | .present => (fs.names (.final (hash w.value))).isSome = true

/-- No two writers have one temporary name open. -/
def Writer.Apart (w v : Writer ι α) : Prop :=
  ∀ k, w.holds hash k → ¬ v.holds hash k

structure Sound (s : State ι κ α) : Prop where
  tree : Tree hash s.files
  writers : ∀ w ∈ s.writers, w.Sound hash s.files
  apart : s.writers.Pairwise (Writer.Apart hash)

/-! ## Files -/

section Files

variable {fs fs' : Files κ α} {n m : Name κ} {i j : Nat} {k : κ} {c : List α}

/-- Writing on where one stopped. -/
theorem overlay_take [Inhabited α] (value : List α) (off n : Nat) (h : off ≤ value.length) :
    overlay (value.take off) off ((value.drop off).take n) = value.take (off + n) := by
  have hlen : (value.take off).length = off := by rw [List.length_take, Nat.min_eq_left h]
  have hrest : (value.take off).drop (off + ((value.drop off).take n).length) = [] := by
    rw [List.drop_eq_nil_iff, hlen]
    omega
  rw [overlay, hlen, Nat.sub_self, List.replicate_zero, List.append_nil, List.take_of_length_le (Nat.le_of_eq hlen),
    hrest, List.append_nil, List.take_add]

/-- Opening a temporary name gives it an empty file, and changes no other one. -/
theorem Tree.openTo [DecidableEq κ] (h : Tree hash fs) (k : κ) :
    Tree hash (fs.openTo (.temp k)).2 ∧
    (fs.openTo (.temp k)).2.names (.temp k) = some (fs.openTo (.temp k)).1 ∧
    (fs.openTo (.temp k)).2.contents[(fs.openTo (.temp k)).1]? = some [] ∧
    ∀ n, n ≠ .temp k → (fs.openTo (.temp k)).2.names n = fs.names n ∧
      ∀ i, fs.names n = some i → (fs.openTo (.temp k)).2.contents[i]? = fs.contents[i]? := by
  unfold Files.openTo
  cases hname : fs.names (.temp k) with
  | some j =>
    have hj : j < fs.contents.length := h.bound _ _ hname
    have hother : ∀ n i, n ≠ .temp k → fs.names n = some i → (fs.contents.set j [])[i]? = fs.contents[i]? := by
      intro n i hn hi
      refine List.getElem?_set_ne fun heq => hn (h.inj n (.temp k) j ?_ hname)
      rw [hi, heq]
    refine ⟨⟨h.inj, fun n i hi => ?_, fun k' i hi => ?_⟩, hname, ?_, fun n hn => ⟨rfl, fun i hi => hother n i hn hi⟩⟩
    · rw [List.length_set]
      exact h.bound n i hi
    · obtain ⟨c, hc, hk⟩ := h.hashed k' i hi
      exact ⟨c, (hother (.final k') i nofun hi).trans hc, hk⟩
    · exact List.getElem?_set_self hj
  | none =>
    have hother : ∀ n i, fs.names n = some i → (fs.contents ++ [[]])[i]? = fs.contents[i]? := fun n i hi =>
      List.getElem?_append_left (h.bound n i hi)
    have hnames : ∀ n, n ≠ .temp k →
        Function.update fs.names (.temp k) (some fs.contents.length) n = fs.names n := fun n hn =>
      Function.update_of_ne hn _ _
    dsimp only
    refine ⟨⟨?_, ?_, ?_⟩, Function.update_self _ _ _, ?_, fun n hn => ⟨hnames n hn, fun i hi => hother n i hi⟩⟩
    · intro n m i hn hm
      dsimp only at hn hm
      by_cases hnk : n = .temp k
      · by_cases hmk : m = .temp k
        · rw [hnk, hmk]
        · rw [hnk, Function.update_self] at hn
          rw [hnames m hmk] at hm
          have hlt := h.bound m i hm
          rw [← Option.some.inj hn] at hlt
          exact absurd hlt (Nat.lt_irrefl _)
      · rw [hnames n hnk] at hn
        by_cases hmk : m = .temp k
        · rw [hmk, Function.update_self] at hm
          have hlt := h.bound n i hn
          rw [← Option.some.inj hm] at hlt
          exact absurd hlt (Nat.lt_irrefl _)
        · rw [hnames m hmk] at hm
          exact h.inj n m i hn hm
    · intro n i hi
      dsimp only at hi ⊢
      rw [List.length_append, List.length_singleton]
      by_cases hnk : n = .temp k
      · rw [hnk, Function.update_self] at hi
        exact Nat.lt_succ_of_le (Nat.le_of_eq (Option.some.inj hi).symm)
      · rw [hnames n hnk] at hi
        exact Nat.lt_succ_of_lt (h.bound n i hi)
    · intro k' i hi
      dsimp only at hi ⊢
      rw [hnames (.final k') nofun] at hi
      obtain ⟨c, hc, hk⟩ := h.hashed k' i hi
      exact ⟨c, (hother _ i hi).trans hc, hk⟩
    · rw [List.getElem?_append_right (Nat.le_refl _), Nat.sub_self]
      rfl

/-- A write to an open temporary file changes that file only. -/
theorem Tree.write [Inhabited α] (h : Tree hash fs) (hname : fs.names (.temp k) = some i) (off : Nat)
    (part : List α) :
    Tree hash (fs.write i off part) ∧ (fs.write i off part).names = fs.names ∧
    (fs.write i off part).contents[i]? = fs.contents[i]?.map (fun c => overlay c off part) ∧
    ∀ n j, n ≠ .temp k → fs.names n = some j → (fs.write i off part).contents[j]? = fs.contents[j]? := by
  have hother : ∀ n j, n ≠ .temp k → fs.names n = some j →
      (fs.write i off part).contents[j]? = fs.contents[j]? := by
    intro n j hn hj
    have hij : i ≠ j := by
      rintro rfl
      exact hn (h.inj n (.temp k) i hj hname)
    rw [Files.write, List.getElem?_modify_ne _ _ hij]
  refine ⟨⟨h.inj, fun n j hj => ?_, fun k' j hj => ?_⟩, rfl, ?_, hother⟩
  · rw [Files.write, List.length_modify]
    exact h.bound n j hj
  · obtain ⟨c, hc, hk⟩ := h.hashed k' j hj
    exact ⟨c, (hother (.final k') j nofun hj).trans hc, hk⟩
  · rw [Files.write, List.getElem?_modify_eq]
    rfl

/-- A temporary file that holds a value takes the name of its hash. -/
theorem Tree.rename [DecidableEq κ] (h : Tree hash fs) (hname : fs.names (.temp k) = some i)
    (hc : fs.contents[i]? = some c) (hk : hash c = k) :
    ∃ fs', fs.rename (.temp k) (.final k) = some fs' ∧ Tree hash fs' ∧ fs'.contents = fs.contents ∧
      fs'.names (.final k) = some i ∧ ∀ n, n ≠ .temp k → n ≠ .final k → fs'.names n = fs.names n := by
  have hfinal : Function.update (Function.update fs.names (.temp k) none) (.final k) (some i) (.final k) =
      some i := Function.update_self _ _ _
  have htemp : Function.update (Function.update fs.names (.temp k) none) (.final k) (some i) (.temp k) =
      none := by
    have hne : Name.temp k ≠ .final k := nofun
    rw [Function.update_of_ne hne, Function.update_self]
  have hother : ∀ n, n ≠ .temp k → n ≠ .final k →
      Function.update (Function.update fs.names (.temp k) none) (.final k) (some i) n = fs.names n := by
    intro n h1 h2
    rw [Function.update_of_ne h2, Function.update_of_ne h1]
  -- a name that was not renamed has another file
  have hapart : ∀ n j, n ≠ .temp k → fs.names n = some j → j ≠ i := by
    rintro n j hn hj rfl
    exact hn (h.inj n (.temp k) j hj hname)
  have hrename : fs.rename (.temp k) (.final k) =
      some ⟨Function.update (Function.update fs.names (.temp k) none) (.final k) (some i), fs.contents⟩ := by
    rw [Files.rename, hname]
    rfl
  refine ⟨_, hrename, ⟨?_, ?_, ?_⟩, rfl, hfinal, hother⟩
  · intro n m j hn hm
    dsimp only at hn hm
    by_cases hnt : n = .temp k
    · rw [hnt, htemp] at hn
      cases hn
    by_cases hmt : m = .temp k
    · rw [hmt, htemp] at hm
      cases hm
    by_cases hnf : n = .final k
    · by_cases hmf : m = .final k
      · rw [hnf, hmf]
      · rw [hother m hmt hmf] at hm
        rw [hnf, hfinal] at hn
        exact absurd (Option.some.inj hn).symm (hapart m j hmt hm)
    · rw [hother n hnt hnf] at hn
      by_cases hmf : m = .final k
      · rw [hmf, hfinal] at hm
        exact absurd (Option.some.inj hm).symm (hapart n j hnt hn)
      · rw [hother m hmt hmf] at hm
        exact h.inj n m j hn hm
  · intro n j hj
    dsimp only at hj
    by_cases hnt : n = .temp k
    · rw [hnt, htemp] at hj
      cases hj
    by_cases hnf : n = .final k
    · rw [hnf, hfinal] at hj
      exact Option.some.inj hj ▸ h.bound _ _ hname
    · rw [hother n hnt hnf] at hj
      exact h.bound n j hj
  · intro k' j hj
    dsimp only at hj
    by_cases hkk : k' = k
    · rw [hkk, hfinal] at hj
      exact ⟨c, Option.some.inj hj ▸ hc, hk.trans hkk.symm⟩
    · rw [hother (.final k') nofun fun heq => hkk (Name.final.inj heq)] at hj
      exact h.hashed k' j hj

theorem stored_congr (hname : fs'.names (.final k) = fs.names (.final k))
    (hcontent : ∀ i, fs.names (.final k) = some i → fs'.contents[i]? = fs.contents[i]?) :
    fs'.stored k = fs.stored k := by
  rw [Files.stored, Files.stored, hname]
  cases hi : fs.names (.final k) with
  | none => rfl
  | some i => exact hcontent i hi

end Files

/-! ## Steps -/

section Steps

variable {hash} {s s' : State ι κ α} {x : Act ι α} {fs fs' : Files κ α} {w v : Writer ι α}
  {front back : List (Writer ι α)} {k : κ}

theorem Writer.Apart.symm (h : w.Apart hash v) : v.Apart hash w := fun k hv hw => h k hw hv

theorem Writer.Sound.holds {fd off : Nat} (h : w.Sound hash fs) (hphase : w.phase = .writing fd off) :
    fs.names (.temp (hash w.value)) = some fd ∧ fs.contents[fd]? = some (w.value.take off) ∧
      off ≤ w.value.length := by
  rw [Writer.Sound, hphase] at h
  exact h

/-- A writer does not notice what happens to other names. -/
theorem Writer.Sound.frame (h : w.Sound hash fs)
    (hfinal : (fs.names (.final (hash w.value))).isSome = true →
      (fs'.names (.final (hash w.value))).isSome = true)
    (htemp : ∀ fd, (∃ off, w.phase = .writing fd off) → fs.names (.temp (hash w.value)) = some fd →
      fs'.names (.temp (hash w.value)) = some fd ∧ fs'.contents[fd]? = fs.contents[fd]?) :
    w.Sound hash fs' := by
  obtain ⟨tag, value, phase⟩ := w
  cases phase with
  | absent => exact trivial
  | writing fd off =>
    obtain ⟨hname, hcontent, hoff⟩ := h
    obtain ⟨hname', hsame⟩ := htemp fd ⟨off, rfl⟩ hname
    exact ⟨hname', hsame.trans hcontent, hoff⟩
  | present => exact hfinal h

/-- One writer has taken a step, and the others have not noticed. -/
theorem Sound.moved (h : Sound hash ⟨fs, front ++ w :: back⟩) (htree : Tree hash fs')
    (hw : v.Sound hash fs') (hholds : ∀ k, v.holds hash k → ∀ d ∈ front ++ back, ¬ d.holds hash k)
    (hothers : ∀ d ∈ front ++ back, d.Sound hash fs → d.Sound hash fs') :
    Sound hash ⟨fs', front ++ v :: back⟩ := by
  have hmem : ∀ d ∈ front ++ back, d ∈ front ++ w :: back := fun d hd =>
    List.perm_middle.mem_iff.2 (List.mem_cons_of_mem _ hd)
  refine ⟨htree, fun d hd => ?_, ?_⟩
  · rcases List.mem_cons.1 (List.perm_middle.mem_iff.1 hd) with rfl | hd
    · exact hw
    · exact hothers d hd (h.writers d (hmem d hd))
  · have hapart := (List.pairwise_middle fun hab => Writer.Apart.symm hab).1 h.apart
    refine (List.pairwise_middle fun hab => Writer.Apart.symm hab).2 (List.pairwise_cons.2 ⟨?_, ?_⟩)
    · exact fun d hd k hk => hholds k hk d hd
    · exact (List.pairwise_cons.1 hapart).2

theorem Sound.others (h : Sound hash ⟨fs, front ++ w :: back⟩) (hphase : w.holds hash k) :
    ∀ d ∈ front ++ back, ¬ d.holds hash k := by
  have hapart := (List.pairwise_middle fun hab => Writer.Apart.symm hab).1 h.apart
  exact fun d hd => (List.pairwise_cons.1 hapart).1 d hd k hphase

/-- A writer that comes. -/
theorem Sound.enter (h : Sound hash s) (hw : w.Sound hash s.files) (hno : ∀ k, ¬ w.holds hash k) :
    Sound hash ⟨s.files, w :: s.writers⟩ := by
  refine ⟨h.tree, List.forall_mem_cons.2 ⟨hw, h.writers⟩, List.pairwise_cons.2 ⟨?_, h.apart⟩⟩
  exact fun d _ k hk => absurd hk (hno k)

/-- A writer that goes. -/
theorem Sound.leave (h : Sound hash ⟨fs, front ++ w :: back⟩) : Sound hash ⟨fs, front ++ back⟩ := by
  have hmem : ∀ d ∈ front ++ back, d ∈ front ++ w :: back := fun d hd =>
    List.perm_middle.mem_iff.2 (List.mem_cons_of_mem _ hd)
  have hapart := (List.pairwise_middle fun hab => Writer.Apart.symm hab).1 h.apart
  exact ⟨h.tree, fun d hd => h.writers d (hmem d hd), (List.pairwise_cons.1 hapart).2⟩

/-- **No rename fails.** -/
theorem Sound.renames [DecidableEq κ] (h : Sound hash ⟨fs, front ++ w :: back⟩) {fd off : Nat}
    (hphase : w.phase = .writing fd off) :
    (fs.rename (.temp (hash w.value)) (.final (hash w.value))).isSome = true := by
  have hw := h.writers w (List.mem_append_right _ List.mem_cons_self)
  rw [Files.rename, (hw.holds hphase).1]
  rfl

/-- **One step.** -/
theorem Sound.step [DecidableEq κ] [Inhabited α] (h : Sound hash s) (hok : Alone hash s x)
    (hstep : Step hash s x s') : Sound hash s' := by
  cases hstep with
  | absent hname => exact h.enter trivial fun k hk => nomatch hk.2
  | present hname =>
    refine h.enter ?_ fun k hk => nomatch hk.2
    rw [Writer.Sound, hname]
    rfl
  | @openTemp fs front back tag value =>
    obtain ⟨htree, hname, hempty, hothers⟩ := h.tree.openTo hash (hash value)
    have halone : ∀ d ∈ front ++ back, ¬ d.holds hash (hash value) := fun d hd =>
      hok d (List.perm_middle.mem_iff.2 (List.mem_cons_of_mem _ hd))
    refine h.moved htree ⟨hname, ?_, Nat.zero_le _⟩ ?_ ?_
    · rw [hempty, List.take_zero]
    · rintro k ⟨rfl, _⟩
      exact halone
    · intro d hd hsound
      refine hsound.frame (fun hfinal => ?_) fun fd hoff hfd => ?_
      · rw [(hothers (.final (hash d.value)) nofun).1]
        exact hfinal
      · have hne : Name.temp (hash d.value) ≠ .temp (hash value) := fun heq =>
          halone d hd ⟨Name.temp.inj heq, fd, hoff⟩
        obtain ⟨hname', hcontent⟩ := hothers _ hne
        exact ⟨hname'.trans hfd, hcontent fd hfd⟩
  | @write fs front back tag value fd off n hn =>
    have hw := h.writers _ (List.mem_append_right _ List.mem_cons_self)
    obtain ⟨hname, hcontent, hoff⟩ := hw
    have hno := h.others (k := hash value) ⟨rfl, fd, off, rfl⟩
    obtain ⟨htree, hnames, hself, hothers⟩ := h.tree.write hash hname off ((value.drop off).take n)
    refine h.moved htree ⟨?_, ?_, hn⟩ ?_ ?_
    · rw [hnames]
      exact hname
    · rw [hself, hcontent, Option.map_some, overlay_take value off n hoff]
    · rintro k ⟨rfl, _⟩
      exact hno
    · intro d hd hsound
      refine hsound.frame (fun hfinal => hnames ▸ hfinal) fun fd' hoff' hfd => ⟨hnames ▸ hfd, ?_⟩
      exact hothers _ fd' (fun heq => hno d hd ⟨Name.temp.inj heq, fd', hoff'⟩) hfd
  | @rename fs fs' front back tag value fd hrename =>
    have hw := h.writers _ (List.mem_append_right _ List.mem_cons_self)
    obtain ⟨hname, hcontent, -⟩ := hw
    have hno := h.others (k := hash value) ⟨rfl, fd, _, rfl⟩
    rw [List.take_length] at hcontent
    obtain ⟨fs'', heq, htree, hsame, hfinal, hothers⟩ := h.tree.rename hash hname hcontent rfl
    rw [hrename] at heq
    cases heq
    refine h.moved htree (Option.isSome_iff_exists.2 ⟨fd, hfinal⟩) (fun k hk => nomatch hk.2) ?_
    intro d hd hsound
    refine hsound.frame (fun hd' => ?_) fun fd' hoff' hfd => ⟨?_, by rw [hsame]⟩
    · by_cases heq : hash d.value = hash value
      · rw [heq, hfinal]
        rfl
      · rw [hothers (.final (hash d.value)) nofun fun h => heq (Name.final.inj h)]
        exact hd'
    · rw [hothers (.temp (hash d.value)) (fun h => hno d hd ⟨Name.temp.inj h, fd', hoff'⟩) nofun]
      exact hfd
  | leave => exact h.leave
  | stop => exact ⟨h.tree, nofun, List.Pairwise.nil⟩

/-- What is there stays there, whatever the writers do. -/
theorem Step.final_mono [DecidableEq κ] [Inhabited α] (hstep : Step hash s x s')
    (h : (s.files.names (.final k)).isSome = true) : (s'.files.names (.final k)).isSome = true := by
  cases hstep with
  | absent | present | leave | stop | write => exact h
  | @openTemp fs front back tag value =>
    have hne : Name.final k ≠ .temp (hash value) := nofun
    unfold Files.openTo
    split
    · exact h
    · dsimp only
      rw [Function.update_of_ne hne]
      exact h
  | @rename fs fs' front back tag value fd hrename =>
    have hne : Name.final k ≠ .temp (hash value) := nofun
    obtain ⟨i, _, rfl⟩ := Option.map_eq_some_iff.1 hrename
    dsimp only
    by_cases heq : Name.final k = .final (hash value)
    · rw [heq, Function.update_self]
      rfl
    · rw [Function.update_of_ne heq, Function.update_of_ne hne]
      exact h

/-- What is under a hash has it. -/
theorem Tree.stored (h : Tree hash fs) (hk : (fs.names (.final k)).isSome = true) :
    ∃ c, fs.stored k = some c ∧ hash c = k := by
  obtain ⟨i, hi⟩ := Option.isSome_iff_exists.1 hk
  obtain ⟨c, hc, hhash⟩ := h.hashed k i hi
  exact ⟨c, by rw [Files.stored, hi, Option.bind_some, hc], hhash⟩

end Steps

end Conc.TempFile
