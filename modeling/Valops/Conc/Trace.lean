import Valops.Conc.Loop
import Valops.Conc.Path

/-!
# The events of a path

What is true of some event of a path, of every event, and of the states that a path whose operations
meet each other goes through; and the path of a program in a world that answers by a function.
-/

set_option autoImplicit false

namespace Conc

variable {σ Op : Type} {Res : Op → Type} {α β ε : Type}

section Events

variable {exec : σ → (o : Op) → Res o → σ → Prop} {tr front back : List (Event σ Op Res)}

/-- Some event has the property. -/
def Has (P : Event σ Op Res → Prop) (tr : List (Event σ Op Res)) : Prop := ∃ ev ∈ tr, P ev

variable {P Q : Event σ Op Res → Prop}

@[simp] theorem has_nil : Has P ([] : List (Event σ Op Res)) ↔ False := by
  simp [Has]

@[simp] theorem has_cons {ev : Event σ Op Res} : Has P (ev :: tr) ↔ P ev ∨ Has P tr := by
  simp [Has]

@[simp] theorem has_append : Has P (front ++ back) ↔ Has P front ∨ Has P back := by
  simp only [Has, List.mem_append, or_and_right, exists_or]

theorem Has.mono (h : Has P tr) (hPQ : ∀ ev, P ev → Q ev) : Has Q tr := by
  obtain ⟨ev, hev, hp⟩ := h
  exact ⟨ev, hev, hPQ ev hp⟩

/-- Every event of a path is one that its operation allows. -/
theorem Path.execs {p : Prog Op Res α} {a : α} (h : Path exec p tr a) :
    ∀ ev ∈ tr, exec ev.before ev.op ev.result ev.after := by
  induction h with
  | ret a => exact fun ev hev => absurd hev List.not_mem_nil
  | step h rest ih => exact List.forall_mem_cons.2 ⟨h, ih⟩

/-- A path stays within the operations of its program. -/
theorem Path.issues {p : Prog Op Res α} {a : α} {K : Op → Prop} (h : Path exec p tr a)
    (hp : Issues K p) : ∀ ev ∈ tr, K ev.op := by
  induction h with
  | ret a => exact fun ev hev => absurd hev List.not_mem_nil
  | step h rest ih => exact List.forall_mem_cons.2 ⟨hp.1, ih (hp.2 _)⟩

/-- A path has no event of a kind that its program does not issue. -/
theorem Path.lacks {p : Prog Op Res α} {a : α} {K : Op → Prop} (h : Path exec p tr a)
    (hp : Issues K p) (hP : ∀ ev, P ev → ¬ K ev.op) : ¬ Has P tr := by
  rintro ⟨ev, hev, hevP⟩
  exact hP ev hevP (h.issues hp ev hev)

/-- Of a path in parts, each within some kinds of operations, only the parts that may have events of
the right kind matter. -/
theorem has_parts {κ : Type} [DecidableEq κ] {kind : Op → κ} {ks : List κ}
    (hP : ∀ ev, P ev → kind ev.op ∈ ks) : ∀ {parts : List (List κ × List (Event σ Op Res))},
    (∀ part ∈ parts, ∀ ev ∈ part.2, kind ev.op ∈ part.1) →
      (Has P (parts.flatMap Prod.snd) ↔
        Has P ((parts.filter fun part => part.1.any fun k => k ∈ ks).flatMap Prod.snd)) := by
  intro parts
  induction parts with
  | nil => exact fun _ => Iff.rfl
  | cons part parts ih =>
    intro h
    obtain ⟨hpart, hrest⟩ := List.forall_mem_cons.1 h
    rw [List.flatMap_cons, has_append, ih hrest, List.filter_cons]
    split
    · rw [List.flatMap_cons, has_append]
    · rename_i hks
      refine or_iff_right fun ⟨ev, hev, hevP⟩ => hks ?_
      exact List.any_eq_true.2 ⟨_, hpart ev hev, decide_eq_true (hP ev hevP)⟩

theorem path_map {p : Prog Op Res α} {f : α → β} {b : β} :
    Path exec (p.bind fun a => .ret (f a)) tr b ↔ ∃ a, Path exec p tr a ∧ b = f a := by
  rw [path_bind]
  constructor
  · rintro ⟨front, back, a, rfl, hp, hb⟩
    obtain ⟨rfl, rfl⟩ := path_ret.1 hb
    rw [List.append_nil]
    exact ⟨a, hp, rfl⟩
  · rintro ⟨a, hp, rfl⟩
    exact ⟨tr, [], a, (List.append_nil tr).symm, hp, .ret _⟩

end Events

/-! ## States -/

section States

variable {exec : σ → (o : Op) → Res o → σ → Prop}

theorem chained_append {front back : List (Event σ Op Res)} : ∀ {s s' : σ},
    Chained s (front ++ back) s' ↔ ∃ m, Chained s front m ∧ Chained m back s' := by
  induction front with
  | nil => exact fun {s s'} => ⟨fun h => ⟨s, rfl, h⟩, fun ⟨m, hm, h⟩ => hm ▸ h⟩
  | cons ev front ih =>
    intro s s'
    constructor
    · rintro ⟨hev, hrest⟩
      obtain ⟨m, hfront, hback⟩ := ih.1 hrest
      exact ⟨m, ⟨hev, hfront⟩, hback⟩
    · rintro ⟨m, ⟨hev, hfront⟩, hback⟩
      exact ⟨hev, ih.2 ⟨m, hfront, hback⟩⟩

/-- Operations that leave the state alone leave it alone together. -/
theorem Chained.kept {tr : List (Event σ Op Res)} (hev : ∀ ev ∈ tr, ev.after = ev.before) :
    ∀ {s s' : σ}, Chained s tr s' → s' = s := by
  induction tr with
  | nil => exact fun h => h
  | cons ev tr ih =>
    obtain ⟨hfirst, hrest⟩ := List.forall_mem_cons.1 hev
    rintro s s' ⟨hbefore, h⟩
    rw [ih hrest h, hfirst, hbefore]

/-- What a program does in a world that answers by a function. -/
def drive (answer : σ → (o : Op) → Res o × σ) : Prog Op Res α → σ → List (Event σ Op Res) × α × σ
  | .ret a, s => ([], a, s)
  | .step o k, s =>
    let x := answer s o
    let rest := drive answer (k x.1) x.2
    (⟨s, o, x.1, x.2⟩ :: rest.1, rest.2)

variable {answer : σ → (o : Op) → Res o × σ}

theorem drive_path (hanswer : ∀ s o, exec s o (answer s o).1 (answer s o).2) (p : Prog Op Res α) :
    ∀ s, Path exec p (drive answer p s).1 (drive answer p s).2.1 := by
  induction p with
  | ret a => exact fun s => .ret a
  | step o k ih => exact fun s => .step (hanswer s o) (ih _ _)

theorem drive_answers (p : Prog Op Res α) :
    ∀ s, ∀ ev ∈ (drive answer p s).1, (ev.result, ev.after) = answer ev.before ev.op := by
  induction p with
  | ret a => exact fun s ev hev => absurd hev List.not_mem_nil
  | step o k ih => exact fun s => List.forall_mem_cons.2 ⟨rfl, ih _ _⟩

theorem drive_chained (p : Prog Op Res α) :
    ∀ s, Chained s (drive answer p s).1 (drive answer p s).2.2 := by
  induction p with
  | ret a => exact fun s => rfl
  | step o k ih => exact fun s => ⟨rfl, ih _ _⟩

end States

end Conc
