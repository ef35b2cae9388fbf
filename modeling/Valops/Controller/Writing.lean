import Valops.Conc.Calm
import Valops.Controller.Site
import Valops.Store.Repeat

/-!
# What the runner reads and writes

The proof rules for the runner at its site. Calm operations change nothing that the runner relies on. What
is read of a log stays, a change of state may be requested where it is earned, and a step that is answered
has been recorded.

Main results: `post_record`, `post_transition`, `post_hand_off`, `step_recorded`.
-/

set_option autoImplicit false

namespace Valops.Controller

open Py Store Conc

/-- The runner among the others. -/
def siteDiscipline (I : Installation) : Discipline Site Unit Op Res where
  exec := Performs I
  inv := Regular I
  rely := Grows I
  guar _ _ _ _ := True
  refl := Grows.refl
  trans := Grows.trans

/-- The operation changes nothing that the runner relies on. -/
def Calm (I : Installation) : Op → Prop
  | .store m p => ¬ Owned m ∧ p.get "token" = .null ∧
      ∀ session, m.idemKey I.store p ≠ .str (stepKey session)
  | .uuid4 | .mint _ _ _ _ _ => False
  | _ => True

section Steps

variable {I : Installation} {σ σ' : Site} {m : Method} {p : Params} {o : Op}

theorem unforged_null {verify : VerifyKey} {signed : Grant → Prop} : Unforged verify signed .null := by
  intro bundle_ok revoked body h
  cases h

/-- A request of the runner, served or lost. -/
theorem Regular.stored (h : Regular I σ) {r : Res (.store m p)} (hp : Performs I () σ (.store m p) r σ')
    (htoken : p.get "token" = .null)
    (hkey : ¬ Owned m → ∀ session, m.idemKey I.store p ≠ .str (stepKey session))
    (hreq : Owned m → Request I σ.log m p) : Regular I σ' ∧ Grows I (σ.sending m p) σ' := by
  have hsent := h.sending hreq
  rcases hp with ⟨rfl, -⟩ | ⟨w, hwhole, hfresh, -, rfl⟩
  · exact ⟨hsent, .refl _⟩
  · have hsystem : (σ.sending m p).system = σ.system := by
      unfold Site.sending
      split <;> rfl
    have ho : Others I (σ.sending m p) (.call ⟨w, .control, m, p⟩) := by
      refine ⟨nofun, fun c hc hres => ?_, fun c hc => ?_⟩
      · cases hc
        have hm : Owned m := by
          rcases hres with ⟨-, hm⟩ | ⟨session, hs⟩
          · exact hm
          · by_contra hm
            exact hkey hm session hs
        rw [Site.sending, if_pos hm]
        exact List.mem_cons_self
      · cases hc
        show Unforged _ _ (p.get "token")
        rw [htoken]
        exact unforged_null
    have hmoves : Moves I.store (σ.sending m p).system (.call ⟨w, .control, m, p⟩)
        (σ.system.ran I.store ⟨w, .control, m, p⟩) := by
      rw [hsystem]
      exact .call hwhole hfresh
    exact ⟨hsent.moves ho hmoves, hsent.growth ho hmoves⟩

theorem calm_step (h : Regular I σ) (ho : Calm I o) {r : Res o} (hp : Performs I () σ o r σ') :
    Regular I σ' ∧ Grows I σ σ' := by
  cases o with
  | store m p =>
    obtain ⟨hm, htoken, hkey⟩ := ho
    obtain ⟨hinv, hgrows⟩ := h.stored hp htoken (fun _ => hkey) fun howned => absurd howned hm
    rw [Site.sending, if_neg hm] at hgrows
    exact ⟨hinv, hgrows⟩
  | uuid4 => exact ho.elim
  | mint => exact ho.elim
  | load v =>
    obtain ⟨rfl, -⟩ := hp
    exact ⟨h, .refl _⟩
  | _ =>
    cases hp
    exact ⟨h, .refl _⟩

/-- A new session. -/
theorem Regular.session (h : Regular I σ) (s : Option PyStr) : Regular I { σ with session := s } :=
  ⟨h.ledger, h.governed, h.requests, h.stated, h.sessions, h.keys⟩

/-- A new token. -/
theorem Regular.mint (h : Regular I σ) (g : Grant) :
    Regular I { σ with system := { σ.system with minted := g :: σ.system.minted } } where
  ledger := h.ledger.step (a := .mint g) (fun _ _ hc => nomatch hc) .mint
  governed := h.governed
  requests := h.requests
  stated := h.stated
  sessions e x hx hagent := by
    obtain ⟨g', hg', hsession⟩ := h.sessions e x hx hagent
    exact ⟨g', List.mem_cons_of_mem _ hg', hsession⟩
  keys := h.keys

end Steps

/-! ## Rules -/

section Rules

variable {I : Installation} {σ : Site} {α β : Type} {R : β → Site → Prop}

theorem calming : Calming (siteDiscipline I) (Calm I) := by
  intro c s o r s' hinv ho hr
  obtain ⟨hinv', hgrows⟩ := calm_step hinv ho hr
  exact ⟨hinv', trivial, hgrows⟩

theorem post_compute {x : Except Exc β}
    (h : ∀ a, x = .ok a → ∀ σ', Grows I σ σ' → Regular I σ' → R a σ') :
    wpE (siteDiscipline I) () (compute x) (Post R) σ := by
  cases x with
  | ok a => exact h a rfl
  | error e => exact fun _ _ _ => trivial

/-- One operation of the runner. -/
theorem post_op (o : Op) (view : Res o → Except Raised β)
    (h : ∀ σ₁ r σ₂, Grows I σ σ₁ → Regular I σ₁ → Performs I () σ₁ o r σ₂ → Regular I σ₂ ∧
      ∀ a, view r = .ok a → ∀ σ₃, Grows I σ₂ σ₃ → Regular I σ₃ → R a σ₃) :
    wpE (siteDiscipline I) () (ExceptT.mk ((ask o).bind fun r => .ret (view r))) (Post R) σ :=
  post_ask fun σ₁ r σ₂ h₁ hi hp =>
    have h₂ := h σ₁ r σ₂ h₁ hi hp
    ⟨h₂.1, trivial, h₂.2⟩

theorem ok_of_raising {x : Except Exc β} {a : β} (h : raising x = .ok a) : x = .ok a := by
  cases x with
  | ok b =>
    cases h
    rfl
  | error e => cases h

end Rules

/-! ## Calm parts -/

section Issues

variable {I : Installation} {α β : Type}

theorem calm_call {p : Prog Op Res (Except Exc α)} (h : Issues (Calm I) p) : IssuesE (Calm I) (call p) :=
  issues_bind h fun _ => trivial

theorem calm_ask {o : Op} (h : Calm I o) : Issues (Calm I) (ask o : Prog Op Res (Res o)) :=
  issues_perform h

theorem calm_compute {x : Except Exc α} : IssuesE (Calm I) (compute x) := trivial

/-- A computation whose result is looked at. -/
theorem calm_computed {x : Except Exc β} {f : β → Calls α} (h : ∀ a, x = .ok a → IssuesE (Calm I) (f a)) :
    IssuesE (Calm I) (compute x >>= f) := by
  cases x with
  | ok a => exact h a rfl
  | error e => trivial

theorem calm_orRpc {p : Calls α} {h : Code → Msg → Calls α} (hp : IssuesE (Calm I) p)
    (hh : ∀ code text, IssuesE (Calm I) (h code text)) : IssuesE (Calm I) (orRpc p h) := by
  refine issuesE_tryCatch hp fun e => ?_
  match e with
  | .exc (.rpc code text _) => exact hh code text
  | .exc (.other _) => trivial
  | .isolation _ => trivial

theorem calm_alert {severity : Severity} {title text : PyStr} {episode_id dedupe : Option PyStr} :
    IssuesE (Calm I) (alert severity title text episode_id dedupe) :=
  calm_orRpc (calm_call (calm_ask trivial)) fun _ _ => trivial

theorem calm_audit {event e : PyStr} {data : Fields} : IssuesE (Calm I) (_audit event e data) :=
  calm_orRpc (calm_call (calm_ask trivial)) fun _ _ => trivial

theorem not_owned_read : ¬ Owned .read_episode := by
  rintro (h | h) <;> cases h

theorem calm_read {e : PyStr} {view : String} : Calm I (.store .read_episode (readParams e view)) :=
  ⟨not_owned_read, rfl, fun _ => nofun⟩

end Issues

/-! ## Reading -/

section Read

variable {I : Installation} {σ : Site} {e : PyStr}

theorem read_ok {cfg : StoreConfig} {w : World} {s : EpisodeStore} {r : Reply} {rec : Record}
    (h : (handle cfg w s .control .read_episode (readParams e "record")).1 = .ok r)
    (hrec : recordOf r = .ok rec) : s.records.get? e = some rec := by
  have hview : handle cfg w s .control .read_episode (readParams e "record") =
      (control_read cfg w s (readParams e "record"), s) := rfl
  rw [hview] at h
  obtain ⟨rec', hget, h⟩ := bind_eq_ok.1 h
  obtain ⟨e', he', hget⟩ := _record_eq_ok hget
  cases he'
  cases h
  cases hrec
  exact hget

/-- **What is read is what the log says.** -/
theorem post_record {R : Record → Site → Prop} (hR : ∀ rec, Stable (siteDiscipline I) (R rec))
    (h : ∀ σ₁, Grows I σ σ₁ → Regular I σ₁ → ∀ rec, rec.episode_id = e →
      rec.revision = (σ₁.log e).length → rec = recordAt I.store e (σ₁.log e) → R rec σ₁) :
    wpE (siteDiscipline I) () (record e) (Post R) σ := by
  refine post_bind (R := fun r σ' => ∀ rec, recordOf r = .ok rec → R rec σ') ?_ fun r σ' hr => ?_
  · refine post_op (.store .read_episode (readParams e "record")) (fun r => raising (r : Except Exc Reply)) ?_
    intro σ₁ r σ₂ h₁ hi hp
    obtain ⟨hi₂, h₂⟩ := calm_step hi calm_read hp
    refine ⟨hi₂, fun a hr σ₃ h₃ _ rec hrec => ?_⟩
    have hr := ok_of_raising hr
    rcases hp with ⟨-, x, hx⟩ | ⟨w, -, -, hres, -⟩
    · cases hx.symm.trans hr
    have hget := read_ok (hres.symm.trans hr) hrec
    refine hR rec σ₁ σ₃ (h σ₁ h₁ hi rec ?_ ?_ ?_) (h₂.trans h₃)
    · exact hi.ledger.consistent.episode_id hget
    · exact hi.ledger.consistent.revision hget
    · exact hi.ledger.consistent.exact trivial e rec hget
  · exact post_compute fun rec hrec σ₂ h₂ _ => hR rec σ' σ₂ (hr rec hrec) h₂

end Read

/-! ## Changing the state -/

section Transition

variable {I : Installation} {σ : Site} {rec : Record} {to_ : EpisodeState} {reason : PyStr}

theorem transition_request (hwithin : rec.revision ≤ (σ.log rec.episode_id).length)
    (hearned : Earned I rec.episode_id ((σ.log rec.episode_id).take rec.revision) to_) :
    Request I σ.log .set_state (stateParams rec to_ reason) where
  state _ e he := by
    cases he
    exact ⟨rec.revision, to_, hwithin, rfl, rfl, hearned⟩
  step hm := nomatch hm

/-- **A change of state may be requested where it is earned.** -/
theorem post_transition (hwithin : rec.revision ≤ (σ.log rec.episode_id).length)
    (hearned : Earned I rec.episode_id ((σ.log rec.episode_id).take rec.revision) to_) :
    wpE (siteDiscipline I) () (transition rec to_ reason) (Post fun _ _ => True) σ := by
  refine post_bind (R := fun _ _ => True) (post_tryCatch (post_bind (R := fun _ _ => True) ?_ ?_) ?_ ?_) ?_
  · refine post_op (.store .set_state (stateParams rec to_ reason))
      (fun r => raising (Except.map (fun _ => ()) r)) ?_
    intro σ₁ r σ₂ h₁ hi hp
    refine ⟨(hi.stored hp rfl (fun hm => absurd (.inl rfl) hm) fun _ => transition_request ?_ ?_).1,
      fun _ _ _ _ _ => trivial⟩
    · exact hwithin.trans (h₁.length_le _)
    · rw [h₁.take hwithin]
      exact hearned
  · exact fun _ _ _ => post_pure fun _ _ _ => trivial
  · exact fun _ _ _ _ _ => trivial
  · intro e σ'
    match e with
    | .exc (.rpc code _ _) => cases code <;> exact fun _ _ _ => trivial
    | .exc (.other _) => exact post_throw
    | .isolation _ => exact post_throw
  · intro done σ' _
    split
    · exact post_calm calming (issuesE_bind calm_audit fun _ => trivial) fun _ _ _ _ => trivial
    · exact post_pure fun _ _ _ => trivial

theorem earned_of_handed_off {log : List Entry} : Earned I rec.episode_id log .handed_off :=
  fun _ _ _ hdst => absurd rfl hdst

theorem post_hand_off {severity : Severity} (b : Builtins)
    (hwithin : rec.revision ≤ (σ.log rec.episode_id).length) :
    wpE (siteDiscipline I) () (hand_off b rec reason severity) (Post fun _ _ => True) σ := by
  refine post_bind (R := fun _ _ => True) (post_transition hwithin earned_of_handed_off) fun done σ' _ => ?_
  split
  · exact post_calm calming (issuesE_bind calm_compute fun _ => calm_alert) fun _ _ _ _ => trivial
  · exact post_pure fun _ _ _ => trivial

end Transition

/-! ## Recording a step -/

section Record

variable {cfg : StoreConfig} {w : World} {s : EpisodeStore} {p : Params} {r : Reply} {e session : PyStr}

/-- **A step that is answered has been recorded**, where its key is new. -/
theorem step_recorded (hs : Consistent cfg True s) (hfresh : FreshId w s)
    (hok : (handle cfg w s .control .append_step p).1 = .ok r) (hid : p.get "episode_id" = .str e)
    (hkey : p.get "idem_key" = .str (stepKey session))
    (hnew : ∀ row ∈ s.rows, row.idem_key ≠ stepKey session) :
    ∃ x b, (handle cfg w s .control .append_step p).2.entries e = s.entries e ++ [x] ∧ x.body = .step b ∧
      p.get "role" = .str b.role.text ∧ b.session_id = p.get "session_id" ∧
      p.get "outcome" = .str b.outcome.text := by
  have hm := method_of_ok hok
  have hrun : handle cfg w s .control .append_step p = runEntry cfg w s .control .append_step p :=
    handle_eq_runEntry hm rfl nofun
  have hchange : Change cfg w s .control .append_step p (handle cfg w s .control .append_step p).2 :=
    handle_change hfresh.1
  rw [hrun] at hok hchange ⊢
  obtain ⟨dec, e', rec, key, v, -, hid', -, hkey', -, row, hfind, -⟩ :=
    runEntry_holds hm (fun e rec h => hs.episode_id h) hok
  cases hid.symm.trans hid'
  have hkeyeq : key = stepKey session := by
    have hidem : Method.idemKey cfg .append_step p = .str (stepKey session) := hkey
    rw [hidem] at hkey'
    unfold keyText at hkey'
    dsimp only at hkey'
    split at hkey'
    · cases hkey'
    · exact bindStr_eq_ok hkey'
  have hmem := List.mem_of_find?_eq_some hfind
  have hrow : row.idem_key = key := by
    have hfound := List.find?_some hfind
    exact (of_decide_eq_true hfound).2
  generalize hs' : (runEntry cfg w s .control .append_step p).2 = s' at hchange hmem
  cases hchange with
  | same => exact absurd (hrow.trans hkeyeq) (hnew row hmem)
  | opens => exact absurd (hrow.trans hkeyeq) (hnew row hmem)
  | opened opened => exact nomatch opened.method
  | @entry d row' drafted written =>
    obtain ⟨e', hid', hget⟩ := drafted.found
    cases hid.symm.trans hid'
    have hw := newRow_eq_ok drafted.wf written
    have hep : row'.episode_id = e := hw.episode.trans (hs.episode_id hget)
    have hadm := drafted.admitted
    have hkind := drafted.kind
    cases hb : d.body with
    | step b =>
      rw [hb] at hadm
      generalize d.principal = principal at hadm
      generalize d.session_id = owner at hadm
      cases hadm with
      | step endpoint role session outcome =>
        refine ⟨{ d.entry row' with session_id := row'.session_id }, b, ?_, hb, role, session, outcome⟩
        rw [← hep]
        exact wrote_entries_self hw.entry
    | _ =>
      rw [hb] at hkind
      cases hkind

end Record

end Valops.Controller
