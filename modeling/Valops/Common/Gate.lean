import Valops.Common.Tokens
import Valops.Conc.Runs

/-!
# Which tokens a gate accepts

Runs of the signer, one gate and the clock: tokens are minted, sessions are revoked, time passes. The
signature scheme is a parameter, with the two things that are expected of it: what the signer signs
verifies, and a token that verifies has a body that the signer signed.

The gate decodes base64 leniently: characters outside the alphabet are skipped, and so is whatever
follows the padding. A grant has therefore many tokens, all the strings that decode to its body and to
a signature of it (`Encodes`); `mint` writes one of them.

Main results: `gate_decides` (in every reachable state the gate accepts the encodings of the minted
grants, under the conditions of `Accepts`, and refuses every other string) and `mint_iff`, what can be
minted.
-/

set_option autoImplicit false

namespace Valops

open Py

/-! ## The signer, the gate and the clock -/

/-- What was minted, each grant with its token, what was revoked at the gate, and the time. -/
structure GateState where
  minted : List (Grant × PyStr)
  revoked : List PyStr
  now : Double
  deriving DecidableEq

inductive GateAct where
  | mint (g : Grant)
  | revoke_session (session_id : PyStr)
  | wait (now : Double)

/-- What `mint` returned; where it raised, nothing changes. -/
def GateState.add (s : GateState) (g : Grant) : Except Exc PyStr → GateState
  | .ok token => { s with minted := (g, token) :: s.minted }
  | .error _ => s

/-- One act. -/
def GateState.act (sign : Bytes → Bytes) (s : GateState) : GateAct → GateState
  | .mint g => s.add g (mint sign g)
  | .revoke_session session_id => { s with revoked := session_id :: s.revoked }
  | .wait now => { s with now }

/-- Nothing is minted or revoked yet. -/
def GateState.Fresh (s : GateState) : Prop := s.minted = [] ∧ s.revoked = []

/-- The states of the runs. -/
abbrev GateState.Reached (sign : Bytes → Bytes) (s : GateState) : Prop :=
  Conc.Reachable GateState.Fresh (fun s a s' => s.act sign a = s') Conc.anyAct s

/-- The grant was minted. -/
def GateState.granted (s : GateState) (g : Grant) : Prop := ∃ token, (g, token) ∈ s.minted

/-- The gate in a state. -/
def GateState.gate (verify : VerifyKey) (bundle_ok : Json → Except Exc (Option Msg)) (s : GateState) :
    TokenGate :=
  ⟨verify, bundle_ok, s.revoked⟩

/-! ## Encodings of a grant -/

/-- The string decodes to the body of the grant and to a signature of it. -/
def Encodes (verify : VerifyKey) (g : Grant) (token : PyStr) : Prop :=
  ∃ body_s sig_s body sig, token = body_s ++ 46 :: sig_s ∧ 46 ∉ body_s ∧ 46 ∉ sig_s ∧
    b64uDec body_s = some body ∧ b64uDec sig_s = some sig ∧ g.body = some body ∧
    verify sig body = true

/-- The conditions under which the gate accepts an encoding of the grant. -/
structure Accepts (bundle_ok : Json → Except Exc (Option Msg)) (s : GateState) (episode_id role : Json)
    (g : Grant) : Prop where
  fresh : (Json.float g.exp).pyLt (.float s.now) = some false
  unrevoked : g.session_id ∉ s.revoked
  episode : episode_id = .null ∨ episode_id = .str g.episode_id
  role : role = .null ∨ role = .str g.role.text
  bundle : bundle_ok (.str g.bundle_id) = .ok none

section Decode

variable {verify : VerifyKey} {s body_s sig_s : PyStr} {g : TokenGate} {body : Bytes}

theorem splitToken_eq_ok : splitToken (.str s) = .ok (body_s, sig_s) ↔
    s = body_s ++ 46 :: sig_s ∧ 46 ∉ body_s ∧ 46 ∉ sig_s := by
  constructor
  · intro h
    rw [splitToken] at h
    split at h
    · next hcount =>
      obtain ⟨rfl, rfl⟩ := Prod.mk.inj (Except.ok.inj h)
      have hbefore : 46 ∉ s.takeWhile (· ≠ 46) := by
        intro hmem
        have himp := List.mem_takeWhile_imp hmem
        simp at himp
      have hcut := List.takeWhile_append_dropWhile (p := (· ≠ 46)) (l := s)
      cases hdrop : s.dropWhile (· ≠ 46) with
      | nil =>
        rw [hdrop, List.append_nil] at hcut
        rw [← hcut, List.count_eq_zero.2 hbefore] at hcount
        cases hcount
      | cons c rest =>
        have hdot := List.head?_dropWhile_not (fun c : Nat => decide (c ≠ 46)) s
        rw [hdrop] at hdot
        have hc : c = 46 := by simpa using hdot
        rw [hdrop, hc] at hcut
        rw [← hcut, List.count_append, List.count_eq_zero.2 hbefore, List.count_cons_self] at hcount
        rw [List.drop_succ_cons, List.drop_zero]
        exact ⟨hcut.symm, hbefore, List.count_eq_zero.1 (by omega)⟩
    · cases h
  · rintro ⟨rfl, hbefore, hafter⟩
    have hcount : (body_s ++ 46 :: sig_s).count 46 = 1 := by
      rw [List.count_append, List.count_eq_zero.2 hbefore, List.count_cons_self,
        List.count_eq_zero.2 hafter]
    have hall : ∀ c ∈ body_s, decide (c ≠ 46) = true := fun c hc =>
      decide_eq_true fun heq => hbefore (heq ▸ hc)
    rw [splitToken, if_pos hcount, List.takeWhile_append_of_pos hall, List.dropWhile_append_of_pos hall]
    simp

/-- What the gate takes for authentic. -/
theorem authenticate_iff : g.authenticate (.str s) = .ok body ↔
    ∃ body_s sig_s sig, s = body_s ++ 46 :: sig_s ∧ 46 ∉ body_s ∧ 46 ∉ sig_s ∧
      b64uDec body_s = some body ∧ b64uDec sig_s = some sig ∧ g.verify sig body = true := by
  unfold TokenGate.authenticate
  constructor
  · intro h
    obtain ⟨⟨body_s, sig_s⟩, hsplit, h⟩ := bind_eq_ok.1 h
    obtain ⟨b, hb, h⟩ := bind_eq_ok.1 h
    obtain ⟨sig, hsig, h⟩ := bind_eq_ok.1 h
    obtain ⟨_, hv, h⟩ := bind_eq_ok.1 h
    cases pure_eq_ok.1 h
    obtain ⟨hs, hbefore, hafter⟩ := splitToken_eq_ok.1 hsplit
    exact ⟨body_s, sig_s, sig, hs, hbefore, hafter, orRaise_eq_ok.1 hb, orRaise_eq_ok.1 hsig,
      require_eq_ok.1 hv⟩
  · rintro ⟨body_s, sig_s, sig, hs, hbefore, hafter, hb, hsig, hv⟩
    refine bind_eq_ok.2 ⟨(body_s, sig_s), splitToken_eq_ok.2 ⟨hs, hbefore, hafter⟩, ?_⟩
    refine bind_eq_ok.2 ⟨body, orRaise_eq_ok.2 hb, ?_⟩
    refine bind_eq_ok.2 ⟨sig, orRaise_eq_ok.2 hsig, ?_⟩
    exact bind_eq_ok.2 ⟨(), require_eq_ok.2 hv, rfl⟩

/-- What is not authentic is refused as such. -/
theorem authenticate_error {token : Json} {e : Exc} (h : g.authenticate token = .error e) :
    ∃ text, e = rpcError .unauthenticated text := by
  unfold TokenGate.authenticate at h
  rcases bind_eq_error.1 h with hsplit | ⟨_, _, h⟩
  · unfold splitToken at hsplit
    split at hsplit
    · split at hsplit
      · cases hsplit
      · exact ⟨_, (Except.error.inj hsplit).symm⟩
    · exact ⟨_, (Except.error.inj hsplit).symm⟩
  rcases bind_eq_error.1 h with hbody | ⟨_, _, h⟩
  · exact ⟨_, orRaise_error hbody⟩
  rcases bind_eq_error.1 h with hsig | ⟨_, _, h⟩
  · exact ⟨_, orRaise_error hsig⟩
  rcases bind_eq_error.1 h with hverify | ⟨_, _, h⟩
  · exact ⟨_, require_error hverify⟩
  · cases h

theorem encodes_iff (bundle_ok : Json → Except Exc (Option Msg)) (revoked : List PyStr) {gr : Grant} :
    Encodes verify gr s ↔
      ∃ body, TokenGate.authenticate ⟨verify, bundle_ok, revoked⟩ (.str s) = .ok body ∧
        gr.body = some body := by
  simp only [authenticate_iff]
  constructor
  · rintro ⟨body_s, sig_s, body, sig, hs, hbefore, hafter, hb, hsig, hbody, hv⟩
    exact ⟨body, ⟨body_s, sig_s, sig, hs, hbefore, hafter, hb, hsig, hv⟩, hbody⟩
  · rintro ⟨body, ⟨body_s, sig_s, sig, hs, hbefore, hafter, hb, hsig, hv⟩, hbody⟩
    exact ⟨body_s, sig_s, body, sig, hs, hbefore, hafter, hb, hsig, hbody, hv⟩

end Decode

/-! ## Minting -/

section Mint

variable {sign : Bytes → Bytes} {g : Grant} {token : PyStr}

theorem mint_eq_ok : mint sign g = .ok token ↔
    ∃ body, g.body = some body ∧ token = b64u body ++ 46 :: b64u (sign body) := by
  unfold mint
  rw [bind_eq_ok]
  constructor
  · rintro ⟨body, hbody, hpure⟩
    refine ⟨body, orRaise_eq_ok.1 hbody, ?_⟩
    rw [← pure_eq_ok.1 hpure, List.append_assoc]
    rfl
  · rintro ⟨body, hbody, rfl⟩
    refine ⟨body, orRaise_eq_ok.2 hbody, pure_eq_ok.2 ?_⟩
    rw [List.append_assoc]
    rfl

/-- UTF-8 can encode the identifiers. -/
def Grant.Encodable (g : Grant) : Prop :=
  ∀ s ∈ [g.episode_id, g.session_id, g.bundle_id, g.nonce], ∀ c ∈ s, isScalar c = true

/-- The fields in the order of their names. -/
theorem asdict_eq : g.asdict = .obj [(py "bundle_id", .str g.bundle_id),
    (py "episode_id", .str g.episode_id), (py "exp", .float g.exp), (py "iat", .float g.iat),
    (py "nonce", .str g.nonce), (py "role", .str g.role.text), (py "session_id", .str g.session_id),
    (py "v", .int 1)] := rfl

/-- What can be minted: everything whose identifiers can be encoded. -/
theorem mint_iff : (∃ token, mint sign g = .ok token) ↔ g.Encodable := by
  have hbody : (∃ token, mint sign g = .ok token) ↔ g.body.isSome = true := by
    rw [Option.isSome_iff_exists]
    constructor
    · rintro ⟨token, h⟩
      obtain ⟨body, hb, _⟩ := mint_eq_ok.1 h
      exact ⟨body, hb⟩
    · rintro ⟨body, hb⟩
      exact ⟨_, mint_eq_ok.2 ⟨body, hb, rfl⟩⟩
  have hrole : g.role.text.all isScalar = true := by
    cases g.role <;> decide
  have hscalar : g.asdict.scalar = true ↔ g.Encodable := by
    rw [asdict_eq, Json.scalar, Json.scalarFields_iff, Grant.Encodable]
    simp only [List.forall_mem_cons, Json.scalar, hrole, List.all_eq_true,
      List.not_mem_nil, false_implies, implies_true, and_true]
    constructor
    · rintro ⟨⟨_, hbundle⟩, ⟨_, hepisode⟩, _, _, ⟨_, hnonce⟩, _, ⟨_, hsession⟩, _⟩
      exact ⟨hepisode, hsession, hbundle, hnonce⟩
    · rintro ⟨hepisode, hsession, hbundle, hnonce⟩
      exact ⟨⟨by decide, hbundle⟩, ⟨by decide, hepisode⟩, by decide, by decide, ⟨by decide, hnonce⟩,
        by decide, ⟨by decide, hsession⟩, by decide⟩
  have hprintable : g.asdict.printable = true := by
    rw [asdict_eq, Json.printable, Json.printableFields_iff]
    simp only [List.forall_mem_cons, Json.printable]
    decide
  rw [hbody, ← hscalar]
  constructor
  · intro h
    obtain ⟨b, hb⟩ := Option.isSome_iff_exists.1 h
    exact (scalar_of_canonical hb).2
  · exact canonical_isSome hprintable

/-- A minted token is an encoding of its grant. -/
theorem encodes_of_mint {verify : VerifyKey} (hsign : ∀ body, verify (sign body) body = true)
    (h : mint sign g = .ok token) : Encodes verify g token := by
  obtain ⟨body, hbody, rfl⟩ := mint_eq_ok.1 h
  have hdot (bs : Bytes) : 46 ∉ b64u bs := fun hmem => (b64u_ascii bs 46 hmem).2 rfl
  exact ⟨b64u body, b64u (sign body), body, sign body, rfl, hdot _, hdot _, b64uDec_b64u body,
    b64uDec_b64u (sign body), hbody, hsign body⟩

end Mint

/-! ## What the gate does -/

section Check

variable {verify : VerifyKey} {sign : Bytes → Bytes} {bundle_ok : Json → Except Exc (Option Msg)}
  {s : GateState} {token : PyStr} {episode_id role : Json} {g : Grant}

theorem differs_str {a : Json} {t : PyStr} : differs a (.str t) = false ↔ a = .null ∨ a = .str t := by
  rw [differs, Bool.and_eq_false_iff, decide_eq_false_iff_not, not_not, Bool.not_eq_false',
    Json.pyEq_str_iff]

/-- The conditions on an encoding, in the order in which the gate checks them. -/
theorem check_of_encodes (h : Encodes verify g token) {c : Capability} :
    (s.gate verify bundle_ok).check s.now (.str token) episode_id role = .ok c ↔
      c = g.capability ∧ Accepts bundle_ok s episode_id role g := by
  obtain ⟨body, hauth, hbody⟩ := (encodes_iff bundle_ok s.revoked).1 h
  constructor
  · intro hcheck
    obtain ⟨hc, hrole⟩ := check_eq_ok hcheck
    obtain ⟨body', hauth', hcap⟩ := hc.signed
    cases hauth.symm.trans hauth'
    rw [capability_of_body hbody] at hcap
    cases hcap
    refine ⟨rfl, hc.fresh, ?_, differs_str.1 hc.episode, differs_str.1 hrole, hc.bundle⟩
    exact fun hmem => hc.unrevoked _ hmem rfl
  · rintro ⟨rfl, hok⟩
    unfold TokenGate.check
    refine bind_eq_ok.2 ⟨body, hauth, ?_⟩
    refine bind_eq_ok.2 ⟨g.capability, orRaise_eq_ok.2 (capability_of_body hbody), ?_⟩
    refine bind_eq_ok.2 ⟨false, orRaise_eq_ok.2 hok.fresh, ?_⟩
    refine bind_eq_ok.2 ⟨(), rfl, ?_⟩
    refine bind_eq_ok.2 ⟨(), rfl, ?_⟩
    refine bind_eq_ok.2 ⟨(), require_eq_ok.2 ?_, ?_⟩
    · rw [Bool.not_eq_true', List.any_eq_false]
      intro t ht heq
      have hsame := Json.eqStr_iff.1 heq
      exact hok.unrevoked (Json.str.inj hsame ▸ ht)
    refine bind_eq_ok.2 ⟨(), require_eq_ok.2 ?_, ?_⟩
    · rw [Bool.not_eq_true']
      exact differs_str.2 hok.episode
    refine bind_eq_ok.2 ⟨(), require_eq_ok.2 ?_, ?_⟩
    · rw [Bool.not_eq_true']
      exact differs_str.2 hok.role
    exact bind_eq_ok.2 ⟨none, hok.bundle, rfl⟩

/-- Two floats can be compared. -/
theorem pyLt_float (x y : Double) : ∃ b, (Json.float x).pyLt (.float y) = some b := by
  have hnum (z : Double) : ∃ n, (Json.float z).num = some n := by
    cases z with
    | nan => exact ⟨_, rfl⟩
    | num neg mag =>
      rw [Json.num]
      split
      · exact ⟨_, rfl⟩
      · exact ⟨_, rfl⟩
  obtain ⟨m, hm⟩ := hnum x
  obtain ⟨n, hn⟩ := hnum y
  exact ⟨m.lt n, by rw [Json.pyLt, Json.numLt, hm, hn]⟩

/-- A token of a grant is refused with an `RpcError`, unless the check of the bundle raises. -/
theorem error_of_encodes (h : Encodes verify g token) {e : Exc}
    (hcheck : (s.gate verify bundle_ok).check s.now (.str token) episode_id role = .error e) :
    (∃ code text, e = rpcError code text) ∨ bundle_ok (.str g.bundle_id) = .error e := by
  obtain ⟨body, hauth, hbody⟩ := (encodes_iff bundle_ok s.revoked).1 h
  unfold TokenGate.check at hcheck
  rcases bind_eq_error.1 hcheck with hauth' | ⟨body', hauth', hcheck⟩
  · obtain ⟨text, rfl⟩ := authenticate_error hauth'
    exact .inl ⟨_, text, rfl⟩
  cases hauth.symm.trans hauth'
  rcases bind_eq_error.1 hcheck with hcap | ⟨c, hcap, hcheck⟩
  · exact .inl ⟨_, _, orRaise_error hcap⟩
  -- what is read back is what was minted: a number to compare and a string to look up
  cases Option.some.inj ((capability_of_body hbody).symm.trans (orRaise_eq_ok.1 hcap))
  rcases bind_eq_error.1 hcheck with hexp | ⟨_, _, hcheck⟩
  · obtain ⟨b, hb⟩ := pyLt_float g.exp s.now
    have hok : orRaise (g.capability.exp.pyLt (.float s.now)) (.other .typeError) = .ok b :=
      orRaise_eq_ok.2 hb
    rw [hok] at hexp
    cases hexp
  rcases bind_eq_error.1 hcheck with hfresh | ⟨_, _, hcheck⟩
  · exact .inl ⟨_, _, require_error hfresh⟩
  rcases bind_eq_error.1 hcheck with hhash | ⟨_, _, hcheck⟩
  · cases hhash
  rcases bind_eq_error.1 hcheck with hrevoked | ⟨_, _, hcheck⟩
  · exact .inl ⟨_, _, require_error hrevoked⟩
  rcases bind_eq_error.1 hcheck with hepisode | ⟨_, _, hcheck⟩
  · exact .inl ⟨_, _, require_error hepisode⟩
  rcases bind_eq_error.1 hcheck with hrole | ⟨_, _, hcheck⟩
  · exact .inl ⟨_, _, require_error hrole⟩
  rcases bind_eq_error.1 hcheck with hbundle | ⟨reason, _, hcheck⟩
  · exact .inr hbundle
  cases reason with
  | none => cases hcheck
  | some text => exact .inl ⟨_, text, (Except.error.inj hcheck).symm⟩

/-- What is no token of a signed grant is refused before its body is read. -/
theorem refused_of_unforged {signed : Grant → Prop} (hun : Unforged verify signed (.str token))
    (hno : ∀ g, signed g → ¬ Encodes verify g token) :
    ∃ text, (s.gate verify bundle_ok).check s.now (.str token) episode_id role =
      .error (rpcError .unauthenticated text) := by
  cases hauth : (s.gate verify bundle_ok).authenticate (.str token) with
  | error e =>
    obtain ⟨text, rfl⟩ := authenticate_error hauth
    refine ⟨text, ?_⟩
    rw [TokenGate.check, hauth]
    rfl
  | ok body =>
    obtain ⟨g, hg, hbody⟩ := hun bundle_ok s.revoked body hauth
    exact absurd ((encodes_iff _ _).2 ⟨body, hauth, hbody⟩) (hno g hg)

end Check

/-! ## Runs -/

section Runs

variable {verify : VerifyKey} {sign : Bytes → Bytes} {bundle_ok : Json → Except Exc (Option Msg)}
  {s : GateState}

/-- What the gate does with a string, in a state. -/
structure Decides (verify : VerifyKey) (bundle_ok : Json → Except Exc (Option Msg)) (s : GateState)
    (episode_id role : Json) (token : PyStr) : Prop where
  sound : ∀ c, (s.gate verify bundle_ok).check s.now (.str token) episode_id role = .ok c →
    ∃ g, s.granted g ∧ Encodes verify g token ∧ c = g.capability ∧
      Accepts bundle_ok s episode_id role g
  complete : ∀ g, (g, token) ∈ s.minted ∨ s.granted g ∧ Encodes verify g token → ∀ c,
    (s.gate verify bundle_ok).check s.now (.str token) episode_id role = .ok c ↔
      c = g.capability ∧ Accepts bundle_ok s episode_id role g
  refused : (∀ g, s.granted g → ¬ Encodes verify g token) →
    ∃ text, (s.gate verify bundle_ok).check s.now (.str token) episode_id role =
      .error (rpcError .unauthenticated text)
  raises : ∀ e, (s.gate verify bundle_ok).check s.now (.str token) episode_id role = .error e →
    (∃ code text, e = rpcError code text) ∨
      ∃ g, s.granted g ∧ bundle_ok (.str g.bundle_id) = .error e

/-- One act adds at most a grant with the token that `mint` returned. -/
theorem act_minted {a : GateAct} {p : Grant × PyStr} (h : p ∈ (s.act sign a).minted) :
    p ∈ s.minted ∨ mint sign p.1 = .ok p.2 := by
  cases a with
  | mint g =>
    rw [GateState.act] at h
    cases hmint : mint sign g with
    | error e =>
      rw [hmint] at h
      exact .inl h
    | ok token =>
      rw [hmint] at h
      rcases List.mem_cons.1 h with hnew | hold
      · rw [hnew]
        exact .inr hmint
      · exact .inl hold
  | revoke_session session_id => exact .inl h
  | wait now => exact .inl h

/-- Every token of a run is what `mint` returned for its grant. -/
theorem reached_minted (h : s.Reached sign) : ∀ p ∈ s.minted, mint sign p.1 = .ok p.2 := by
  refine Conc.Reachable.inv (I := fun s => ∀ p ∈ s.minted, mint sign p.1 = .ok p.2) ?_ ?_ h
  · rintro s ⟨hnone, _⟩ p hp
    rw [hnone] at hp
    cases hp
  · rintro s a _ ih _ rfl p hp
    rcases act_minted hp with hold | hnew
    · exact ih p hold
    · exact hnew

end Runs

/-! ### A gate with one token -/

/-- A signature that a reader can check. -/
def gateSign (body : Bytes) : Bytes := body.take 3

def gateVerify (sig body : Bytes) : Bool := decide (sig = gateSign body)

def gateGrant : Grant := ⟨py "e", .reporter, py "s", py "b", .zero, py "n", .zero⟩

/-- Its token, as `mint` returns it. -/
def gateToken : PyStr := ((mint gateSign gateGrant).toOption).getD []

/-- The grant is minted, and another session is revoked. -/
def gateState : GateState := ⟨[(gateGrant, gateToken)], [py "t"], .zero⟩

theorem gateToken_eq : mint gateSign gateGrant = .ok gateToken := by decide +kernel

theorem gateState_reached : gateState.Reached gateSign := by
  have hstart : GateState.Reached gateSign ⟨[], [], .zero⟩ := .start ⟨rfl, rfl⟩
  have hmint : GateState.Reached gateSign ⟨[(gateGrant, gateToken)], [], .zero⟩ := by
    refine hstart.next (a := .mint gateGrant) trivial ?_
    rw [GateState.act, gateToken_eq]
    rfl
  exact hmint.next (a := .revoke_session (py "t")) trivial rfl

theorem gateState_unforged {token : Json} (h : Unforged gateVerify (· ∈ [gateGrant]) token) :
    Unforged gateVerify gateState.granted token := by
  intro bundle_ok revoked body hbody
  obtain ⟨g, hg, hb⟩ := h bundle_ok revoked body hbody
  rw [List.mem_singleton.1 hg] at hb
  exact ⟨gateGrant, ⟨gateToken, List.mem_cons_self⟩, hb⟩

end Valops
