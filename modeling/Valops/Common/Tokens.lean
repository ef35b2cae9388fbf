import Valops.Py.RoundTrip
import Valops.Py.Base64
import Valops.Bundle.Registry
import Valops.Common.Tools

/-!
# Capability tokens

A token is the canonical JSON of a capability and an Ed25519 signature over it. The signer knows
the types of what it signs (`Grant`); the gate only knows that a signature verifies and that the
body is an object with the right keys, so a `Capability` holds JSON values.

Main result: `Checked.grant`. When a token is not forged, the gate returns the capability of a
grant.
-/

set_option autoImplicit false

namespace Valops

open Py

/-- `Verifier.verify`: signature, data. -/
abbrev VerifyKey := Bytes → Bytes → Bool

/-- `Capability`, as read from a token. -/
structure Capability where
  episode_id : Json
  role : Json
  session_id : Json
  bundle_id : Json
  exp : Json
  nonce : Json
  iat : Json
  v : Json
  deriving DecidableEq

/-- What `mint` is asked to sign, with the clock reading and the nonce it takes. -/
structure Grant where
  episode_id : PyStr
  role : Role
  session_id : PyStr
  bundle_id : PyStr
  exp : Double
  nonce : PyStr
  iat : Double
  deriving DecidableEq

namespace Grant

variable (g : Grant)

/-- `Capability(...)` in `mint`. -/
def capability : Capability where
  episode_id := .str g.episode_id
  role := .str g.role.text
  session_id := .str g.session_id
  bundle_id := .str g.bundle_id
  exp := .float g.exp
  nonce := .str g.nonce
  iat := .float g.iat
  v := .int 1

/-- `asdict(cap)`. -/
def asdict : Json :=
  Json.mkObj [(py "episode_id", .str g.episode_id), (py "role", .str g.role.text),
    (py "session_id", .str g.session_id), (py "bundle_id", .str g.bundle_id),
    (py "exp", .float g.exp), (py "nonce", .str g.nonce), (py "iat", .float g.iat),
    (py "v", .int 1)]

/-- The signed body. -/
def body : Option Bytes := canonical g.asdict

theorem asdict_wf : g.asdict.WF := by
  refine Json.wf_mkObj ?_
  simp

end Grant

/-- `mint`. -/
def mint (sign : Bytes → Bytes) (g : Grant) : Except Exc PyStr := do
  let body ← orRaise g.body (.other .valueError)
  pure (b64u body ++ py "." ++ b64u (sign body))

/-- The fields of `Capability`, in its order. -/
def Capability.names : List PyStr :=
  ["episode_id", "role", "session_id", "bundle_id", "exp", "nonce", "iat", "v"].map py

/-- `Capability(**v)`: `none` where Python raises `TypeError`. -/
def Capability.ofJson (v : Json) : Option Capability :=
  match v with
  | .obj kvs =>
    if kvs.all fun kv => decide (kv.1 ∈ Capability.names) then do
      let episode_id ← Json.lookup (py "episode_id") kvs
      let role ← Json.lookup (py "role") kvs
      let session_id ← Json.lookup (py "session_id") kvs
      let bundle_id ← Json.lookup (py "bundle_id") kvs
      let exp ← Json.lookup (py "exp") kvs
      let nonce ← Json.lookup (py "nonce") kvs
      let iat ← Json.lookup (py "iat") kvs
      pure ⟨episode_id, role, session_id, bundle_id, exp, nonce, iat,
        (Json.lookup (py "v") kvs).getD (.int 1)⟩
    else none
  | _ => none

/-- `TokenGate`. -/
structure TokenGate where
  verify : VerifyKey
  bundle_ok : Json → Except Exc (Option Msg)
  revoked : List PyStr

/-- `token.split(".")`, if there is exactly one dot. -/
def splitToken (token : Json) : Except Exc (PyStr × PyStr) :=
  match token with
  | .str s =>
    if s.count 46 = 1 then .ok (s.takeWhile (· ≠ 46), (s.dropWhile (· ≠ 46)).drop 1)
    else .error (rpcError .unauthenticated (msg "capability token missing or malformed"))
  | _ => .error (rpcError .unauthenticated (msg "capability token missing or malformed"))

/-- The part of `check` that authenticates the body. -/
def TokenGate.authenticate (g : TokenGate) (token : Json) : Except Exc Bytes := do
  let (body_s, sig_s) ← splitToken token
  let body ← orRaise (b64uDec body_s) (rpcError .unauthenticated (msg "token encoding"))
  let sig ← orRaise (b64uDec sig_s) (rpcError .unauthenticated (msg "token encoding"))
  require (g.verify sig body) (rpcError .unauthenticated (msg "token signature invalid"))
  pure body

/-- `a is not None and a != b`. -/
def differs (a b : Json) : Bool := decide (a ≠ .null) && !a.pyEq b

/-- `TokenGate.check` at a time. -/
def TokenGate.check (g : TokenGate) (now : Double) (token episode_id role : Json) :
    Except Exc Capability := do
  let body ← g.authenticate token
  let cap ← orRaise ((loadsBytes body).bind Capability.ofJson)
    (rpcError .unauthenticated (msg "token body"))
  let expired ← orRaise (cap.exp.pyLt (.float now)) (.other .typeError)
  require (!expired) (rpcError .token_expired (msg "capability token expired"))
  hashed cap.session_id
  require (!g.revoked.any fun s => cap.session_id.eqStr s)
    (rpcError .token_revoked (msg "session ended"))
  require (!differs episode_id cap.episode_id)
    (rpcError .forbidden (msg "token is bound to a different episode"))
  require (!differs role cap.role) (rpcError .forbidden (msg "token is bound to a different role"))
  let reason ← g.bundle_ok cap.bundle_id
  match reason with
  | some text => throw (rpcError .bundle_refused text)
  | none => pure cap

/-! ## What a checked token says -/

/-- What `check` established about the capability it returned. -/
structure Checked (g : TokenGate) (now : Double) (token episode_id : Json) (cap : Capability) :
    Prop where
  signed : ∃ body, g.authenticate token = .ok body ∧
    (loadsBytes body).bind Capability.ofJson = some cap
  fresh : cap.exp.pyLt (.float now) = some false
  hashable : cap.session_id.hashable = true
  unrevoked : ∀ s ∈ g.revoked, cap.session_id ≠ .str s
  episode : differs episode_id cap.episode_id = false
  bundle : g.bundle_ok cap.bundle_id = .ok none

theorem check_eq_ok {g : TokenGate} {now : Double} {token episode_id role : Json}
    {cap : Capability} (h : g.check now token episode_id role = .ok cap) :
    Checked g now token episode_id cap ∧ differs role cap.role = false := by
  unfold TokenGate.check at h
  obtain ⟨body, hbody, h⟩ := bind_eq_ok.1 h
  obtain ⟨c, hc, h⟩ := bind_eq_ok.1 h
  obtain ⟨expired, hexp, h⟩ := bind_eq_ok.1 h
  obtain ⟨_, hfresh, h⟩ := bind_eq_ok.1 h
  obtain ⟨_, hhash, h⟩ := bind_eq_ok.1 h
  obtain ⟨_, hrev, h⟩ := bind_eq_ok.1 h
  obtain ⟨_, hep, h⟩ := bind_eq_ok.1 h
  obtain ⟨_, hrole, h⟩ := bind_eq_ok.1 h
  obtain ⟨reason, hreason, h⟩ := bind_eq_ok.1 h
  split at h
  · cases h
  cases pure_eq_ok.1 h
  rw [orRaise_eq_ok] at hc hexp
  rw [require_eq_ok, Bool.not_eq_true'] at hfresh hrev hep hrole
  rw [hfresh] at hexp
  refine ⟨⟨⟨body, hbody, hc⟩, hexp, require_eq_ok.1 hhash, ?_, hep, hreason⟩, hrole⟩
  intro s hs heq
  rw [List.any_eq_false] at hrev
  exact hrev s hs (Json.eqStr_iff.2 heq)

theorem authenticate_eq_ok {g : TokenGate} {token : Json} {body : Bytes}
    (h : g.authenticate token = .ok body) : ∃ sig, g.verify sig body = true := by
  unfold TokenGate.authenticate at h
  obtain ⟨⟨body_s, sig_s⟩, _, h⟩ := bind_eq_ok.1 h
  obtain ⟨b, _, h⟩ := bind_eq_ok.1 h
  obtain ⟨sig, _, h⟩ := bind_eq_ok.1 h
  obtain ⟨_, hv, h⟩ := bind_eq_ok.1 h
  cases pure_eq_ok.1 h
  exact ⟨sig, require_eq_ok.1 hv⟩

theorem ofJson_asdict (g : Grant) : Capability.ofJson g.asdict = some g.capability := rfl

/-- The body of a grant reads back as its capability. -/
theorem capability_of_body {g : Grant} {b : Bytes} (h : g.body = some b) :
    (loadsBytes b).bind Capability.ofJson = some g.capability := by
  have hload : loadsBytes (b ++ []) = some g.asdict := loadsBytes_canonical g.asdict_wf h (.inl rfl)
  rw [List.append_nil] at hload
  rw [hload]
  exact ofJson_asdict g

/-- Nothing verifies but the bodies of these grants: the key is not forged. -/
def Genuine (verify : VerifyKey) (signed : Grant → Prop) : Prop :=
  ∀ sig body, verify sig body = true → ∃ g, signed g ∧ g.body = some body

/-- The token is one of the signed ones, if its signature verifies at all. -/
def Unforged (verify : VerifyKey) (signed : Grant → Prop) (token : Json) : Prop :=
  ∀ bundle_ok revoked body, TokenGate.authenticate ⟨verify, bundle_ok, revoked⟩ token = .ok body →
    ∃ g, signed g ∧ g.body = some body

theorem Genuine.unforged {verify : VerifyKey} {signed : Grant → Prop} (h : Genuine verify signed)
    (token : Json) : Unforged verify signed token := by
  intro bundle_ok revoked body hbody
  obtain ⟨sig, hsig⟩ := authenticate_eq_ok hbody
  exact h sig body hsig

/-- Whether a token is one of these can be run. -/
instance (verify : VerifyKey) (minted : List Grant) (token : Json) :
    Decidable (Unforged verify (· ∈ minted) token) :=
  match h : TokenGate.authenticate ⟨verify, fun _ => .ok none, []⟩ token with
  | .ok body => decidable_of_iff (∃ g ∈ minted, g.body = some body)
      ⟨fun hg _ _ _ hb => by cases h.symm.trans hb; exact hg, fun hu => hu _ _ _ h⟩
  | .error _ => .isTrue fun _ _ _ hb => by cases h.symm.trans hb

/-- **A checked token that is not forged was signed**, and says what was signed. -/
theorem Checked.grant {g : TokenGate} {now : Double} {token episode_id : Json} {cap : Capability}
    {signed : Grant → Prop} (hkey : Unforged g.verify signed token)
    (h : Checked g now token episode_id cap) : ∃ gr, signed gr ∧ cap = gr.capability := by
  obtain ⟨body, hbody, hcap⟩ := h.signed
  obtain ⟨gr, hgr, hb⟩ := hkey g.bundle_ok g.revoked body hbody
  rw [capability_of_body hb] at hcap
  exact ⟨gr, hgr, (Option.some.inj hcap).symm⟩

/-- A token says the same at every gate with the same key. -/
theorem Checked.unique {g g' : TokenGate} {now now' : Double} {token id id' : Json}
    {cap cap' : Capability} (h : Checked g now token id cap) (h' : Checked g' now' token id' cap')
    (hkey : g.verify = g'.verify) : cap = cap' := by
  obtain ⟨body, hbody, hcap⟩ := h.signed
  obtain ⟨body', hbody', hcap'⟩ := h'.signed
  have hsame : g'.authenticate token = g.authenticate token := by
    unfold TokenGate.authenticate
    rw [hkey]
  rw [hsame, hbody] at hbody'
  cases hbody'
  exact Option.some.inj (hcap.symm.trans hcap')

/-- The values of a checked capability came out of the decoder. -/
theorem Checked.session_wf {g : TokenGate} {now : Double} {token episode_id : Json}
    {cap : Capability} (h : Checked g now token episode_id cap) : cap.session_id.WF := by
  obtain ⟨body, _, hcap⟩ := h.signed
  obtain ⟨v, hv, hof⟩ := Option.bind_eq_some_iff.1 hcap
  have hwf := loadsBytes_wf hv
  cases v with
  | obj kvs =>
    unfold Capability.ofJson at hof
    simp only at hof
    split at hof
    · simp only [Option.bind_eq_bind, Option.bind_eq_some_iff] at hof
      obtain ⟨_, _, _, _, session, hsession, _, _, _, _, _, _, _, _, hof⟩ := hof
      cases hof
      exact Json.wf_lookup hwf hsession
    · cases hof
  | _ => cases hof

end Valops
