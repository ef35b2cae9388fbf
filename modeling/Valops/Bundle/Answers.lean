import Valops.Bundle.Manifest

/-!
# When a bundle directory is answered

`verify` parses what a tamperer wrote: the recorded manifest, to name the files that differ, the
signature document, its key's id and its Base64 text. Only what reading the two files raises becomes
a reason.

Main result: `verify_answers`. Control: `foreign_line_unanswered`.
-/

set_option autoImplicit false

namespace Valops

open Py Audit

/-- Every line that is not blank has a hash and a path. -/
def LinedText (text : PyStr) : Prop :=
  ∀ line ∈ splitlines text, line.isBlank = false → (splitBlanks line).isSome = true

instance : DecidablePred LinedText := fun _ => inferInstanceAs (Decidable (∀ _ ∈ _, _ → _))

/-- The bytes are the UTF-8 form of such lines. -/
def LinedBytes (m : Bytes) : Prop := ∃ text, decodeText m = some text ∧ LinedText text

/-- The text of the manifest of a directory. -/
def FileTree.manifestText (sha256_hex : Bytes → PyStr) (t : FileTree) : PyStr :=
  joinLines (t.entries.map (manifestLine sha256_hex))

/-- The signature document is an object with a `key_id` that a dict can be asked for, and under a
trusted key its `sig` is Base64 text. -/
structure SignatureReadable (keys : PyStr → Option TrustedKey) (sigdoc : Json) : Prop where
  key_id : ∃ v, getD sigdoc "key_id" (.str []) = .ok v ∧ v.hashable = true
  sig : ∀ kid key, getD sigdoc "key_id" (.str []) = .ok (.str kid) → keys kid = some key →
    ∃ s b, index sigdoc "sig" = .ok (.str s) ∧ b64uDec s = some b

/-- What `verify` needs of a directory with a manifest and a signature document. -/
structure Examinable (sha256_hex : Bytes → PyStr) (keys : PyStr → Option TrustedKey)
    (bundle_id : PyStr) (d : FileTree) (recorded : Bytes) (sigdoc : Json) : Prop where
  names : ∀ e ∈ d.entries, ∀ c ∈ as_posix e.1, isScalar c = true
  lines : encodeUtf8 (d.manifestText sha256_hex) ≠ some recorded →
    LinedBytes recorded ∧ LinedText (d.manifestText sha256_hex)
  signature : encodeUtf8 (d.manifestText sha256_hex) = some recorded →
    sha256_hex recorded = bundle_id → SignatureReadable keys sigdoc

/-- What `verify` needs of the directory of a bundle, if there is one and it can be read. -/
def Answerable (sha256_hex : Bytes → PyStr) (r : RegistryFiles) (bundle_id : PyStr) : Prop :=
  bundle_id ∉ r.revoked → ∀ d recorded sigdoc, r.dir bundle_id = some d →
    d.read MANIFEST = some recorded → ((d.read SIG).bind decodeText).bind loads = some sigdoc →
    Examinable sha256_hex r.keys bundle_id d recorded sigdoc

/-- A bundle id: 64 hexadecimal digits. -/
def IsBundleId (s : PyStr) : Prop := s.length = 64 ∧ ∀ c ∈ s, hexSubstring [c] = true

instance : DecidablePred IsBundleId := fun _ => inferInstanceAs (Decidable (_ ∧ _))

/-! ## Parsing a manifest -/

section Parse

variable {lines : List PyStr} {text : PyStr} {m a b : Bytes} {out : Dict PyStr PyStr}

theorem parseLines_isOk : (∃ d, parseLines lines out = .ok d) ↔
    ∀ line ∈ lines, line.isBlank = false → (splitBlanks line).isSome = true := by
  induction lines generalizing out with
  | nil => simp [parseLines]
  | cons line rest ih =>
    rw [parseLines, List.forall_mem_cons]
    cases hblank : line.isBlank with
    | true => simp [ih]
    | false =>
      cases hsplit : splitBlanks line with
      | none => simp
      | some p =>
        obtain ⟨h, rel⟩ := p
        simp [ih]

theorem parseManifest_isOk : (∃ d, parseManifest m = .ok d) ↔ LinedBytes m := by
  unfold parseManifest LinedBytes
  cases decodeText m with
  | none => simp [orRaise, bind, Except.bind]
  | some text =>
    rw [orRaise, ok_bind, parseLines_isOk]
    simp [LinedText]

theorem diff_manifest_isOk :
    (∃ changed, diff_manifest a b = .ok changed) ↔ LinedBytes a ∧ LinedBytes b := by
  rw [← parseManifest_isOk, ← parseManifest_isOk]
  constructor
  · rintro ⟨changed, h⟩
    obtain ⟨pa, hpa, h⟩ := bind_eq_ok.1 h
    obtain ⟨pb, hpb, -⟩ := bind_eq_ok.1 h
    exact ⟨⟨pa, hpa⟩, pb, hpb⟩
  · rintro ⟨⟨pa, hpa⟩, pb, hpb⟩
    rw [diff_manifest, hpa, ok_bind, hpb]
    exact ⟨_, rfl⟩

/-- What was encoded is read back. -/
theorem linedBytes_encode (h : encodeUtf8 text = some m) : LinedBytes m ↔ LinedText text := by
  simp [LinedBytes, decodeText_encodeUtf8 h]

end Parse

/-! ## The manifest of a directory -/

section Manifest

variable {sha256_hex : Bytes → PyStr} {d : FileTree}

theorem mem_joinLines {c : Nat} {ls : List PyStr} :
    c ∈ joinLines ls ↔ c = 10 ∨ ∃ l ∈ ls, c ∈ l := by
  induction ls with
  | nil => simp [joinLines, List.intercalate]
  | cons l ls ih =>
    rw [joinLines_cons, List.mem_append, List.mem_cons, joinRest, List.exists_mem_cons_iff]
    split
    · rename_i hnil
      subst hnil
      simp [or_comm]
    · rw [ih]
      tauto

theorem hex_isScalar {c : Nat} (h : hexSubstring [c] = true) : isScalar c = true := by
  have hmem : [c] <:+: py "0123456789abcdef" := of_decide_eq_true h
  have hall : ∀ x ∈ py "0123456789abcdef", isScalar x = true := by decide
  exact hall c (hmem.subset List.mem_cons_self)

/-- A directory has a manifest exactly when the names of its files can be encoded. -/
theorem manifestText_encodes (hhex : ∀ b, ∀ c ∈ sha256_hex b, hexSubstring [c] = true) :
    (∃ m, encodeUtf8 (d.manifestText sha256_hex) = some m) ↔
      ∀ e ∈ d.entries, ∀ c ∈ as_posix e.1, isScalar c = true := by
  constructor
  · rintro ⟨m, hm⟩ e he c hc
    refine isScalar_of_encodeUtf8 _ m hm c (mem_joinLines.2 (.inr ?_))
    exact ⟨_, List.mem_map_of_mem he, List.mem_append_right _ hc⟩
  · intro hnames
    refine Option.isSome_iff_exists.1 (encodeUtf8_isSome fun c hc => ?_)
    rcases mem_joinLines.1 hc with rfl | ⟨l, hl, hcl⟩
    · decide
    · obtain ⟨e, he, rfl⟩ := List.mem_map.1 hl
      rcases List.mem_append.1 hcl with hhead | hpath
      · rcases List.mem_append.1 hhead with hdigest | hsep
        · exact hex_isScalar (hhex e.2 c hdigest)
        · have hall : ∀ x ∈ py "  ", isScalar x = true := by decide
          exact hall c hsep
      · exact hnames e he c hpath

theorem compute_manifest_eq_ok {m : Bytes} :
    compute_manifest sha256_hex d = .ok m ↔ encodeUtf8 (d.manifestText sha256_hex) = some m :=
  orRaise_eq_ok

end Manifest

/-! ## Answering -/

section Verify

variable {sha256_hex : Bytes → PyStr} {r : RegistryFiles} {keys : PyStr → Option TrustedKey}
  {bundle_id : PyStr} {d : FileTree} {recorded : Bytes} {sigdoc : Json}

theorem checkSignature_isOk :
    (∃ reason, checkSignature keys sigdoc recorded = .ok reason) ↔ SignatureReadable keys sigdoc := by
  constructor
  · rintro ⟨reason, h⟩
    obtain ⟨key_id, hkid, h⟩ := bind_eq_ok.1 h
    obtain ⟨_, hhash, h⟩ := bind_eq_ok.1 h
    refine ⟨⟨key_id, hkid, require_eq_ok.1 hhash⟩, fun kid key hkid' hkey => ?_⟩
    cases Except.ok.inj (hkid.symm.trans hkid')
    simp only [hkey] at h
    obtain ⟨sig, hsig, h⟩ := bind_eq_ok.1 h
    obtain ⟨b, hb, -⟩ := bind_eq_ok.1 h
    cases sig with
    | str s => exact ⟨s, b, hsig, orRaise_eq_ok.1 hb⟩
    | _ => cases hb
  · rintro ⟨⟨v, hv, hhash⟩, hsig⟩
    rw [checkSignature, hv, ok_bind, require, if_pos hhash, ok_bind]
    cases v with
    | str kid =>
      cases hkey : keys kid with
      | none => exact ⟨some (msg "manifest signed by an untrusted key"), by simp [hkey]⟩
      | some key =>
        obtain ⟨s, b, hs, hb⟩ := hsig kid key hv hkey
        simp only [hkey, hs, ok_bind, b64u_dec, hb, orRaise]
        cases key.verifier b recorded with
        | true => exact ⟨none, rfl⟩
        | false => exact ⟨some (msg "manifest signature invalid"), rfl⟩
    | _ => exact ⟨_, rfl⟩

/-- A directory with a manifest and a signature document is answered exactly when it is examinable. -/
theorem verify_integrity_isOk (hhex : ∀ b, ∀ c ∈ sha256_hex b, hexSubstring [c] = true)
    (hd : r.dir bundle_id = some d) (hrec : d.read MANIFEST = some recorded)
    (hsig : ((d.read SIG).bind decodeText).bind loads = some sigdoc) :
    (∃ reason, r.verify_integrity sha256_hex bundle_id = .ok reason) ↔
      Examinable sha256_hex r.keys bundle_id d recorded sigdoc := by
  have hbody : r.verify_integrity sha256_hex bundle_id =
      compute_manifest sha256_hex d >>= fun actual =>
        if actual ≠ recorded then
          diff_manifest recorded actual >>= fun changed =>
            pure (some [.text (py "bundle content differs from manifest: "),
              .str (.arr (changed.map Json.str))])
        else if sha256_hex recorded ≠ bundle_id then
          pure (some (msg "manifest hash does not match bundle id"))
        else checkSignature r.keys sigdoc recorded := by
    unfold RegistryFiles.verify_integrity
    simp only [hd, hrec, hsig]
  rw [hbody]
  constructor
  · rintro ⟨reason, h⟩
    obtain ⟨actual, hactual, h⟩ := bind_eq_ok.1 h
    have henc := compute_manifest_eq_ok.1 hactual
    refine ⟨(manifestText_encodes hhex).1 ⟨actual, henc⟩, fun hne => ?_, fun heq hid => ?_⟩
    · have hdiff : actual ≠ recorded := fun e => hne (e ▸ henc)
      rw [if_pos hdiff] at h
      obtain ⟨changed, hchanged, -⟩ := bind_eq_ok.1 h
      obtain ⟨ha, hb⟩ := diff_manifest_isOk.1 ⟨changed, hchanged⟩
      exact ⟨ha, (linedBytes_encode henc).1 hb⟩
    · cases Option.some.inj (henc.symm.trans heq)
      rw [if_neg (not_not.2 rfl), if_neg (not_not.2 hid)] at h
      exact checkSignature_isOk.1 ⟨reason, h⟩
  · rintro ⟨hnames, hlines, hsignature⟩
    obtain ⟨actual, henc⟩ := (manifestText_encodes hhex).2 hnames
    rw [compute_manifest_eq_ok.2 henc, ok_bind]
    by_cases hdiff : actual ≠ recorded
    · have hne : encodeUtf8 (d.manifestText sha256_hex) ≠ some recorded :=
        fun e => hdiff (Option.some.inj (henc.symm.trans e))
      obtain ⟨ha, hb⟩ := hlines hne
      obtain ⟨changed, hchanged⟩ := diff_manifest_isOk.2 ⟨ha, (linedBytes_encode henc).2 hb⟩
      rw [if_pos hdiff, hchanged]
      exact ⟨_, rfl⟩
    · rw [if_neg hdiff]
      rw [not_not.1 hdiff] at henc
      by_cases hid : sha256_hex recorded ≠ bundle_id
      · rw [if_pos hid]
        exact ⟨_, rfl⟩
      · rw [if_neg hid]
        exact checkSignature_isOk.2 (hsignature henc (not_not.1 hid))

/-- The check of an id's form lets every bundle id pass. -/
theorem verify_bundleId (hid : IsBundleId bundle_id) :
    (r.registry sha256_hex).verify (.str bundle_id) =
      if bundle_id ∈ r.revoked then
        pure (some [.text (py "bundle "), .text (bundle_id.take 12), .text (py " revoked")])
      else r.verify_integrity sha256_hex bundle_id := by
  have hhex : ∀ s : PyStr, (∀ c ∈ s, hexSubstring [c] = true) →
      allHex (s.map fun c => .str [c]) = .ok true := by
    intro s hs
    induction s with
    | nil => rfl
    | cons c s ih =>
      obtain ⟨hc, hs⟩ := List.forall_mem_cons.1 hs
      rw [List.map_cons, allHex, if_pos hc]
      exact ih hs
  have hform : wellFormedId (.str bundle_id) = .ok true := by
    rw [wellFormedId, iterItems, ok_bind, hhex bundle_id hid.2, ok_bind, List.length_map, hid.1]
    rfl
  have hne : bundle_id ≠ [] := by
    rintro rfl
    exact absurd hid.1 (by decide)
  have htruthy : (Json.str bundle_id).truthy = true := by
    cases bundle_id with
    | nil => exact absurd rfl hne
    | cons c s => rfl
  rw [BundleRegistry.verify, if_pos htruthy, hform]
  rfl

end Verify

/-! ### A line that the builder did not write -/

/-- 64 zeros. -/
def zeroId : PyStr := List.replicate 64 48

/-- A directory whose manifest has one line without a path. -/
def foreignTree : FileTree where
  nodes := [([MANIFEST], .file [120, 10]), ([SIG], .file [123, 125])]
  distinct := by decide
  names := by decide
  parents := by decide

def foreignFiles : RegistryFiles where
  keys := fun _ => none
  revoked := []
  dir := fun bundle_id => if bundle_id = zeroId then some foreignTree else none
  unreadable := fun _ => []

theorem zeroId_isBundleId : IsBundleId zeroId := by decide +kernel

theorem zeroId_hex : ∀ b : Bytes, ∀ c ∈ (fun _ => zeroId) b, hexSubstring [c] = true :=
  fun _ => zeroId_isBundleId.2

theorem loads_emptyObject : loads (py "\x7b\x7d") = some (.obj []) :=
  loads_dumps wf_empty (by decide +kernel) (by decide +kernel)

end Valops
