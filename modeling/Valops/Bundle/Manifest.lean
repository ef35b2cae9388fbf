import Valops.Py.Lines
import Valops.Audit.Chain
import Valops.Bundle.Registry
import Valops.Py.Dict
import Mathlib.Data.List.Sort
import Mathlib.Data.List.Lex

/-!
# Manifests

A bundle is addressed by the hash of its manifest: one line for each file, the hash of its content,
two blanks and its path. A path may contain newlines, so a path can imitate the lines of other
files, and two trees can have one manifest.

Main result: `bundle_id_determines`, when a bundle id determines what the bundle's directory holds.
-/

set_option autoImplicit false

namespace Valops

open Py Audit

/-! ## Trees -/

/-- A path below a directory: its components. -/
abbrev RelPath := List PyStr

/-- What is at a path. -/
inductive Node where
  | dir
  | file (content : Bytes)
  deriving DecidableEq

/-- What a component of a path may be. -/
def IsName (s : PyStr) : Prop := s ≠ [] ∧ s ≠ py "." ∧ s ≠ py ".." ∧ 0 ∉ s ∧ 47 ∉ s

instance : DecidablePred IsName := fun _ => inferInstanceAs (Decidable (_ ∧ _))

/-- What is below a directory. -/
structure FileTree where
  nodes : List (RelPath × Node)
  distinct : (nodes.map Prod.fst).Nodup
  names : ∀ n ∈ nodes, n.1 ≠ [] ∧ ∀ s ∈ n.1, IsName s
  parents : ∀ n ∈ nodes, n.1.dropLast = [] ∨ (n.1.dropLast, Node.dir) ∈ nodes

/-- `p.as_posix()`. -/
def as_posix (p : RelPath) : PyStr := List.intercalate [47] p

/-- `MANIFEST`. -/
def MANIFEST : PyStr := py "MANIFEST.sha256"

/-- `SIG`. -/
def SIG : PyStr := py "MANIFEST.sha256.sig"

/-- `sorted(root.rglob("*"))`. -/
def FileTree.rglob (t : FileTree) : List (RelPath × Node) :=
  t.nodes.insertionSort fun a b => a.1 ≤ b.1

/-- The path and the content of a file that has a line; the manifest and its signature have none. -/
def listed : RelPath × Node → Option (RelPath × Bytes)
  | (_, .dir) => none
  | (p, .file content) =>
    if as_posix p = MANIFEST ∨ as_posix p = SIG then none else some (p, content)

/-- The files that have a line, in their order. -/
def FileTree.entries (t : FileTree) : List (RelPath × Bytes) := t.rglob.filterMap listed

/-- What `d / name` holds, if it is a file. -/
def FileTree.read (t : FileTree) (name : PyStr) : Option Bytes :=
  t.nodes.findSome? fun n =>
    match n.2 with
    | .file content => if n.1 = [name] then some content else none
    | .dir => none

section Functions

variable (sha256_hex : Bytes → PyStr)

/-- A line of the manifest. -/
def manifestLine (e : RelPath × Bytes) : PyStr := sha256_hex e.2 ++ py "  " ++ as_posix e.1

/-- `compute_manifest`. -/
def compute_manifest (t : FileTree) : Except Exc Bytes :=
  orRaise (encodeUtf8 (joinLines (t.entries.map (manifestLine sha256_hex)))) (.other .valueError)

/-- `line.split("  ", 1)`, if it has two parts. -/
def splitBlanks : PyStr → Option (PyStr × PyStr)
  | 32 :: 32 :: rest => some ([], rest)
  | c :: rest => (splitBlanks rest).map fun p => (c :: p.1, p.2)
  | [] => none

/-- `bytes.decode()`. -/
def decodeText (b : Bytes) : Option PyStr := (decodeUtf8 b).filter fun s => s.all isScalar

/-- The loop of `parse`: from each path to its hash. -/
def parseLines : List PyStr → Dict PyStr PyStr → Except Exc (Dict PyStr PyStr)
  | [], out => .ok out
  | line :: rest, out =>
    if line.isBlank then parseLines rest out
    else
      match splitBlanks line with
      | some (h, rel) => parseLines rest (out.set rel h)
      | none => .error (.other .valueError)

/-- `parse`. -/
def parseManifest (m : Bytes) : Except Exc (Dict PyStr PyStr) := do
  let text ← orRaise (decodeText m) (.other .valueError)
  parseLines (splitlines text) []

/-- `_diff_manifest`: the first ten paths that differ. -/
def diff_manifest (a b : Bytes) : Except Exc (List PyStr) := do
  let pa ← parseManifest a
  let pb ← parseManifest b
  let paths := ((pa ++ pb).map Prod.fst).dedup
  let changed := paths.filter fun k => decide (pa.get? k ≠ pb.get? k)
  pure ((changed.insertionSort (· ≤ ·)).take 10)

end Functions

/-- `TrustedKey`. -/
structure TrustedKey where
  verifier : Verify
  status : PyStr

/-- The registry's keys and the files under its root. `unreadable` is the text of what reading a
manifest or its signature raises. -/
structure RegistryFiles where
  keys : PyStr → Option TrustedKey
  revoked : List PyStr
  dir : PyStr → Option FileTree
  unreadable : FileTree → PyStr

/-- A text with the first characters of a bundle's id. -/
def bundleMsg (bundle_id : PyStr) (text : String) : Msg :=
  [.text (py "bundle "), .text (bundle_id.take 12), .text (py text)]

/-- Whether the signature document names a trusted key that signed the manifest. -/
def checkSignature (keys : PyStr → Option TrustedKey) (sigdoc : Json) (recorded : Bytes) :
    Except Exc (Option Msg) := do
  let key_id ← getD sigdoc "key_id" (.str [])
  require key_id.hashable (.other .typeError)
  match (match key_id with | .str s => keys s | _ => none) with
  | none => pure (some (msg "manifest signed by an untrusted key"))
  | some key => do
    let sig ← index sigdoc "sig"
    let sig ← b64u_dec sig
    if key.verifier sig recorded then pure none
    else pure (some (msg "manifest signature invalid"))

/-- `BundleRegistry.verify_integrity`. -/
def RegistryFiles.verify_integrity (r : RegistryFiles) (sha256_hex : Bytes → PyStr)
    (bundle_id : PyStr) : Except Exc (Option Msg) :=
  match r.dir bundle_id with
  | none => .ok (some (bundleMsg bundle_id " not present"))
  | some d =>
    match d.read MANIFEST, ((d.read SIG).bind decodeText).bind loads with
    | some recorded, some sigdoc => do
      let actual ← compute_manifest sha256_hex d
      if actual ≠ recorded then do
        let changed ← diff_manifest recorded actual
        pure (some [.text (py "bundle content differs from manifest: "),
          .str (.arr (changed.map Json.str))])
      else if sha256_hex recorded ≠ bundle_id then
        pure (some (msg "manifest hash does not match bundle id"))
      else checkSignature r.keys sigdoc recorded
    | _, _ => .ok (some [.text (py "manifest/signature unreadable: "), .text (r.unreadable d)])

/-- The registry over these files. -/
def RegistryFiles.registry (r : RegistryFiles) (sha256_hex : Bytes → PyStr) : BundleRegistry :=
  ⟨r.revoked, r.verify_integrity sha256_hex⟩

/-! ## What a manifest says -/

/-- Two trees have the same files with the same contents, the manifest and its signature aside. -/
def SameFiles (t u : FileTree) : Prop := ∀ p content, p ≠ [MANIFEST] → p ≠ [SIG] →
  ((p, Node.file content) ∈ t.nodes ↔ (p, Node.file content) ∈ u.nodes)

/-- The numbers of newlines in the paths of the files, in the order of the manifest. -/
def FileTree.newlines (t : FileTree) : List Nat := t.entries.map fun e => (as_posix e.1).count 10

/-- No path has a newline before what a line of the manifest starts with. -/
def FileTree.Tidy (sha256_hex : Bytes → PyStr) (t : FileTree) : Prop :=
  ∀ e ∈ t.entries, ¬ Embeds (fun d => ∃ c, d = sha256_hex c ++ py "  ") (as_posix e.1)

section Paths

variable {p q : RelPath}

theorem as_posix_cons (s : PyStr) {p : RelPath} (hp : p ≠ []) :
    as_posix (s :: p) = s ++ 47 :: as_posix p := by
  obtain ⟨x, p, rfl⟩ := List.exists_cons_of_ne_nil hp
  simp [as_posix, List.intercalate, List.intersperse]

theorem as_posix_singleton (s : PyStr) : as_posix [s] = s := by
  simp [as_posix, List.intercalate]

/-- No component contains a slash, so the text of a path determines it. -/
theorem as_posix_injective (hp : p ≠ []) (hq : q ≠ []) (hpn : ∀ s ∈ p, IsName s)
    (hqn : ∀ s ∈ q, IsName s) (h : as_posix p = as_posix q) : p = q := by
  have hslash : ∀ {s : PyStr}, IsName s → 47 ∉ s := fun h => h.2.2.2.2
  induction p generalizing q with
  | nil => exact absurd rfl hp
  | cons s p ih =>
    obtain ⟨t, q, rfl⟩ := List.exists_cons_of_ne_nil hq
    obtain ⟨hs, hpn⟩ := List.forall_mem_cons.1 hpn
    obtain ⟨ht, hqn⟩ := List.forall_mem_cons.1 hqn
    by_cases hpe : p = []
    · by_cases hqe : q = []
      · subst hpe hqe
        rw [as_posix_singleton, as_posix_singleton] at h
        rw [h]
      · subst hpe
        rw [as_posix_singleton, as_posix_cons t hqe] at h
        exact absurd (by rw [h]; simp) (hslash hs)
    · by_cases hqe : q = []
      · subst hqe
        rw [as_posix_singleton, as_posix_cons s hpe] at h
        exact absurd (by rw [← h]; simp) (hslash ht)
      · rw [as_posix_cons s hpe, as_posix_cons t hqe] at h
        have hcount : s.count 47 = t.count 47 :=
          (List.count_eq_zero.2 (hslash hs)).trans (List.count_eq_zero.2 (hslash ht)).symm
        obtain ⟨hst, hrest⟩ := split_count h hcount
        rw [hst, ih hpe hqe hpn hqn hrest]

theorem as_posix_eq_name {name : PyStr} (hp : p ≠ []) (hpn : ∀ s ∈ p, IsName s) (hn : IsName name) :
    as_posix p = name ↔ p = [name] := by
  constructor
  · intro h
    have hq : ∀ s ∈ [name], IsName s := List.forall_mem_singleton.2 hn
    exact as_posix_injective hp (List.cons_ne_nil _ _) hpn hq (h.trans (as_posix_singleton name).symm)
  · rintro rfl
    exact as_posix_singleton name

end Paths

/-- What is written as text is read as that text. -/
theorem decodeText_encodeUtf8 {s : PyStr} {b : Bytes} (h : encodeUtf8 s = some b) :
    decodeText b = some s := by
  rw [decodeText, decodeUtf8_encodeUtf8 h, Option.filter_some, if_pos]
  exact List.all_eq_true.2 (isScalar_of_encodeUtf8 _ _ h)

/-! ## Trees and lines -/

section Lines

variable {t u : FileTree} {p : RelPath} {content : Bytes} {e : RelPath × Bytes}

theorem listed_eq_some {n : RelPath × Node} :
    listed n = some e ↔ n = (e.1, .file e.2) ∧ as_posix e.1 ≠ MANIFEST ∧ as_posix e.1 ≠ SIG := by
  obtain ⟨p, node⟩ := n
  obtain ⟨q, content⟩ := e
  cases node with
  | dir => simp [listed]
  | file c =>
    show (if as_posix p = MANIFEST ∨ as_posix p = SIG then none else some (p, c)) = _ ↔ _
    simp only [Prod.mk.injEq, Node.file.injEq]
    split
    · rename_i hname
      refine iff_of_false (Option.some_ne_none _).symm ?_
      rintro ⟨⟨rfl, rfl⟩, hm, hs⟩
      exact hname.elim hm hs
    · rename_i hname
      obtain ⟨hm, hs⟩ := not_or.1 hname
      simp only [Option.some.injEq, Prod.mk.injEq]
      constructor
      · rintro ⟨rfl, rfl⟩
        exact ⟨⟨rfl, rfl⟩, hm, hs⟩
      · rintro ⟨⟨rfl, rfl⟩, _⟩
        exact ⟨rfl, rfl⟩

/-- The files that have a line. -/
theorem mem_entries : (p, content) ∈ t.entries ↔
    (p, Node.file content) ∈ t.nodes ∧ p ≠ [MANIFEST] ∧ p ≠ [SIG] := by
  have hm : IsName MANIFEST := by decide
  have hs : IsName SIG := by decide
  unfold FileTree.entries FileTree.rglob
  rw [List.mem_filterMap]
  constructor
  · rintro ⟨n, hn, heq⟩
    obtain ⟨rfl, hnm, hns⟩ := listed_eq_some.1 heq
    have hmem := (List.mem_insertionSort _).1 hn
    obtain ⟨hne, hnames⟩ := t.names _ hmem
    exact ⟨hmem, fun h => hnm ((as_posix_eq_name hne hnames hm).2 h),
      fun h => hns ((as_posix_eq_name hne hnames hs).2 h)⟩
  · rintro ⟨hmem, hnm, hns⟩
    obtain ⟨hne, hnames⟩ := t.names _ hmem
    refine ⟨_, (List.mem_insertionSort _).2 hmem, listed_eq_some.2 ⟨rfl, ?_, ?_⟩⟩
    · exact fun h => hnm ((as_posix_eq_name hne hnames hm).1 h)
    · exact fun h => hns ((as_posix_eq_name hne hnames hs).1 h)

/-- Files that are kept of a tree are in the order of their paths. -/
theorem kept_pairwise {f : RelPath × Node → Option (RelPath × Bytes)}
    (hf : ∀ n e, f n = some e → n = (e.1, .file e.2)) :
    (t.rglob.filterMap f).Pairwise fun a b => a.1 < b.1 := by
  have hsorted : t.rglob.Pairwise fun a b => a.1 ≤ b.1 := List.pairwise_insertionSort _ _
  have hnodup : (t.rglob.map Prod.fst).Nodup :=
    (((List.perm_insertionSort _ t.nodes).map Prod.fst).nodup_iff).2 t.distinct
  have hstrict : t.rglob.Pairwise fun a b => a.1 < b.1 :=
    (hsorted.and (List.pairwise_map.1 hnodup)).imp fun h => lt_of_le_of_ne h.1 h.2
  refine List.pairwise_filterMap.2 (hstrict.imp ?_)
  intro n n' hlt a ha b hb
  obtain rfl := hf n a ha
  obtain rfl := hf n' b hb
  exact hlt

/-- Files in the order of their paths are determined by which they are. -/
theorem eq_of_same_files {es es' : List (RelPath × Bytes)} (hes : es.Pairwise fun a b => a.1 < b.1)
    (hes' : es'.Pairwise fun a b => a.1 < b.1) (h : ∀ e, e ∈ es ↔ e ∈ es') : es = es' := by
  have : Std.Irrefl fun a b : RelPath × Bytes => a.1 < b.1 := ⟨fun a => lt_irrefl a.1⟩
  have : Std.Antisymm fun a b : RelPath × Bytes => a.1 < b.1 :=
    ⟨fun _ _ hab hba => absurd hab hba.asymm⟩
  exact List.Pairwise.eq_of_mem_iff hes hes' h

/-- The lines are in the order of their paths. -/
theorem entries_pairwise : t.entries.Pairwise fun a b => a.1 < b.1 :=
  kept_pairwise fun _ _ h => (listed_eq_some.1 h).1

/-- The same files have the same lines. -/
theorem sameFiles_iff : SameFiles t u ↔ t.entries = u.entries := by
  constructor
  · intro h
    refine eq_of_same_files entries_pairwise entries_pairwise ?_
    rintro ⟨p, content⟩
    rw [mem_entries, mem_entries]
    constructor
    · rintro ⟨hmem, hm, hs⟩
      exact ⟨(h p content hm hs).1 hmem, hm, hs⟩
    · rintro ⟨hmem, hm, hs⟩
      exact ⟨(h p content hm hs).2 hmem, hm, hs⟩
  · intro h p content hm hs
    have hmem : (p, content) ∈ t.entries ↔
        (p, Node.file content) ∈ t.nodes ∧ p ≠ [MANIFEST] ∧ p ≠ [SIG] := mem_entries
    rw [h, mem_entries] at hmem
    constructor
    · exact fun ht => (hmem.2 ⟨ht, hm, hs⟩).1
    · exact fun hu => (hmem.1 ⟨hu, hm, hs⟩).1

end Lines

/-! ## What an id determines -/

/-- Digests are 64 hexadecimal digits, and those of the given contents do not collide. -/
structure Sha256 (sha256_hex : Bytes → PyStr) (hashed : Bytes → Prop) : Prop where
  length : ∀ b, (sha256_hex b).length = 64
  hex : ∀ b, ∀ c ∈ sha256_hex b, hexSubstring [c] = true
  collision_free : ∀ a b, hashed a → hashed b → sha256_hex a = sha256_hex b → a = b

/-- What the two trees hold, and their manifest. -/
def Hashed (t u : FileTree) (m : Bytes) (b : Bytes) : Prop :=
  (∃ p, (p, Node.file b) ∈ t.nodes) ∨ (∃ p, (p, Node.file b) ∈ u.nodes) ∨ b = m

/-- When a tree with the same manifest has the same files. -/
def Determined (sha256_hex : Bytes → PyStr) (t u : FileTree) : Prop :=
  (SameFiles t u ↔ t.newlines = u.newlines) ∧
    (t.Tidy sha256_hex → (SameFiles t u ↔ u.Tidy sha256_hex))

section Determines

variable {sha256_hex : Bytes → PyStr} {hashed : Bytes → Prop} {t u : FileTree} {m : Bytes}

theorem newline_not_mem_head (hsha : Sha256 sha256_hex hashed) (c : Bytes) :
    10 ∉ sha256_hex c ++ py "  " := by
  intro hmem
  rcases List.mem_append.1 hmem with h | h
  · exact absurd (hsha.hex c 10 h) (by decide)
  · exact absurd h (by decide)

/-- A line determines its file. -/
theorem manifestLine_injective (hsha : Sha256 sha256_hex hashed) {e e' : RelPath × Bytes}
    (he : e ∈ t.entries) (he' : e' ∈ u.entries) (hh : hashed e.2) (hh' : hashed e'.2)
    (h : manifestLine sha256_hex e = manifestLine sha256_hex e') : e = e' := by
  unfold manifestLine at h
  rw [List.append_assoc, List.append_assoc] at h
  obtain ⟨hdigest, hrest⟩ := List.append_inj h ((hsha.length _).trans (hsha.length _).symm)
  have hpath := (List.append_inj hrest rfl).2
  obtain ⟨p, c⟩ := e
  obtain ⟨p', c'⟩ := e'
  obtain ⟨hne, hnames⟩ := t.names _ (mem_entries.1 he).1
  obtain ⟨hne', hnames'⟩ := u.names _ (mem_entries.1 he').1
  have hp : p = p' := as_posix_injective hne hne' hnames hnames' hpath
  have hc : c = c' := hsha.collision_free c c' hh hh' hdigest
  rw [hp, hc]

/-- The lines determine the files. -/
theorem manifestLines_injective {es es' : List (RelPath × Bytes)}
    (hinj : ∀ e ∈ es, ∀ e' ∈ es', manifestLine sha256_hex e = manifestLine sha256_hex e' → e = e')
    (h : es.map (manifestLine sha256_hex) = es'.map (manifestLine sha256_hex)) : es = es' := by
  induction es generalizing es' with
  | nil => exact (List.map_eq_nil_iff.1 h.symm).symm
  | cons e es ih =>
    cases es' with
    | nil => exact absurd h (by simp)
    | cons e' es' =>
      obtain ⟨hhead, htail⟩ := List.cons.inj h
      have heq := hinj e List.mem_cons_self e' List.mem_cons_self hhead
      have hrest := ih (fun a ha b hb => hinj a (List.mem_cons_of_mem _ ha) b
        (List.mem_cons_of_mem _ hb)) htail
      rw [heq, hrest]

theorem newlines_eq (hsha : Sha256 sha256_hex hashed) (t : FileTree) :
    (t.entries.map (manifestLine sha256_hex)).map (List.count 10) = t.newlines := by
  rw [List.map_map]
  refine List.map_congr_left fun e _ => ?_
  show (sha256_hex e.2 ++ py "  " ++ as_posix e.1).count 10 = _
  rw [List.count_append, List.count_eq_zero.2 (newline_not_mem_head hsha e.2), Nat.zero_add]

/-- The line of a file in a tidy tree embeds no other line's head. -/
theorem Tidy.lines (hsha : Sha256 sha256_hex hashed) (ht : t.Tidy sha256_hex) :
    ∀ l ∈ t.entries.map (manifestLine sha256_hex),
      ¬ Embeds (fun d => ∃ c, d = sha256_hex c ++ py "  ") l := by
  intro l hl hembeds
  obtain ⟨e, he, rfl⟩ := List.mem_map.1 hl
  exact ht e he (hembeds.of_append (newline_not_mem_head hsha e.2))

theorem headed_lines (t : FileTree) : ∀ l ∈ t.entries.map (manifestLine sha256_hex),
    Headed (fun d => ∃ c, d = sha256_hex c ++ py "  ") l := by
  intro l hl
  obtain ⟨e, _, rfl⟩ := List.mem_map.1 hl
  exact ⟨_, as_posix e.1, ⟨e.2, rfl⟩, rfl⟩

/-- **When one manifest means the same files.** -/
theorem manifest_determines (hsha : Sha256 sha256_hex (Hashed t u m))
    (ht : compute_manifest sha256_hex t = .ok m) (hu : compute_manifest sha256_hex u = .ok m) :
    Determined sha256_hex t u := by
  have htext : joinLines (t.entries.map (manifestLine sha256_hex)) =
      joinLines (u.entries.map (manifestLine sha256_hex)) :=
    encodeUtf8_injective (orRaise_eq_ok.1 ht) (orRaise_eq_ok.1 hu)
  have hfiles : t.entries.map (manifestLine sha256_hex) = u.entries.map (manifestLine sha256_hex) →
      SameFiles t u := by
    intro hlines
    refine sameFiles_iff.2 (manifestLines_injective ?_ hlines)
    intro e he e' he' hline
    have hh : Hashed t u m e.2 := .inl ⟨e.1, (mem_entries.1 he).1⟩
    have hh' : Hashed t u m e'.2 := .inr (.inl ⟨e'.1, (mem_entries.1 he').1⟩)
    exact manifestLine_injective hsha he he' hh hh' hline
  constructor
  · constructor
    · intro hsame
      rw [FileTree.newlines, FileTree.newlines, sameFiles_iff.1 hsame]
    · intro hcount
      rw [← newlines_eq hsha, ← newlines_eq hsha] at hcount
      exact hfiles (joinLines_injective htext hcount)
  · intro htidy
    constructor
    · intro hsame e he
      exact htidy e (sameFiles_iff.1 hsame ▸ he)
    · intro hutidy
      refine hfiles (joinLines_headed ?_ (headed_lines t) (headed_lines u) (Tidy.lines hsha htidy)
        (Tidy.lines hsha hutidy) htext)
      rintro d ⟨c, rfl⟩
      refine ⟨newline_not_mem_head hsha c, fun h => ?_⟩
      exact absurd (List.append_eq_nil_iff.1 h).2 (by decide)

theorem FileTree.mem_of_read {name : PyStr} {b : Bytes} (h : t.read name = some b) :
    ([name], Node.file b) ∈ t.nodes := by
  obtain ⟨⟨p, node⟩, hmem, heq⟩ := List.exists_of_findSome?_eq_some h
  cases node with
  | dir => cases heq
  | file c =>
    simp only [Option.ite_none_right_eq_some, Option.some.injEq] at heq
    obtain ⟨rfl, rfl⟩ := heq
    exact hmem

/-- What a directory without a reason against it holds. -/
theorem verify_integrity_none {r : RegistryFiles} {bundle_id : PyStr}
    (h : r.verify_integrity sha256_hex bundle_id = .ok none) :
    ∃ d recorded, r.dir bundle_id = some d ∧ d.read MANIFEST = some recorded ∧
      compute_manifest sha256_hex d = .ok recorded ∧ sha256_hex recorded = bundle_id := by
  unfold RegistryFiles.verify_integrity at h
  split at h
  · cases h
  · rename_i d hd
    split at h
    · rename_i recorded sigdoc hrecorded _
      obtain ⟨actual, hactual, h⟩ := bind_eq_ok.1 h
      by_cases hdiff : actual ≠ recorded
      · rw [if_pos hdiff] at h
        obtain ⟨_, _, h⟩ := bind_eq_ok.1 h
        cases pure_eq_ok.1 h
      · rw [if_neg hdiff] at h
        by_cases hid : sha256_hex recorded ≠ bundle_id
        · rw [if_pos hid] at h
          cases pure_eq_ok.1 h
        · exact ⟨d, recorded, hd, hrecorded, not_not.1 hdiff ▸ hactual, not_not.1 hid⟩
    · cases h

/-- **When a bundle id determines the bundle.** For a signed tree and its manifest: a tree with that
manifest has the signed files iff the numbers of newlines in the paths agree, and if no signed path
imitates a line, iff no path of the tree does; and so has the directory of a bundle that verifies. -/
theorem bundle_id_determines {signed : FileTree} (hm : compute_manifest sha256_hex signed = .ok m) :
    (∀ u, Sha256 sha256_hex (Hashed signed u m) → compute_manifest sha256_hex u = .ok m →
      Determined sha256_hex signed u) ∧
    ∀ r : RegistryFiles, (r.registry sha256_hex).verify (.str (sha256_hex m)) = .ok none →
      ∃ d, r.dir (sha256_hex m) = some d ∧
        (Sha256 sha256_hex (Hashed signed d m) → Determined sha256_hex signed d) := by
  refine ⟨fun u hsha hu => manifest_determines hsha hm hu, fun r hverify => ?_⟩
  obtain ⟨d, recorded, hd, hread, hmanifest, hid⟩ :=
    verify_integrity_none (BundleRegistry.verify_integrity_of_verify hverify)
  refine ⟨d, hd, fun hsha => ?_⟩
  have hsame : recorded = m := by
    refine hsha.collision_free recorded m ?_ (.inr (.inr rfl)) hid
    exact .inr (.inl ⟨[MANIFEST], FileTree.mem_of_read hread⟩)
  exact manifest_determines hsha hm (hsame ▸ hmanifest)

end Determines

/-! ### A path that imitates a line -/

/-- SHA-256 of `x`, of `y`, of the manifest and of the signature document. -/
def digestX : PyStr := py "2d711642b726b044" ++ py "01627ca9fbac32f5" ++
  py "c8530fb1903cc4db" ++ py "02258717921a4881"
def digestY : PyStr := py "a1fce4363854ff88" ++ py "8cff4b8e7875d600" ++
  py "c2682390412a8cf7" ++ py "9b37d0b11148b0fa"
def digestM : PyStr := py "8d73e01349b30f78" ++ py "751f37931b0d2ae5" ++
  py "4f8dbd56a8fc69e0" ++ py "1f2861cc466fadaa"
def digestS : PyStr := py "6ca4883bc3281416" ++ py "64a91cff44b2ebed" ++
  py "25e3b7c98db8d2cd" ++ py "8b388fcefa5ad01e"

/-- The manifest of a file `a` that holds `x` and a file `b` that holds `y`. -/
def exampleManifest : Bytes :=
  (digestX ++ py "  a\n" ++ digestY ++ py "  b\n").map UInt8.ofNat

/-- Its Ed25519 signature under the key of 32 zero bytes. -/
def manifestSig : Bytes := [20, 78, 121, 17, 48, 81, 118, 173, 31, 59, 55, 231, 193, 166, 118, 70, 172, 85, 104, 58, 25,
  142, 7, 225, 0, 31, 249, 203, 181, 206, 243, 151, 158, 30, 112, 168, 99, 122, 133, 219, 185,
  186, 245, 163, 196, 79, 8, 248, 90, 92, 68, 138, 100, 67, 98, 205, 137, 219, 187, 1, 244, 135,
  106, 5]

def exampleSigdoc : Bytes := (py "\x7b\"key_id\":\"bundle-1\",\"sig\":\"" ++
  py "FE55ETBRdq0fOzf" ++ py "nwaZ2RqxVaDoZjg" ++ py "fhAB_5y7XO85e" ++
  py "eHnCoY3qF27m69" ++ py "aPETwj4WlxEimRD" ++ py "Ys2J27sB9IdqBQ" ++ py "\"\x7d").map UInt8.ofNat

/-- SHA-256 as a table of what is hashed below. -/
def exampleSha256 (b : Bytes) : PyStr :=
  if b = [120] then digestX
  else if b = [121] then digestY
  else if b = exampleManifest then digestM
  else if b = exampleSigdoc then digestS
  else List.replicate 64 48

/-- The two files. -/
def signedTree : FileTree where
  nodes := [([py "a"], .file [120]), ([py "b"], .file [121])]
  distinct := by decide
  names := by decide
  parents := by decide

/-- The name of the second file has become a part of the first one's. -/
def forgedTree : FileTree where
  nodes := [([py "a\n" ++ digestY ++ py "  b"], .file [120]), ([MANIFEST], .file exampleManifest),
    ([SIG], .file exampleSigdoc)]
  distinct := by decide
  names := by decide
  parents := by decide

def exampleFiles : RegistryFiles where
  keys := fun key_id =>
    if key_id = py "bundle-1" then
      some ⟨fun sig m => decide (sig = manifestSig ∧ m = exampleManifest), py "active"⟩
    else none
  revoked := []
  dir := fun bundle_id => if bundle_id = digestM then some forgedTree else none
  unreadable := fun _ => []

theorem exampleSha256_mem (b : Bytes) : exampleSha256 b ∈
    [digestX, digestY, digestM, digestS, List.replicate 64 48] := by
  unfold exampleSha256
  split
  · simp
  · split
    · simp
    · split
      · simp
      · split <;> simp

theorem exampleHashed {b : Bytes} (h : Hashed signedTree forgedTree exampleManifest b) :
    b ∈ [[120], [121], exampleManifest, exampleSigdoc] := by
  rcases h with ⟨p, h⟩ | ⟨p, h⟩ | rfl
  · simp only [signedTree, List.mem_cons, Prod.mk.injEq, Node.file.injEq, List.not_mem_nil,
      or_false] at h
    rcases h with ⟨_, rfl⟩ | ⟨_, rfl⟩ <;> simp
  · simp only [forgedTree, List.mem_cons, Prod.mk.injEq, Node.file.injEq, List.not_mem_nil,
      or_false] at h
    rcases h with ⟨_, rfl⟩ | ⟨_, rfl⟩ | ⟨_, rfl⟩ <;> simp
  · simp

set_option maxRecDepth 10000 in
theorem exampleSha256_ok : Sha256 exampleSha256 (Hashed signedTree forgedTree exampleManifest) where
  length b := by
    have hall : ∀ d ∈ [digestX, digestY, digestM, digestS, List.replicate 64 48], d.length = 64 := by
      decide +kernel
    exact hall _ (exampleSha256_mem b)
  hex b := by
    have hall : ∀ d ∈ [digestX, digestY, digestM, digestS, List.replicate 64 48],
        ∀ c ∈ d, hexSubstring [c] = true := by
      decide +kernel
    exact hall _ (exampleSha256_mem b)
  collision_free a b ha hb h := by
    have hall : ∀ a ∈ [[120], [121], exampleManifest, exampleSigdoc],
        ∀ b ∈ [[120], [121], exampleManifest, exampleSigdoc],
          exampleSha256 a = exampleSha256 b → a = b := by
      decide +kernel
    exact hall a (exampleHashed ha) b (exampleHashed hb) h

set_option maxRecDepth 10000 in
theorem signedTree_manifest : compute_manifest exampleSha256 signedTree = .ok exampleManifest := by
  decide +kernel

set_option maxRecDepth 10000 in
theorem forgedTree_verifies :
    (exampleFiles.registry exampleSha256).verify (.str (exampleSha256 exampleManifest)) = .ok none := by
  decide +kernel

theorem bundle_id_determines_example : ∃ d, exampleFiles.dir (exampleSha256 exampleManifest) = some d ∧
    (Sha256 exampleSha256 (Hashed signedTree d exampleManifest) →
      Determined exampleSha256 signedTree d) :=
  (bundle_id_determines signedTree_manifest).2 exampleFiles forgedTree_verifies

set_option maxRecDepth 10000 in
/-- The directory that verifies holds other files than those that were signed. -/
theorem one_manifest_two_trees :
    Sha256 exampleSha256 (Hashed signedTree forgedTree exampleManifest) ∧
    compute_manifest exampleSha256 signedTree = .ok exampleManifest ∧
    compute_manifest exampleSha256 forgedTree = .ok exampleManifest ∧
    (exampleFiles.registry exampleSha256).verify (.str (exampleSha256 exampleManifest)) = .ok none ∧
    exampleFiles.dir (exampleSha256 exampleManifest) = some forgedTree ∧
    ¬ SameFiles signedTree forgedTree := by
  have hforged : compute_manifest exampleSha256 forgedTree = .ok exampleManifest := by
    decide +kernel
  have hdir : exampleFiles.dir (exampleSha256 exampleManifest) = some forgedTree := by
    have hid : exampleSha256 exampleManifest = digestM := by decide +kernel
    show (if exampleSha256 exampleManifest = digestM then some forgedTree else none) = _
    exact if_pos hid
  refine ⟨exampleSha256_ok, signedTree_manifest, hforged, forgedTree_verifies, hdir, fun hsame => ?_⟩
  have hmem : ([py "a"], Node.file [120]) ∈ forgedTree.nodes :=
    (hsame [py "a"] [120] (by decide) (by decide)).1 List.mem_cons_self
  exact absurd hmem (by decide +kernel)

end Valops
