import Valops.Bundle.Manifest
import Valops.Py.Surrogates

/-!
# Frozen fixture sets

The hash of a fixture set is taken over one stream: for each file its path, a zero byte and the
digest of its content. A file of the name of the freeze record is left out at every depth, and not
only the record itself.

Main result: `change_noticed_iff`, when a change after the freeze is noticed.
-/

set_option autoImplicit false

namespace Valops.Fixtures

open Py

/-! ## The functions -/

/-- The name of the freeze record. -/
def FROZEN : PyStr := py "FROZEN.json"

/-- Lower-case hexadecimal digits, two for each byte. -/
def hexdigest (b : Bytes) : PyStr :=
  b.flatMap fun x => [hexDigit (x.toNat / 16), hexDigit (x.toNat % 16)]

/-- The path and the content of a file that is hashed: `p.is_file() and p.name != "FROZEN.json"`. -/
def fixture : RelPath × Node → Option (RelPath × Bytes)
  | (_, .dir) => none
  | (p, .file content) => if p.getLast? = some FROZEN then none else some (p, content)

/-- The files that are hashed, in their order. -/
def fixtures (d : FileTree) : List (RelPath × Bytes) := d.rglob.filterMap fixture

section Functions

variable (sha256 : Bytes → Bytes)

/-- What `h.update` is given, one file after another. A path with a surrogate cannot be encoded. -/
def stream : List (RelPath × Bytes) → Option Bytes
  | [] => some []
  | (p, content) :: rest =>
    match encodeUtf8 (as_posix p), stream rest with
    | some path, some bytes => some (path ++ 0 :: (sha256 content ++ bytes))
    | _, _ => none

/-- `fixture_hash`. -/
def fixture_hash (d : FileTree) : Except Exc PyStr := do
  let bytes ← orRaise (stream sha256 (fixtures d)) (.other .valueError)
  pure (hexdigest (sha256 bytes))

/-- The freeze record. -/
def frozenRecord (fh by_ : PyStr) : Json :=
  Json.mkObj [(py "sha256", .str fh), (py "by", .str by_)]

/-- The directory with a new file. -/
def create (d : FileTree) (name : PyStr) (content : Bytes) (hname : IsName name)
    (hnew : [name] ∉ d.nodes.map Prod.fst) : FileTree where
  nodes := ([name], .file content) :: d.nodes
  distinct := List.nodup_cons.2 ⟨hnew, d.distinct⟩
  names := by
    intro n hn
    rcases List.mem_cons.1 hn with rfl | hn
    · exact ⟨List.cons_ne_nil _ _, List.forall_mem_singleton.2 hname⟩
    · exact d.names n hn
  parents := by
    intro n hn
    rcases List.mem_cons.1 hn with rfl | hn
    · exact .inl rfl
    · exact (d.parents n hn).imp_right (List.mem_cons_of_mem _)

/-- `freeze`: the directory afterwards and the hash. -/
def freeze (d : FileTree) (by_ : PyStr) : Except Exc (FileTree × PyStr) := do
  let fh ← fixture_hash sha256 d
  if hnew : [FROZEN] ∈ d.nodes.map Prod.fst then .error (.other .osError)
  else do
    let text ← orRaise (dumps (frozenRecord fh by_)) (.other .valueError)
    let content ← orRaise (encodeUtf8 text) (.other .valueError)
    pure (create d FROZEN content (by decide) hnew, fh)

/-- `verify`. -/
def verify (d : FileTree) : Except Exc PyStr := do
  let raw ← orRaise (d.read FROZEN) (.other .osError)
  let text ← orRaise (decodeText raw) (.other .valueError)
  let record ← orRaise (loads text) (.other .valueError)
  let fh ← fixture_hash sha256 d
  let recorded ← index record "sha256"
  if Json.str fh ≠ recorded then .error (.other .valueError) else pure fh

end Functions

/-! ## What a change is -/

/-- The two directories hold the same files, the freeze record aside. -/
def SameFixtures (d d' : FileTree) : Prop := ∀ p content, p ≠ [FROZEN] →
  ((p, Node.file content) ∈ d.nodes ↔ (p, Node.file content) ∈ d'.nodes)

/-- They hold the same files of other names than the record's. -/
def SameHashed (d d' : FileTree) : Prop := ∀ p content, p.getLast? ≠ some FROZEN →
  ((p, Node.file content) ∈ d.nodes ↔ (p, Node.file content) ∈ d'.nodes)

/-- They hold the same files of the record's name below the top. -/
def SameNested (d d' : FileTree) : Prop := ∀ p content, p ≠ [FROZEN] → p.getLast? = some FROZEN →
  ((p, Node.file content) ∈ d.nodes ↔ (p, Node.file content) ∈ d'.nodes)

/-- Digests have 32 bytes, and those of the given contents do not collide. -/
structure Digests (sha256 : Bytes → Bytes) (hashed : Bytes → Prop) : Prop where
  length : ∀ b, (sha256 b).length = 32
  collision_free : ∀ a b, hashed a → hashed b → sha256 a = sha256 b → a = b

/-- What is hashed of the two directories: their files, and their streams. -/
def Hashed (sha256 : Bytes → Bytes) (d d' : FileTree) (b : Bytes) : Prop :=
  (∃ p, (p, Node.file b) ∈ d.nodes) ∨ (∃ p, (p, Node.file b) ∈ d'.nodes) ∨
    stream sha256 (fixtures d) = some b ∨ stream sha256 (fixtures d') = some b

/-- A change is noticed, and the streams tell the directories apart. -/
def Noticed (sha256 : Bytes → Bytes) (d d' : FileTree) : Prop :=
  ((∃ fh, verify sha256 d' = .ok fh) ↔ SameFixtures d d') ∧
    (stream sha256 (fixtures d') = stream sha256 (fixtures d) ↔ SameFixtures d d')

theorem sameFixtures_iff {d d' : FileTree} :
    SameFixtures d d' ↔ SameHashed d d' ∧ SameNested d d' := by
  constructor
  · intro h
    refine ⟨fun p content hp => h p content ?_, fun p content hp _ => h p content hp⟩
    rintro rfl
    exact hp rfl
  · rintro ⟨hhashed, hnested⟩ p content hp
    by_cases hlast : p.getLast? = some FROZEN
    · exact hnested p content hp hlast
    · exact hhashed p content hlast

/-! ## The stream -/

section Stream

variable {sha256 : Bytes → Bytes} {hashed : Bytes → Prop} {d d' : FileTree} {p : RelPath}
  {content s : Bytes} {e : RelPath × Bytes} {es es' : List (RelPath × Bytes)}

theorem fixture_eq_some {n : RelPath × Node} :
    fixture n = some e ↔ n = (e.1, .file e.2) ∧ e.1.getLast? ≠ some FROZEN := by
  obtain ⟨p, node⟩ := n
  obtain ⟨q, content⟩ := e
  cases node with
  | dir => simp [fixture]
  | file c =>
    show (if p.getLast? = some FROZEN then none else some (p, c)) = _ ↔ _
    simp only [Prod.mk.injEq, Node.file.injEq]
    split
    · rename_i hlast
      refine iff_of_false (Option.some_ne_none _).symm ?_
      rintro ⟨⟨rfl, rfl⟩, hne⟩
      exact hne hlast
    · rename_i hlast
      simp only [Option.some.injEq, Prod.mk.injEq]
      constructor
      · rintro ⟨rfl, rfl⟩
        exact ⟨⟨rfl, rfl⟩, hlast⟩
      · rintro ⟨⟨rfl, rfl⟩, _⟩
        exact ⟨rfl, rfl⟩

theorem mem_fixtures : (p, content) ∈ fixtures d ↔
    (p, Node.file content) ∈ d.nodes ∧ p.getLast? ≠ some FROZEN := by
  unfold fixtures FileTree.rglob
  rw [List.mem_filterMap]
  constructor
  · rintro ⟨n, hn, heq⟩
    obtain ⟨rfl, hlast⟩ := fixture_eq_some.1 heq
    exact ⟨(List.mem_insertionSort _).1 hn, hlast⟩
  · rintro ⟨hmem, hlast⟩
    exact ⟨_, (List.mem_insertionSort _).2 hmem, fixture_eq_some.2 ⟨rfl, hlast⟩⟩

/-- The same files of other names are the same fixtures. -/
theorem sameHashed_iff : SameHashed d d' ↔ fixtures d = fixtures d' := by
  have hpairwise : ∀ t : FileTree, (fixtures t).Pairwise fun a b => a.1 < b.1 :=
    fun t => kept_pairwise fun _ _ h => (fixture_eq_some.1 h).1
  constructor
  · intro h
    refine eq_of_same_files (hpairwise d) (hpairwise d') ?_
    rintro ⟨p, content⟩
    rw [mem_fixtures, mem_fixtures]
    exact and_congr_left fun hlast => h p content hlast
  · intro h p content hlast
    have hmem : (p, content) ∈ fixtures d ↔ (p, content) ∈ fixtures d' := by rw [h]
    rw [mem_fixtures, mem_fixtures] at hmem
    constructor
    · exact fun hd => (hmem.1 ⟨hd, hlast⟩).1
    · exact fun hd' => (hmem.2 ⟨hd', hlast⟩).1

theorem zero_not_mem_posix (hp : ∀ x ∈ p, IsName x) : 0 ∉ as_posix p := by
  induction p with
  | nil => simp [as_posix, List.intercalate]
  | cons x p ih =>
    obtain ⟨hx, hrest⟩ := List.forall_mem_cons.1 hp
    by_cases hnil : p = []
    · rw [hnil, as_posix_singleton]
      exact hx.2.2.2.1
    · rw [as_posix_cons x hnil]
      simp [hx.2.2.2.1, ih hrest]

/-- What a file that is hashed is like. -/
theorem of_mem_fixtures (he : e ∈ fixtures d) :
    e.1 ≠ [] ∧ (∀ x ∈ e.1, IsName x) ∧ (e.1, Node.file e.2) ∈ d.nodes := by
  obtain ⟨p, content⟩ := e
  have hmem := (mem_fixtures.1 he).1
  exact ⟨(d.names _ hmem).1, (d.names _ hmem).2, hmem⟩

theorem stream_cons : stream sha256 (e :: es) = some s ↔
    ∃ path bytes, encodeUtf8 (as_posix e.1) = some path ∧ stream sha256 es = some bytes ∧
      s = path ++ 0 :: (sha256 e.2 ++ bytes) := by
  obtain ⟨p, content⟩ := e
  rw [stream]
  cases encodeUtf8 (as_posix p) with
  | none => simp
  | some path =>
    cases stream sha256 es with
    | none => simp
    | some bytes => simp [eq_comm]

/-- **The stream determines the files.** Induction on them: the first zero byte ends a path, and the
digest has a fixed length. -/
theorem stream_injective (hsha : Digests sha256 hashed)
    (hes : ∀ e ∈ es, e.1 ≠ [] ∧ (∀ x ∈ e.1, IsName x) ∧ hashed e.2)
    (hes' : ∀ e ∈ es', e.1 ≠ [] ∧ (∀ x ∈ e.1, IsName x) ∧ hashed e.2)
    (h : stream sha256 es = some s) (h' : stream sha256 es' = some s) : es = es' := by
  induction es generalizing es' s with
  | nil =>
    cases es' with
    | nil => rfl
    | cons e' es' =>
      obtain ⟨path, bytes, _, _, hs⟩ := stream_cons.1 h'
      rw [← Option.some.inj h] at hs
      exact absurd hs.symm (by simp)
  | cons e es ih =>
    obtain ⟨path, bytes, hpath, hbytes, hs⟩ := stream_cons.1 h
    cases es' with
    | nil =>
      rw [← Option.some.inj h'] at hs
      exact absurd hs.symm (by simp)
    | cons e' es' =>
      obtain ⟨path', bytes', hpath', hbytes', hs'⟩ := stream_cons.1 h'
      obtain ⟨⟨hne, hnames, hhash⟩, hrest⟩ := List.forall_mem_cons.1 hes
      obtain ⟨⟨hne', hnames', hhash'⟩, hrest'⟩ := List.forall_mem_cons.1 hes'
      have hzero : (0 : UInt8) ∉ path :=
        ascii_not_mem_encodeUtf8 (by decide) _ _ hpath (zero_not_mem_posix hnames)
      have hzero' : (0 : UInt8) ∉ path' :=
        ascii_not_mem_encodeUtf8 (by decide) _ _ hpath' (zero_not_mem_posix hnames')
      have hcount : path.count 0 = path'.count 0 :=
        (List.count_eq_zero.2 hzero).trans (List.count_eq_zero.2 hzero').symm
      obtain ⟨rfl, htail⟩ := split_count (hs.symm.trans hs') hcount
      obtain ⟨hdigest, rfl⟩ := List.append_inj htail ((hsha.length _).trans (hsha.length _).symm)
      have hp : e.1 = e'.1 :=
        as_posix_injective hne hne' hnames hnames' (encodeUtf8_injective hpath hpath')
      have hc : e.2 = e'.2 := hsha.collision_free _ _ hhash hhash' hdigest
      rw [Prod.ext hp hc, ih hrest hrest' hbytes hbytes']

/-- Of two directories, the streams are the same iff the fixtures are. -/
theorem stream_eq_iff (hsha : Digests sha256 (Hashed sha256 d d'))
    (hs : stream sha256 (fixtures d) = some s) :
    stream sha256 (fixtures d') = stream sha256 (fixtures d) ↔ SameHashed d d' := by
  rw [sameHashed_iff]
  constructor
  · intro h
    refine stream_injective hsha (fun e he => ?_) (fun e he => ?_) hs (h.trans hs)
    · obtain ⟨hne, hnames, hmem⟩ := of_mem_fixtures he
      exact ⟨hne, hnames, .inl ⟨_, hmem⟩⟩
    · obtain ⟨hne, hnames, hmem⟩ := of_mem_fixtures he
      exact ⟨hne, hnames, .inr (.inl ⟨_, hmem⟩)⟩
  · intro h
    rw [h]

end Stream

/-! ## The hash -/

section Hash

variable {sha256 : Bytes → Bytes} {d d' frozen : FileTree} {fh by_ : PyStr}

theorem hexDigit_injective {m n : Nat} (hm : m < 16) (hn : n < 16) (h : hexDigit m = hexDigit n) :
    m = n := by
  have hval := congrArg hexVal h
  rw [hexVal_hexDigit m hm, hexVal_hexDigit n hn] at hval
  exact Option.some.inj hval

theorem hexdigest_injective {a b : Bytes} (h : hexdigest a = hexdigest b) : a = b := by
  induction a generalizing b with
  | nil =>
    cases b with
    | nil => rfl
    | cons y b => exact absurd h (by simp [hexdigest])
  | cons x a ih =>
    cases b with
    | nil => exact absurd h (by simp [hexdigest])
    | cons y b =>
      simp only [hexdigest, List.flatMap_cons, List.cons_append, List.nil_append,
        List.cons.injEq] at h
      obtain ⟨hhigh, hlow, hrest⟩ := h
      have hx := x.toNat_lt
      have hy := y.toNat_lt
      have hdiv := hexDigit_injective (by omega) (by omega) hhigh
      have hmod := hexDigit_injective (by omega) (by omega) hlow
      have hxy : x = y := UInt8.toNat.inj (by omega)
      rw [hxy, ih hrest]

theorem hexdigest_lt (b : Bytes) : ∀ c ∈ hexdigest b, c < 128 := by
  intro c hc
  obtain ⟨x, _, hc⟩ := List.mem_flatMap.1 hc
  have hx := x.toNat_lt
  have hdigit : ∀ n < 16, hexDigit n < 128 := by decide
  rcases List.mem_pair.1 hc with rfl | rfl
  · exact hdigit _ (by omega)
  · exact hdigit _ (by omega)

theorem fixture_hash_eq_ok : fixture_hash sha256 d = .ok fh ↔
    ∃ s, stream sha256 (fixtures d) = some s ∧ fh = hexdigest (sha256 s) := by
  unfold fixture_hash
  constructor
  · intro h
    obtain ⟨s, hs, h⟩ := bind_eq_ok.1 h
    exact ⟨s, orRaise_eq_ok.1 hs, (pure_eq_ok.1 h).symm⟩
  · rintro ⟨s, hs, rfl⟩
    rw [hs]
    rfl

/-- The hash of a frozen directory is the hash of another one iff they have the same fixtures. -/
theorem hash_eq_iff (hsha : Digests sha256 (Hashed sha256 d d')) (h : fixture_hash sha256 d = .ok fh) :
    fixture_hash sha256 d' = .ok fh ↔ SameHashed d d' := by
  obtain ⟨s, hs, rfl⟩ := fixture_hash_eq_ok.1 h
  rw [← stream_eq_iff hsha hs, fixture_hash_eq_ok]
  constructor
  · rintro ⟨s', hs', hhash⟩
    have hsame : s = s' := hsha.collision_free s s' (.inr (.inr (.inl hs))) (.inr (.inr (.inr hs')))
      (hexdigest_injective hhash)
    rw [hs, hs', hsame]
  · intro hsame
    exact ⟨s, hsame.trans hs, rfl⟩

end Hash

/-! ## The record -/

section Record

variable {sha256 : Bytes → Bytes} {d d' frozen : FileTree} {fh by_ : PyStr} {content : Bytes}

/-- Text without surrogates is joined already. -/
theorem joinUnits_ascii {s : PyStr} (h : ∀ c ∈ s, c < 128) : joinUnits s = s := by
  fun_induction joinUnits s with
  | case1 => rfl
  | case2 a => rfl
  | case3 a b tail hpair ih =>
    have ha := h a List.mem_cons_self
    omega
  | case4 a b tail hpair ih => rw [ih fun c hc => h c (List.mem_cons_of_mem _ hc)]

theorem frozenRecord_eq (fh by_ : PyStr) :
    frozenRecord fh by_ = .obj [(py "by", .str by_), (py "sha256", .str fh)] := rfl

theorem joined_frozenRecord (hfh : ∀ c ∈ fh, c < 128) :
    (frozenRecord fh by_).joined = frozenRecord fh (joinUnits by_) := by
  have hsha : joinUnits (py "sha256") = py "sha256" := joinUnits_ascii (by decide)
  have hby : joinUnits (py "by") = py "by" := joinUnits_ascii (by decide)
  rw [frozenRecord_eq, frozenRecord_eq]
  simp only [Json.joined, Json.joinedFields, Json.joinedField, hsha, hby, joinUnits_ascii hfh]
  rfl

/-- What `freeze` leaves. -/
theorem freeze_eq_ok (h : freeze sha256 d by_ = .ok (frozen, fh)) :
    fixture_hash sha256 d = .ok fh ∧ ∃ content,
      encodeUtf8 ((frozenRecord fh by_).text .default) = some content ∧
      frozen.read FROZEN = some content := by
  obtain ⟨fh', hhash, h⟩ := bind_eq_ok.1 h
  split at h
  · cases h
  · obtain ⟨text, htext, h⟩ := bind_eq_ok.1 h
    obtain ⟨content, hcontent, h⟩ := bind_eq_ok.1 h
    cases pure_eq_ok.1 h
    obtain rfl : (frozenRecord fh by_).text .default = text :=
      Option.some.inj (orRaise_eq_ok.1 htext)
    refine ⟨hhash, content, orRaise_eq_ok.1 hcontent, ?_⟩
    rw [FileTree.read, create, List.findSome?_cons]
    simp

/-- A record that `freeze` wrote is read, and gives the hash back. -/
theorem verify_frozen (hby : IsText by_) (hfh : ∀ c ∈ fh, c < 128)
    (hcontent : encodeUtf8 ((frozenRecord fh by_).text .default) = some content)
    (hread : d'.read FROZEN = some content) :
    (∃ fh', verify sha256 d' = .ok fh') ↔ fixture_hash sha256 d' = .ok fh := by
  have hdecode := decodeText_encodeUtf8 hcontent
  have htext : (frozenRecord fh by_).isText = true := by
    have hkeys : IsText (py "by") ∧ IsText (py "sha256") := by
      unfold IsText
      decide
    have hfh' : IsText fh := fun c hc => (hfh c hc).trans (by decide)
    rw [frozenRecord_eq, Json.isText, Json.everyChar, Json.everyCharFields_iff]
    simp only [List.forall_mem_cons, Json.everyChar, Json.isText_iff]
    exact ⟨⟨hkeys.1, hby⟩, ⟨hkeys.2, hfh'⟩, fun _ h => absurd h List.not_mem_nil⟩
  have hloads : loads ((frozenRecord fh by_).text .default) =
      some (frozenRecord fh (joinUnits by_)) := by
    rw [loads_joined rfl htext, joined_frozenRecord hfh]
  have hindex : index (frozenRecord fh (joinUnits by_)) "sha256" = .ok (.str fh) := rfl
  have hverify : verify sha256 d' = (fixture_hash sha256 d' >>= fun fh' =>
      if Json.str fh' ≠ .str fh then .error (.other .valueError) else pure fh') := by
    unfold verify
    rw [hread]
    show (orRaise (decodeText content) _ >>= _) = _
    rw [hdecode]
    show (orRaise (loads _) _ >>= _) = _
    rw [hloads]
    rfl
  rw [hverify]
  constructor
  · rintro ⟨fh', h⟩
    obtain ⟨x, hx, h⟩ := bind_eq_ok.1 h
    by_cases hne : Json.str x ≠ .str fh
    · rw [if_pos hne] at h
      cases h
    · cases not_not.1 hne
      exact hx
  · intro h
    rw [h]
    exact ⟨fh, if_neg (not_not.2 rfl)⟩

/-- **When a change after the freeze is noticed.** As long as the record is left as it was written: iff
no file of the record's name below the top has changed, or another file has changed too. -/
theorem change_noticed_iff (hby : IsText by_) (hfreeze : freeze sha256 d by_ = .ok (frozen, fh))
    (hrecord : d'.read FROZEN = frozen.read FROZEN)
    (hsha : Digests sha256 (Hashed sha256 d d')) :
    Noticed sha256 d d' ↔ SameNested d d' ∨ ¬ SameHashed d d' := by
  obtain ⟨hhash, content, hcontent, hread⟩ := freeze_eq_ok hfreeze
  obtain ⟨s, hs, hfh⟩ := fixture_hash_eq_ok.1 hhash
  have hverify : (∃ fh, verify sha256 d' = .ok fh) ↔ SameHashed d d' := by
    rw [verify_frozen hby (hfh ▸ hexdigest_lt _) hcontent (hrecord.trans hread)]
    exact hash_eq_iff hsha hhash
  rw [Noticed, hverify, stream_eq_iff hsha hs, sameFixtures_iff, and_self]
  constructor
  · intro h
    by_cases hsame : SameHashed d d'
    · exact .inl (h.1 hsame).2
    · exact .inr hsame
  · rintro (hnested | hchanged)
    · exact ⟨fun h => ⟨h, hnested⟩, fun h => h.1⟩
    · exact ⟨fun h => absurd h hchanged, fun h => absurd h.1 hchanged⟩

end Record

/-! ### A nested file of the record's name -/

/-- SHA-256 of `x`, of `1`, of `2` and of the stream of the fixture `a` that holds `x`. -/
def digestX : Bytes := [45, 113, 22, 66, 183, 38, 176, 68, 1, 98, 124, 169, 251, 172, 50, 245, 200, 83, 15, 177,
  144, 60, 196, 219, 2, 37, 135, 23, 146, 26, 72, 129]
def digestOne : Bytes := [107, 134, 178, 115, 255, 52, 252, 225, 157, 107, 128, 78, 255, 90, 63, 87, 71, 173, 164,
  234, 162, 47, 29, 73, 192, 30, 82, 221, 183, 135, 91, 75]
def digestTwo : Bytes := [212, 115, 94, 58, 38, 94, 22, 238, 224, 63, 89, 113, 139, 155, 93, 3, 1, 156, 7, 216, 182,
  197, 31, 144, 218, 58, 102, 110, 236, 19, 171, 53]
def digestStream : Bytes := [239, 4, 95, 29, 252, 230, 56, 21, 229, 97, 235, 15, 26, 245, 223, 252, 25, 215, 177,
  141, 110, 185, 82, 54, 206, 134, 160, 2, 214, 168, 23, 127]

/-- The stream of a fixture `a` that holds `x`. -/
def exampleStream : Bytes := 97 :: 0 :: digestX

/-- SHA-256 as a table of what is hashed below. -/
def exampleSha256 (b : Bytes) : Bytes :=
  if b = [120] then digestX
  else if b = [49] then digestOne
  else if b = [50] then digestTwo
  else if b = exampleStream then digestStream
  else List.replicate 32 0

/-- A fixture, and a set inside the set with a record of its own. -/
def fixtureSet : FileTree where
  nodes := [([py "a"], .file [120]), ([py "sub"], .dir), ([py "sub", FROZEN], .file [49])]
  distinct := by decide
  names := by decide
  parents := by decide

/-- The record that is written. -/
def exampleRecord : Bytes :=
  ((frozenRecord (hexdigest digestStream) (py "qa")).text .default).map UInt8.ofNat

/-- The set after the freeze. -/
def frozenSet : FileTree := create fixtureSet FROZEN exampleRecord (by decide) (by decide)

/-- Then the nested record is replaced. -/
def changedSet : FileTree where
  nodes := [([FROZEN], .file exampleRecord), ([py "a"], .file [120]), ([py "sub"], .dir),
    ([py "sub", FROZEN], .file [50])]
  distinct := by decide
  names := by decide
  parents := by decide

set_option maxRecDepth 10000 in
theorem freeze_fixtureSet : freeze exampleSha256 fixtureSet (py "qa") =
    .ok (frozenSet, hexdigest digestStream) := by
  have hhash : fixture_hash exampleSha256 fixtureSet = .ok (hexdigest digestStream) := by
    decide +kernel
  have hcontent : encodeUtf8 ((frozenRecord (hexdigest digestStream) (py "qa")).text .default) =
      some exampleRecord := by
    decide +kernel
  have hdumps : dumps (frozenRecord (hexdigest digestStream) (py "qa")) =
      some ((frozenRecord (hexdigest digestStream) (py "qa")).text .default) := if_pos rfl
  have hnew : [FROZEN] ∉ fixtureSet.nodes.map Prod.fst := by decide
  unfold freeze
  rw [hhash, ok_bind, dif_neg hnew, orRaise_eq_ok.2 hdumps, ok_bind, orRaise_eq_ok.2 hcontent, ok_bind]
  rfl

theorem exampleSha256_mem (b : Bytes) : exampleSha256 b ∈
    [digestX, digestOne, digestTwo, digestStream, List.replicate 32 0] := by
  unfold exampleSha256
  split
  · simp
  · split
    · simp
    · split
      · simp
      · split <;> simp

set_option maxRecDepth 10000 in
theorem streams : stream exampleSha256 (fixtures fixtureSet) = some exampleStream ∧
    stream exampleSha256 (fixtures changedSet) = some exampleStream := by
  decide +kernel

theorem exampleHashed {b : Bytes} (h : Hashed exampleSha256 fixtureSet changedSet b) :
    b ∈ [[120], [49], [50], exampleRecord, exampleStream] := by
  rcases h with ⟨p, h⟩ | ⟨p, h⟩ | h | h
  · simp only [fixtureSet, List.mem_cons, Prod.mk.injEq, Node.file.injEq, reduceCtorEq, and_false,
      List.not_mem_nil, or_false, false_or] at h
    rcases h with ⟨_, rfl⟩ | ⟨_, rfl⟩ <;> simp
  · simp only [changedSet, List.mem_cons, Prod.mk.injEq, Node.file.injEq, reduceCtorEq, and_false,
      List.not_mem_nil, or_false, false_or] at h
    rcases h with ⟨_, rfl⟩ | ⟨_, rfl⟩ | ⟨_, rfl⟩ <;> simp
  · rw [streams.1] at h
    cases h
    simp
  · rw [streams.2] at h
    cases h
    simp

set_option maxRecDepth 10000 in
theorem exampleSha256_ok : Digests exampleSha256 (Hashed exampleSha256 fixtureSet changedSet) where
  length b := by
    have hall : ∀ d ∈ [digestX, digestOne, digestTwo, digestStream, List.replicate 32 0],
        d.length = 32 := by
      decide
    exact hall _ (exampleSha256_mem b)
  collision_free a b ha hb h := by
    have hall : ∀ a ∈ [[120], [49], [50], exampleRecord, exampleStream],
        ∀ b ∈ [[120], [49], [50], exampleRecord, exampleStream],
          exampleSha256 a = exampleSha256 b → a = b := by
      decide +kernel
    exact hall a (exampleHashed ha) b (exampleHashed hb) h

theorem isText_qa : IsText (py "qa") := by
  unfold IsText
  decide

theorem change_noticed_example : Noticed exampleSha256 fixtureSet changedSet ↔
    SameNested fixtureSet changedSet ∨ ¬ SameHashed fixtureSet changedSet :=
  change_noticed_iff isText_qa freeze_fixtureSet rfl exampleSha256_ok

set_option maxRecDepth 10000 in
/-- The nested file has changed, and the set verifies. -/
theorem nested_change_unnoticed :
    freeze exampleSha256 fixtureSet (py "qa") = .ok (frozenSet, hexdigest digestStream) ∧
    Digests exampleSha256 (Hashed exampleSha256 fixtureSet changedSet) ∧
    changedSet.read FROZEN = frozenSet.read FROZEN ∧
    verify exampleSha256 changedSet = .ok (hexdigest digestStream) ∧
    stream exampleSha256 (fixtures changedSet) = stream exampleSha256 (fixtures fixtureSet) ∧
    ¬ SameFixtures fixtureSet changedSet := by
  have hverify : verify exampleSha256 changedSet = .ok (hexdigest digestStream) := by
    decide +kernel
  refine ⟨freeze_fixtureSet, exampleSha256_ok, rfl, hverify, streams.2.trans streams.1.symm, ?_⟩
  intro hsame
  have hmem : ([py "sub", FROZEN], Node.file [49]) ∈ changedSet.nodes :=
    (hsame _ _ (by decide)).1 (by decide)
  exact absurd hmem (by decide)

end Valops.Fixtures
