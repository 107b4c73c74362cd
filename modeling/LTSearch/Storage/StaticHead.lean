/-
# LTSearch.Storage.StaticHead -- the pointer to the active static release

The keys of a static release in a store, and the `static/_head` document: what it says and when it is
accepted.  Its manifest path is always derived from the release id.
-/
import LTSearch.Index.ReleaseManifest
import LTSearch.Storage.Head

namespace LTSearch

open LTSearch.Foundation

/-! ## Keys -/

/-- `static_release_dir_key`. -/
def staticReleaseDirKey (releaseId : String) : String := "static/releases/" ++ releaseId

/-- `static_release_manifest_key`. -/
def staticReleaseManifestKey (releaseId : String) : String :=
  childKey (staticReleaseDirKey releaseId) releaseManifestFile

/-- The key of a file of a release. -/
def releaseFileKey (releaseId name : String) : String := childKey (staticReleaseDirKey releaseId) name

/-- A key of a release is not the key of the pointer. -/
theorem releaseFileKey_ne_head (releaseId name : String) :
    releaseFileKey releaseId name ≠ staticHeadKey := by
  intro h
  have hlist := congrArg (fun key : String => key.toList[7]?) h
  have hpre : "static/releases/".toList = ['s', 't', 'a', 't', 'i', 'c', '/', 'r', 'e', 'l', 'e',
      'a', 's', 'e', 's', '/'] := rfl
  simp only [releaseFileKey, childKey, staticReleaseDirKey, String.toList_append, hpre,
    List.cons_append, List.getElem?_cons_succ, List.getElem?_cons_zero] at hlist
  exact absurd hlist (by decide)

theorem releaseFileKey_inj {releaseId name name' : String}
    (h : releaseFileKey releaseId name = releaseFileKey releaseId name') : name = name' := by
  have hlist := congrArg String.toList h
  simp only [releaseFileKey, childKey, String.toList_append] at hlist
  exact String.toList_injective (List.append_cancel_left hlist)

/-- With ids of one length, a key tells the release and the file. -/
theorem releaseFileKey_inj_of_length {releaseId releaseId' name name' : String}
    (hlen : releaseId.toList.length = releaseId'.toList.length)
    (h : releaseFileKey releaseId name = releaseFileKey releaseId' name') :
    releaseId = releaseId' ∧ name = name' := by
  have hlist := congrArg String.toList h
  simp only [releaseFileKey, childKey, staticReleaseDirKey, String.toList_append,
    List.append_assoc] at hlist
  obtain ⟨hid, hrest⟩ := List.append_inj (List.append_cancel_left hlist) hlen
  exact ⟨String.toList_injective hid, String.toList_injective (List.append_cancel_left hrest)⟩

/-! ## The document -/

structure StaticReleaseHead where
  releaseId : String
  manifestPath : String
  updatedAt : Int
  deriving DecidableEq, Repr

inductive StaticHeadError where
  | parse (message : String)
  | invalidReleaseId
  | implausibleUpdatedAt
  | manifestPathMismatch (expected : String)
  deriving DecidableEq, Repr

def StaticHeadError.display : StaticHeadError → String
  | parse message => s!"failed to parse static release head: {message}"
  | invalidReleaseId => "release_id must be exactly 64 lowercase hex characters"
  | implausibleUpdatedAt => "updated_at must be a plausible epoch millis value"
  | manifestPathMismatch expected => s!"manifest_path must match release_id; expected {expected}"

/-- A lowercase hexadecimal digit. -/
def isHexDigit (c : Char) : Bool := ('0' ≤ c && c ≤ '9') || ('a' ≤ c && c ≤ 'f')

/-- `is_release_id`; a text of ASCII characters has as many bytes. -/
def isReleaseId (releaseId : String) : Bool :=
  releaseId.toList.length = 64 && releaseId.toList.all isHexDigit

/-- `to_json_pretty`, and `serde_json::from_slice` at this type. -/
structure StaticHeadCodec where
  toJsonPretty : StaticReleaseHead → Bytes
  fromSlice : Bytes → Except String StaticReleaseHead

namespace StaticReleaseHead

/-- `StaticReleaseHead::new`. -/
def new (releaseId : String) (updatedAt : Int) : StaticReleaseHead where
  releaseId
  manifestPath := staticReleaseManifestKey releaseId
  updatedAt

def validate (head : StaticReleaseHead) : Except StaticHeadError Unit := do
  rejectIf (isReleaseId head.releaseId = false) .invalidReleaseId
  rejectIf (head.updatedAt < minPlausibleEpochMillis) .implausibleUpdatedAt
  rejectIf (head.manifestPath ≠ staticReleaseManifestKey head.releaseId)
    (.manifestPathMismatch (staticReleaseManifestKey head.releaseId))

/-- `StaticReleaseHead::from_json`. -/
def fromJson (codec : StaticHeadCodec) (bytes : Bytes) : Except StaticHeadError StaticReleaseHead := do
  let head ← (codec.fromSlice bytes).mapError StaticHeadError.parse
  head.validate
  return head

theorem validate_eq_ok {head : StaticReleaseHead} : head.validate = .ok () ↔
    isReleaseId head.releaseId = true ∧ minPlausibleEpochMillis ≤ head.updatedAt ∧
      head.manifestPath = staticReleaseManifestKey head.releaseId := by
  simp only [validate, check_bind_eq_ok, rejectIf_eq_ok, Bool.not_eq_false, not_lt, not_not]

theorem validate_new {releaseId : String} {updatedAt : Int} :
    (new releaseId updatedAt).validate = .ok () ↔
      isReleaseId releaseId = true ∧ minPlausibleEpochMillis ≤ updatedAt := by
  rw [validate_eq_ok]
  exact ⟨fun h => ⟨h.1, h.2.1⟩, fun h => ⟨h.1, h.2, rfl⟩⟩

theorem fromJson_eq_ok {codec : StaticHeadCodec} {bytes : Bytes} {head : StaticReleaseHead} :
    fromJson codec bytes = .ok head ↔ codec.fromSlice bytes = .ok head ∧ head.validate = .ok () := by
  simp only [fromJson, bind_eq_ok, mapError_eq_ok]
  constructor
  · rintro ⟨_, hparse, _, hvalid, h⟩
    cases h
    exact ⟨hparse, hvalid⟩
  · rintro ⟨hparse, hvalid⟩
    exact ⟨head, hparse, (), hvalid, rfl⟩

end StaticReleaseHead

/-! ## Release ids -/

theorem length_hexEncode (bytes : Bytes) : (hexEncode bytes).toList.length = 2 * bytes.length := by
  rw [hexEncode, String.toList_ofList]
  induction bytes with
  | nil => rfl
  | cons b rest ih =>
      rw [List.flatMap_cons, List.length_append, ih, List.length_cons, hexByte]
      simp only [List.length_cons, List.length_nil]
      omega

theorem isHexDigit_digitChar {n : Nat} (h : n < 16) : isHexDigit (Nat.digitChar n) = true := by
  have hall : ∀ m : Fin 16, isHexDigit (Nat.digitChar m.val) = true := by decide
  exact hall ⟨n, h⟩

/-- A digest in hexadecimal is a release id. -/
theorem isReleaseId_sha256Hex (sha : Sha256) (bytes : Bytes) :
    isReleaseId (sha256Hex sha bytes) = true := by
  have hlen := length_hexEncode (sha.digest bytes)
  rw [sha.length_digest] at hlen
  have hall : (hexEncode (sha.digest bytes)).toList.all isHexDigit = true := by
    rw [hexEncode, String.toList_ofList, List.all_flatMap, List.all_eq_true]
    intro b _
    have hb := b.toNat_lt
    have hhigh := isHexDigit_digitChar (n := b.toNat / 16) (by omega)
    have hlow := isHexDigit_digitChar (n := b.toNat % 16) (by omega)
    simp only [hexByte, List.all_cons, List.all_nil, hhigh, hlow, Bool.and_self]
  rw [isReleaseId, sha256Hex, hlen, hall]
  rfl

end LTSearch
