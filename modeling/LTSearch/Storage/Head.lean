/-
# LTSearch.Storage.Head -- the head document

The one pointer to the active version: what it says, when it is accepted, and how the errors of
reading one are reported by the publisher and by the build worker.
-/
import LTSearch.Storage.Paths

namespace LTSearch

open LTSearch.Foundation

/-- `serde_json::to_vec_pretty` and `from_slice` at one type, on bytes.  Both are parameters. -/
structure Codec (α : Type) where
  toVec : α → ByteArray
  fromSlice : ByteArray → Except String α

structure ManifestHead where
  versionId : UInt64
  manifestPath : String
  updatedAt : Int
  deriving DecidableEq, Repr

inductive HeadError where
  | parse (message : String)
  | versionMustBePositive
  | implausibleUpdatedAt
  | manifestPathMismatch (expected : String)
  deriving DecidableEq, Repr

def HeadError.display : HeadError → String
  | parse message => s!"failed to parse manifest head: {message}"
  | versionMustBePositive => "version_id must be positive"
  | implausibleUpdatedAt => "updated_at must be a plausible epoch millis value"
  | manifestPathMismatch expected => s!"manifest_path must match version_id; expected {expected}"

namespace ManifestHead

/-- `ManifestHead::new`: the path is always derived from the version. -/
def new (versionId : UInt64) (updatedAt : Int) : ManifestHead where
  versionId := versionId
  manifestPath := versionManifestKey versionId
  updatedAt := updatedAt

def validate (head : ManifestHead) : Except HeadError Unit := do
  rejectIf (head.versionId = 0) .versionMustBePositive
  rejectIf (head.updatedAt < minPlausibleEpochMillis) .implausibleUpdatedAt
  rejectIf (head.manifestPath ≠ versionManifestKey head.versionId)
    (.manifestPathMismatch (versionManifestKey head.versionId))

/-- `ManifestHead::from_json`. -/
def fromJson (codec : Codec ManifestHead) (bytes : ByteArray) : Except HeadError ManifestHead := do
  let head ← (codec.fromSlice bytes).mapError HeadError.parse
  head.validate
  return head

theorem fromJson_eq_ok_iff {codec : Codec ManifestHead} {bytes : ByteArray} {head : ManifestHead} :
    fromJson codec bytes = .ok head ↔ codec.fromSlice bytes = .ok head ∧ head.versionId ≠ 0 ∧
      minPlausibleEpochMillis ≤ head.updatedAt ∧
      head.manifestPath = versionManifestKey head.versionId := by
  have hvalid : ∀ h : ManifestHead, h.validate = .ok () ↔ h.versionId ≠ 0 ∧
      minPlausibleEpochMillis ≤ h.updatedAt ∧ h.manifestPath = versionManifestKey h.versionId := by
    intro h
    simp only [validate, check_bind_eq_ok, rejectIf_eq_ok, not_lt, not_not]
  unfold fromJson
  simp only [bind_eq_ok, mapError_eq_ok]
  constructor
  · rintro ⟨h, hparse, u, hval, heq⟩
    cases heq
    exact ⟨hparse, (hvalid _).mp hval⟩
  · rintro ⟨hparse, hval⟩
    exact ⟨head, hparse, (), (hvalid _).mpr hval, rfl⟩

/-- The heads the publisher prints parse back. -/
def RoundTrips (codec : Codec ManifestHead) : Prop :=
  ∀ v updatedAt, codec.fromSlice (codec.toVec (new v updatedAt)) = .ok (new v updatedAt)

/-- A head that the publisher writes reads back as itself. -/
theorem fromJson_new {codec : Codec ManifestHead} (hcodec : RoundTrips codec) {v : UInt64}
    (hv : v ≠ 0) {updatedAt : Int} (ht : minPlausibleEpochMillis ≤ updatedAt) :
    fromJson codec (codec.toVec (new v updatedAt)) = .ok (new v updatedAt) :=
  fromJson_eq_ok_iff.mpr ⟨hcodec _ _, hv, ht, rfl⟩

/-! ## A printer with its inverse -/

/-- The text `to_vec_pretty` prints for a head. -/
def jsonPretty (head : ManifestHead) : String :=
  "\x7b\n  \"version_id\": " ++ (toString head.versionId ++ ("," ++ ("\n  \"manifest_path\": "
    ++ Json.quote head.manifestPath ++ ",\n  \"updated_at\": "
    ++ (toString head.updatedAt ++ "\n\x7d"))))

/-- The digits of a version that is followed by a comma can be read off. -/
theorem version_append_inj {before rest rest' : String} {v v' : UInt64}
    (h : before ++ (toString v ++ ("," ++ rest)) = before ++ (toString v' ++ ("," ++ rest'))) :
    v = v' ∧ rest = rest' := by
  have hlist := congrArg String.toList h
  have hcomma : ",".toList = [','] := rfl
  rw [String.toList_append, String.toList_append, String.toList_append, String.toList_append,
    String.toList_append, String.toList_append, hcomma] at hlist
  have hdigits : digits v ++ ',' :: rest.toList = digits v' ++ ',' :: rest'.toList :=
    List.append_cancel_left hlist
  obtain ⟨hv, hrest⟩ := digits_append_inj (by decide) hdigits
  exact ⟨hv, String.toList_injective hrest⟩

theorem time_append_inj {before after : String} {t t' : Int}
    (h : before ++ (toString t ++ after) = before ++ (toString t' ++ after)) : t = t' := by
  have hlist := congrArg String.toList h
  rw [String.toList_append, String.toList_append, String.toList_append, String.toList_append]
    at hlist
  have htime := List.append_cancel_right (List.append_cancel_left hlist)
  exact Int.repr_injective (String.toList_injective htime)

theorem jsonPretty_new_injective {v v' : UInt64} {t t' : Int}
    (h : jsonPretty (new v t) = jsonPretty (new v' t')) : v = v' ∧ t = t' := by
  obtain ⟨rfl, hrest⟩ := version_append_inj h
  exact ⟨rfl, time_append_inj hrest⟩

open Classical in
/-- `serde_json` on heads, as far as heads are printed by the publisher. -/
noncomputable def serdeCodec : Codec ManifestHead where
  toVec head := (jsonPretty head).toUTF8
  fromSlice bytes :=
    if h : ∃ p : UInt64 × Int, (jsonPretty (new p.1 p.2)).toUTF8 = bytes then
      .ok (new h.choose.1 h.choose.2)
    else .error "expected value at line 1 column 1"

theorem serdeCodec_roundTrips : RoundTrips serdeCodec := by
  intro v t
  have h : ∃ p : UInt64 × Int,
      (jsonPretty (new p.1 p.2)).toUTF8 = (jsonPretty (new v t)).toUTF8 := ⟨(v, t), rfl⟩
  obtain ⟨hv, ht⟩ := jsonPretty_new_injective (String.toByteArray_inj.mp h.choose_spec)
  unfold serdeCodec
  dsimp only
  rw [dif_pos h, hv, ht]

end ManifestHead

/-- `parse_head`: the errors of a head as the publisher reports them. -/
def parseHead (codec : Codec ManifestHead) (bytes : ByteArray) :
    Except PublishError ManifestHead :=
  (ManifestHead.fromJson codec bytes).mapError fun
    | .parse message => .operation s!"failed to parse current manifest head: {message}"
    | .versionMustBePositive => .validation (.invalidValue "version_id")
    | .implausibleUpdatedAt => .validation (.invalidValue "updated_at")
    | .manifestPathMismatch _ =>
        .validation (.mismatch "manifest_path" "version_manifest_key(version_id)")

theorem parseHead_eq_ok_iff {codec : Codec ManifestHead} {bytes : ByteArray}
    {head : ManifestHead} :
    parseHead codec bytes = .ok head ↔ ManifestHead.fromJson codec bytes = .ok head :=
  mapError_eq_ok

end LTSearch
