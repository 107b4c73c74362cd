/-
# LTSearch.Indexing.StaticActivate -- the pointer swap and the remote activation

`activate_static_pointer` over any store that can read and swap the pointer, and the `static_activate`
run over a bucket: verify the local directory, upload its files with the manifest last, set the
pointer.
-/
import LTSearch.Node.Bucket

namespace LTSearch

open LTSearch.Foundation
open TurboQuantConfig (okOr)

/-! ## The pointer -/

structure StaticActivationResult where
  releaseId : String
  previousReleaseId : Option String
  deriving DecidableEq

section Pointer

variable {S : Signature} (codec : StaticHeadCodec)
  (read : Prog S (Except PublishError (Option StoredObject)))
  (compareAndSwap : Option String → Bytes → Prog S (Except PublishError Bool))

/-- The release that the pointer names now. -/
def previousRelease (current : Option StoredObject) :
    Except StaticActivateError (Option String) :=
  match current with
  | none => .ok none
  | some object => do
      let head ← (StaticReleaseHead.fromJson codec object.bytes).mapError fun error =>
        StaticActivateError.verify s!"existing static/_head is malformed: {error.display}"
      return some head.releaseId

/-- The document of a new pointer. -/
def newHeadBytes (releaseId : String) (updatedAt : Int) : Except StaticActivateError Bytes := do
  let head := StaticReleaseHead.new releaseId updatedAt
  head.validate.mapError fun error =>
    StaticActivateError.verify s!"new static/_head is invalid: {error.display}"
  return codec.toJsonPretty head

/-- `activate_static_pointer`. -/
def activateStaticPointer (releaseId : String) (updatedAt : Int) :
    ExceptT StaticActivateError (Prog S) StaticActivationResult := do
  let current ← ExceptT.mk (Except.mapError StaticActivateError.storage <$> read)
  let previousReleaseId ← previousRelease codec current
  let headBytes ← newHeadBytes codec releaseId updatedAt
  let swapped ← ExceptT.mk (Except.mapError StaticActivateError.storage <$>
    compareAndSwap (current.map (·.etag)) headBytes)
  if swapped then return { releaseId, previousReleaseId }
  else throw (.lostCas releaseId)

end Pointer

theorem newHeadBytes_eq_ok {codec : StaticHeadCodec} {releaseId : String} {updatedAt : Int}
    {bytes : Bytes} :
    newHeadBytes codec releaseId updatedAt = .ok bytes ↔
      (StaticReleaseHead.new releaseId updatedAt).validate = .ok () ∧
        bytes = codec.toJsonPretty (StaticReleaseHead.new releaseId updatedAt) := by
  simp only [newHeadBytes, bind_eq_ok, mapError_eq_ok]
  constructor
  · rintro ⟨_, hvalid, h⟩
    cases h
    exact ⟨hvalid, rfl⟩
  · rintro ⟨hvalid, rfl⟩
    exact ⟨(), hvalid, rfl⟩

/-! ## The store -/

/-- One operation on the bucket. -/
abbrev bucketCall (op : BucketOp) : BucketM op.Ans := Prog.ask (S := bucketSignature) op

/-- `CREATE_ONLY_CONFLICT_PHRASE`. -/
def createOnlyConflictPhrase : String := "refusing to overwrite existing version artifact"

/-- `AwsPublishStorage::upload_file(.., CreateOnly)`, of a file of the release directory. -/
def bucketUploadFile (path key name : String) : BucketM (Except PublishError Unit) := do
  match ← bucketCall (.readLocal name) with
  | .error error => return .error (.operation s!"failed to read {path}/{name}: {error}")
  | .ok bytes =>
      match ← bucketCall (.put key bytes) with
      | .stored => return .ok ()
      | .preconditionFailed => return .error (.operation
          (createOnlyConflictPhrase ++ " " ++ key ++ ": version artifacts are immutable"))
      | .failed error => return .error (.operation s!"failed to upload {key}: {error}")

/-- `is_create_only_conflict`. -/
def isCreateOnlyConflict : PublishError → Bool
  | .operation message => decide (createOnlyConflictPhrase.toList <:+: message.toList)
  | .validation _ => false

/-! ## The run -/

/-- What `verify_remote_object` checks of the object it has read. -/
def checkRemoteObject (sha : Sha256) (key : String) (expected : OutputFile) (bytes : Bytes) :
    Except String Unit := do
  rejectIf (UInt64.ofNat bytes.length ≠ expected.sizeBytes)
    s!"pre-existing object {key} size mismatch: manifest {expected.sizeBytes}, remote {bytes.length}; refusing to activate a corrupt release"
  rejectIf (sha256Hex sha bytes ≠ expected.sha256)
    s!"pre-existing object {key} sha256 mismatch: manifest {expected.sha256}, remote {sha256Hex sha bytes}; refusing to activate a corrupt release"

/-- `verify_remote_object`. -/
def verifyRemoteObject (sha : Sha256) (key name : String) (manifest : ReleaseManifest) :
    ExceptT String BucketM Unit := do
  let expected ← okOr s!"manifest has no output entry for {name}; cannot verify pre-existing {key}"
    (manifest.outputs.find? fun output => output.name = name)
  let stored ← ExceptT.mk (Except.mapError
    (fun error => s!"failed to read pre-existing object {key}: {error.display}") <$>
    bucketCall (.get key))
  let object ← okOr
    s!"pre-existing object {key} reported present then vanished during integrity check" stored
  checkRemoteObject sha key expected object.bytes

/-- One file of the release. -/
def uploadOutput (setup : BucketSetup) (t : Nat) (manifest : ReleaseManifest) (name : String) :
    ExceptT String BucketM Unit := do
  let key := releaseFileKey manifest.releaseId name
  match ← (bucketUploadFile (setup.pathOf t) key name : BucketM _) with
  | .ok () => pure ()
  | .error error =>
      if isCreateOnlyConflict error then verifyRemoteObject setup.sha key name manifest
      else throw s!"failed to upload static release object {key}: {error.display}"

/-- The files of the release, one after the other. -/
def uploadOutputs (setup : BucketSetup) (t : Nat) (manifest : ReleaseManifest) :
    List String → ExceptT String BucketM Unit
  | [] => pure ()
  | name :: rest => do
      uploadOutput setup t manifest name
      uploadOutputs setup t manifest rest

/-- The stored manifest is the local one. -/
def checkStoredManifest (manifest : ReleaseManifest) (key : String) (localManifest : Bytes) :
    ExceptT String BucketM Unit := do
  let stored ← ExceptT.mk (Except.mapError
    (fun error => s!"failed to read stored manifest {key}: {error.display}") <$>
    bucketCall (.get key))
  let object ← okOr s!"manifest {key} reported present then vanished during idempotency check" stored
  rejectIf (object.bytes ≠ localManifest)
    s!"static release {manifest.releaseId} already installed with a DIFFERENT manifest at {key}: content-addressed ids make this impossible; treating as corruption"

/-- The manifest, last. -/
def uploadManifest (setup : BucketSetup) (t : Nat) (manifest : ReleaseManifest) :
    ExceptT String BucketM Unit := do
  let key := staticReleaseManifestKey manifest.releaseId
  let localManifest ← ExceptT.mk (Except.mapError
    (fun error => s!"failed to read local manifest {setup.pathOf t}/{releaseManifestFile}: {error}") <$>
    bucketCall (.readLocal releaseManifestFile))
  match ← (bucketUploadFile (setup.pathOf t) key releaseManifestFile : BucketM _) with
  | .ok () => pure ()
  | .error error =>
      if isCreateOnlyConflict error then checkStoredManifest manifest key localManifest
      else throw s!"failed to upload static release manifest {key}: {error.display}"

/-- `upload_release`. -/
def uploadRelease (setup : BucketSetup) (t : Nat) (manifest : ReleaseManifest) :
    ExceptT String BucketM Unit := do
  let outputFiles ← okOr s!"no static release file set for turbo_version {manifest.turboVersion}"
    (releaseOutputFiles manifest.turboVersion)
  uploadOutputs setup t manifest outputFiles
  uploadManifest setup t manifest

/-- The manifest of a directory that passes verification; the message otherwise. -/
def verifyLocal (setup : BucketSetup) (t : Nat) (expectModelId : Option String)
    (expectDim : Option UInt32) : Except String ReleaseManifest :=
  match verifyReleaseDir setup.sha setup.manifest (setup.pathOf t) (setup.dirOf t) expectModelId
    expectDim with
  | .ok manifest => .ok manifest
  | .error (.error error) => .error error.display
  | .error (.panic why) => .error why

theorem verifyLocal_eq_ok {setup : BucketSetup} {t : Nat} {expectModelId : Option String}
    {expectDim : Option UInt32} {manifest : ReleaseManifest} :
    verifyLocal setup t expectModelId expectDim = .ok manifest ↔
      verifyReleaseDir setup.sha setup.manifest (setup.pathOf t) (setup.dirOf t) expectModelId
        expectDim = .ok manifest := by
  unfold verifyLocal
  split
  · rename_i h
    rw [h]
    exact ⟨fun h => congrArg Except.ok (Except.ok.inj h), fun h => by cases h; rfl⟩
  · rename_i h
    rw [h]
    exact iff_of_false nofun nofun
  · rename_i h
    rw [h]
    exact iff_of_false nofun nofun

/-- The bucket's pointer. -/
def readBucketHead : BucketM (Except PublishError (Option StoredObject)) :=
  bucketCall (.get staticHeadKey)

def swapBucketHead (expectedEtag : Option String) (newValue : Bytes) :
    BucketM (Except PublishError Bool) :=
  bucketCall (.swapHead expectedEtag newValue)

/-- A run of `static_activate`, past its arguments and environment. -/
def staticActivate (setup : BucketSetup) (expectModelId : Option String) (expectDim : Option UInt32)
    (t : Nat) : ExceptT String BucketM StaticActivationResult := do
  let manifest ← verifyLocal setup t expectModelId expectDim
  uploadRelease setup t manifest
  let updatedAt ← (bucketCall .currentTimeMillis : BucketM Int)
  ExceptT.mk (Except.mapError StaticActivateError.display <$> (activateStaticPointer setup.head
    readBucketHead swapBucketHead manifest.releaseId updatedAt).run)

end LTSearch
