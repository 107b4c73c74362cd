/-
# LTSearch.Indexing.Publisher -- publish and rollback

`IndexPublisher::publish` and `rollback` as programs over the operations of a node, for both stores.
`publish` is cut where the source has a blank line: the checks that read the head, the checks of the
artifacts, the uploads, and the swap of the head.
-/
import LTSearch.Node.World

namespace LTSearch

open LTSearch.Foundation

structure PublishRequest where
  manifest : IndexManifest
  /-- `some v`: fail unless the active version is exactly `v`; `none`: publish on top of whatever is
  active -/
  expectedCurrentVersion : Option UInt64
  updatedAt : Int
  deriving DecidableEq

structure RollbackRequest where
  targetVersionId : UInt64
  expectedCurrentVersion : Option UInt64
  updatedAt : Int
  deriving DecidableEq

structure PublishResult where
  activatedVersionId : UInt64
  previousVersionId : Option UInt64
  deriving DecidableEq

/-- `{:?}` of an `Option<u64>`. -/
def debugVersion : Option UInt64 → String
  | some v => s!"Some({v})"
  | none => "None"

/-- `{}` of a path below an artifact root. -/
def Setup.displayPath (setup : Setup) (t : Nat) (key : String) : String :=
  setup.rootPath (setup.rootOf t) ++ "/" ++ key

/-- A failing operation of the file system, reported in the caller's words. -/
def wrapIo {α : Type} (context : String) (x : Except String α) : Except PublishError α :=
  x.mapError fun error => .operation s!"{context}: {error}"

/-! ## Keys -/

/-- `split('/')`. -/
def splitSlash : List Char → List (List Char)
  | [] => [[]]
  | c :: rest =>
      match splitSlash rest with
      | [] => [[c]]
      | part :: parts => if c = '/' then [] :: part :: parts else (c :: part) :: parts

/-- A component that `Path::components` does not report as `Normal` and does not drop either: `..`
anywhere, and `.` at the very start. -/
def abnormalComponent (key : List Char) : Bool :=
  (splitSlash key).any (· = ['.', '.']) || (splitSlash key).head? = some ['.']

/-- `validate_relative_storage_key`. -/
def validateRelativeStorageKey (key : String) : Except PublishError Unit :=
  rejectIf (key = "" ∨ key.toList.head? = some '/' ∨ abnormalComponent key.toList = true)
    (.validation (.invalidValue "artifact_key"))

/-- `s3_key`. -/
def s3Key (value : String) : Except PublishError String :=
  match (stripPrefix "s3://".toList value.toList).bind (splitOnce '/') with
  | some (_ :: _, k :: ks) => do
      validateRelativeStorageKey (String.ofList (k :: ks))
      return String.ofList (k :: ks)
  | _ => .error (.validation (.invalidValue "s3_path"))

/-! ## Checks -/

/-- `validate_publish_version`. -/
def validatePublishVersion (versionId : UInt64) : Except PublishError Unit :=
  rejectIf (versionId = 0) (.validation (.mustBePositive "version_id"))

/-- `validate_updated_at`. -/
def validateUpdatedAt (updatedAt : Int) : Except PublishError Unit :=
  rejectIf (updatedAt < minPlausibleEpochMillis) (.validation (.invalidValue "updated_at"))

/-- The version of a head object, when there is one. -/
def parseHeadObject (setup : Setup) (object : Option VersionedObject) :
    Except PublishError (Option ManifestHead) :=
  match object with
  | none => .ok none
  | some object => (parseHead setup.head object.bytes).map some

/-- The checks of `publish` against the head it has read. -/
def checkAgainstHead (request : PublishRequest) (currentHead : Option ManifestHead) :
    Except PublishError Unit := do
  validatePublishVersion request.manifest.versionId
  match request.expectedCurrentVersion with
  | some expected =>
      rejectIf (currentHead.map (·.versionId) ≠ some expected) (.operation
        ("publish conflict: expected current version "
          ++ debugVersion request.expectedCurrentVersion
          ++ ", found " ++ debugVersion (currentHead.map (·.versionId))))
  | none => pure ()
  match currentHead with
  | some head =>
      rejectIf (request.manifest.versionId ≤ head.versionId) (.operation
        ("publish conflict: version_id " ++ toString request.manifest.versionId
          ++ " must be greater than active version " ++ toString head.versionId))
  | none => pure ()

/-- `validate_manifest_file_matches_request`, on the bytes read. -/
def checkManifestBytes (setup : Setup) (path : String) (bytes : ByteArray)
    (expected : IndexManifest) : Except PublishError Unit := do
  let manifest ← wrapIo ("failed to parse manifest source " ++ path) (setup.manifest.fromSlice bytes)
  rejectIf (manifest ≠ expected) (.operation
    ("manifest source " ++ path ++ " does not match publish request manifest"))

/-- `validate_stored_manifest`. -/
def validateStoredManifest (setup : Setup) (key : String) (bytes : ByteArray)
    (expectedVersionId : UInt64) : Except PublishError Unit := do
  let manifest ← wrapIo ("failed to parse stored manifest " ++ key) (setup.manifest.fromSlice bytes)
  manifest.validate.mapError PublishError.validation
  rejectIf (manifest.versionId ≠ expectedVersionId) (.operation
    ("stored manifest " ++ key ++ " does not match rollback target version "
      ++ toString expectedVersionId))

/-! ## Uploads -/

/-- One operation, as a program that may fail. -/
abbrev call (op : Op) : NodeM op.Ans := Prog.ask (S := nodeSignature) op

variable (setup : Setup) (t : Nat)

/-- `AwsPublishStorage::upload_file`, `CreateOnly`, of a file already read. -/
def awsPut (upload : Upload) (key : String) (content : Content) :
    ExceptT PublishError NodeM Unit := do
  match ← call (.putObject upload key content) with
  | .stored => pure ()
  | .preconditionFailed => throw (.operation
      ("refusing to overwrite existing version artifact " ++ key
        ++ ": version artifacts are immutable"))
  | .failed error => throw (.operation ("failed to upload " ++ key ++ ": " ++ error))

/-- The files of a tree, put one after the other below `key`. -/
def awsPutTree (key : String) (segments : List String) :
    List (String × ByteArray) → ExceptT PublishError NodeM Unit
  | [] => pure ()
  | (name, bytes) :: rest => do
      awsPut .directory (childKey key name) { bytes, segments }
      awsPutTree key segments rest

/-- The files of a tree, copied one after the other below `key`. -/
def copyTree (key : String) (segments : List String) :
    List (String × ByteArray) → ExceptT String NodeM Unit
  | [] => pure ()
  | (name, bytes) :: rest => do
      ExceptT.mk (call (.copyFile (childKey key name) { bytes, segments }))
      copyTree key segments rest

/-- `LocalFsPublishStorage::upload_directory` on a destination that does not exist: `copy_tree`. -/
def localCopyTree (key : String) : ExceptT String NodeM Unit := do
  let (tree, segments) ← ExceptT.mk (call (.readTree key))
  ExceptT.mk (call (.makeDirectory key))
  copyTree key segments tree.files

/-- A program whose error is the whole message. -/
def reportM {α : Type} (x : ExceptT String NodeM α) : ExceptT PublishError NodeM α :=
  ExceptT.mk (Except.mapError PublishError.operation <$> x.run)

/-- A program whose error text is put into the caller's words. -/
def wrapIoM {α : Type} (context : String) (x : ExceptT String NodeM α) :
    ExceptT PublishError NodeM α :=
  ExceptT.mk (wrapIo context <$> x.run)

/-- `upload_directory(.., CreateOnly)`.  The pointer keys are refused by the local store. -/
def uploadDirectory (key : String) : ExceptT PublishError NodeM Unit :=
  match setup.backend with
  | .aws => do
      let (tree, segments) ← reportM (ExceptT.mk (call (.readTree key)))
      awsPutTree key segments tree.files
  | .sqliteFs => do
      rejectHeadKey "upload_directory"
      if ← call (.storedExists key) then
        throw (.operation ("directory " ++ key ++ " already exists"))
      wrapIoM ("failed to upload dir " ++ key) (localCopyTree key)
where
  /-- `reject_head_key`. -/
  rejectHeadKey (operation : String) : Except PublishError Unit :=
    rejectIf (key = indexHeadKey ∨ key = staticHeadKey) (.operation
      ("filesystem " ++ operation ++ " of " ++ key ++ " is retired: the pointer lives in SQLite; "
        ++ "route through sqlite::LocalPublishStorage"))

/-- `upload_file(.., CreateOnly)` of the manifest. -/
def uploadFile (key : String) : ExceptT PublishError NodeM Unit :=
  match setup.backend with
  | .aws => do
      let content ← wrapIoM ("failed to read " ++ setup.displayPath t key)
        (ExceptT.mk (call (.readFile key)))
      awsPut .manifest key content
  | .sqliteFs => do
      uploadDirectory.rejectHeadKey key "upload_file"
      if ← call (.storedExists key) then
        throw (.operation ("file " ++ key ++ " already exists"))
      wrapIoM ("failed to upload file " ++ key) do
        let content ← ExceptT.mk (call (.readFile key))
        ExceptT.mk (call (.copyFile key content))

/-! ## Publish -/

/-- The keys of the two directories of a shard, both checked. -/
def prepareShard (shard : ShardManifest) : ExceptT PublishError NodeM (List String) := do
  let lanceKey ← s3Key shard.lancePath
  let tantivyKey ← s3Key shard.tantivyPath
  ExceptT.mk (call (.sourcePath lanceKey))
  ExceptT.mk (call (.sourcePath tantivyKey))
  ExceptT.mk (call (.inspectTree lanceKey))
  ExceptT.mk (call (.inspectTree tantivyKey))
  return [lanceKey, tantivyKey]

/-- The directory uploads of a request, prepared. -/
def prepareShards : List ShardManifest → ExceptT PublishError NodeM (List String)
  | [] => return []
  | shard :: rest => do
      let keys ← prepareShard shard
      let others ← prepareShards rest
      return keys ++ others

/-- The directories, one after the other. -/
def uploadDirectories : List String → ExceptT PublishError NodeM Unit
  | [] => pure ()
  | key :: rest => do
      uploadDirectory setup key
      uploadDirectories rest

/-- The head and its object, read and checked. -/
def openPublish (request : PublishRequest) :
    ExceptT PublishError NodeM (Option VersionedObject × Option ManifestHead) := do
  request.manifest.validate.mapError PublishError.validation
  validateUpdatedAt request.updatedAt
  let currentHeadObject ← ExceptT.mk (call (.readHead .publisher))
  let currentHead ← parseHeadObject setup currentHeadObject
  checkAgainstHead request currentHead
  return (currentHeadObject, currentHead)

/-- The artifacts, checked; the answer is what to upload. -/
def openArtifacts (manifest : IndexManifest) : ExceptT PublishError NodeM (List String) := do
  let manifestKey := versionManifestKey manifest.versionId
  validateRelativeStorageKey manifestKey
  ExceptT.mk (call (.sourcePath manifestKey))
  let content ← wrapIoM ("failed to read manifest source " ++ setup.displayPath t manifestKey)
    (ExceptT.mk (call (.readFile manifestKey)))
  checkManifestBytes setup (setup.displayPath t manifestKey) content.bytes manifest
  prepareShards manifest.shards

/-- `observed_head_version`. -/
def observedHeadVersion : ExceptT PublishError NodeM (Option UInt64) := do
  let object ← ExceptT.mk (call (.readHead .publisher))
  let head ← parseHeadObject setup object
  return head.map (·.versionId)

/-- The swap of the head, for `publish` and for `rollback` (`what`). -/
def activate (what : String) (versionId : UInt64) (updatedAt : Int)
    (expectedCurrentVersion : Option UInt64) (currentHeadObject : Option VersionedObject)
    (currentHead : Option ManifestHead) : ExceptT PublishError NodeM PublishResult := do
  let newHead := ManifestHead.new versionId updatedAt
  let swapped ← ExceptT.mk (call (.swapHead currentHeadObject (setup.head.toVec newHead)))
  if swapped then
    return { activatedVersionId := versionId, previousVersionId := currentHead.map (·.versionId) }
  else
    let observed ← observedHeadVersion setup
    throw (.operation (what ++ " conflict: active version changed during _head update (expected "
      ++ debugVersion expectedCurrentVersion ++ ", observed " ++ debugVersion observed ++ ")"))

/-- `IndexPublisher::publish`. -/
def publish (request : PublishRequest) : ExceptT PublishError NodeM PublishResult := do
  let (currentHeadObject, currentHead) ← openPublish setup request
  let directories ← openArtifacts setup t request.manifest
  uploadDirectories setup directories
  uploadFile setup t (versionManifestKey request.manifest.versionId)
  activate setup "publish" request.manifest.versionId request.updatedAt
    request.expectedCurrentVersion currentHeadObject currentHead

/-- `IndexPublisher::rollback`. -/
def rollback (request : RollbackRequest) : ExceptT PublishError NodeM PublishResult := do
  validatePublishVersion request.targetVersionId
  validateUpdatedAt request.updatedAt
  let currentHeadObject ← ExceptT.mk (call (.readHead .publisher))
  let currentHead ← parseHeadObject setup currentHeadObject
  rejectIf (currentHead.map (·.versionId) ≠ request.expectedCurrentVersion)
    (PublishError.operation
      ("rollback conflict: expected current version " ++ debugVersion request.expectedCurrentVersion
        ++ ", found " ++ debugVersion (currentHead.map (·.versionId))))
  let targetManifestKey := versionManifestKey request.targetVersionId
  match ← ExceptT.mk (call (.readObject targetManifestKey)) with
  | none => throw (.operation ("rollback target manifest missing: " ++ targetManifestKey))
  | some object =>
      validateStoredManifest setup targetManifestKey object.bytes request.targetVersionId
  activate setup "rollback" request.targetVersionId request.updatedAt
    request.expectedCurrentVersion currentHeadObject currentHead

end LTSearch
