/-
# LTSearch.Indexing.BuildWorker -- from a queued batch to a published version

The build worker: it receives jobs, and for each of them lists the WAL segments, allocates the version
after the head, builds that version from the segments and publishes it; a job is acked after a success
and nacked after an error.  `run_build` is shared with `POST /build`; the builder moves what it has
staged into the artifact root, from where the publisher uploads it.
-/
import LTSearch.Indexing.Publisher
import LTSearch.Storage.StagedPublish

namespace LTSearch

open LTSearch.Foundation

/-- The two fields of a `QueueBatch` that the worker reads. -/
structure QueueBuildMessage where
  batchId : String
  walKey : String
  deriving DecidableEq, Repr

structure SnapshotBuildRequest where
  batchId : String
  /-- all segments that the build replays -/
  walKeys : List String
  versionId : UInt64
  embeddingDim : Nat

structure BuildIndexResult where
  manifest : IndexManifest
  documents : List Document

structure BuildResponse where
  activatedVersionId : UInt64
  previousVersionId : Option UInt64
  documentCount : Nat

structure BuildLambdaError where
  errorType : String
  message : String
  deriving DecidableEq, Repr

/-- `From<IndexError>`. -/
def BuildLambdaError.ofIndex (error : IndexError) : BuildLambdaError where
  errorType := "build_error"
  message := error.display

/-- `From<PublishError>`. -/
def BuildLambdaError.ofPublish (error : PublishError) : BuildLambdaError where
  errorType := "publish_error"
  message := error.display

/-- `is_publish_cas_conflict`. -/
def isPublishCasConflict (error : BuildLambdaError) : Bool :=
  error.errorType = "publish_error" && containsText error.message "publish conflict"

/-- `snapshot_wal_keys`. -/
def snapshotWalKeys (listed : List String) (messageWalKey : String) : List String :=
  let keys := if messageWalKey ∈ listed then listed else listed ++ [messageWalKey]
  (keys.insertionSort (· ≤ ·)).destutter (· ≠ ·)

/-- What the worker has from outside: `serde_json::from_str` at `QueueBuildMessage`, and what the
environment says the dimension is. -/
structure WorkerEnv where
  parse : String → Except String QueueBuildMessage
  embeddingDim : Except String Nat

section Programs

variable (setup : Setup) (t : Nat)

/-! ## The builder -/

/-- `remove_path_if_exists` of what was moved so far, each whatever became of the others. -/
def removeMoved : List String → NodeM (List (Except IndexError Unit))
  | [] => return []
  | key :: rest => do
      let result ← call (.removePath key)
      let results ← removeMoved rest
      return result :: results

/-- What follows a failed move. -/
def rollBackBuild (moved : List String) (error : IndexError) : NodeM (Except IndexError Unit) := do
  let cleanups ← removeMoved moved
  let last ← call .removeStaging
  return .error (StagedDir.appendCleanupFailure error
    (StagedDir.combineCleanupResults (cleanups ++ [last])))

/-- `StagedDir::commit`. -/
def commitBuild (segments : List String) : List String → List (String × Artifact) →
    NodeM (Except IndexError Unit)
  | _, [] => call .removeStaging
  | moved, (key, artifact) :: rest => do
      match ← call (.moveIntoPlace key artifact segments) with
      | .error error => rollBackBuild moved error
      | .ok _ => commitBuild segments (moved ++ [key]) rest

/-- `parent()` of the path of a key. -/
def parentKey (key : String) : String :=
  String.ofList ((key.toList.reverse.dropWhile (· ≠ '/')).tail.reverse)

/-- `ensure_target_is_publishable`. -/
def ensureTargetIsPublishable (key : String) : ExceptT IndexError NodeM Unit := do
  let probe ← call (.probeTarget key)
  if probe.pathExists then
    throw (.operation ("publish target already exists: " ++ setup.displayPath t key))
  if probe.parentIsFile then
    throw (.operation
      ("publish target parent is not a directory: " ++ setup.displayPath t (parentKey key)))

/-- `write_staged_build`; the answer is what the two index writers wrote. -/
def writeStagedBuild (versionId : UInt64) (documents : List Document) (manifest : IndexManifest) :
    ExceptT IndexError NodeM (Tree × Tree) := do
  ensureTargetIsPublishable setup t (lanceShardKey versionId)
  ensureTargetIsPublishable setup t (tantivyShardKey versionId)
  ensureTargetIsPublishable setup t (versionManifestKey versionId)
  let trees ← ExceptT.mk (call (.writeIndexes documents manifest.embeddingDim))
  ExceptT.mk (call (.writeManifest manifest))
  return trees

/-- The staging directory goes when it could not be filled. -/
def cleanUpStaging : Except IndexError (Tree × Tree) → NodeM (Except IndexError (Tree × Tree))
  | .ok trees => return .ok trees
  | .error error => do
      let cleanup ← call .removeStaging
      return .error (StagedDir.appendCleanupFailure error cleanup)

/-- `stage_build`. -/
def stageBuild (versionId : UInt64) (documents : List Document) (manifest : IndexManifest) :
    ExceptT IndexError NodeM (Tree × Tree) := do
  ExceptT.mk (call .createStaging)
  ExceptT.mk ((writeStagedBuild setup t versionId documents manifest).run >>= cleanUpStaging)

/-- `publish_staged_build`. -/
def publishStagedBuild (versionId : UInt64) (manifest : IndexManifest) (segments : List String)
    (trees : Tree × Tree) : NodeM (Except IndexError Unit) :=
  commitBuild segments [] [(lanceShardKey versionId, .directory trees.1),
    (tantivyShardKey versionId, .directory trees.2),
    (versionManifestKey versionId, .file (setup.manifest.toVec manifest))]

/-- `LocalIndexBuilder::build`; `segments` is a ghost. -/
def buildIndex (generator : EmbeddingGenerator) (request : BuildIndexRequest) (segments : List String) :
    ExceptT IndexError NodeM BuildIndexResult := do
  let (documents, manifest) ← prepareBuild setup.hash generator request
  let trees ← stageBuild setup t request.versionId documents manifest
  ExceptT.mk (publishStagedBuild setup request.versionId manifest segments trees)
  return { manifest, documents }

/-! ## One build -/

/-- The records of the segments, one segment after the other. -/
def readWalRecords : List String → ExceptT IndexError NodeM (List WalRecord)
  | [] => return []
  | walKey :: rest => do
      let segment ← ExceptT.mk ((Except.mapError fun error : IngestError => IndexError.operation
        ("failed to read WAL records from " ++ walKey ++ ": " ++ error.display)) <$> call (.readWal walKey))
      let records ← readWalRecords rest
      return segment ++ records

/-- `local_build_closure`. -/
def localBuild (request : SnapshotBuildRequest) : ExceptT IndexError NodeM BuildIndexResult := do
  let records ← readWalRecords request.walKeys
  let generator ← ExceptT.mk (Except.mapError IndexError.operation <$> call .embeddingGenerator)
  let createdAt ← call .currentTimeMillis
  buildIndex setup t generator
    { versionId := request.versionId, createdAt, embeddingDim := request.embeddingDim, records }
    request.walKeys

/-- `local_publish_closure`. -/
def localPublish (manifest : IndexManifest) (expected : Option UInt64) :
    ExceptT PublishError NodeM PublishResult := do
  let updatedAt ← call .currentTimeMillis
  publish setup t { manifest, expectedCurrentVersion := expected, updatedAt }

/-- `handle_build_request`, with the two closures of `run_build`. -/
def runBuild (request : SnapshotBuildRequest) (expectedCurrentVersion : Option UInt64) :
    ExceptT BuildLambdaError NodeM BuildResponse := do
  let built ← ExceptT.mk (Except.mapError BuildLambdaError.ofIndex <$> (localBuild setup t request).run)
  let published ← ExceptT.mk (Except.mapError BuildLambdaError.ofPublish <$>
    (localPublish setup t built.manifest expectedCurrentVersion).run)
  return {
    activatedVersionId := published.activatedVersionId
    previousVersionId := published.previousVersionId
    documentCount := vecLen built.documents }

/-! ## The worker -/

/-- `next_version_id`.  `u64` addition wraps in a release build. -/
def nextVersionId (walKeys : List String) : ExceptT String NodeM (UInt64 × Option UInt64) := do
  let headObject ← ExceptT.mk ((Except.mapError fun error : PublishError =>
    "failed to read index head: " ++ error.display) <$> call (.readHead (.allocator walKeys)))
  match headObject with
  | none => return (1, none)
  | some object => do
      let head ← (ManifestHead.fromJson setup.head object.bytes).mapError fun error =>
        "failed to parse index head: " ++ error.display
      return (head.versionId + 1, some head.versionId)

/-- `build_request`. -/
def buildRequest (message : QueueBuildMessage) (walKeys : List String) (versionId : UInt64)
    (embeddingDim : Nat) : SnapshotBuildRequest where
  batchId := message.batchId
  walKeys := walKeys
  versionId := versionId
  embeddingDim := embeddingDim

/-- One attempt: a version is allocated on the head, built and published. -/
def attempt (message : QueueBuildMessage) (walKeys : List String) (embeddingDim : Nat) :
    ExceptT String NodeM (Except BuildLambdaError BuildResponse) := do
  let (versionId, expected) ← nextVersionId setup walKeys
  (runBuild setup t (buildRequest message walKeys versionId embeddingDim) expected).run

/-- `{error_type}: {message}`. -/
def BuildLambdaError.report (error : BuildLambdaError) : String :=
  error.errorType ++ ": " ++ error.message

variable (env : WorkerEnv)

/-- `process_queue_message`. -/
def processQueueMessage (body : String) : ExceptT String NodeM UInt64 := do
  let message ← (env.parse body).mapError fun error => "failed to parse queue message: " ++ error
  let embeddingDim ← env.embeddingDim
  let listed ← ExceptT.mk ((Except.mapError fun error : String =>
    "failed to list WAL segments: " ++ error) <$> call .listWalKeys)
  let walKeys := snapshotWalKeys listed message.walKey
  match ← attempt setup t message walKeys embeddingDim with
  | .ok response => return response.activatedVersionId
  | .error error =>
      if isPublishCasConflict error then
        match ← attempt setup t message walKeys embeddingDim with
        | .ok response => return response.activatedVersionId
        | .error error => throw error.report
      else
        throw error.report

/-- The signal for a job whose processing ended like this: an ack, or a nack with the error. -/
def signal (job : BuildJob) : Except String UInt64 → NodeM (Except String Unit)
  | .ok _ => call (.ack job.receipt)
  | .error error => call (.nack job.receipt error)

/-- The jobs of one `receive`, one after the other; the answer is how many were signalled. -/
def settleJobs : List BuildJob → NodeM Nat
  | [] => return 0
  | job :: rest => do
      let outcome ← (processQueueMessage setup t env job.body).run
      let signalled ← signal job outcome
      let settled ← settleJobs rest
      return (if signalled.isOk then 1 else 0) + settled

/-- `run_build_job_loop_once`. -/
def runBuildJobLoopOnce : NodeM Nat := do
  match ← call .receive with
  | .error _ => return 0
  | .ok jobs => settleJobs setup t env jobs

/-- `run_build_job_loop`, which never ends: so many rounds of it. -/
def runBuildJobLoop : Nat → NodeM Unit
  | 0 => return ()
  | rounds + 1 => do
      let _ ← runBuildJobLoopOnce setup t env
      runBuildJobLoop rounds

/-! ## The writer -/

/-- `WriteApi::ingest` and `WriteApi::delete` over the local queue. -/
def acceptWrite (request : WriteRequest) : ExceptT IngestError NodeM IngestResponse := do
  let clock ← call .currentTimeMillis
  let uuid ← call .newUuid
  let w ← prepareWrite clock uuid request
  let bytes ← serializeRecords setup.wal w.records
  ExceptT.mk (call (.appendAndEnqueue w.walKey bytes w.batch))
  return w.response

end Programs

/-! ## The keys of a snapshot -/

theorem mem_destutter'_ne {a : String} {keys : List String} {k : String} :
    k ∈ keys.destutter' (· ≠ ·) a ↔ k = a ∨ k ∈ keys := by
  induction keys generalizing a with
  | nil => simp
  | cons b rest ih =>
      by_cases hab : a = b
      · subst hab
        rw [List.destutter'_cons_neg _ (not_not.mpr rfl), ih]
        simp
      · rw [List.destutter'_cons_pos _ hab, List.mem_cons, ih, List.mem_cons]

/-- Sorting and dropping repetitions loses no key. -/
theorem mem_snapshotWalKeys {listed : List String} {key k : String} :
    k ∈ snapshotWalKeys listed key ↔ k ∈ listed ∨ k = key := by
  have hdrop : ∀ keys : List String, k ∈ keys.destutter (· ≠ ·) ↔ k ∈ keys := by
    intro keys
    cases keys with
    | nil => rfl
    | cons a rest => rw [List.destutter_cons', mem_destutter'_ne, List.mem_cons]
  unfold snapshotWalKeys
  simp only
  rw [hdrop, (List.perm_insertionSort _ _).mem_iff]
  split
  · rename_i hmem
    constructor
    · exact Or.inl
    · rintro (hk | rfl)
      · exact hk
      · exact hmem
  · simp

end LTSearch
