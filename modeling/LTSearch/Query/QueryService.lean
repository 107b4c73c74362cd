/-
# LTSearch.Query.QueryService -- the handler cache

A call loads the pair of the active index version and the active static release, and takes the cached
handler if it was made for that very pair; otherwise it bootstraps one with the cache locked.  The two
pointers may be moved by others at any time, so what is read at a step is decided outside.  A call
that finds the version moved on during its bootstrap starts once more from the beginning.
-/
import LTSearch.Index.MmapIndex
import LTSearch.Query.Router
import LTSearch.Storage.StaticHead

namespace LTSearch

open LTSearch.Foundation

structure QueryLambdaError where
  errorType : String
  message : String
  deriving DecidableEq, Repr

/-- `ACTIVE_VERSION_CHANGED_DURING_BOOTSTRAP`. -/
def activeVersionChangedDuringBootstrap : String :=
  "active manifest version changed during bootstrap"

/-- `bootstrap_error`. -/
def bootstrapError (message : String) : QueryLambdaError where
  errorType := "execution_error"
  message := s!"query lambda bootstrap failed: {message}"

/-- `is_retriable_bootstrap_version_change`. -/
def isRetriableBootstrapVersionChange (error : QueryLambdaError) : Bool :=
  error.errorType = "execution_error" ∧
    activeVersionChangedDuringBootstrap.toList <:+: error.message.toList

namespace QueryService

/-- `(dynamic_version, static_release_id)`. -/
abbrev QueryCacheKey := UInt64 × Option String

structure FixedManifestStore where
  activeManifest : ActiveManifest

/-- `KeywordSearcher` and `VectorSearcher`: a manifest store and the artifact root. -/
structure Searcher where
  manifestStore : FixedManifestStore
  artifactRoot : String

/-- What answers for the static release. -/
inductive StaticSide where
  | noop
  | turbo (index : MmapIndex)

variable (G : Type)

/-- What a request is answered by. -/
abbrev Handler := QueryRouter FixedManifestStore G Searcher Searcher StaticSide

structure CachedQueryHandler where
  key : QueryCacheKey
  handler : Handler G

/-! ## The operations -/

inductive ServiceOp where
  /-- `manifest_store_for` or `static_release_store_for` -/
  | openStore
  /-- `load_active_version` -/
  | loadActiveVersion
  /-- `load_active_release` -/
  | loadActiveRelease
  /-- `load_head` -/
  | loadHead
  /-- the manifest file of a head, parsed -/
  | readManifest (head : ManifestHead)
  | buildGenerator
  | generate (generator : G)
  /-- `MmapIndex::load` of a directory -/
  | loadIndex (dir : String)
  /-- `SharedQueryRequestHandler::new` of a handler that was made for a key -/
  | share (key : QueryCacheKey) (handler : Handler G)
  /-- `lock`, which shows the cached entry -/
  | lock
  | store (entry : CachedQueryHandler G)
  /-- the guard is dropped -/
  | unlock

abbrev ServiceOp.Ans {G : Type} : ServiceOp G → Type
  | .openStore => Except String Unit
  | .loadActiveVersion => Except ManifestStoreError UInt64
  | .loadActiveRelease => Except String (Option StaticReleaseHead)
  | .loadHead => Except ManifestStoreError ManifestHead
  | .readManifest _ => Except ManifestStoreError IndexManifest
  | .buildGenerator => Except String G
  | .generate _ => Except String (List F32)
  | .loadIndex _ => Except String MmapIndex
  | .share _ _ => Unit
  | .lock => Option (CachedQueryHandler G)
  | .store _ => Unit
  | .unlock => Unit

abbrev signature : Signature where
  Op := ServiceOp G
  Ans := ServiceOp.Ans

/-- What one call has seen so far. -/
structure CallRecord where
  version : Option UInt64
  release : Option (Option String)
  /-- the entry it found when it last locked the cache -/
  found : Option (CachedQueryHandler G)
  /-- it has made a handler since then -/
  bootstrapped : Bool

/-- The cache with its lock, and a record of what has happened. -/
structure World where
  cache : Option (CachedQueryHandler G)
  lockedBy : Option Nat
  calls : Nat → CallRecord G
  /-- the indexes that were loaded, each with its directory -/
  loaded : List (String × MmapIndex)
  /-- the handlers that were made, each with its key -/
  made : List (QueryCacheKey × Handler G)

/-- Before any call. -/
def World.new : World G where
  cache := none
  lockedBy := none
  calls _ := { version := none, release := none, found := none, bootstrapped := false }
  loaded := []
  made := []

variable {G}

/-- The record of one call is updated. -/
def World.note (w : World G) (t : Nat) (f : CallRecord G → CallRecord G) : World G :=
  { w with calls := Function.update w.calls t (f (w.calls t)) }

@[simp]
theorem World.note_self (w : World G) (t : Nat) (f : CallRecord G → CallRecord G) :
    (w.note t f).calls t = f (w.calls t) := Function.update_self _ _ _

theorem World.note_of_ne (w : World G) {t t' : Nat} (h : t' ≠ t) (f : CallRecord G → CallRecord G) :
    (w.note t f).calls t' = w.calls t' := Function.update_of_ne h _ _

/-- What each operation does; what it reads outside the cache is answered from outside. -/
def perform (t : Nat) (op : ServiceOp G) (answers : (op : ServiceOp G) → op.Ans) (w : World G) :
    op.Ans × World G :=
  match op with
  | .openStore => (answers .openStore, w)
  | .loadActiveVersion => (answers .loadActiveVersion,
      w.note t fun call => { call with version := (answers .loadActiveVersion).toOption })
  | .loadActiveRelease => (answers .loadActiveRelease, w.note t fun call =>
      { call with release := (answers .loadActiveRelease).toOption.map (Option.map (·.releaseId)) })
  | .loadHead => (answers .loadHead, w)
  | .readManifest head => (answers (.readManifest head), w)
  | .buildGenerator => (answers .buildGenerator, w)
  | .generate generator => (answers (.generate generator), w)
  | .loadIndex dir => (answers (.loadIndex dir),
      match answers (.loadIndex dir) with
      | .ok index => { w with loaded := (dir, index) :: w.loaded }
      | .error _ => w)
  | .share key handler => ((),
      { w with made := (key, handler) :: w.made }.note t fun call => { call with bootstrapped := true })
  | .lock => (w.cache, { w with lockedBy := some t }.note t fun call =>
      { call with found := w.cache, bootstrapped := false })
  | .store entry => ((), { w with cache := some entry })
  | .unlock => ((), { w with lockedBy := none })

def machine (G : Type) :
    Machine (signature G) (World G) ((op : ServiceOp G) → op.Ans) Nat where
  apply := perform

/-- The cache can be locked when nobody holds it. -/
def ready (_ : Nat) (op : ServiceOp G) (w : World G) : Bool :=
  match op with
  | .lock => w.lockedBy.isNone
  | _ => true

/-! ## The programs -/

abbrev ServiceM (G : Type) := Prog (signature G)

abbrev call (op : ServiceOp G) : ServiceM G op.Ans := Prog.ask (S := signature G) op

/-- What the environment variables say. -/
structure Env where
  /-- `LTSEARCH_QUERY_ARTIFACT_ROOT` -/
  artifactRoot : Option String
  /-- `required_provider_from_env` -/
  provider : Except String Unit
  /-- the name of the generator's variable, and the words for its dimension -/
  dimMismatchName : String
  dimMismatchMessage : String

variable (env : Env)

/-- `query_artifact_root_from_env`. -/
def queryArtifactRootFromEnv : Except QueryLambdaError String :=
  TurboQuantConfig.okOr (bootstrapError "missing LTSEARCH_QUERY_ARTIFACT_ROOT") env.artifactRoot

/-- An operation whose error is put into other words. -/
def callMapped {ε α : Type} (x : ServiceM G (Except ε α)) (f : ε → QueryLambdaError) :
    ExceptT QueryLambdaError (ServiceM G) α :=
  ExceptT.mk (Except.mapError f <$> x)

/-- `load_active_query_version_from_env`. -/
def loadActiveQueryVersionFromEnv : ExceptT QueryLambdaError (ServiceM G) UInt64 := do
  let _artifactRoot ← queryArtifactRootFromEnv env
  callMapped (call .openStore) bootstrapError
  callMapped (call .loadActiveVersion) fun source =>
    bootstrapError s!"failed to load active version: {source.display}"

/-- `resolve_active_static_release_id`. -/
def resolveActiveStaticReleaseId : ExceptT QueryLambdaError (ServiceM G) (Option String) := do
  callMapped (call .openStore) bootstrapError
  let head ← callMapped (call .loadActiveRelease) fun source =>
    bootstrapError s!"failed to load active static release: {source}"
  return head.map (·.releaseId)

/-- `load_active_query_key_from_env`. -/
def loadActiveQueryKeyFromEnv : ExceptT QueryLambdaError (ServiceM G) QueryCacheKey := do
  let version ← loadActiveQueryVersionFromEnv env
  let _artifactRoot ← queryArtifactRootFromEnv env
  let releaseId ← resolveActiveStaticReleaseId
  return (version, releaseId)

/-- `load_active_manifest` of a store. -/
def loadActiveManifest (artifactRoot : String) :
    ExceptT ManifestStoreError (ServiceM G) ActiveManifest := do
  let head ← ExceptT.mk (call .loadHead)
  let manifest ← ExceptT.mk (call (.readManifest head))
  let path := s!"{artifactRoot}/{head.manifestPath}"
  manifest.validate.mapError fun source => ManifestStoreError.invalidManifest path source.display
  rejectIf (manifest.versionId ≠ head.versionId)
    (ManifestStoreError.invalidManifest path "manifest version_id must match _head version_id")
  return { head, manifest }

/-- `try_load_static_searcher`. -/
def tryLoadStaticSearcher (artifactRoot : String) :
    Option String → ExceptT QueryLambdaError (ServiceM G) StaticSide
  | none => return .noop
  | some releaseId => do
      let index ← callMapped (call (.loadIndex (staticReleaseDirKey releaseId))) fun error =>
        bootstrapError s!"failed to load TurboQuant static index from {artifactRoot}/{staticReleaseDirKey releaseId}: {error}"
      return .turbo index

/-- The version that was expected is still the active one. -/
def checkVersion (expectedVersion : UInt64) (activeManifest : ActiveManifest) :
    Except QueryLambdaError Unit :=
  rejectIf (activeManifest.head.versionId ≠ expectedVersion) (bootstrapError
    s!"{activeVersionChangedDuringBootstrap}: expected {expectedVersion}, got {activeManifest.head.versionId}")

/-- The generator makes embeddings of the manifest's dimension. -/
def checkDim (activeManifest : ActiveManifest) (embedding : List F32) : Except QueryLambdaError Unit :=
  rejectIf (embedding.length ≠ activeManifest.manifest.embeddingDim) (bootstrapError
    s!"{env.dimMismatchName} {env.dimMismatchMessage} {embedding.length} does not match manifest embedding_dim {activeManifest.manifest.embeddingDim}")

/-- `bootstrap_query_embedding_handler`, with an expected version. -/
def bootstrapQueryEmbeddingHandler (expectedVersion : UInt64) (staticReleaseId : Option String) :
    ExceptT QueryLambdaError (ServiceM G) (Handler G) := do
  let artifactRoot ← queryArtifactRootFromEnv env
  callMapped (call .openStore) bootstrapError
  let activeManifest ← callMapped (loadActiveManifest artifactRoot).run fun source =>
    bootstrapError s!"failed to load active manifest: {source.display}"
  checkVersion expectedVersion activeManifest
  let generator ← callMapped (call .buildGenerator) bootstrapError
  let embedding ← callMapped (call (.generate generator)) bootstrapError
  checkDim env activeManifest embedding
  let manifestStore : FixedManifestStore := { activeManifest }
  let static ← tryLoadStaticSearcher artifactRoot staticReleaseId
  return {
    manifestStore
    embeddingGenerator := generator
    keywordRetriever := { manifestStore, artifactRoot }
    vectorRetriever := { manifestStore, artifactRoot }
    staticRetriever := static
    staticReleaseId }

/-- `bootstrap_query_handler_for_key_from_env`, and the handler is shared. -/
def bootstrapForKey (key : QueryCacheKey) : ExceptT QueryLambdaError (ServiceM G) (Handler G) := do
  env.provider.mapError bootstrapError
  let handler ← bootstrapQueryEmbeddingHandler env key.1 key.2
  (call (.share key handler) : ServiceM G Unit)
  return handler

/-- `resolve_versioned_handler`, once the cache is locked. -/
def resolveLocked (key : QueryCacheKey) (state : Option (CachedQueryHandler G)) :
    ServiceM G (Except QueryLambdaError (Handler G)) := do
  match state.filter fun cached => cached.key = key with
  | some cached =>
      call .unlock
      return .ok cached.handler
  | none =>
      match ← (bootstrapForKey env key).run with
      | .error error =>
          call .unlock
          return .error error
      | .ok handler =>
          call (.store { key, handler })
          call .unlock
          return .ok handler

/-- `resolve_versioned_handler`. -/
def resolveVersionedHandler : ExceptT QueryLambdaError (ServiceM G) (Handler G) := do
  let key ← loadActiveQueryKeyFromEnv env
  let state ← (call .lock : ServiceM G (Option (CachedQueryHandler G)))
  ExceptT.mk (resolveLocked env key state)

/-- `resolve_handler`: `resolve_versioned_handler_with_retry`. -/
def resolveHandler : ExceptT QueryLambdaError (ServiceM G) (Handler G) := ExceptT.mk do
  match ← (resolveVersionedHandler env).run with
  | .ok handler => return .ok handler
  | .error error =>
      if isRetriableBootstrapVersionChange error then (resolveVersionedHandler env).run
      else return .error error

end QueryService

end LTSearch
