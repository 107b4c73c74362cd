/-
# LTSearch.Node.World -- the shared world of a deployment, and its atomic operations

Everything that builders, publishers, workers and writers share: the published store with the head
(an S3 bucket, or files with the head in SQLite), the artifact roots that builders move finished
versions into, and the database with the WAL and the queue.  Every call of the code that reads or
writes one of these is one operation; between two operations anyone else may move, and a process
may stop for good.

Fields that the code does not have are ghosts, for statements only: who wrote an object, which WAL
segments the build replayed that a file comes from, and the `History` of the run.  No operation
answers differently because of a ghost.
-/
import LTSearch.Foundation.Interleaving
import LTSearch.Indexing.Builder
import LTSearch.Sqlite.Head
import LTSearch.Sqlite.Ledger
import LTSearch.Storage.Head

namespace LTSearch

open LTSearch.Foundation

/-! ## Data -/

/-- The two stores that implement `PublishStorage`: `AwsPublishStorage` and `LocalPublishStorage`. -/
inductive Backend where
  | aws
  | sqliteFs
  deriving DecidableEq

/-- A directory: the files below it, by relative path, in the order a walk finds them. -/
structure Tree where
  files : List (String × ByteArray)
  nodup : (files.map Prod.fst).Nodup

def Tree.empty : Tree := ⟨[], List.nodup_nil⟩

/-- What stands at a path of an artifact root. -/
inductive Artifact where
  | file (bytes : ByteArray)
  | directory (tree : Tree)

/-- The bytes of a file; `segments` is a ghost: what the build replayed that wrote it. -/
structure Content where
  bytes : ByteArray
  segments : List String
  deriving DecidableEq

/-- A stored object; `writer` is a ghost. -/
structure Cell where
  content : Content
  writer : Nat
  deriving DecidableEq

/-- An entry of an artifact root; `segments` and `mover` are ghosts. -/
structure RootItem where
  artifact : Artifact
  segments : List String
  mover : Nat

/-- An object as `PublishStorage::read` answers it. -/
structure VersionedObject where
  bytes : ByteArray
  etag : String
  deriving DecidableEq

/-- A change of the head: who made it, the version it names then, and the segments of the manifest
stored for that version. -/
structure Activation where
  worker : Nat
  version : Option UInt64
  segments : List String

/-- What statements need to know of the past. -/
structure History where
  /-- every change of the head -/
  activated : List Activation
  /-- per read of the head that a version was allocated on: who, and the version it named -/
  allocated : List (Nat × Option UInt64)
  /-- who allocated on a head with segments outside its own list -/
  staleReads : List Nat
  /-- who replaced a head it had not read, because the tags of both agree -/
  collisions : List Nat
  /-- who was refused because an artifact already stood where it wanted to write -/
  blocked : List Nat

def History.empty : History where
  activated := []
  allocated := []
  staleReads := []
  collisions := []
  blocked := []

structure World where
  /-- the published objects; on S3 the head is one of them -/
  objects : String → Option Cell
  /-- the directories that `copy_tree` made in the local store -/
  directories : String → Bool
  /-- the artifact roots, by number -/
  roots : Nat → String → Option RootItem
  /-- the database, with the ledger of its queue -/
  queue : Watched
  history : History

/-- Nothing stored yet, over given artifact roots. -/
def World.init (roots : Nat → String → Option RootItem) : World where
  objects := fun _ => none
  directories := fun _ => false
  roots := roots
  queue := .init
  history := .empty

/-- The wiring of a deployment, and the code outside the repository that it uses. -/
structure Setup where
  backend : Backend
  /-- which artifact root a process uses -/
  rootOf : Nat → Nat
  rootPath : Nat → String
  /-- the tag S3 gives to an object -/
  s3Etag : ByteArray → String
  head : Codec ManifestHead
  manifest : Codec IndexManifest
  wal : Serde WalRecord
  hash : HashOrder
  source : SqliteBuildJobSource

/-- The tag of an object with these bytes. -/
def Setup.etag (setup : Setup) (bytes : ByteArray) : String :=
  match setup.backend with
  | .aws => setup.s3Etag bytes
  | .sqliteFs => etagOf bytes

/-! ## Operations -/

/-- Why the head is read; `listed`, the keys an allocating worker builds from, is a ghost. -/
inductive Reader where
  | publisher
  | allocator (listed : List String)

/-- What an upload is a part of; a ghost. -/
inductive Upload where
  | directory
  | manifest

inductive Op where
  | readHead (reader : Reader)
  | readObject (key : String)
  /-- `compare_and_swap` on the head; of the object read before, only its tag is used -/
  | swapHead (seen : Option VersionedObject) (newValue : ByteArray)
  /-- S3: `put_object` with `If-None-Match: *` -/
  | putObject (upload : Upload) (key : String) (content : Content)
  /-- local store: `dest.exists()`, `create_dir_all`, `fs::copy` -/
  | storedExists (key : String)
  | makeDirectory (key : String)
  | copyFile (key : String) (content : Content)
  /-- artifact root, publisher: `artifact_source_path`, `fs::read`, the two walks of a tree -/
  | sourcePath (key : String)
  | readFile (key : String)
  | inspectTree (key : String)
  | readTree (key : String)
  /-- artifact root, builder -/
  | createStaging
  | probeTarget (key : String)
  | writeIndexes (documents : List Document) (embeddingDim : Nat)
  | writeManifest (manifest : IndexManifest)
  | moveIntoPlace (key : String) (artifact : Artifact) (segments : List String)
  | removePath (key : String)
  | removeStaging
  /-- WAL and queue -/
  | listWalKeys
  | readWal (key : String)
  | appendAndEnqueue (walKey : String) (walBytes : ByteArray) (batch : QueueBatch)
  | receive
  | ack (receipt : String)
  | nack (receipt error : String)
  /-- the process itself -/
  | currentTimeMillis
  | newUuid
  | embeddingGenerator

/-- How `put_object` ends. -/
inductive PutResult where
  | stored
  | preconditionFailed
  | failed (error : String)

/-- What stands in the way of a build target. -/
structure TargetProbe where
  pathExists : Bool
  parentIsFile : Bool

/-- The answers.  A text in an error is what the system said; the callers put it into their own. -/
abbrev Op.Ans : Op → Type
  | .readHead _ | .readObject _ => Except PublishError (Option VersionedObject)
  | .swapHead _ _ => Except PublishError Bool
  | .putObject _ _ _ => PutResult
  | .storedExists _ => Bool
  | .makeDirectory _ | .copyFile _ _ => Except String Unit
  | .sourcePath _ | .inspectTree _ => Except PublishError Unit
  | .readFile _ => Except String Content
  | .readTree _ => Except String (Tree × List String)
  | .createStaging | .writeManifest _ => Except IndexError Unit
  | .probeTarget _ => TargetProbe
  | .writeIndexes _ _ => Except IndexError (Tree × Tree)
  | .moveIntoPlace _ _ _ | .removePath _ | .removeStaging => Except IndexError Unit
  | .listWalKeys => Except String (List String)
  | .readWal _ => Except IngestError (List WalRecord)
  | .appendAndEnqueue _ _ _ => Except IngestError Unit
  | .receive => Except String (List BuildJob)
  | .ack _ | .nack _ _ => Except String Unit
  | .currentTimeMillis => Int
  | .newUuid => String
  | .embeddingGenerator => Except String EmbeddingGenerator

abbrev nodeSignature : Signature where
  Op := Op
  Ans := Op.Ans

/-- A program of a node. -/
abbrev NodeM := Prog nodeSignature

/-- What is decided outside the code at one step. -/
structure Choice where
  /-- the operation fails, with this text -/
  fails : Bool
  detail : String
  /-- ... although it took effect -/
  applied : Bool
  /-- S3 refuses a conditional write that it could have made (a conflicting request in progress) -/
  refused : Bool
  /-- what a failing copy leaves in the file, if it got that far -/
  torn : Option ByteArray
  clock : Millis
  uuid : String
  /-- the claim tokens -/
  draw : String → String
  /-- the directories that LanceDB and Tantivy wrote -/
  lance : Tree
  tantivy : Tree
  generator : EmbeddingGenerator
  sql : Faults

/-- The answer of a database call. -/
def resultOf {ε σ α : Type} : EStateM.Result ε σ α → Except ε α
  | .ok a _ => .ok a
  | .error e _ => .error e

namespace World

variable (setup : Setup)

/-! ## The head and the snapshots -/

/-- The bytes of the head. -/
def headBytes (w : World) : Option ByteArray :=
  match setup.backend with
  | .aws => (w.objects indexHeadKey).map (·.content.bytes)
  | .sqliteFs => w.queue.db.activeHead

/-- The version the head names. -/
def headVersion (w : World) : Option UInt64 :=
  (w.headBytes setup).bind fun bytes =>
    match ManifestHead.fromJson setup.head bytes with
    | .ok head => some head.versionId
    | .error _ => none

/-- The WAL segments in the snapshot of a version: those replayed by the build whose manifest is
stored for it. -/
def snapshot (w : World) (v : UInt64) : List String :=
  match w.objects (versionManifestKey v) with
  | some cell => cell.content.segments
  | none => []

/-- The WAL segments in the active snapshot. -/
def activeSnapshot (w : World) : List String :=
  match w.headVersion setup with
  | some v => w.snapshot v
  | none => []

/-! ## Effects -/

def putCell (key : String) (cell : Cell) (w : World) : World :=
  { w with objects := Function.update w.objects key (some cell) }

def putDirectory (key : String) (w : World) : World :=
  { w with directories := Function.update w.directories key true }

def putRoot (root : Nat) (key : String) (item : Option RootItem) (w : World) : World :=
  { w with roots := Function.update w.roots root (Function.update (w.roots root) key item) }

def setDb (db : LocalDb) (w : World) : World :=
  { w with queue := { w.queue with db } }

def block (t : Nat) (w : World) : World :=
  { w with history := { w.history with blocked := w.history.blocked ++ [t] } }

/-- Write down that a version was allocated on the head as it is. -/
def noteAllocation (t : Nat) (listed : List String) (w : World) : World :=
  { w with
    history := { w.history with
      allocated := w.history.allocated ++ [(t, w.headVersion setup)]
      staleReads :=
        if (w.activeSnapshot setup).all (· ∈ listed) then w.history.staleReads
        else w.history.staleReads ++ [t] } }

/-- Write down that a head was replaced other than the one that was read. -/
def noteSwap (t : Nat) (seen : Option VersionedObject) (before : Option ByteArray) (w : World) :
    World :=
  if before = seen.map (·.bytes) then w
  else { w with history := { w.history with collisions := w.history.collisions ++ [t] } }

/-- Write down a change of the head since `before`. -/
def noteActivation (t : Nat) (w before : World) : World :=
  if w.headBytes setup = before.headBytes setup then w
  else { w with
    history := { w.history with
      activated := w.history.activated ++
        [{ worker := t, version := w.headVersion setup, segments := w.activeSnapshot setup }] } }

/-- The object with the bytes of the head. -/
def headObject (w : World) : Option VersionedObject :=
  (w.headBytes setup).map fun bytes => { bytes, etag := setup.etag bytes }

/-- Replace the head, on S3. -/
def putHead (t : Nat) (newValue : ByteArray) (w : World) : World :=
  w.putCell indexHeadKey { content := { bytes := newValue, segments := [] }, writer := t }

/-- Read the head. -/
def readHeadAt (t : Nat) (reader : Reader) (c : Choice) (w : World) :
    Except PublishError (Option VersionedObject) × World :=
  let answer : Except PublishError (Option VersionedObject) :=
    match setup.backend with
    | .aws => if c.fails then .error (.operation c.detail) else .ok (w.headObject setup)
    | .sqliteFs => (resultOf (headRowRead c.sql .activeHead w.queue.db)).map fun bytes =>
        bytes.map fun bytes => { bytes, etag := setup.etag bytes }
  match reader, answer with
  | .allocator listed, .ok object => (.ok object, w.noteAllocation setup t listed)
  | _, answer => (answer, w)

/-- The conditional write of the head. -/
def swapHeadAt (t : Nat) (seen : Option VersionedObject) (newValue : ByteArray) (c : Choice)
    (w : World) : Except PublishError Bool × World :=
  match setup.backend with
  | .aws =>
      if c.fails then (.error (.operation c.detail), w)
      else if c.refused ∨ (w.headObject setup).map (·.etag) ≠ seen.map (·.etag) then (.ok false, w)
      else (.ok true, (w.putHead t newValue).noteSwap t seen (w.headBytes setup))
  | .sqliteFs =>
      match headRowCas c.sql .activeHead (seen.map (·.etag)) newValue w.queue.db with
      | .ok true db => (.ok true, (w.setDb db).noteSwap t seen (w.headBytes setup))
      | .ok false db => (.ok false, w.setDb db)
      | .error e db => (.error e, w.setDb db)

/-- The conditional write of an object. -/
def putObjectAt (t : Nat) (key : String) (content : Content) (c : Choice) (w : World) :
    PutResult × World :=
  if c.refused then (.preconditionFailed, w)
  else
    match w.objects key with
    | some _ => if c.fails then (.failed c.detail, w) else (.preconditionFailed, w.block t)
    | none =>
        if c.fails then
          (.failed c.detail, if c.applied then w.putCell key { content, writer := t } else w)
        else (.stored, w.putCell key { content, writer := t })

/-- The unconditional copy of a file. -/
def copyFileAt (t : Nat) (key : String) (content : Content) (c : Choice) (w : World) :
    Except String Unit × World :=
  if c.fails then
    (.error c.detail, match c.torn with
      | some bytes => w.putCell key { content := { content with bytes }, writer := t }
      | none => w)
  else (.ok (), w.putCell key { content, writer := t })

/-- `fs::rename` onto a build target.  A directory is never renamed onto what exists (the directories
that builds leave are not empty); a file replaces a file. -/
def moveAt (t : Nat) (key : String) (artifact : Artifact) (segments : List String) (c : Choice)
    (w : World) : Except IndexError Unit × World :=
  let moved := w.putRoot (setup.rootOf t) key (some { artifact, segments, mover := t })
  if c.fails then (.error (.operation c.detail), w)
  else
    match w.roots (setup.rootOf t) key, artifact with
    | none, _ => (.ok (), moved)
    | some { artifact := .file _, .. }, .file _ => (.ok (), moved)
    | some _, _ => (.error (.operation c.detail), w.block t)

/-- A call on the queue's database, with its ledger kept. -/
def queueCall {ε α : Type} (call : QueueCall) (c : Choice)
    (result : EStateM.Result ε LocalDb α) (w : World) : Except ε α × World :=
  (resultOf result, { w with queue := w.queue.step setup.source (call, c.sql) })

/-- What each operation does. -/
def perform (t : Nat) (op : Op) (c : Choice) (w : World) : op.Ans × World :=
  match op with
  | .readHead reader => w.readHeadAt setup t reader c
  | .readObject key =>
      (if c.fails then .error (.operation c.detail)
        else .ok ((w.objects key).map fun cell =>
          { bytes := cell.content.bytes, etag := setup.etag cell.content.bytes }), w)
  | .swapHead seen newValue => w.swapHeadAt setup t seen newValue c
  | .putObject _ key content => w.putObjectAt t key content c
  | .storedExists key =>
      -- `Path::exists` answers false where it cannot look
      if c.fails = false ∧ ((w.objects key).isSome ∨ w.directories key = true) then (true, w.block t)
      else (false, w)
  | .makeDirectory key => if c.fails then (.error c.detail, w) else (.ok (), w.putDirectory key)
  | .copyFile key content => w.copyFileAt t key content c
  | .sourcePath key =>
      (if c.fails = false ∧ (w.roots (setup.rootOf t) key).isSome then .ok ()
        else .error (.operation c.detail), w)
  | .readFile key =>
      (match w.roots (setup.rootOf t) key with
        | some { artifact := .file bytes, segments, .. } =>
            if c.fails then .error c.detail else .ok { bytes, segments }
        | _ => .error c.detail, w)
  | .inspectTree key =>
      (match w.roots (setup.rootOf t) key with
        | some { artifact := .directory _, .. } =>
            if c.fails then .error (.operation c.detail) else .ok ()
        | _ => .error (.operation c.detail), w)
  | .readTree key =>
      (match w.roots (setup.rootOf t) key with
        | some { artifact := .directory tree, segments, .. } =>
            if c.fails then .error c.detail else .ok (tree, segments)
        | _ => .error c.detail, w)
  | .createStaging | .writeManifest _ | .removeStaging =>
      (if c.fails then .error (.operation c.detail) else .ok (), w)
  | .probeTarget key =>
      if c.fails = false ∧ (w.roots (setup.rootOf t) key).isSome then
        ({ pathExists := true, parentIsFile := c.refused }, w.block t)
      else ({ pathExists := false, parentIsFile := c.refused }, w)
  | .writeIndexes _ _ =>
      (if c.fails then .error (.operation c.detail) else .ok (c.lance, c.tantivy), w)
  | .moveIntoPlace key artifact segments => w.moveAt setup t key artifact segments c
  | .removePath key =>
      if c.fails then (.error (.operation c.detail), w)
      else (.ok (), w.putRoot (setup.rootOf t) key none)
  | .listWalKeys => (resultOf (listWalKeys c.sql w.queue.db), w)
  | .readWal key =>
      ((resultOf (walRead c.sql key w.queue.db)).bind (readSegment setup.wal), w)
  | .appendAndEnqueue walKey walBytes batch =>
      w.queueCall setup (.appendAndEnqueue walKey walBytes batch) c
        (appendAndEnqueueTx c.sql walKey walBytes batch w.queue.db)
  | .receive =>
      w.queueCall setup (.receive c.clock c.draw) c
        (LTSearch.receive setup.source c.clock c.draw c.sql w.queue.db)
  | .ack receipt => w.queueCall setup (.ack receipt) c (LTSearch.ack receipt c.sql w.queue.db)
  | .nack receipt error =>
      w.queueCall setup (.nack c.clock receipt error) c
        (LTSearch.nack setup.source c.clock receipt error c.sql w.queue.db)
  | .currentTimeMillis => (c.clock.val, w)
  | .newUuid => (c.uuid, w)
  | .embeddingGenerator => (if c.fails then .error c.detail else .ok c.generator, w)

end World

/-- The machine that programs of a node run on. -/
def node (setup : Setup) : Machine nodeSignature World Choice Nat where
  apply t op c w :=
    let result := w.perform setup t op c
    (result.1, result.2.noteActivation setup t w)

end LTSearch
