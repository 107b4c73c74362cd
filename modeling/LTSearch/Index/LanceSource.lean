/-
# LTSearch.Index.LanceSource -- the rows of a static release, read from a Lance table

The table is opened and set to one version; a scan returns record batches of named columns, in the order
of the table's fragments.  Every row is checked and decoded, the first fault ends the build, and the rows
are then put in `doc_id` order.  The Lance client is a parameter: what it answers, with the texts of its
errors; so are how a metadata text splits into JSON tokens and how a `HashMap` orders its entries.  The
columns of a batch have as many values as the batch has rows, which Arrow sees to when a batch is made.
-/
import LTSearch.Foundation.BestK
import LTSearch.Index.StaticRelease
import LTSearch.JsonText

namespace LTSearch

open LTSearch.Foundation
open TurboQuantConfig (okOr)

/-! ## What a scan returns -/

/-- The items of one list of a `FixedSizeListArray`; an item may be null. -/
inductive ListItems where
  | float32 (items : List (Option F32))
  | other

/-- A column of a batch of `n` rows.  A list may be null. -/
inductive ArrowColumn (n : Nat) where
  | utf8 (values : Vector String n)
  | fixedSizeList (values : Vector (Option ListItems) n)
  | other

structure RecordBatch where
  numRows : Nat
  columns : List (String × ArrowColumn numRows)

/-- A row as the table stores it. -/
structure LanceRow where
  docId : String
  text : String
  metadata : String
  embedding : Option ListItems

/-- `op`. -/
def lanceError (message : String) : IndexError := .operation message

namespace RecordBatch

/-- `downcast_string`. -/
def downcastString (batch : RecordBatch) (column : String) :
    Except IndexError (Vector String batch.numRows) :=
  match batch.columns.lookup column with
  | none => .error (lanceError s!"Lance scan missing '{column}' column")
  | some (.utf8 values) => .ok values
  | some _ => .error (lanceError s!"Lance column '{column}' is not Utf8")

/-- `downcast_fixed_size_list`. -/
def downcastFixedSizeList (batch : RecordBatch) (column : String) :
    Except IndexError (Vector (Option ListItems) batch.numRows) :=
  match batch.columns.lookup column with
  | none => .error (lanceError s!"Lance scan missing '{column}' column")
  | some (.fixedSizeList values) => .ok values
  | some _ => .error (lanceError s!"Lance column '{column}' is not a FixedSizeList")

/-- The rows of a batch, from its four columns. -/
def rows (batch : RecordBatch) : Except IndexError (List LanceRow) := do
  let docIds ← batch.downcastString "doc_id"
  let texts ← batch.downcastString "text"
  let metadata ← batch.downcastString "metadata"
  let embeddings ← batch.downcastFixedSizeList "embedding"
  return (List.finRange batch.numRows).map fun row => {
    docId := docIds.get row
    text := texts.get row
    metadata := metadata.get row
    embedding := embeddings.get row }

end RecordBatch

/-! ## A row -/

/-- `serde_json::from_str`, up to what the tokens come to. -/
abbrev JsonSplit := String → Except String JsonText

/-- The orders in which the `HashMap`s of the rows list their entries: any, from row to row. -/
structure MetadataOrder where
  entries : String → Metadata → Metadata
  perm : ∀ docId fields, (entries docId fields).Perm fields

/-- `parse_metadata_object`: the fields of the object, as the `HashMap` of the row lists them. -/
def parseMetadataObject (split : JsonSplit) (order : MetadataOrder) (raw docId : String) :
    Except IndexError Metadata := do
  let text ← (split raw).mapError fun source =>
    lanceError s!"Lance row {docId} has non-JSON metadata: {source}"
  match text.value with
  | .obj fields => .ok (order.entries docId fields)
  | _ => .error (lanceError s!"Lance row {docId} metadata is not a JSON object")

/-- `decode_embedding`. -/
def decodeEmbedding (list : Option ListItems) (expectedDim : Nat) (docId : String) :
    Except IndexError (List F32) :=
  match list with
  | none => .error (lanceError s!"Lance row {docId} has a null embedding")
  | some .other => .error (lanceError s!"Lance row {docId} embedding is not Float32")
  | some (.float32 items) => do
      rejectIf (items.length ≠ expectedDim) (lanceError
        s!"Lance row {docId} embedding dim {items.length} does not match expected {expectedDim}")
      rejectIf (none ∈ items) (lanceError
        s!"Lance row {docId} embedding contains a null coordinate")
      let embedding := items.reduceOption
      rejectIf (∃ value ∈ embedding, value.isFinite = false) (lanceError
        s!"Lance row {docId} embedding contains a non-finite value")
      return embedding

/-- What the scan loop makes of one row. -/
def LanceRow.decode (split : JsonSplit) (order : MetadataOrder) (corpusType : CorpusType) (expectedDim : Nat)
    (row : LanceRow) : Except IndexError (StaticChunk × List F32) := do
  rejectIf (row.docId = "") (lanceError "Lance row has empty doc_id")
  rejectIf (row.text = "") (lanceError s!"Lance row {row.docId} has empty text")
  let metadata ← parseMetadataObject split order row.metadata row.docId
  let embedding ← decodeEmbedding row.embedding expectedDim row.docId
  return ({ docId := row.docId, text := row.text, metadata, corpusType }, embedding)

/-! ## The snapshot -/

/-- `LanceStaticSourceConfig`. -/
structure LanceStaticSourceConfig where
  datasetPath : String
  tableVersion : UInt64
  corpusType : CorpusType
  embeddingProfile : EmbeddingProfile

/-- The Lance client, by its answers and the texts of its errors. -/
structure LanceClient where
  Conn : Type
  Table : Type
  Scan : Type
  connect : String → Except String Conn
  openTable : Conn → String → Except String Table
  checkout : Table → UInt64 → Except String Table
  execute : Table → Except String Scan
  collect : Scan → Except String (List RecordBatch)
  version : Table → Except String UInt64

/-- `LanceSnapshot`. -/
structure LanceSnapshot where
  chunks : List StaticChunk
  embeddings : List (List F32)
  tableVersion : UInt64
  rowCount : UInt64

/-- `LANCE_TABLE_NAME` and `SUPPORTED_DIM`. -/
def lanceTableName : String := "documents"
def supportedDim : UInt32 := 512

/-- The table at the version of the configuration, and the batches of a full scan of it. -/
def LanceClient.scan (client : LanceClient) (cfg : LanceStaticSourceConfig) :
    Except IndexError (client.Table × List RecordBatch) := do
  let path := cfg.datasetPath
  let conn ← (client.connect path).mapError fun source =>
    lanceError s!"failed to connect Lance dataset at {path}: {source}"
  let table ← (client.openTable conn lanceTableName).mapError fun source =>
    lanceError s!"failed to open Lance table '{lanceTableName}' at {path}: {source}"
  let pinned ← (client.checkout table cfg.tableVersion).mapError fun source =>
    lanceError s!"failed to checkout Lance table version {cfg.tableVersion} at {path}: {source}"
  let scan ← (client.execute pinned).mapError fun source =>
    lanceError s!"failed to execute full-table scan on Lance table at {path}: {source}"
  let batches ← (client.collect scan).mapError fun source =>
    lanceError s!"failed to collect Lance scan batches at {path}: {source}"
  return (pinned, batches)

/-- The rows of all batches, decoded one after the other. -/
def decodeBatches (split : JsonSplit) (order : MetadataOrder) (corpusType : CorpusType) (expectedDim : Nat)
    (batches : List RecordBatch) : Except IndexError (List (StaticChunk × List F32)) := do
  let parts ← batches.mapM fun batch => do
    let rows ← batch.rows
    rows.mapM (LanceRow.decode split order corpusType expectedDim)
  return parts.flatten

/-- The decoded rows, sorted by `doc_id`. -/
def LanceSnapshot.ofRows (decoded : List (StaticChunk × List F32)) (tableVersion : UInt64) :
    LanceSnapshot :=
  let rows := sortBy (fun row => row.1.docId) decoded
  { chunks := rows.map Prod.fst
    embeddings := rows.map Prod.snd
    tableVersion
    rowCount := UInt64.ofNat rows.length }

/-- `load_lance_snapshot`. -/
def loadLanceSnapshot (client : LanceClient) (split : JsonSplit) (order : MetadataOrder)
    (cfg : LanceStaticSourceConfig) : Except IndexError LanceSnapshot := do
  let dim := cfg.embeddingProfile.dim
  rejectIf (dim ≠ supportedDim) (lanceError
    s!"lance snapshot only supports {supportedDim}-dim embeddings, profile declared {dim}")
  let (table, batches) ← client.scan cfg
  let decoded ← decodeBatches split order cfg.corpusType dim.toNat batches
  let tableVersion ← (client.version table).mapError fun source =>
    lanceError s!"failed to read Lance table version at {cfg.datasetPath}: {source}"
  return .ofRows decoded tableVersion

/-! ## The static build -/

/-- `StaticBuildConfig`. -/
structure StaticBuildConfig where
  source : LanceStaticSourceConfig
  releaseFormat : Option String

/-- The format of a configuration; an unknown name is an error and does not fall back to the default. -/
def StaticBuildConfig.format (config : StaticBuildConfig) : Except String StaticReleaseFormat :=
  match config.releaseFormat with
  | none => .ok .v3
  | some name => okOr s!"release_format must be \"v3\" or \"v4\", got {debugText name}"
      (StaticReleaseFormat.fromName name)

/-- The `ReleaseSource` of a snapshot. -/
def LanceSnapshot.source (snapshot : LanceSnapshot) (cfg : LanceStaticSourceConfig) : ReleaseSource where
  kind := "lance"
  datasetPath := cfg.datasetPath
  tableVersion := snapshot.tableVersion
  tableRowCount := snapshot.rowCount
  corpusType := cfg.corpusType

/-- `run_static_build`, once its configuration is read: the snapshot, built as a release. -/
def runStaticBuild (env : ReleaseEnv) (client : LanceClient) (split : JsonSplit) (order : MetadataOrder)
    (config : StaticBuildConfig) : Checked String (ReleaseManifest × ReleaseDir) := do
  let format ← Checked.lifted config.format
  let cfg := config.source
  let snapshot ← Checked.lifted ((loadLanceSnapshot client split order cfg).mapError IndexError.display)
  (buildRelease env format snapshot.chunks snapshot.embeddings cfg.embeddingProfile
    (snapshot.source cfg)).mapErr IndexError.display

theorem runStaticBuild_eq_ok {env : ReleaseEnv} {client : LanceClient} {split : JsonSplit}
    {order : MetadataOrder} {config : StaticBuildConfig} {built : ReleaseManifest × ReleaseDir} :
    runStaticBuild env client split order config = .ok built ↔
      ∃ format snapshot, config.format = .ok format ∧
        loadLanceSnapshot client split order config.source = .ok snapshot ∧
        buildRelease env format snapshot.chunks snapshot.embeddings config.source.embeddingProfile
          (snapshot.source config.source) = .ok built := by
  simp only [runStaticBuild, bind_eq_ok, lifted_eq_ok, mapError_eq_ok, mapErr_eq_ok]
  constructor
  · rintro ⟨format, hformat, snapshot, hsnapshot, hbuild⟩
    exact ⟨format, snapshot, hformat, hsnapshot, hbuild⟩
  · rintro ⟨format, snapshot, hformat, hsnapshot, hbuild⟩
    exact ⟨format, hformat, snapshot, hsnapshot, hbuild⟩

end LTSearch
