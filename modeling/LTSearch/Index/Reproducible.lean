/-
# LTSearch.Index.Reproducible -- a static release is a function of the rows

Two scans of the same rows may list them in another order, in other batches, and write the fields of
metadata objects in another order; the `HashMap`s of the two processes list their entries in orders of
their own.  Parsing forgets the order of nested fields, canonicalisation that of the entries, sorting by
`doc_id` that of the rows, and the release id and the files leave out where the rows came from: so the two
builds agree on everything but the `source` of the manifest.
-/
import LTSearch.Index.BuildSucceeds
import LTSearch.Index.LanceSource

namespace LTSearch

open LTSearch.Foundation

/-! ## What a build sees of the metadata -/

namespace StaticChunk

/-- The chunk with its metadata in key order. -/
def canonical (chunk : StaticChunk) : StaticChunk :=
  { chunk with metadata := ofEntries chunk.metadata }

/-- A map has each name once. -/
def DistinctNames (chunk : StaticChunk) : Prop := (chunk.metadata.map Prod.fst).Nodup

theorem title_canonical {chunk : StaticChunk} (h : chunk.DistinctNames) :
    chunk.canonical.title = chunk.title := by
  simp only [title, canonical, Metadata.getStr, Metadata.get, lookup_ofEntries h]

theorem canonicalMetadataJson_canonical (chunk : StaticChunk) :
    canonicalMetadataJson chunk.canonical.metadata = canonicalMetadataJson chunk.metadata := by
  simp only [canonicalMetadataJson, canonical, ofEntries_of_pairwise (pairwise_ofEntries chunk.metadata)]

end StaticChunk

theorem detectDuplicateDocIds_canonical (seen : List String) (chunks : List StaticChunk) :
    detectDuplicateDocIds seen (chunks.map StaticChunk.canonical) = detectDuplicateDocIds seen chunks := by
  induction chunks generalizing seen with
  | nil => rfl
  | cons chunk rest ih => simp only [List.map_cons, detectDuplicateDocIds, StaticChunk.canonical, ih]

theorem checkChunks_canonical (format : StaticReleaseFormat) (chunks : List StaticChunk)
    (embeddings : List (List F32)) (profile : EmbeddingProfile) :
    checkChunks format (chunks.map StaticChunk.canonical) embeddings profile =
      checkChunks format chunks embeddings profile := by
  simp only [checkChunks, List.length_map, List.map_eq_nil_iff, List.zip_map_left, forM_map,
    detectDuplicateDocIds_canonical, List.map_map]
  rfl

theorem ReleaseBlobs.append_canonical {arith : FloatArith} {codec : ReleaseCodec} {blobs : ReleaseBlobs}
    {chunk : StaticChunk} (h : chunk.DistinctNames) (embedding : List F32) :
    blobs.append arith codec chunk.canonical embedding = blobs.append arith codec chunk embedding := by
  have hjson := chunk.canonicalMetadataJson_canonical
  have htitle := StaticChunk.title_canonical h
  unfold append
  rw [htitle, hjson]
  rfl

theorem ReleaseBlobs.ofChunks_canonical {arith : FloatArith} {codec : ReleaseCodec} {header : TurboHeader}
    {chunks : List StaticChunk} (h : ∀ chunk ∈ chunks, chunk.DistinctNames)
    (embeddings : List (List F32)) :
    ofChunks arith codec header ((chunks.map StaticChunk.canonical).zip embeddings) =
      ofChunks arith codec header (chunks.zip embeddings) := by
  rw [ofChunks, ofChunks, List.zip_map_left, List.foldlM_map]
  exact foldlM_congr_mem (fun chunk hchunk _ => append_canonical (h _ (List.of_mem_zip hchunk).1) _) _

/-- A build does not depend on the order in which the maps of its chunks list their entries. -/
theorem buildRelease_canonical (env : ReleaseEnv) (format : StaticReleaseFormat) {chunks : List StaticChunk}
    (h : ∀ chunk ∈ chunks, chunk.DistinctNames) (embeddings : List (List F32)) (profile : EmbeddingProfile)
    (source : ReleaseSource) :
    buildRelease env format (chunks.map StaticChunk.canonical) embeddings profile source =
      buildRelease env format chunks embeddings profile source := by
  simp only [buildRelease, checkChunks_canonical, ReleaseBlobs.ofChunks_canonical h, List.length_map]

/-! ## The rows of a scan -/

/-- The rows of all batches, in the order of the scan. -/
def scannedRows (batches : List RecordBatch) : Except IndexError (List LanceRow) := do
  let parts ← batches.mapM RecordBatch.rows
  return parts.flatten

/-- Decoding batch by batch is decoding the rows of the scan. -/
theorem decodeBatches_eq_ok {split : JsonSplit} {order : MetadataOrder} {corpusType : CorpusType}
    {expectedDim : Nat} {batches : List RecordBatch} {decoded : List EmbeddedChunk} :
    decodeBatches split order corpusType expectedDim batches = .ok decoded ↔
      ∃ rows, scannedRows batches = .ok rows ∧
        rows.mapM (LanceRow.decode split order corpusType expectedDim) = .ok decoded := by
  simp only [decodeBatches, scannedRows, bind_eq_ok]
  constructor
  · rintro ⟨parts, hparts, h⟩
    obtain ⟨rows, hrows, hdecoded⟩ := mapM_flatten_eq_ok.mp ⟨parts, hparts, Except.ok.inj h⟩
    exact ⟨_, ⟨rows, hrows, rfl⟩, hdecoded⟩
  · rintro ⟨rows, ⟨parts, hparts, hrows⟩, hdecoded⟩
    obtain rfl := Except.ok.inj hrows
    obtain ⟨decodedParts, hparts', rfl⟩ := mapM_flatten_eq_ok.mpr ⟨parts, hparts, hdecoded⟩
    exact ⟨decodedParts, hparts', rfl⟩

/-- Two rows of one content: the fields of the metadata may be written in another order. -/
structure LanceRow.Same (split : JsonSplit) (row row' : LanceRow) : Prop where
  docId : row.docId = row'.docId
  text : row.text = row'.text
  embedding : row.embedding = row'.embedding
  metadata : row.metadata = row'.metadata ∨ ∃ text text', split row.metadata = .ok text ∧
    split row'.metadata = .ok text' ∧ text.Reordered text'

/-- Two scans that return the same rows, each `doc_id` once, in any order and in any batches. -/
def SameRows (split : JsonSplit) (batches batches' : List RecordBatch) : Prop :=
  ∃ rows middle rows', scannedRows batches = .ok rows ∧ scannedRows batches' = .ok rows' ∧
    (rows.map LanceRow.docId).Nodup ∧ rows.Perm middle ∧
    List.Forall₂ (LanceRow.Same split) middle rows'

section Decode

variable {split : JsonSplit} {order order' : MetadataOrder} {corpusType : CorpusType} {expectedDim : Nat}

/-- The metadata of a row: the fields of an object, each name once, as the map of the row lists them. -/
theorem parseMetadataObject_eq_ok {raw docId : String} {metadata : Metadata} :
    parseMetadataObject split order raw docId = .ok metadata ↔
      ∃ text fields, split raw = .ok text ∧ text.value = .obj fields ∧
        (fields.map Prod.fst).Nodup ∧ metadata = order.entries docId fields := by
  simp only [parseMetadataObject, bind_eq_ok, mapError_eq_ok]
  constructor
  · rintro ⟨text, htext, h⟩
    -- only an object is accepted; its value has each name once
    cases text with
    | obj written => exact ⟨_, _, htext, rfl, nodup_keys_ofEntries _, (Except.ok.inj h).symm⟩
    | _ => cases h
  · rintro ⟨text, fields, htext, hvalue, -, rfl⟩
    refine ⟨text, htext, ?_⟩
    rw [hvalue]

theorem decode_eq_ok {row : LanceRow} {decoded : EmbeddedChunk} :
    row.decode split order corpusType expectedDim = .ok decoded ↔
      row.docId ≠ "" ∧ row.text ≠ "" ∧ ∃ metadata embedding,
        parseMetadataObject split order row.metadata row.docId = .ok metadata ∧
        decodeEmbedding row.embedding expectedDim row.docId = .ok embedding ∧
        decoded = ({ docId := row.docId, text := row.text, metadata, corpusType }, embedding) := by
  rw [LanceRow.decode, check_bind_eq_ok, check_bind_eq_ok, rejectIf_eq_ok, rejectIf_eq_ok]
  simp only [bind_eq_ok]
  constructor
  · rintro ⟨hdocId, htext, metadata, hmetadata, embedding, hembedding, h⟩
    exact ⟨hdocId, htext, metadata, embedding, hmetadata, hembedding, (Except.ok.inj h).symm⟩
  · rintro ⟨hdocId, htext, metadata, embedding, hmetadata, hembedding, rfl⟩
    exact ⟨hdocId, htext, metadata, hmetadata, embedding, hembedding, rfl⟩

/-- The chunk of a row has each name once, and the `doc_id` of the row. -/
theorem LanceRow.chunk_of_decode {row : LanceRow} {decoded : EmbeddedChunk}
    (h : row.decode split order corpusType expectedDim = .ok decoded) :
    decoded.1.docId = row.docId ∧ decoded.1.DistinctNames := by
  obtain ⟨-, -, metadata, embedding, hmetadata, -, rfl⟩ := decode_eq_ok.mp h
  obtain ⟨text, fields, -, -, hfields, rfl⟩ := parseMetadataObject_eq_ok.mp hmetadata
  exact ⟨rfl, ((order.perm row.docId fields).map Prod.fst).nodup_iff.mpr hfields⟩

/-- One row decodes to what the other does, once the maps are in key order. -/
structure LanceRow.Alike (split : JsonSplit) (row row' : LanceRow) : Prop where
  docId : row'.docId = row.docId
  text : row'.text = row.text
  embedding : row'.embedding = row.embedding
  metadata : ∀ text, split row.metadata = .ok text → ∃ text', split row'.metadata = .ok text' ∧
    text'.value = text.value

theorem LanceRow.Same.alike {row row' : LanceRow} (h : row.Same split row') :
    row.Alike split row' ∧ row'.Alike split row := by
  rcases h.metadata with hsame | ⟨text, text', htext, htext', hreordered⟩
  · refine ⟨⟨h.docId.symm, h.text.symm, h.embedding.symm, fun text htext => ?_⟩,
      h.docId, h.text, h.embedding, fun text htext => ?_⟩
    · exact ⟨text, hsame ▸ htext, rfl⟩
    · exact ⟨text, hsame ▸ htext, rfl⟩
  · -- the texts differ in the order of fields only, which the value forgets
    refine ⟨⟨h.docId.symm, h.text.symm, h.embedding.symm, fun read hread => ?_⟩,
      h.docId, h.text, h.embedding, fun read hread => ?_⟩
    · obtain rfl := Except.ok.inj (htext.symm.trans hread)
      exact ⟨text', htext', hreordered.value_eq.symm⟩
    · obtain rfl := Except.ok.inj (htext'.symm.trans hread)
      exact ⟨text, htext, hreordered.value_eq⟩

/-- The chunk with its metadata in key order, and its vector. -/
def EmbeddedChunk.canonical (chunk : EmbeddedChunk) : EmbeddedChunk := (chunk.1.canonical, chunk.2)

theorem LanceRow.Alike.decode {row row' : LanceRow} (h : row.Alike split row') {decoded : EmbeddedChunk}
    (hdecode : row.decode split order corpusType expectedDim = .ok decoded) :
    ∃ decoded', row'.decode split order' corpusType expectedDim = .ok decoded' ∧
      EmbeddedChunk.canonical decoded = EmbeddedChunk.canonical decoded' := by
  obtain ⟨hdocId, htext, metadata, embedding, hmetadata, hembedding, rfl⟩ := decode_eq_ok.mp hdecode
  obtain ⟨text, fields, hsplit, hvalue, hfields, rfl⟩ := parseMetadataObject_eq_ok.mp hmetadata
  obtain ⟨text', hsplit', hvalue'⟩ := h.metadata text hsplit
  rw [← h.docId] at hdocId hembedding
  rw [← h.text] at htext
  rw [← h.embedding] at hembedding
  have hmetadata' : parseMetadataObject split order' row'.metadata row'.docId =
      .ok (order'.entries row'.docId fields) :=
    parseMetadataObject_eq_ok.mpr ⟨text', fields, hsplit', hvalue'.trans hvalue, hfields, rfl⟩
  -- the same checks pass, and the maps differ in their order only
  refine ⟨_, decode_eq_ok.mpr ⟨hdocId, htext, _, embedding, hmetadata', hembedding, rfl⟩, ?_⟩
  have hentries : ∀ (order : MetadataOrder) (docId : String),
      ofEntries (order.entries docId fields) = ofEntries fields :=
    fun order docId => (ofEntries_perm (order.perm docId fields).symm hfields).symm
  simp only [EmbeddedChunk.canonical, StaticChunk.canonical, hentries, h.docId, h.text]

/-- What a list of rows decodes to: chunks with distinct names, under the `doc_id`s of the rows. -/
theorem chunks_of_decoded {rows : List LanceRow} {decoded : List EmbeddedChunk}
    (h : rows.mapM (LanceRow.decode split order corpusType expectedDim) = .ok decoded) :
    decoded.map (fun chunk => chunk.1.docId) = rows.map LanceRow.docId ∧
      ∀ chunk ∈ decoded, chunk.1.DistinctNames := by
  induction mapM_eq_ok_iff.mp h with
  | nil => exact ⟨rfl, nofun⟩
  | cons hrow hrest ih =>
      obtain ⟨hdocIds, hnames⟩ := ih (mapM_eq_ok_iff.mpr hrest)
      obtain ⟨hdocId, hname⟩ := LanceRow.chunk_of_decode hrow
      refine ⟨?_, List.forall_mem_cons.mpr ⟨hname, hnames⟩⟩
      rw [List.map_cons, List.map_cons, hdocId, hdocIds]

/-- Two lists of batches that decode to one list of chunks, once these and their maps are in order. -/
def DecodeAlike (split : JsonSplit) (order order' : MetadataOrder) (batches batches' : List RecordBatch) :
    Prop :=
  ∀ corpusType expectedDim decoded,
    decodeBatches split order corpusType expectedDim batches = .ok decoded →
    ∃ decoded', decodeBatches split order' corpusType expectedDim batches' = .ok decoded' ∧
      (sortBy (fun chunk => chunk.1.docId) decoded').map EmbeddedChunk.canonical =
        (sortBy (fun chunk => chunk.1.docId) decoded).map EmbeddedChunk.canonical

/-- Rows in another order, written differently, are the same chunks in order. -/
theorem decodeAlike_of_rows {batches batches' : List RecordBatch} {rows middle rows' : List LanceRow}
    (hrows : scannedRows batches = .ok rows) (hrows' : scannedRows batches' = .ok rows')
    (hdistinct : (rows.map LanceRow.docId).Nodup) (hperm : rows.Perm middle)
    (halike : List.Forall₂ (LanceRow.Alike split) middle rows') :
    DecodeAlike split order order' batches batches' := by
  intro corpusType expectedDim decoded h
  obtain ⟨_, hscanned, hdecoded⟩ := decodeBatches_eq_ok.mp h
  obtain rfl := Except.ok.inj (hrows.symm.trans hscanned)
  -- first the order of the rows changes, then how each of them is written
  obtain ⟨reordered, hmiddle, hperm'⟩ := mapM_perm hperm hdecoded
  have hstep : ∀ (row row' : LanceRow) (decoded : EmbeddedChunk), row.Alike split row' →
      row.decode split order corpusType expectedDim = .ok decoded →
      ∃ decoded', row'.decode split order' corpusType expectedDim = .ok decoded' ∧
        EmbeddedChunk.canonical decoded = EmbeddedChunk.canonical decoded' := fun _ _ _ hrow => hrow.decode
  obtain ⟨decoded', hdecoded', hcanonical⟩ := mapM_forall₂ hstep halike hmiddle
  have hsame : reordered.map EmbeddedChunk.canonical = decoded'.map EmbeddedChunk.canonical := by
    rw [← List.forall₂_eq_eq_eq, List.forall₂_map_left_iff, List.forall₂_map_right_iff]
    exact hcanonical
  refine ⟨decoded', decodeBatches_eq_ok.mpr ⟨rows', hrows', hdecoded'⟩, ?_⟩
  have hkey : ∀ chunks : List EmbeddedChunk,
      (sortBy (fun chunk => chunk.1.docId) chunks).map EmbeddedChunk.canonical =
        sortBy (fun chunk => chunk.1.docId) (chunks.map EmbeddedChunk.canonical) :=
    fun chunks => (sortBy_map (fun chunk : EmbeddedChunk => chunk.1.docId) EmbeddedChunk.canonical chunks).symm
  rw [hkey, hkey, ← hsame]
  -- with distinct ids the sorted list does not depend on the order
  refine (sortBy_congr _ (hperm'.map _) ?_).symm
  rw [List.map_map]
  exact (chunks_of_decoded hdecoded).1 ▸ hdistinct

theorem SameRows.decodeAlike {batches batches' : List RecordBatch} (h : SameRows split batches batches') :
    DecodeAlike split order order' batches batches' ∧ DecodeAlike split order' order batches' batches := by
  obtain ⟨rows, middle, rows', hrows, hrows', hdistinct, hperm, hsame⟩ := h
  constructor
  · exact decodeAlike_of_rows hrows hrows' hdistinct hperm (hsame.imp fun _ _ hrow => hrow.alike.1)
  · -- the other way round the rows change first and then their order
    have hdocIds : middle.map LanceRow.docId = rows'.map LanceRow.docId := by
      rw [← List.forall₂_eq_eq_eq, List.forall₂_map_left_iff, List.forall₂_map_right_iff]
      exact hsame.imp fun _ _ hrow => hrow.docId
    obtain ⟨middle', hall, hperm'⟩ := List.perm_comp_forall₂ hperm hsame
    refine decodeAlike_of_rows hrows' hrows ?_ hperm'.symm (hall.flip.imp fun _ _ hrow => hrow.alike.2)
    rw [← hdocIds]
    exact (hperm.map _).nodup_iff.mp hdistinct

end Decode

/-! ## Two builds -/

/-- The client answers a scan with these batches, and then the version of the table. -/
def LanceClient.Reads (client : LanceClient) (cfg : LanceStaticSourceConfig)
    (batches : List RecordBatch) : Prop :=
  ∃ table version, client.scan cfg = .ok (table, batches) ∧ client.version table = .ok version

/-- Two snapshots of one content; the maps may list their entries in another order. -/
structure LanceSnapshot.Alike (snapshot snapshot' : LanceSnapshot) : Prop where
  chunks : snapshot'.chunks.map StaticChunk.canonical = snapshot.chunks.map StaticChunk.canonical
  embeddings : snapshot'.embeddings = snapshot.embeddings
  names : ∀ chunk ∈ snapshot.chunks, chunk.DistinctNames
  names' : ∀ chunk ∈ snapshot'.chunks, chunk.DistinctNames

section Snapshot

variable {client client' : LanceClient} {split : JsonSplit} {order order' : MetadataOrder}
  {cfg cfg' : LanceStaticSourceConfig} {batches batches' : List RecordBatch}

theorem loadLanceSnapshot_eq_ok {snapshot : LanceSnapshot} :
    loadLanceSnapshot client split order cfg = .ok snapshot ↔
      cfg.embeddingProfile.dim = supportedDim ∧ ∃ table batches decoded version,
        client.scan cfg = .ok (table, batches) ∧
        decodeBatches split order cfg.corpusType cfg.embeddingProfile.dim.toNat batches = .ok decoded ∧
        client.version table = .ok version ∧ snapshot = .ofRows decoded version := by
  rw [loadLanceSnapshot, check_bind_eq_ok, rejectIf_eq_ok, not_not]
  simp only [bind_eq_ok, mapError_eq_ok]
  refine and_congr_right fun _ => ?_
  constructor
  · rintro ⟨⟨table, batches⟩, hscan, decoded, hdecoded, version, hversion, h⟩
    exact ⟨table, batches, decoded, version, hscan, hdecoded, hversion, (Except.ok.inj h).symm⟩
  · rintro ⟨table, batches, decoded, version, hscan, hdecoded, hversion, rfl⟩
    exact ⟨(table, batches), hscan, decoded, hdecoded, version, hversion, rfl⟩

/-- The chunks of a snapshot have distinct names. -/
theorem names_of_decoded {corpusType : CorpusType} {expectedDim : Nat} {decoded : List EmbeddedChunk}
    (h : decodeBatches split order corpusType expectedDim batches = .ok decoded) (version : UInt64) :
    ∀ chunk ∈ (LanceSnapshot.ofRows decoded version).chunks, chunk.DistinctNames := by
  obtain ⟨rows, -, hdecoded⟩ := decodeBatches_eq_ok.mp h
  intro chunk hchunk
  obtain ⟨row, hrow, rfl⟩ := List.mem_map.mp hchunk
  exact (chunks_of_decoded hdecoded).2 row ((sortBy_perm _ _).mem_iff.mp hrow)

/-- Alike batches make alike snapshots. -/
theorem loadLanceSnapshot_alike (hreads : client.Reads cfg batches) (hreads' : client'.Reads cfg' batches')
    (hcorpus : cfg.corpusType = cfg'.corpusType) (hprofile : cfg.embeddingProfile = cfg'.embeddingProfile)
    (halike : DecodeAlike split order order' batches batches') {snapshot : LanceSnapshot}
    (h : loadLanceSnapshot client split order cfg = .ok snapshot) :
    ∃ snapshot', loadLanceSnapshot client' split order' cfg' = .ok snapshot' ∧
      snapshot.Alike snapshot' := by
  obtain ⟨table, version, hscan, -⟩ := hreads
  obtain ⟨table', version', hscan', hversion'⟩ := hreads'
  obtain ⟨hdim, _, _, decoded, read, hscanned, hdecoded, -, rfl⟩ := loadLanceSnapshot_eq_ok.mp h
  -- the client answers both runs alike
  cases hscan.symm.trans hscanned
  obtain ⟨decoded', hdecoded', hsorted⟩ := halike _ _ _ hdecoded
  have hnames := names_of_decoded hdecoded read
  have hnames' := names_of_decoded hdecoded' version'
  rw [hcorpus, hprofile] at hdecoded'
  rw [hprofile] at hdim
  refine ⟨_, loadLanceSnapshot_eq_ok.mpr
    ⟨hdim, table', batches', decoded', version', hscan', hdecoded', hversion', rfl⟩, ?_, ?_, hnames, hnames'⟩
  · have hchunks := congrArg (List.map Prod.fst) hsorted
    rw [List.map_map, List.map_map] at hchunks
    simp only [LanceSnapshot.ofRows, List.map_map]
    exact hchunks
  · have hembeddings := congrArg (List.map Prod.snd) hsorted
    rw [List.map_map, List.map_map] at hembeddings
    exact hembeddings

/-- Alike snapshots are built alike. -/
theorem LanceSnapshot.Alike.buildRelease {snapshot snapshot' : LanceSnapshot}
    (h : snapshot.Alike snapshot') (env : ReleaseEnv) (format : StaticReleaseFormat)
    (profile : EmbeddingProfile) (source : ReleaseSource) :
    LTSearch.buildRelease env format snapshot'.chunks snapshot'.embeddings profile source =
      LTSearch.buildRelease env format snapshot.chunks snapshot.embeddings profile source := by
  rw [← buildRelease_canonical env format h.names', ← buildRelease_canonical env format h.names, h.chunks,
    h.embeddings]

end Snapshot

/-- One configuration, but for where the table is and at which version. -/
structure StaticBuildConfig.Same (config config' : StaticBuildConfig) : Prop where
  releaseFormat : config.releaseFormat = config'.releaseFormat
  corpusType : config.source.corpusType = config'.source.corpusType
  embeddingProfile : config.source.embeddingProfile = config'.source.embeddingProfile

theorem StaticBuildConfig.Same.symm {config config' : StaticBuildConfig} (h : config.Same config') :
    config'.Same config :=
  ⟨h.releaseFormat.symm, h.corpusType.symm, h.embeddingProfile.symm⟩

theorem StaticBuildConfig.Same.format_eq {config config' : StaticBuildConfig} (h : config.Same config') :
    config'.format = config.format := by
  rw [format, format, h.releaseFormat]

/-- Two runs of the static build with one configuration, over tables with the same rows: the tables may be
at other paths and versions, on other clients. -/
structure SameScan (client client' : LanceClient) (split : JsonSplit) (config config' : StaticBuildConfig) :
    Prop where
  same : config.Same config'
  rows : ∃ batches batches', client.Reads config.source batches ∧
    client'.Reads config'.source batches' ∧ SameRows split batches batches'

/-- The same release from two sources: the release id and the files beside the manifest are the same. -/
structure SameOutput (built built' : ReleaseManifest × ReleaseDir) : Prop where
  releaseId : built'.1.releaseId = built.1.releaseId
  files : ∀ name, name ≠ releaseManifestFile → built'.2 name = built.2 name
  manifest : ∃ source, built'.1 = { built.1 with source }

/-- One run of the static build passes on to the other. -/
theorem runStaticBuild_alike {env : ReleaseEnv} {client client' : LanceClient} {split : JsonSplit}
    {order order' : MetadataOrder} {config config' : StaticBuildConfig} {batches batches' : List RecordBatch}
    (hjson : ∀ manifest, ∃ bytes, env.json.toVec manifest = .ok bytes)
    (hconfig : config.Same config') (hreads : client.Reads config.source batches)
    (hreads' : client'.Reads config'.source batches')
    (halike : DecodeAlike split order order' batches batches') {built : ReleaseManifest × ReleaseDir}
    (h : runStaticBuild env client split order config = .ok built) :
    ∃ built', runStaticBuild env client' split order' config' = .ok built' ∧ SameOutput built built' := by
  obtain ⟨format, snapshot, hchosen, hsnapshot, hbuild⟩ := runStaticBuild_eq_ok.mp h
  obtain ⟨snapshot', hsnapshot', hsame⟩ :=
    loadLanceSnapshot_alike hreads hreads' hconfig.corpusType hconfig.embeddingProfile halike hsnapshot
  rw [← hconfig.format_eq] at hchosen
  -- the snapshots are built alike, and the source enters the manifest only
  rw [← hsame.buildRelease, hconfig.embeddingProfile] at hbuild
  obtain ⟨dir', hbuild', hfiles⟩ := buildRelease_source hjson hbuild (snapshot'.source config'.source)
  exact ⟨_, runStaticBuild_eq_ok.mpr ⟨format, snapshot', hchosen, hsnapshot', hbuild'⟩, rfl, hfiles, _, rfl⟩

/-! ## A sample table -/

namespace SampleTable

open SampleRelease

/-- A batch of these rows. -/
def batchOf (rows : List LanceRow) : RecordBatch where
  numRows := rows.length
  columns := [("doc_id", .utf8 (.ofFn fun i => rows[i].docId)), ("text", .utf8 (.ofFn fun i => rows[i].text)),
    ("metadata", .utf8 (.ofFn fun i => rows[i].metadata)),
    ("embedding", .fixedSizeList (.ofFn fun i => rows[i].embedding))]

theorem rows_batchOf (rows : List LanceRow) : (batchOf rows).rows = .ok rows := by
  have hrows : ((List.finRange rows.length).map fun i => ({
      docId := (Vector.ofFn fun i => rows[i].docId).get i
      text := (Vector.ofFn fun i => rows[i].text).get i
      metadata := (Vector.ofFn fun i => rows[i].metadata).get i
      embedding := (Vector.ofFn fun i => rows[i].embedding).get i } : LanceRow)) = rows := by
    refine Eq.trans (List.map_congr_left fun i _ => ?_) (List.map_get_finRange rows)
    simp only [Vector.get, Vector.toArray_ofFn, Array.getElem_ofFn]
    rfl
  exact congrArg Except.ok hrows

/-- A client that opens every table and scans the same batches. -/
def clientOf (batches : List RecordBatch) : LanceClient where
  Conn := String
  Table := UInt64
  Scan := Unit
  connect path := .ok path
  openTable _ _ := .ok 0
  checkout _ version := .ok version
  execute _ := .ok ()
  collect _ := .ok batches
  version table := .ok table

theorem reads_clientOf (batches : List RecordBatch) (cfg : LanceStaticSourceConfig) :
    (clientOf batches).Reads cfg batches :=
  ⟨cfg.tableVersion, cfg.tableVersion, rfl, rfl⟩

/-- Two metadata texts, each also with its fields in another order, and what they split into. -/
def texts : List (String × JsonText) :=
  [("\x7b\"lang\":\"en\",\"title\":\"First\"\x7d", .obj [("lang", .str "en"), ("title", .str "First")]),
    ("\x7b\"title\":\"First\",\"lang\":\"en\"\x7d", .obj [("title", .str "First"), ("lang", .str "en")]),
    ("\x7b\"at\":\x7b\"act\":\"I\",\"page\":true\x7d\x7d",
      .obj [("at", .obj [("act", .str "I"), ("page", .bool true)])]),
    ("\x7b\"at\":\x7b\"page\":true,\"act\":\"I\"\x7d\x7d",
      .obj [("at", .obj [("page", .bool true), ("act", .str "I")])])]

def split : JsonSplit := fun raw =>
  TurboQuantConfig.okOr "expected value at line 1 column 1" (texts.lookup raw)

/-- The row of `first`, with its metadata as it is written. -/
def firstRow (metadata : String) : LanceRow where
  docId := "doc-1"
  text := "the first text"
  metadata
  embedding := some (.float32 ((unitVector 0).map some))

def secondRow (metadata : String) : LanceRow where
  docId := "doc-2"
  text := "another text"
  metadata
  embedding := some (.float32 ((unitVector 1).map some))

def nested : StaticChunk where
  docId := "doc-2"
  text := "another text"
  metadata := [("at", .obj [("act", .str "I"), ("page", .bool true)])]
  corpusType := .legal

def config (datasetPath : String) (tableVersion : UInt64) : StaticBuildConfig where
  source := { datasetPath, tableVersion, corpusType := .legal, embeddingProfile := profile }
  releaseFormat := some "v3"

/-- The table in one batch, the second row first. -/
def oneBatch : List RecordBatch :=
  [batchOf [secondRow "\x7b\"at\":\x7b\"page\":true,\"act\":\"I\"\x7d\x7d",
    firstRow "\x7b\"lang\":\"en\",\"title\":\"First\"\x7d"]]

/-- The table in two batches, with the fields in another order. -/
def twoBatches : List RecordBatch :=
  [batchOf [firstRow "\x7b\"title\":\"First\",\"lang\":\"en\"\x7d"],
    batchOf [secondRow "\x7b\"at\":\x7b\"act\":\"I\",\"page\":true\x7d\x7d"]]

theorem scannedRows_oneBatch : scannedRows oneBatch =
    .ok [secondRow "\x7b\"at\":\x7b\"page\":true,\"act\":\"I\"\x7d\x7d",
      firstRow "\x7b\"lang\":\"en\",\"title\":\"First\"\x7d"] := by
  simp only [scannedRows, oneBatch, List.mapM_cons, List.mapM_nil, rows_batchOf]
  rfl

theorem scannedRows_twoBatches : scannedRows twoBatches =
    .ok [firstRow "\x7b\"title\":\"First\",\"lang\":\"en\"\x7d",
      secondRow "\x7b\"at\":\x7b\"act\":\"I\",\"page\":true\x7d\x7d"] := by
  simp only [scannedRows, twoBatches, List.mapM_cons, List.mapM_nil, rows_batchOf]
  rfl

theorem sameRows : SameRows split oneBatch twoBatches := by
  refine ⟨_, _, _, scannedRows_oneBatch, scannedRows_twoBatches, by decide, .swap _ _ _,
    .cons ?_ (.cons ?_ .nil)⟩
  · refine ⟨rfl, rfl, rfl, .inr ⟨_, _, rfl, rfl, ?_⟩⟩
    exact .obj (.cons (.str _) (.cons (.str _) .nil)) (.swap _ _ _) (by decide)
  · refine ⟨rfl, rfl, rfl, .inr ⟨_, _, rfl, rfl, ?_⟩⟩
    exact .obj (.cons (.obj (.cons (.bool _) (.cons (.str _) .nil)) (.swap _ _ _) (by decide)) .nil)
      (.refl _) (by decide)

/-- Maps that list their entries as they were put in. -/
def forwards : MetadataOrder where
  entries _ fields := fields
  perm _ fields := .refl fields

/-- Maps that list the last entry first. -/
def backwards : MetadataOrder where
  entries _ fields := fields.reverse
  perm _ fields := fields.reverse_perm

/-- A row with a unit vector decodes to what its texts say. -/
theorem decode_eq {docId text metadata : String} {parsed : JsonText} {fields : Metadata} {axis : Nat}
    (hdocId : docId ≠ "") (htext : text ≠ "") (hsplit : split metadata = .ok parsed)
    (hvalue : parsed.value = .obj fields) (hfields : (fields.map Prod.fst).Nodup) :
    LanceRow.decode split forwards .legal 512
        { docId, text, metadata, embedding := some (.float32 ((unitVector axis).map some)) } =
      .ok ({ docId, text, metadata := fields, corpusType := .legal }, unitVector axis) := by
  have hreduced : ((unitVector axis).map some).reduceOption = unitVector axis := by
    rw [List.reduceOption, List.filterMap_map]
    exact List.filterMap_some
  have hnull : none ∉ (unitVector axis).map some :=
    fun hnone => (List.mem_map.mp hnone).elim fun _ h => Option.some_ne_none _ h.2
  have hembedding : decodeEmbedding (some (.float32 ((unitVector axis).map some))) 512 docId =
      .ok (unitVector axis) := by
    simp only [decodeEmbedding, check_bind_eq_ok, rejectIf_eq_ok, hreduced, List.length_map,
      length_unitVector]
    exact ⟨not_not.mpr rfl, hnull, isFinite_unitVector axis, rfl⟩
  exact decode_eq_ok.mpr ⟨hdocId, htext, fields, _,
    parseMetadataObject_eq_ok.mpr ⟨parsed, fields, hsplit, hvalue, hfields, rfl⟩, hembedding, rfl⟩

theorem loaded : loadLanceSnapshot (clientOf oneBatch) split forwards (config "a.lance" 1).source =
    .ok { chunks := [first, nested], embeddings := [unitVector 0, unitVector 1], tableVersion := 1,
          rowCount := 2 } := by
  have hdecoded : decodeBatches split forwards .legal 512 oneBatch =
      .ok [(nested, unitVector 1), (first, unitVector 0)] := by
    refine decodeBatches_eq_ok.mpr ⟨_, scannedRows_oneBatch, mapM_eq_ok_iff.mpr (.cons ?_ (.cons ?_ .nil))⟩
    · exact decode_eq (by decide) (by decide) rfl rfl (by decide)
    · exact decode_eq (by decide) (by decide) rfl rfl (by decide)
  refine loadLanceSnapshot_eq_ok.mpr ⟨rfl, (1 : UInt64), oneBatch, _, 1, rfl, hdecoded, rfl, ?_⟩
  rw [LanceSnapshot.ofRows, sortBy_pair, if_neg (by decide)]
  rfl

theorem built_oneBatch : ∃ built,
    runStaticBuild (env fun _ => .error "") (clientOf oneBatch) split forwards (config "a.lance" 1) =
      .ok built := by
  have hshort : ∀ chunk ∈ [first, nested], chunk.Short := by
    refine List.forall_mem_cons.mpr ⟨?_, List.forall_mem_singleton.mpr ?_⟩
    · exact ⟨by decide +kernel, by decide +kernel, by decide +kernel, by decide +kernel⟩
    · exact ⟨by decide +kernel, by decide +kernel, by decide +kernel, by decide +kernel⟩
  obtain ⟨manifest, dir, hbuild⟩ := @buildRelease_v3_isOk (env fun _ => .error "") _ _ _
    (source "a.lance" 2) (checked_of_docIds rfl rfl) (by decide) hshort fun _ => ⟨_, rfl⟩
  exact ⟨(manifest, dir), runStaticBuild_eq_ok.mpr ⟨.v3, _, rfl, loaded, hbuild⟩⟩

end SampleTable

/-! ## The same release -/

/-- Static releases are reproducible: of two builds with one configuration over the same rows, in any row
order, split into batches in any way, with the fields of metadata objects in any order, from any path and
version, one succeeds if the other does, with the same release id and the same files. -/
theorem staticBuild_reproducible {env : ReleaseEnv} {client client' : LanceClient} {split : JsonSplit}
    {config config' : StaticBuildConfig} (order order' : MetadataOrder)
    (hjson : ∀ manifest, ∃ bytes, env.json.toVec manifest = .ok bytes)
    (hsame : SameScan client client' split config config') :
    (∀ built, runStaticBuild env client split order config = .ok built →
      ∃ built', runStaticBuild env client' split order' config' = .ok built' ∧
        SameOutput built built') ∧
    ∀ built', runStaticBuild env client' split order' config' = .ok built' →
      ∃ built, runStaticBuild env client split order config = .ok built ∧ SameOutput built' built := by
  obtain ⟨batches, batches', hreads, hreads', hrows⟩ := hsame.rows
  obtain ⟨halike, halike'⟩ := hrows.decodeAlike
  constructor
  · intro built h
    exact runStaticBuild_alike hjson hsame.same hreads hreads' halike h
  · intro built' h
    exact runStaticBuild_alike hjson hsame.same.symm hreads' hreads halike' h

open SampleTable in
/-- Two rows in one batch and in two, in another order, the fields of their metadata too, at two paths and
versions, with maps that list their entries forwards and backwards. -/
theorem staticBuild_reproducible_twoRows : ∃ built built',
    runStaticBuild (SampleRelease.env fun _ => .error "") (clientOf oneBatch) split forwards
      (config "a.lance" 1) = .ok built ∧
    runStaticBuild (SampleRelease.env fun _ => .error "") (clientOf twoBatches) split backwards
      (config "b.lance" 7) = .ok built' ∧ SameOutput built built' := by
  obtain ⟨built, hbuilt⟩ := built_oneBatch
  have hscans : SameScan (clientOf oneBatch) (clientOf twoBatches) split (config "a.lance" 1)
      (config "b.lance" 7) :=
    ⟨⟨rfl, rfl, rfl⟩, oneBatch, twoBatches, reads_clientOf _ _, reads_clientOf _ _, sameRows⟩
  obtain ⟨built', hbuilt', hsame⟩ :=
    (staticBuild_reproducible forwards backwards (fun _ => ⟨_, rfl⟩) hscans).1 built hbuilt
  exact ⟨built, built', hbuilt, hbuilt', hsame⟩

end LTSearch
