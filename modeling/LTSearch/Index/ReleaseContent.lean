/-
# LTSearch.Index.ReleaseContent -- a release id names the rows

Reproducibility read backwards.  Of two static builds with one configuration the release ids are equal
exactly if the snapshots hold the same rows: `doc_id`, text, vector and the value of the metadata.  Two
digests stand between an id and the rows, one of the rows and one of what enters the id; SHA-256 is assumed
not to collide on the strings that the two builds hash, and nothing more.  Under the digests the bytes are
read back field by field, and a metadata text is the text of one value only.
-/
import LTSearch.Index.ReadBack
import LTSearch.Index.Reproducible
import LTSearch.Indexing.ReleaseIdentity
import LTSearch.JsonRender

namespace LTSearch

open LTSearch.Foundation

/-! ## Parsed values -/

namespace JsonText

open Json (Printed)

mutual

/-- A parsed value holds numbers as they print. -/
theorem printed_value : ∀ text : JsonText, Printed text.value
  | null => .null
  | bool b => .bool b
  | num number => .num number
  | str s => .str s
  | arr items => .arr _ (printed_valueItems items)
  | obj fields => .obj _ fun field hfield => printed_valueFields fields field (mem_of_mem_ofEntries hfield)

theorem printed_valueItems : ∀ items : List JsonText, ∀ item ∈ valueItems items, Printed item
  | [] => nofun
  | item :: rest => List.forall_mem_cons.mpr ⟨printed_value item, printed_valueItems rest⟩

theorem printed_valueFields :
    ∀ fields : List (String × JsonText), ∀ field ∈ valueFields fields, Printed field.2
  | [] => nofun
  | (_, field) :: rest => List.forall_mem_cons.mpr ⟨printed_value field, printed_valueFields rest⟩

end

end JsonText

/-- A chunk of the corpus whose metadata was parsed. -/
structure StaticChunk.Parsed (corpusType : CorpusType) (chunk : StaticChunk) : Prop where
  corpusType_eq : chunk.corpusType = corpusType
  printed : ∀ field ∈ chunk.metadata, Json.Printed field.2

theorem LanceRow.parsed_of_decode {split : JsonSplit} {order : MetadataOrder} {corpusType : CorpusType}
    {expectedDim : Nat} {row : LanceRow} {decoded : EmbeddedChunk}
    (h : row.decode split order corpusType expectedDim = .ok decoded) : decoded.1.Parsed corpusType := by
  obtain ⟨-, -, metadata, embedding, hmetadata, -, rfl⟩ := decode_eq_ok.mp h
  obtain ⟨text, fields, -, hvalue, -, rfl⟩ := parseMetadataObject_eq_ok.mp hmetadata
  refine ⟨rfl, fun field hfield => ?_⟩
  have hprinted := text.printed_value
  rw [hvalue] at hprinted
  cases hprinted with
  | obj _ each => exact each field ((order.perm row.docId fields).mem_iff.mp hfield)

/-- The digested row of a parsed chunk says which chunk it is, up to the order of the entries. -/
theorem EmbeddedChunk.canonical_eq_of_row_eq {corpusType : CorpusType} {chunk chunk' : EmbeddedChunk}
    (h : chunk.1.Parsed corpusType) (h' : chunk'.1.Parsed corpusType)
    (hrow : EmbeddedChunk.row chunk = EmbeddedChunk.row chunk') :
    EmbeddedChunk.canonical chunk = EmbeddedChunk.canonical chunk' := by
  obtain ⟨⟨docId, text, metadata, corpus⟩, embedding⟩ := chunk
  obtain ⟨⟨docId', text', metadata', corpus'⟩, embedding'⟩ := chunk'
  obtain ⟨rfl, hprinted⟩ := h
  obtain ⟨rfl, hprinted'⟩ := h'
  simp only [row, metaJsonBytes, CanonicalRow.mk.injEq] at hrow
  obtain ⟨rfl, rfl, rfl, hjson⟩ := hrow
  have hentries : Json.obj (ofEntries metadata) = Json.obj (ofEntries metadata') :=
    Json.render_inj (.obj _ fun field hfield => hprinted field (mem_of_mem_ofEntries hfield))
      (.obj _ fun field hfield => hprinted' field (mem_of_mem_ofEntries hfield)) (utf8_inj hjson)
  simp only [canonical, StaticChunk.canonical, Json.obj.inj hentries]

/-! ## The rows of a snapshot -/

namespace LanceSnapshot

/-- The rows that are digested. -/
def rows (snapshot : LanceSnapshot) : List EmbeddedChunk := snapshot.chunks.zip snapshot.embeddings

/-- What the content digest is taken of. -/
def contentBytes (snapshot : LanceSnapshot) : Bytes :=
  (snapshot.rows.map EmbeddedChunk.row).flatMap CanonicalRow.bytes

/-- The same rows, whatever order the maps list their entries in. -/
def SameRows (snapshot snapshot' : LanceSnapshot) : Prop :=
  snapshot'.rows.map EmbeddedChunk.canonical = snapshot.rows.map EmbeddedChunk.canonical

variable {snapshot snapshot' : LanceSnapshot}

theorem Alike.sameRows (h : snapshot.Alike snapshot') : snapshot.SameRows snapshot' := by
  have hmap : ∀ snapshot : LanceSnapshot, snapshot.rows.map EmbeddedChunk.canonical =
      (snapshot.chunks.map StaticChunk.canonical).zip snapshot.embeddings := by
    intro snapshot
    rw [List.zip_map_left]
    rfl
  rw [SameRows, hmap, hmap, h.chunks, h.embeddings]

/-- The digested bytes leave the order of the entries out. -/
theorem SameRows.contentBytes_eq (h : snapshot.SameRows snapshot') :
    snapshot.contentBytes = snapshot'.contentBytes := by
  have hrow : ∀ chunk : EmbeddedChunk, EmbeddedChunk.row (EmbeddedChunk.canonical chunk) =
      EmbeddedChunk.row chunk := by
    intro chunk
    simp only [EmbeddedChunk.row, EmbeddedChunk.metaJsonBytes, EmbeddedChunk.canonical,
      StaticChunk.canonicalMetadataJson_canonical]
    rfl
  have hmap : ∀ snapshot : LanceSnapshot, snapshot.rows.map EmbeddedChunk.row =
      (snapshot.rows.map EmbeddedChunk.canonical).map EmbeddedChunk.row := by
    intro snapshot
    rw [List.map_map]
    exact List.map_congr_left fun chunk _ => (hrow chunk).symm
  rw [contentBytes, contentBytes, hmap, hmap snapshot', h]

end LanceSnapshot

section Content

variable {client : LanceClient} {split : JsonSplit} {order : MetadataOrder} {cfg : LanceStaticSourceConfig}
  {snapshot : LanceSnapshot}

/-- What a loaded snapshot holds. -/
theorem loaded_facts (h : loadLanceSnapshot client split order cfg = .ok snapshot) :
    snapshot.rows.map Prod.fst = snapshot.chunks ∧ snapshot.rows.map Prod.snd = snapshot.embeddings ∧
      ∀ chunk ∈ snapshot.rows, chunk.1.DistinctNames ∧ chunk.1.Parsed cfg.corpusType := by
  obtain ⟨-, table, batches, decoded, version, -, hdecoded, -, rfl⟩ := loadLanceSnapshot_eq_ok.mp h
  obtain ⟨stored, -, hdecoded⟩ := decodeBatches_eq_ok.mp hdecoded
  have hrows : (LanceSnapshot.ofRows decoded version).rows = sortBy (fun row => row.1.docId) decoded :=
    (List.zip_of_prod rfl rfl).symm
  rw [hrows]
  refine ⟨rfl, rfl, fun chunk hchunk => ?_⟩
  obtain ⟨row, -, hrow⟩ := exists_of_mapM hdecoded ((sortBy_perm _ _).mem_iff.mp hchunk)
  exact ⟨(LanceRow.chunk_of_decode hrow).2, LanceRow.parsed_of_decode hrow⟩

end Content

/-! ## What a build digests -/

section Built

variable {env : ReleaseEnv} {format : StaticReleaseFormat} {profile : EmbeddingProfile}
  {snapshot snapshot' : LanceSnapshot} {source source' : ReleaseSource}
  {manifest manifest' : ReleaseManifest} {dir dir' : ReleaseDir}

/-- The parts of the id of a built release. -/
theorem idBytes_of_built (h : buildRelease env format snapshot.chunks snapshot.embeddings profile source =
      .ok (manifest, dir)) : ∃ codec manifestCodec outputs,
    ReleaseCodec.generate env.gen format = .ok codec ∧ codec.manifestCodec = .ok manifestCodec ∧
      manifest.releaseId = sha256Hex env.sha manifest.idBytes ∧
      manifest.idBytes = releaseIdBytes format.turboVersion profile manifestCodec
        (sha256Hex env.sha snapshot.contentBytes) outputs := by
  obtain ⟨codec, blobs, built⟩ := built_of_buildRelease h
  obtain ⟨names, outputs, manifestCodec, bytes, -, -, hcodec, rfl, -, -⟩ := built.manifest
  refine ⟨codec, manifestCodec, outputs, built.generate, hcodec, rfl, ?_⟩
  show releaseIdBytes _ _ _ (contentDigest _ _) _ = _
  rw [contentDigest, built.written.holds.canonicalRows]
  rfl

/-- The rows of a built release fit the prefixes of their parts. -/
theorem fits_of_built (h : buildRelease env format snapshot.chunks snapshot.embeddings profile source =
      .ok (manifest, dir)) : ∀ row ∈ snapshot.rows.map EmbeddedChunk.row, row.Fits := by
  obtain ⟨codec, blobs, built⟩ := built_of_buildRelease h
  have hpiece : ∀ (f : EmbeddedChunk → Bytes) {chunk : EmbeddedChunk}, chunk ∈ snapshot.rows →
      (snapshot.rows.flatMap f).length < 2 ^ 63 → (f chunk).length < 2 ^ 64 := by
    intro f chunk hchunk hsmall
    obtain ⟨i, hi, rfl⟩ := List.getElem_of_mem hchunk
    have hbound := flatMap_piece_le f hi
    omega
  intro row hrow
  obtain ⟨chunk, hchunk, rfl⟩ := List.mem_map.mp hrow
  refine ⟨hpiece _ hchunk built.written.docid_small, ?_, hpiece _ hchunk built.written.text_small,
    hpiece _ hchunk built.written.metaJson_small⟩
  show chunk.2.length < 2 ^ 64
  have hdim := format.codecConfig.dim.toNat_lt
  rw [length_of_checked built.checked hchunk]
  omega

theorem fitsPrefix_sha256Hex (sha : Sha256) (bytes : Bytes) : FitsPrefix (sha256Hex sha bytes) := by
  rw [FitsPrefix, length_utf8_sha256Hex]
  decide

/-- Builds of one format and profile with one id are of the same digested rows. -/
theorem rows_eq_of_releaseId_eq
    (h : buildRelease env format snapshot.chunks snapshot.embeddings profile source = .ok (manifest, dir))
    (h' : buildRelease env format snapshot'.chunks snapshot'.embeddings profile source' =
      .ok (manifest', dir'))
    (hid : env.sha.digest manifest.idBytes = env.sha.digest manifest'.idBytes →
      manifest.idBytes = manifest'.idBytes)
    (hcontent : env.sha.digest snapshot.contentBytes = env.sha.digest snapshot'.contentBytes →
      snapshot.contentBytes = snapshot'.contentBytes)
    (heq : manifest.releaseId = manifest'.releaseId) :
    snapshot.rows.map EmbeddedChunk.row = snapshot'.rows.map EmbeddedChunk.row := by
  obtain ⟨codec, manifestCodec, outputs, hgenerate, hcodec, hreleaseId, hbytes⟩ := idBytes_of_built h
  obtain ⟨codec', manifestCodec', outputs', hgenerate', hcodec', hreleaseId', hbytes'⟩ := idBytes_of_built h'
  -- one format, one codec: the two preimages start with the same fields
  obtain rfl := Except.ok.inj (hgenerate.symm.trans hgenerate')
  obtain rfl := Except.ok.inj (hcodec.symm.trans hcodec')
  have hpreimage : manifest.idBytes = manifest'.idBytes :=
    hid (hexEncode_inj (hreleaseId.symm.trans (heq.trans hreleaseId')))
  rw [hbytes, hbytes'] at hpreimage
  simp only [releaseIdBytes, List.append_cancel_left_eq] at hpreimage
  have hdigest := (selfDelimiting_text (fitsPrefix_sha256Hex _ _) (fitsPrefix_sha256Hex _ _) _ _ hpreimage).1
  exact rows_eq_of_bytes_eq (fits_of_built h) (fits_of_built h') (hcontent (hexEncode_inj hdigest))

/-- Builds of the same chunks from two sources have one id. -/
theorem releaseId_eq_of_chunks {chunks : List StaticChunk} {embeddings : List (List F32)}
    (h : buildRelease env format chunks embeddings profile source = .ok (manifest, dir))
    (h' : buildRelease env format chunks embeddings profile source' = .ok (manifest', dir')) :
    manifest.releaseId = manifest'.releaseId := by
  simp only [buildRelease, bind_eq_ok] at h h'
  obtain ⟨_, -, codec, hcodec, blobs, hblobs, _, -, names, hnames, outputs, houtputs, manifestCodec,
    hmanifestCodec, bytes, -, h⟩ := h
  obtain ⟨_, -, codec', hcodec', blobs', hblobs', _, -, names', hnames', outputs', houtputs', manifestCodec',
    hmanifestCodec', bytes', -, h'⟩ := h'
  cases hcodec.symm.trans hcodec'
  cases hblobs.symm.trans hblobs'
  cases hnames.symm.trans hnames'
  cases houtputs.symm.trans houtputs'
  cases hmanifestCodec.symm.trans hmanifestCodec'
  cases h
  cases h'
  rfl

end Built

/-! ## Ids and rows -/

/-- Lists that are alike under a function are alike under what it determines. -/
theorem map_eq_of_map_eq {α β γ : Type} {f : α → β} {g : α → γ} {l l' : List α}
    (hfg : ∀ a ∈ l, ∀ b ∈ l', f a = f b → g a = g b) (h : l.map f = l'.map f) : l.map g = l'.map g := by
  have hall : List.Forall₂ (fun a b => f a = f b) l l' := by
    rw [← List.forall₂_eq_eq_eq, List.forall₂_map_left_iff, List.forall₂_map_right_iff] at h
    exact h
  clear h
  induction hall with
  | nil => rfl
  | cons hab _ ih =>
      rw [List.map_cons, List.map_cons, hfg _ List.mem_cons_self _ List.mem_cons_self hab,
        ih fun a ha b hb => hfg a (List.mem_cons_of_mem _ ha) b (List.mem_cons_of_mem _ hb)]

section Ids

variable {env : ReleaseEnv} {client client' : LanceClient} {split : JsonSplit}
  {order order' : MetadataOrder} {config config' : StaticBuildConfig} {snapshot snapshot' : LanceSnapshot}
  {built built' : ReleaseManifest × ReleaseDir}

/-- Snapshots of the same rows are alike. -/
theorem LanceSnapshot.SameRows.alike (h : snapshot.SameRows snapshot')
    (hsnapshot : loadLanceSnapshot client split order config.source = .ok snapshot)
    (hsnapshot' : loadLanceSnapshot client' split order' config'.source = .ok snapshot') :
    snapshot.Alike snapshot' := by
  obtain ⟨hchunks, hembeddings, hfacts⟩ := loaded_facts hsnapshot
  obtain ⟨hchunks', hembeddings', hfacts'⟩ := loaded_facts hsnapshot'
  have hfst := congrArg (List.map Prod.fst) h
  have hsnd := congrArg (List.map Prod.snd) h
  rw [List.map_map, List.map_map] at hfst hsnd
  refine ⟨?_, hembeddings' ▸ hembeddings ▸ hsnd, ?_, ?_⟩
  · rw [← hchunks, ← hchunks', List.map_map, List.map_map]
    exact hfst
  · rw [← hchunks]
    exact List.forall_mem_map.mpr fun chunk hchunk => (hfacts chunk hchunk).1
  · rw [← hchunks']
    exact List.forall_mem_map.mpr fun chunk hchunk => (hfacts' chunk hchunk).1

/-- A release id names the rows: two static builds with one configuration have the same id exactly if
their snapshots hold the same rows, unless SHA-256 collides on what they hash. -/
theorem releaseId_eq_iff_sameRows (hconfig : config.Same config')
    (hsnapshot : loadLanceSnapshot client split order config.source = .ok snapshot)
    (hsnapshot' : loadLanceSnapshot client' split order' config'.source = .ok snapshot')
    (hbuilt : runStaticBuild env client split order config = .ok built)
    (hbuilt' : runStaticBuild env client' split order' config' = .ok built')
    (hid : env.sha.digest built.1.idBytes = env.sha.digest built'.1.idBytes →
      built.1.idBytes = built'.1.idBytes)
    (hcontent : env.sha.digest snapshot.contentBytes = env.sha.digest snapshot'.contentBytes →
      snapshot.contentBytes = snapshot'.contentBytes) :
    built.1.releaseId = built'.1.releaseId ↔ snapshot.SameRows snapshot' := by
  obtain ⟨format, _, hchosen, hloaded, hbuild⟩ := runStaticBuild_eq_ok.mp hbuilt
  obtain ⟨format', _, hchosen', hloaded', hbuild'⟩ := runStaticBuild_eq_ok.mp hbuilt'
  obtain rfl := Except.ok.inj (hsnapshot.symm.trans hloaded)
  obtain rfl := Except.ok.inj (hsnapshot'.symm.trans hloaded')
  rw [hconfig.format_eq] at hchosen'
  obtain rfl := Except.ok.inj (hchosen.symm.trans hchosen')
  rw [← hconfig.embeddingProfile] at hbuild'
  constructor
  · intro heq
    have hrows := rows_eq_of_releaseId_eq hbuild hbuild' hid hcontent heq
    refine (map_eq_of_map_eq (fun chunk hchunk chunk' hchunk' => ?_) hrows).symm
    have hparsed' := ((loaded_facts hsnapshot').2.2 chunk' hchunk').2
    rw [← hconfig.corpusType] at hparsed'
    exact EmbeddedChunk.canonical_eq_of_row_eq ((loaded_facts hsnapshot).2.2 chunk hchunk).2 hparsed'
  · intro hsame
    rw [(hsame.alike hsnapshot hsnapshot').buildRelease] at hbuild'
    exact releaseId_eq_of_chunks hbuild hbuild'

end Ids

open SampleTable in
/-- The two scans of the sample table: one id, and the same rows. -/
theorem releaseId_eq_iff_sameRows_twoRows : ∃ snapshot snapshot' built built',
    loadLanceSnapshot (clientOf oneBatch) split forwards (config "a.lance" 1).source = .ok snapshot ∧
    loadLanceSnapshot (clientOf twoBatches) split backwards (config "b.lance" 7).source = .ok snapshot' ∧
    runStaticBuild (SampleRelease.env fun _ => .error "") (clientOf oneBatch) split forwards
      (config "a.lance" 1) = .ok built ∧
    runStaticBuild (SampleRelease.env fun _ => .error "") (clientOf twoBatches) split backwards
      (config "b.lance" 7) = .ok built' ∧
    built.1.releaseId = built'.1.releaseId ∧ snapshot.SameRows snapshot' := by
  obtain ⟨built, hbuilt⟩ := built_oneBatch
  have halike : DecodeAlike split forwards backwards oneBatch twoBatches := sameRows.decodeAlike.1
  have hconfig : (config "a.lance" 1).Same (config "b.lance" 7) := ⟨rfl, rfl, rfl⟩
  have hreads := reads_clientOf oneBatch (config "a.lance" 1).source
  have hreads' := reads_clientOf twoBatches (config "b.lance" 7).source
  obtain ⟨snapshot', hsnapshot', hsnapshots⟩ :=
    loadLanceSnapshot_alike hreads hreads' hconfig.corpusType hconfig.embeddingProfile halike loaded
  obtain ⟨built', hbuilt', hout⟩ := runStaticBuild_alike (fun _ => ⟨_, rfl⟩) hconfig hreads hreads'
    halike hbuilt
  have hidBytes : built.1.idBytes = built'.1.idBytes := by
    obtain ⟨source, hmanifest⟩ := hout.manifest
    rw [hmanifest]
    rfl
  have hiff := releaseId_eq_iff_sameRows hconfig loaded hsnapshot' hbuilt hbuilt'
    (fun _ => hidBytes) fun _ => hsnapshots.sameRows.contentBytes_eq
  exact ⟨_, snapshot', built, built', loaded, hsnapshot', hbuilt, hbuilt', hiff.mpr hsnapshots.sameRows,
    hiff.mp hout.releaseId.symm⟩

end LTSearch
