/-
# LTSearch.Indexing.Buildable -- when accepted writes can be built

A write is accepted under `Document::validate` and built under `validate_for_embedding_dim`, which
asks one thing more: an embedding that the client supplied must have the configured dimension.  So
a build over accepted segments passes its own checks exactly when the surviving documents do not
carry an embedding of another length, and the build's own clock is plausible.
-/
import LTSearch.Indexing.Replay

namespace LTSearch

open LTSearch.Foundation

/-- The generator never fails and answers finite vectors of the configured dimension. -/
structure SoundGenerator (generator : EmbeddingGenerator) (embeddingDim : Nat) : Prop where
  answers : ∀ text, ∃ embedding, generator text = .ok embedding ∧
    embedding.length = embeddingDim ∧ ∀ x ∈ embedding, x.isFinite = true

/-- The embedding a client supplied, if any, has the configured dimension. -/
def FitsDim (embeddingDim : Nat) (d : Document) : Prop :=
  ∀ embedding ∈ d.embedding, embedding.length = embeddingDim

variable {generator : EmbeddingGenerator} {embeddingDim : Nat}

/-- The document the build checks: the accepted one, embedded. -/
theorem fillEmbedding_eq_ok (hgen : SoundGenerator generator embeddingDim) {d : Document}
    (hd : d.WellFormed) :
    ∃ d', fillEmbedding generator d = .ok d' ∧
      (d'.validateForEmbeddingDim embeddingDim = .ok () ↔ FitsDim embeddingDim d) := by
  unfold fillEmbedding FitsDim
  cases hemb : d.embedding with
  | some embedding =>
      refine ⟨d, rfl, ?_⟩
      rw [Document.validateForEmbeddingDim_eq_ok_iff, hemb]
      exact and_iff_right hd
  | none =>
      obtain ⟨embedding, hans, hlen, hfinite⟩ := hgen.answers d.text
      refine ⟨{ d with embedding := some embedding }, by rw [hans]; rfl, ?_⟩
      rw [Document.validateForEmbeddingDim_eq_ok_iff]
      refine ⟨fun _ e he => (nomatch he), fun _ => ⟨{ hd with embeddingFinite := ?_ }, ?_⟩⟩
      · rintro e ⟨⟩ x hx
        exact hfinite x hx
      · rintro e ⟨⟩
        exact hlen

/-- An accepted document passes the build's check exactly when a supplied embedding fits. -/
theorem embedAndCheck_isOk_iff (hgen : SoundGenerator generator embeddingDim) {d : Document}
    (hd : d.WellFormed) :
    (∃ d', embedAndCheck generator embeddingDim d = .ok d') ↔ FitsDim embeddingDim d := by
  obtain ⟨d', hfill, hvalid⟩ := fillEmbedding_eq_ok hgen hd
  rw [← hvalid]
  unfold embedAndCheck
  constructor
  · rintro ⟨d'', h⟩
    obtain ⟨x, hx, h⟩ := bind_eq_ok.mp h
    rw [hfill] at hx
    cases hx
    exact mapError_eq_ok.mp (check_bind_eq_ok.mp h).1
  · intro h
    exact ⟨d', bind_eq_ok.mpr ⟨d', hfill, check_bind_eq_ok.mpr ⟨mapError_eq_ok.mpr h, rfl⟩⟩⟩

/-- When it does not pass, the error is a validation error. -/
theorem embedAndCheck_error (hgen : SoundGenerator generator embeddingDim) {d : Document}
    (hd : d.WellFormed) {e : IndexError} (h : embedAndCheck generator embeddingDim d = .error e) :
    ∃ source, e = .validation source := by
  obtain ⟨d', hfill, -⟩ := fillEmbedding_eq_ok hgen hd
  unfold embedAndCheck at h
  rcases bind_eq_error.mp h with h | ⟨x, -, h⟩
  · rw [hfill] at h
    cases h
  · rcases bind_eq_error.mp h with h | ⟨u, -, h⟩
    · obtain ⟨source, -, rfl⟩ := mapError_eq_error.mp h
      exact ⟨source, rfl⟩
    · cases h

/-- The condition under which a build over these records passes its checks. -/
def Buildable (embeddingDim : Nat) (createdAt : Int) (records : List WalRecord) : Prop :=
  minPlausibleEpochMillis ≤ createdAt ∧
    ∀ docId d, latestDocument records docId = some d → FitsDim embeddingDim d

/-- A surviving document of well-formed records is well-formed. -/
theorem wellFormed_of_latestDocument {records : List WalRecord} (hwf : ∀ r ∈ records, r.WellFormed)
    {docId : String} {d : Document} (h : latestDocument records docId = some d) : d.WellFormed := by
  obtain ⟨r, hr, hd⟩ := Option.bind_eq_some_iff.mp h
  obtain ⟨hmem, -⟩ := survivor_mem hr
  unfold survivingDocument at hd
  cases hop : r.op with
  | delete =>
      rw [hop] at hd
      cases hd
  | upsert =>
      rw [hop] at hd
      obtain ⟨d', hd', -, hwf'⟩ := (hwf r hmem).document_of_upsert hop
      rw [hd'] at hd
      cases hd
      exact hwf'

/-- A build over well-formed records returns exactly when they are buildable, and fails one of its
own checks exactly when they are not. -/
theorem prepareBuild_iff (hash : HashOrder) (hdim : 0 < embeddingDim)
    (hgen : SoundGenerator generator embeddingDim) {versionId : UInt64} (hversion : versionId ≠ 0)
    (createdAt : Int) {records : List WalRecord} (hwf : ∀ r ∈ records, r.WellFormed) :
    ((∃ result, prepareBuild hash generator { versionId, createdAt, embeddingDim, records } =
        .ok result) ↔ Buildable embeddingDim createdAt records) ∧
    ((∃ source, prepareBuild hash generator { versionId, createdAt, embeddingDim, records } =
        .error (.validation source)) ↔ ¬Buildable embeddingDim createdAt records) := by
  obtain ⟨documents, hdocs⟩ := materializeLatestSnapshot_isOk hash hwf
  obtain ⟨-, -, hmem⟩ := materializeLatestSnapshot_eq_ok hdocs
  have hlatest : ∀ d ∈ documents, latestDocument records d.docId = some d := fun d hd =>
    (hmem d).mp hd
  have hfits : (∀ docId d, latestDocument records docId = some d → FitsDim embeddingDim d) ↔
      ∀ d ∈ documents, FitsDim embeddingDim d := by
    constructor
    · exact fun h d hd => h _ d (hlatest d hd)
    · intro h docId d hd
      have hid := docId_of_latestDocument hwf hd
      exact h d ((hmem d).mpr (hid.symm ▸ hd))
  -- the build is the checks of the documents followed by the manifest
  have hbuild : prepareBuild hash generator { versionId, createdAt, embeddingDim, records } =
      documents.mapM (embedAndCheck generator embeddingDim) >>= fun documents =>
        buildManifest { versionId, createdAt, embeddingDim, records } (vecLen documents) >>=
          fun manifest => pure (documents, manifest) := by
    unfold prepareBuild
    simp only [rejectIf, if_neg hversion, hdocs]
    rfl
  have hcount : ∀ l : List Document, vecLen l < 2 ^ 64 := fun l => Nat.mod_lt _ (by decide)
  have hok : (∃ result, prepareBuild hash generator
      { versionId, createdAt, embeddingDim, records } = .ok result) ↔
        Buildable embeddingDim createdAt records := by
    unfold Buildable
    rw [hbuild, hfits]
    constructor
    · rintro ⟨result, h⟩
      obtain ⟨checked, hchecked, h⟩ := bind_eq_ok.mp h
      obtain ⟨manifest, hmanifest, -⟩ := bind_eq_ok.mp h
      refine ⟨((buildManifest_eq_ok_iff (hcount _)).mp hmanifest).1.2, ?_⟩
      intro d hd
      exact (embedAndCheck_isOk_iff hgen (wellFormed_of_latestDocument hwf (hlatest d hd))).mp
        (isOk_of_mapM_eq_ok hchecked d hd)
    · rintro ⟨hclock, hall⟩
      obtain ⟨checked, hchecked⟩ := mapM_isOk fun d hd =>
        (embedAndCheck_isOk_iff hgen (wellFormed_of_latestDocument hwf (hlatest d hd))).mpr
          (hall d hd)
      have hmanifest : buildManifest { versionId, createdAt, embeddingDim, records }
          (vecLen checked) = .ok _ :=
        (buildManifest_eq_ok_iff (hcount checked)).mpr ⟨⟨hdim, hclock⟩, rfl⟩
      exact ⟨_, bind_eq_ok.mpr ⟨checked, hchecked, bind_eq_ok.mpr ⟨_, hmanifest, rfl⟩⟩⟩
  refine ⟨hok, ?_⟩
  rw [← hok]
  constructor
  · rintro ⟨source, h⟩ ⟨result, h'⟩
    rw [h] at h'
    cases h'
  · intro hnot
    cases hr : prepareBuild hash generator { versionId, createdAt, embeddingDim, records } with
    | ok result => exact absurd ⟨result, hr⟩ hnot
    | error e =>
        rw [hbuild] at hr
        rcases bind_eq_error.mp hr with h | ⟨checked, -, h⟩
        · obtain ⟨d, hd, he⟩ := mapM_eq_error h
          obtain ⟨source, rfl⟩ := embedAndCheck_error hgen
            (wellFormed_of_latestDocument hwf (hlatest d hd)) he
          exact ⟨source, rfl⟩
        · rcases bind_eq_error.mp h with h | ⟨manifest, -, h⟩
          · obtain ⟨source, rfl⟩ := buildManifest_error h
            exact ⟨source, rfl⟩
          · cases h

/-- Over whichever accepted segments, read in whichever order: the records all pass their check again,
and the build fails a validation of its own exactly when it reaches them (the version is not zero)
and the surviving documents or its clock are not buildable. -/
theorem accepted_writes_build_iff (json : Serde WalRecord) (hash : HashOrder)
    (hdim : 0 < embeddingDim) (hgen : SoundGenerator generator embeddingDim)
    {order : List AcceptedBatch} (hjson : ∀ b ∈ order, ∀ r ∈ b.write.records, Storable json r)
    (versionId : UInt64) (createdAt : Int) :
    readSegments json order = .ok (order.map (·.write.records)) ∧
    ((¬∃ source, prepareBuild hash generator
        { versionId, createdAt, embeddingDim
          records := (order.map (·.write.records)).flatten } = .error (.validation source)) ↔
      versionId = 0 ∨ Buildable embeddingDim createdAt (order.map (·.write.records)).flatten) ∧
    (versionId ≠ 0 → Buildable embeddingDim createdAt (order.map (·.write.records)).flatten →
      ∃ result, prepareBuild hash generator
        { versionId, createdAt, embeddingDim
          records := (order.map (·.write.records)).flatten } = .ok result) := by
  have hwf : ∀ r ∈ (order.map (·.write.records)).flatten, r.WellFormed := by
    intro r hr
    obtain ⟨records, hrecords, hr⟩ := List.mem_flatten.mp hr
    obtain ⟨b, -, rfl⟩ := List.mem_map.mp hrecords
    exact b.wellFormed r hr
  refine ⟨readSegments_eq_ok hjson, ?_, ?_⟩
  · by_cases hversion : versionId = 0
    · refine iff_of_true ?_ (.inl hversion)
      rintro ⟨source, h⟩
      unfold prepareBuild at h
      rw [hversion] at h
      cases h
    · rw [(prepareBuild_iff hash hdim hgen hversion createdAt hwf).2, not_not]
      exact (or_iff_right hversion).symm
  · intro hversion
    exact (prepareBuild_iff hash hdim hgen hversion createdAt hwf).1.mpr

/-- A generator of the dimension the documentation fixes. -/
def halfGenerator : EmbeddingGenerator := fun _ => .ok (List.replicate 512 ⟨0x3f000000#32⟩)

theorem halfGenerator_sound : SoundGenerator halfGenerator 512 where
  answers := by
    intro text
    refine ⟨_, rfl, List.length_replicate, ?_⟩
    intro x hx
    rw [List.eq_of_mem_replicate hx]
    decide

theorem accepted_writes_build_sample :
    (¬∃ source, prepareBuild insertionOrder halfGenerator
      { versionId := 1, createdAt := 1784000002000, embeddingDim := 512
        records := ([ingestedBatch none (by simp), deletedBatch].map (·.write.records)).flatten } =
        .error (.validation source)) ↔
      (1 : UInt64) = 0 ∨ Buildable 512 1784000002000
        ([ingestedBatch none (by simp), deletedBatch].map (·.write.records)).flatten :=
  (accepted_writes_build_iff (sampleJson none "null") insertionOrder (by decide) halfGenerator_sound storable_sampleJson
    1 1784000002000).2.1

/-- The vector `[0.5]`. -/
def shortEmbedding : List F32 := [⟨0x3f000000#32⟩]

theorem shortEmbedding_finite : ∀ e ∈ some shortEmbedding, ∀ x ∈ e, x.isFinite = true := by
  rintro e ⟨⟩ x hx
  rw [List.mem_singleton.mp hx]
  decide

/-- A client sends one document with a one-entry embedding: the write is accepted, its segment reads
back, and every build of dimension 512 over it fails the check of documents. -/
theorem accepted_write_not_buildable :
    readSegments (sampleJson (some shortEmbedding) "[0.5]")
        [ingestedBatch (some shortEmbedding) shortEmbedding_finite] =
      .ok [(ingestedBatch (some shortEmbedding) shortEmbedding_finite).write.records] ∧
    ∃ source, prepareBuild insertionOrder halfGenerator
      { versionId := 1, createdAt := 1784000002000, embeddingDim := 512
        records := (ingestedBatch (some shortEmbedding) shortEmbedding_finite).write.records } =
      .error (.validation source) := by
  constructor
  · refine readSegments_eq_ok fun b hb r hr => ?_
    obtain rfl := List.mem_singleton.mp hb
    obtain rfl := List.mem_singleton.mp hr
    exact storable_upsert _ (by unfold OneLine; decide +kernel)
  have hwf := (ingestedBatch (some shortEmbedding) shortEmbedding_finite).wellFormed
  refine (prepareBuild_iff insertionOrder (by decide) halfGenerator_sound (by decide) _ hwf).2.mpr ?_
  rintro ⟨-, hfits⟩
  have hlatest : latestDocument
      (ingestedBatch (some shortEmbedding) shortEmbedding_finite).write.records "doc-1" =
      some (sampleDocument (some shortEmbedding)) := by
    simp [latestDocument, survivor, ingestedBatch, upsertRecord, sampleDocument, lastWriter,
      keepLater, survivingDocument]
  exact absurd (hfits _ _ hlatest shortEmbedding rfl) (by decide)

end LTSearch
