/-
# LTSearch.Indexing.Builder -- from WAL records to the documents and the manifest of a version

The part of `LocalIndexBuilder::build` before anything is written: the snapshot of the records, the
embedding of the documents that lack one, the checks, the manifest.  The iteration order of the
hash map is a parameter (`HashOrder`): any permutation of its entries.
-/
import LTSearch.Models.Write
import LTSearch.Foundation.Table
import LTSearch.Foundation.LastWriter

namespace LTSearch

open LTSearch.Foundation

def artifactBucket : String := "local-artifacts"

/-- `Vec::len`, a `usize`. -/
def vecLen {α : Type} (l : List α) : Nat := l.length % 2 ^ 64

/-- The order in which a `HashMap` hands out its values. -/
structure HashOrder where
  order : List WalRecord → List WalRecord
  perm : ∀ l, (order l).Perm l

structure BuildIndexRequest where
  versionId : UInt64
  createdAt : Int
  embeddingDim : Nat
  records : List WalRecord

/-- One iteration of the loop of `materialize_latest_snapshot`. -/
def keepRecord (latestByDocId : Table WalRecord.docId) (record : WalRecord) :
    Table WalRecord.docId :=
  match latestByDocId.get record.docId with
  | some current => if current.timestamp > record.timestamp then latestByDocId
      else latestByDocId.put record
  | none => latestByDocId.put record

/-- The map `latest_by_doc_id`; every record is checked when the loop reaches it. -/
def latestByDocId (records : List WalRecord) : Except IndexError (Table WalRecord.docId) :=
  records.foldlM (fun latest record => do
    record.validate.mapError IndexError.validation
    return keepRecord latest record) ∅

/-- The document an operation leaves behind. -/
def survivingDocument (record : WalRecord) : Option Document :=
  match record.op with
  | .upsert => record.document
  | .delete => none

/-- `materialize_latest_snapshot`. -/
def materializeLatestSnapshot (hash : HashOrder) (records : List WalRecord) :
    Except IndexError (List Document) := do
  let latest ← latestByDocId records
  let documents := (hash.order latest.rows).filterMap survivingDocument
  return documents.insertionSort (fun left right => left.docId ≤ right.docId)

/-- An `EmbeddingGenerator`: the vector of a text, or an error text. -/
abbrev EmbeddingGenerator := String → Except String (List F32)

/-- Give a document an embedding when it came without one. -/
def fillEmbedding (generator : EmbeddingGenerator) (document : Document) :
    Except IndexError Document :=
  match document.embedding with
  | some _ => .ok document
  | none => do
      let embedding ← (generator document.text).mapError IndexError.operation
      return { document with embedding := some embedding }

/-- One iteration of the loop of `build` over its documents. -/
def embedAndCheck (generator : EmbeddingGenerator) (embeddingDim : Nat) (document : Document) :
    Except IndexError Document := do
  let document ← fillEmbedding generator document
  (document.validateForEmbeddingDim embeddingDim).mapError IndexError.validation
  return document

/-- `build_manifest`, before its check. -/
def manifestOf (request : BuildIndexRequest) (documentCount : Nat) : IndexManifest where
  versionId := request.versionId
  createdAt := request.createdAt
  embeddingDim := request.embeddingDim
  documentCount := documentCount
  numShards := 1
  shards := [{
    shardId := 0
    documentCount := documentCount
    lancePath := "s3://" ++ artifactBucket ++ "/lance/v" ++ toString request.versionId ++ "/shard_0"
    tantivyPath := "s3://" ++ artifactBucket ++ "/index/v" ++ toString request.versionId
      ++ "/shard_0" }]

/-- `build_manifest`. -/
def buildManifest (request : BuildIndexRequest) (documentCount : Nat) :
    Except IndexError IndexManifest := do
  (manifestOf request documentCount).validate.mapError IndexError.validation
  return manifestOf request documentCount

/-- `LocalIndexBuilder::build` up to the manifest. -/
def prepareBuild (hash : HashOrder) (generator : EmbeddingGenerator) (request : BuildIndexRequest) :
    Except IndexError (List Document × IndexManifest) := do
  rejectIf (request.versionId = 0) (.operation "version_id must be positive")
  let documents ← materializeLatestSnapshot hash request.records
  let documents ← documents.mapM (embedAndCheck generator request.embeddingDim)
  let manifest ← buildManifest request (vecLen documents)
  return (documents, manifest)

/-! ## The snapshot -/

theorem get_keepRecord (latest : Table WalRecord.docId) (record : WalRecord) (docId : String) :
    (keepRecord latest record).get docId =
      if record.docId = docId then keepLater WalRecord.timestamp (latest.get docId) record
      else latest.get docId := by
  unfold keepRecord
  by_cases hk : record.docId = docId
  · subst hk
    rw [if_pos rfl]
    cases hget : latest.get record.docId with
    | none => simp only [Table.get_put, if_true, keepLater]
    | some current =>
        by_cases hlt : current.timestamp > record.timestamp
        · simp only [if_pos hlt, hget, keepLater]
        · simp only [if_neg hlt, Table.get_put, if_true, keepLater]
  · rw [if_neg hk]
    cases latest.get record.docId with
    | none => simp only [Table.get_put, if_neg hk]
    | some current =>
        by_cases hlt : current.timestamp > record.timestamp
        · simp only [if_pos hlt]
        · simp only [if_neg hlt, Table.get_put, if_neg hk]

/-- The map is there exactly when every record passes its check; under each id it holds the last
writer among the records of that id. -/
theorem latestByDocId_eq_ok {records : List WalRecord} {latest : Table WalRecord.docId}
    (h : latestByDocId records = .ok latest) :
    (∀ r ∈ records, r.WellFormed) ∧ ∀ docId, latest.get docId =
      lastWriter WalRecord.timestamp (records.filter fun r => r.docId = docId) := by
  induction records using List.reverseRecOn generalizing latest with
  | nil =>
      cases h
      exact ⟨fun r hr => absurd hr List.not_mem_nil, fun docId => rfl⟩
  | append_singleton records r ih =>
      unfold latestByDocId at h
      rw [List.foldlM_append, bind_eq_ok] at h
      obtain ⟨before, hbefore, h⟩ := h
      rw [List.foldlM_cons, bind_eq_ok] at h
      obtain ⟨after, h, hafter⟩ := h
      rw [List.foldlM_nil] at hafter
      rw [check_bind_eq_ok] at h
      obtain ⟨hvalid, h⟩ := h
      cases h
      cases hafter
      obtain ⟨hwf, hget⟩ := ih hbefore
      refine ⟨?_, ?_⟩
      · intro x hx
        rcases List.mem_append.mp hx with hx | hx
        · exact hwf x hx
        · rw [List.mem_singleton.mp hx]
          exact WalRecord.validate_eq_ok_iff.mp (mapError_eq_ok.mp hvalid)
      · intro docId
        rw [get_keepRecord, hget, List.filter_append]
        by_cases hk : r.docId = docId
        · rw [if_pos hk, List.filter_singleton, decide_eq_true hk]
          unfold lastWriter
          rw [List.foldl_append]
          rfl
        · rw [if_neg hk, List.filter_singleton, decide_eq_false hk]
          simp

theorem latestByDocId_isOk {records : List WalRecord} (h : ∀ r ∈ records, r.WellFormed) :
    ∃ latest, latestByDocId records = .ok latest := by
  induction records using List.reverseRecOn with
  | nil => exact ⟨∅, rfl⟩
  | append_singleton records r ih =>
      obtain ⟨before, hbefore⟩ := ih fun x hx => h x (List.mem_append_left _ hx)
      have hr := WalRecord.validate_eq_ok_iff.mpr (h r (by simp))
      refine ⟨keepRecord before r, ?_⟩
      unfold latestByDocId at hbefore ⊢
      rw [List.foldlM_append, hbefore]
      change (do
        (r.validate.mapError IndexError.validation)
        return keepRecord before r) >>= _ = _
      rw [hr]
      rfl

/-- The last writer of a document id among the records read. -/
def survivor (records : List WalRecord) (docId : String) : Option WalRecord :=
  lastWriter WalRecord.timestamp (records.filter fun r => r.docId = docId)

/-- The document with this id that the records amount to. -/
def latestDocument (records : List WalRecord) (docId : String) : Option Document :=
  (survivor records docId).bind survivingDocument

theorem survivor_mem {records : List WalRecord} {docId : String} {r : WalRecord}
    (h : survivor records docId = some r) : r ∈ records ∧ r.docId = docId := by
  obtain ⟨hmem, -⟩ := lastWriter_mem h
  obtain ⟨hr, hid⟩ := List.mem_filter.mp hmem
  exact ⟨hr, of_decide_eq_true hid⟩

/-- A surviving document is filed under its own id. -/
theorem docId_of_latestDocument {records : List WalRecord} (hwf : ∀ r ∈ records, r.WellFormed)
    {docId : String} {d : Document} (h : latestDocument records docId = some d) :
    d.docId = docId := by
  obtain ⟨r, hr, hd⟩ := Option.bind_eq_some_iff.mp h
  obtain ⟨hmem, rfl⟩ := survivor_mem hr
  unfold survivingDocument at hd
  cases hop : r.op with
  | delete =>
      rw [hop] at hd
      cases hd
  | upsert =>
      rw [hop] at hd
      obtain ⟨d', hd', hid, -⟩ := (hwf r hmem).document_of_upsert hop
      rw [hd'] at hd
      cases hd
      exact hid

/-- The snapshot lists exactly the surviving documents, in strictly increasing id order. -/
theorem materializeLatestSnapshot_eq_ok {hash : HashOrder} {records : List WalRecord}
    {documents : List Document} (h : materializeLatestSnapshot hash records = .ok documents) :
    (∀ r ∈ records, r.WellFormed) ∧ documents.Pairwise (fun a b => a.docId < b.docId) ∧
      ∀ d, d ∈ documents ↔ latestDocument records d.docId = some d := by
  obtain ⟨latest, hlatest, h⟩ := bind_eq_ok.mp h
  cases h
  obtain ⟨hwf, hget⟩ := latestByDocId_eq_ok hlatest
  have hrow : ∀ r ∈ latest.rows, survivor records r.docId = some r := by
    intro r hr
    rw [survivor, ← hget]
    exact Table.mem_iff_get.mp hr
  have hid : ∀ r ∈ latest.rows, ∀ d, survivingDocument r = some d → d.docId = r.docId := by
    intro r hr d hd
    exact docId_of_latestDocument hwf (Option.bind_eq_some_iff.mpr ⟨r, hrow r hr, hd⟩)
  have hperm := List.perm_insertionSort (fun left right : Document => left.docId ≤ right.docId)
    ((hash.order latest.rows).filterMap survivingDocument)
  have hperm' := hperm.trans ((hash.perm latest.rows).filterMap survivingDocument)
  refine ⟨hwf, ?_, ?_⟩
  · have hsorted := List.pairwise_insertionSort (fun left right : Document =>
      left.docId ≤ right.docId) ((hash.order latest.rows).filterMap survivingDocument)
    -- the ids differ because the rows of a map have different keys
    have hnodup : (latest.rows.filterMap survivingDocument).Pairwise
        (fun a b => a.docId ≠ b.docId) := by
      rw [List.pairwise_filterMap]
      have hkeys : latest.rows.Pairwise fun a b => a.docId ≠ b.docId :=
        List.pairwise_map.mp latest.nodup
      refine hkeys.imp_of_mem ?_
      intro a b ha hb hne d hd e he
      rw [hid a ha d hd, hid b hb e he]
      exact hne
    have hdistinct := (hperm'.pairwise_iff (fun h => Ne.symm h)).mpr hnodup
    exact (hsorted.and hdistinct).imp fun h => lt_of_le_of_ne h.1 h.2
  · intro d
    rw [hperm'.mem_iff, List.mem_filterMap]
    constructor
    · rintro ⟨r, hr, hd⟩
      rw [hid r hr d hd]
      exact Option.bind_eq_some_iff.mpr ⟨r, hrow r hr, hd⟩
    · intro hd
      obtain ⟨r, hr, hd'⟩ := Option.bind_eq_some_iff.mp hd
      refine ⟨r, ?_, hd'⟩
      rw [survivor, ← hget] at hr
      exact (Table.get_eq_some_iff.mp hr).1

/-- Looking a document up in the snapshot answers the surviving document of that id. -/
theorem find_snapshot {hash : HashOrder} {records : List WalRecord} {documents : List Document}
    (h : materializeLatestSnapshot hash records = .ok documents) (docId : String) :
    documents.find? (fun d => d.docId = docId) = latestDocument records docId := by
  obtain ⟨hwf, -, hmem⟩ := materializeLatestSnapshot_eq_ok h
  cases hlatest : latestDocument records docId with
  | none =>
      rw [List.find?_eq_none]
      intro d hd hid
      rw [hmem d, of_decide_eq_true hid, hlatest] at hd
      cases hd
  | some d =>
      have hid := docId_of_latestDocument hwf hlatest
      have hd : d ∈ documents := by rw [hmem, hid, hlatest]
      have hsome : (documents.find? fun d => d.docId = docId).isSome :=
        List.find?_isSome.mpr ⟨d, hd, decide_eq_true hid⟩
      obtain ⟨e, he⟩ := Option.isSome_iff_exists.mp hsome
      have hkey : e.docId = docId := by simpa using List.find?_some he
      have hmem' := (hmem e).mp (List.mem_of_find?_eq_some he)
      rw [hkey, hlatest] at hmem'
      rw [he, hmem']

theorem materializeLatestSnapshot_isOk (hash : HashOrder) {records : List WalRecord}
    (h : ∀ r ∈ records, r.WellFormed) :
    ∃ documents, materializeLatestSnapshot hash records = .ok documents := by
  obtain ⟨latest, hlatest⟩ := latestByDocId_isOk h
  exact ⟨_, bind_eq_ok.mpr ⟨latest, hlatest, rfl⟩⟩

/-! ## The manifest -/

/-- Every path of the form the builder writes is an S3 URI. -/
theorem validateS3Uri_artifact {key : String} (hkey : key ≠ "") (field : String) :
    validateS3Uri ("s3://" ++ artifactBucket ++ "/" ++ key) field = .ok () := by
  obtain ⟨c, cs, hcs⟩ := List.exists_cons_of_ne_nil (fun h => hkey (String.toList_eq_nil_iff.mp h))
  have htext : ("s3://" ++ artifactBucket ++ "/" ++ key).toList =
      "s3://local-artifacts/".toList ++ (c :: cs) := by
    rw [String.toList_append, hcs]
    rfl
  unfold validateS3Uri
  rw [htext]
  rfl

/-- The manifest passes its own check exactly when the dimension is positive and the build's clock
is plausible; the paths and the counts are right by construction. -/
theorem buildManifest_eq_ok_iff {request : BuildIndexRequest} {documentCount : Nat}
    (hcount : documentCount < 2 ^ 64) {manifest : IndexManifest} :
    buildManifest request documentCount = .ok manifest ↔
      (0 < request.embeddingDim ∧ minPlausibleEpochMillis ≤ request.createdAt) ∧
        manifest = manifestOf request documentCount := by
  have hpath : ∀ kind : String, "s3://" ++ artifactBucket ++ ("/" ++ kind ++ "/v") ++
      toString request.versionId ++ "/shard_0" =
      "s3://" ++ artifactBucket ++ "/" ++ (kind ++ "/v" ++ toString request.versionId ++ "/shard_0") := by
    intro kind
    simp only [String.append_assoc]
  have hne : ∀ kind : String, kind ++ "/v" ++ toString request.versionId ++ "/shard_0" ≠ "" := by
    intro kind h
    have hl := congrArg String.length h
    simp at hl
  have hlance : validateS3Uri ("s3://" ++ artifactBucket ++ "/lance/v" ++
      toString request.versionId ++ "/shard_0") "lance_path" = .ok () := by
    have h := validateS3Uri_artifact (hne "lance") "lance_path"
    rwa [← hpath] at h
  have hindex : validateS3Uri ("s3://" ++ artifactBucket ++ "/index/v" ++
      toString request.versionId ++ "/shard_0") "tantivy_path" = .ok () := by
    have h := validateS3Uri_artifact (hne "index") "tantivy_path"
    rwa [← hpath] at h
  have hvalid : (manifestOf request documentCount).validate = .ok () ↔
      0 < request.embeddingDim ∧ minPlausibleEpochMillis ≤ request.createdAt := by
    rw [IndexManifest.validate_eq_ok_iff]
    constructor
    · intro h
      exact ⟨Nat.pos_of_ne_zero h.embeddingDimPositive, h.createdAtPlausible⟩
    · rintro ⟨hdim, hclock⟩
      exact {
        numShardsPositive := Nat.one_ne_zero
        embeddingDimPositive := Nat.pos_iff_ne_zero.mp hdim
        createdAtPlausible := hclock
        shardsCounted := rfl
        documentsCounted := Nat.mod_eq_of_lt hcount
        pathsValid := by
          intro shard hshard
          rw [List.mem_singleton.mp hshard]
          exact ⟨hlance, hindex⟩ }
  unfold buildManifest
  rw [check_bind_eq_ok, mapError_eq_ok, hvalid]
  simp only [pure, Except.pure, Except.ok.injEq]
  exact and_congr_right fun _ => eq_comm

/-- When it does not, the error is a validation error. -/
theorem buildManifest_error {request : BuildIndexRequest} {documentCount : Nat} {e : IndexError}
    (h : buildManifest request documentCount = .error e) : ∃ source, e = .validation source := by
  unfold buildManifest at h
  rcases bind_eq_error.mp h with h | ⟨u, -, h⟩
  · obtain ⟨source, -, rfl⟩ := mapError_eq_error.mp h
    exact ⟨source, rfl⟩
  · cases h

end LTSearch
