/-
# LTSearch.Indexing.Replay -- replaying the WAL gives the last accepted writes

From the write API to the snapshot: batches are encoded to segments, the segments are read back in
whatever order and however often, and the snapshot of all records is the map that the requests
describe.  The replay rule is the library's (`lastWriter_replay`); what is shown here is that batches
are blocks under one stamp, that their records say what was asked for, and that segments survive the
way to the file and back.
-/
import LTSearch.Indexing.Builder
import LTSearch.Write.Api

namespace LTSearch

open LTSearch.Foundation

/-- What a request asks for, one operation after the other: the document to keep under an id, or none. -/
def WriteRequest.operations : WriteRequest → List (String × Option Document)
  | .ingest documents => documents.map fun document => (document.docId, some document)
  | .delete docIds => docIds.map fun docId => (docId, none)

/-- A write request that passed the checks of the write API. -/
structure AcceptedBatch where
  clock : Int
  uuid : String
  request : WriteRequest
  write : PreparedWrite
  accepted : prepareWrite clock uuid request = .ok write

namespace AcceptedBatch

/-- The request has an operation on this document. -/
def Touches (b : AcceptedBatch) (docId : String) : Prop := ∃ op ∈ b.request.operations, op.1 = docId

/-- The records of the batch on one document. -/
def recordsOf (docId : String) (b : AcceptedBatch) : List WalRecord :=
  b.write.records.filter fun r => r.docId = docId

/-- The records say what the request asked for. -/
theorem records_operations (b : AcceptedBatch) :
    b.write.records.map (fun r => (r.docId, survivingDocument r)) = b.request.operations := by
  obtain ⟨clock, uuid, request, write, haccepted⟩ := b
  obtain ⟨-, -, -, rfl⟩ := prepareWrite_eq_ok_iff.mp haccepted
  cases request with
  | ingest documents =>
      show (documents.mapIdx _).map _ = documents.map _
      apply List.ext_getElem
      · simp
      · intro i hi hi'
        simp [upsertRecord, survivingDocument]
  | delete docIds =>
      show (docIds.mapIdx _).map _ = docIds.map _
      apply List.ext_getElem
      · simp
      · intro i hi hi'
        simp [deleteRecord, survivingDocument]

theorem touches_of_recordsOf {b : AcceptedBatch} {docId : String} (h : b.recordsOf docId ≠ []) :
    b.Touches docId := by
  obtain ⟨r, hr⟩ := List.exists_mem_of_ne_nil _ h
  obtain ⟨hmem, hid⟩ := List.mem_filter.mp hr
  refine ⟨(r.docId, survivingDocument r), ?_, of_decide_eq_true hid⟩
  rw [← b.records_operations]
  exact List.mem_map_of_mem hmem

/-- All records of a batch carry the one clock reading of its request. -/
theorem timestamp_eq (b : AcceptedBatch) : ∀ r ∈ b.write.records, r.timestamp = b.clock := by
  obtain ⟨clock, uuid, request, write, haccepted⟩ := b
  obtain ⟨-, -, -, rfl⟩ := prepareWrite_eq_ok_iff.mp haccepted
  exact fun r hr => timestamp_of_mem_records hr

theorem wellFormed (b : AcceptedBatch) : ∀ r ∈ b.write.records, r.WellFormed :=
  prepareWrite_wellFormed b.accepted

/-- The segment of an accepted batch, written and read. -/
def readBack (json : Serde WalRecord) (b : AcceptedBatch) : Except IngestError (List WalRecord) := do
  let bytes ← (serializeRecords json b.write.records).mapError .validation
  readSegment json bytes

/-- It reads back as the records of the batch. -/
theorem readBack_eq_ok {json : Serde WalRecord} (b : AcceptedBatch)
    (hjson : ∀ r ∈ b.write.records, Storable json r) : b.readBack json = .ok b.write.records := by
  have hbytes := serializeRecords_prepared b.accepted json
  have hread := readSegment_joinLines b.wellFormed hjson
  exact bind_eq_ok.mpr ⟨_, mapError_eq_ok.mpr hbytes, hread⟩

end AcceptedBatch

/-- Batches that touch one document come with increasing clock readings. -/
def StrictlyOrdered (batches : List AcceptedBatch) : Prop :=
  batches.Pairwise fun a b => ∀ docId, a.Touches docId → b.Touches docId → a.clock < b.clock

/-- What the requests say a document is: the last operation on it decides, within a batch too, and a
deleted document is absent. -/
def reference (batches : List AcceptedBatch) (docId : String) : Option Document :=
  ((batches.flatMap (·.request.operations)).filter fun op => op.1 = docId).getLast?.bind Prod.snd

/-- Reading segments, in the given order. -/
def readSegments (json : Serde WalRecord) (order : List AcceptedBatch) :
    Except IngestError (List (List WalRecord)) :=
  order.mapM fun b => b.readBack json

theorem readSegments_eq_ok {json : Serde WalRecord} {order : List AcceptedBatch}
    (hjson : ∀ b ∈ order, ∀ r ∈ b.write.records, Storable json r) :
    readSegments json order = .ok (order.map (·.write.records)) := by
  unfold readSegments
  rw [mapM_eq_ok_iff, List.forall₂_map_right_iff, List.forall₂_same]
  exact fun b hb => b.readBack_eq_ok (hjson b hb)

/-- The last record on a document says what the last operation on it does. -/
theorem reference_eq (batches : List AcceptedBatch) (docId : String) :
    reference batches docId = (batches.flatMap (·.recordsOf docId)).getLast?.bind survivingDocument := by
  have hoperations : (batches.flatMap (·.recordsOf docId)).map (fun r => (r.docId, survivingDocument r)) =
      (batches.flatMap (·.request.operations)).filter fun op => op.1 = docId := by
    induction batches with
    | nil => rfl
    | cons b rest ih =>
        rw [List.flatMap_cons, List.flatMap_cons, List.map_append, List.filter_append, ih,
          ← b.records_operations, List.filter_map]
        rfl
  rw [reference, ← hoperations, List.getLast?_map]
  cases (batches.flatMap (·.recordsOf docId)).getLast? <;> rfl

/-- The last writer over the segments read is the last accepted operation. -/
theorem latestDocument_replay {batches order : List AcceptedBatch}
    (htimes : StrictlyOrdered batches) (horder : ∀ b, b ∈ order ↔ b ∈ batches) (docId : String) :
    latestDocument (order.map (·.write.records)).flatten docId = reference batches docId := by
  rw [reference_eq]
  unfold latestDocument survivor
  have hfilter : (order.map (·.write.records)).flatten.filter (fun r => r.docId = docId) =
      order.flatMap (·.recordsOf docId) := by
    rw [List.filter_flatten, List.map_map, List.flatMap_def]
    rfl
  rw [hfilter, lastWriter_replay AcceptedBatch.clock horder]
  · intro b hb r hr
    exact b.timestamp_eq r (List.mem_of_mem_filter hr)
  · refine htimes.imp ?_
    intro a b hlt ha hb
    exact hlt docId (AcceptedBatch.touches_of_recordsOf ha) (AcceptedBatch.touches_of_recordsOf hb)

/-- Replay is last-writer-wins: however the segments of the accepted batches are read, in any order
and each at least once, the snapshot is the reference map of the requests, listed strictly by document
id. -/
theorem replay_last_writer_wins (json : Serde WalRecord) (hash : HashOrder)
    {batches order : List AcceptedBatch}
    (hjson : ∀ b ∈ batches, ∀ r ∈ b.write.records, Storable json r)
    (htimes : StrictlyOrdered batches) (horder : ∀ b, b ∈ order ↔ b ∈ batches) :
    ∃ segments documents, readSegments json order = .ok segments ∧
      materializeLatestSnapshot hash segments.flatten = .ok documents ∧
      documents.Pairwise (fun a b => a.docId < b.docId) ∧
      ∀ docId, documents.find? (fun d => d.docId = docId) = reference batches docId := by
  have hread : readSegments json order = .ok (order.map (·.write.records)) :=
    readSegments_eq_ok fun b hb => hjson b ((horder b).mp hb)
  have hwf : ∀ r ∈ (order.map (·.write.records)).flatten, r.WellFormed := by
    intro r hr
    obtain ⟨records, hrecords, hr⟩ := List.mem_flatten.mp hr
    obtain ⟨b, -, rfl⟩ := List.mem_map.mp hrecords
    exact b.wellFormed r hr
  obtain ⟨documents, hdocs⟩ := materializeLatestSnapshot_isOk hash hwf
  refine ⟨_, documents, hread, hdocs, (materializeLatestSnapshot_eq_ok hdocs).2.1, ?_⟩
  intro docId
  rw [find_snapshot hdocs, latestDocument_replay htimes horder]

/-! ## One document, ingested and deleted -/

def sampleUuid : String := "550e8400e29b41d4a716446655440000"

/-- A document as a client sends it, with or without an embedding of its own. -/
def sampleDocument (embedding : Option (List F32)) : Document where
  docId := "doc-1"
  text := "hello"
  embedding := embedding
  metadata := []
  timestamp := 1784000000000

theorem sampleDocument_wellFormed {embedding : Option (List F32)}
    (h : ∀ e ∈ embedding, ∀ x ∈ e, x.isFinite = true) : (sampleDocument embedding).WellFormed where
  docIdNonempty := by change "doc-1" ≠ ""; decide +kernel
  docIdShort := by change "doc-1".utf8ByteSize ≤ 256; decide +kernel
  textNonempty := by change "hello" ≠ ""; decide +kernel
  textShort := by change "hello".utf8ByteSize ≤ documentTextMaxBytes; decide +kernel
  embeddingFinite := h
  metadataShort := by
    change (Json.obj []).render.utf8ByteSize ≤ documentMetadataMaxBytes
    decide +kernel
  timestampPlausible := by change minPlausibleEpochMillis ≤ 1784000000000; decide

theorem sampleUuid_valid : validateSegmentId (nextBatchId sampleUuid) = .ok () :=
  rejectIf_eq_ok.mpr (by decide +kernel)

/-- The document is ingested. -/
def ingestedBatch (embedding : Option (List F32))
    (h : ∀ e ∈ embedding, ∀ x ∈ e, x.isFinite = true) : AcceptedBatch where
  clock := 1784000000000
  uuid := sampleUuid
  request := .ingest [sampleDocument embedding]
  write := {
    batchId := nextBatchId sampleUuid
    walKey := segmentPath 1784000000000 (nextBatchId sampleUuid)
    records := [upsertRecord (nextBatchId sampleUuid) 1784000000000 0 (sampleDocument embedding)] }
  accepted := prepareWrite_eq_ok_iff.mpr
    ⟨⟨List.cons_ne_nil _ _, by simpa using sampleDocument_wellFormed h⟩, by decide,
      sampleUuid_valid, rfl⟩

/-- A second later it is deleted. -/
def deletedBatch : AcceptedBatch where
  clock := 1784000001000
  uuid := sampleUuid
  request := .delete ["doc-1"]
  write := {
    batchId := nextBatchId sampleUuid
    walKey := segmentPath 1784000001000 (nextBatchId sampleUuid)
    records := [deleteRecord (nextBatchId sampleUuid) 1784000001000 0 "doc-1"] }
  accepted := prepareWrite_eq_ok_iff.mpr
    ⟨⟨List.cons_ne_nil _ _, by simp only [List.forall_mem_singleton]; decide +kernel⟩, by decide,
      sampleUuid_valid, rfl⟩

/-- The line `serde_json` prints for the ingested document, given the text of its embedding. -/
def upsertLine (shown : String) : String :=
  "\x7b\"event_id\":\"batch-550e8400e29b41d4a716446655440000-000001\",\"doc_id\":\"doc-1\"," ++
  "\"op\":\"upsert\",\"document\":\x7b\"doc_id\":\"doc-1\",\"text\":\"hello\",\"embedding\":" ++ shown ++
  ",\"metadata\":\x7b\x7d,\"timestamp\":1784000000000\x7d,\"timestamp\":1784000000000\x7d"

/-- The line it prints for the deletion. -/
def deleteLine : String :=
  "\x7b\"event_id\":\"batch-550e8400e29b41d4a716446655440000-000001\",\"doc_id\":\"doc-1\"," ++
  "\"op\":\"delete\",\"document\":null,\"timestamp\":1784000001000\x7d"

/-- These two lines, and the parser on them. -/
def sampleJson (embedding : Option (List F32)) (shown : String) : Serde WalRecord where
  toString r := match r.op with
    | .upsert => upsertLine shown
    | .delete => deleteLine
  fromStr text :=
    if text = upsertLine shown then
      .ok (upsertRecord (nextBatchId sampleUuid) 1784000000000 0 (sampleDocument embedding))
    else if text = deleteLine then
      .ok (deleteRecord (nextBatchId sampleUuid) 1784000001000 0 "doc-1")
    else .error "expected value at line 1 column 1"

theorem storable_upsert (embedding : Option (List F32)) {shown : String}
    (hline : OneLine (upsertLine shown)) :
    Storable (sampleJson embedding shown)
      (upsertRecord (nextBatchId sampleUuid) 1784000000000 0 (sampleDocument embedding)) where
  roundTrips := by
    change (sampleJson embedding shown).fromStr (upsertLine shown) = _
    unfold sampleJson
    dsimp only
    rw [if_pos rfl]
  oneLine := hline

theorem storable_delete (embedding : Option (List F32)) {shown : String}
    (hne : deleteLine ≠ upsertLine shown) :
    Storable (sampleJson embedding shown)
      (deleteRecord (nextBatchId sampleUuid) 1784000001000 0 "doc-1") where
  roundTrips := by
    change (sampleJson embedding shown).fromStr deleteLine = _
    unfold sampleJson
    dsimp only
    rw [if_neg hne, if_pos rfl]
  oneLine := by
    change OneLine deleteLine
    unfold OneLine
    decide +kernel

theorem storable_sampleJson :
    ∀ b ∈ [ingestedBatch none (by simp), deletedBatch], ∀ r ∈ b.write.records,
      Storable (sampleJson none "null") r := by
  intro b hb r hr
  rcases List.mem_pair.mp hb with rfl | rfl
  · obtain rfl := List.mem_singleton.mp hr
    exact storable_upsert none (by unfold OneLine; decide +kernel)
  · obtain rfl := List.mem_singleton.mp hr
    exact storable_delete none (by decide +kernel)

/-- A hash map that hands out its values in the order they came in. -/
def insertionOrder : HashOrder := ⟨id, fun _ => .refl _⟩

/-- The later batch is read first, and the earlier one twice; the document stays deleted. -/
theorem replay_sample :
    ∃ segments documents,
      readSegments (sampleJson none "null")
        [deletedBatch, ingestedBatch none (by simp), ingestedBatch none (by simp)] = .ok segments ∧
      materializeLatestSnapshot insertionOrder segments.flatten = .ok documents ∧
      documents.Pairwise (fun a b => a.docId < b.docId) ∧
      ∀ docId, documents.find? (fun d => d.docId = docId) =
        reference [ingestedBatch none (by simp), deletedBatch] docId := by
  refine replay_last_writer_wins (sampleJson none "null") insertionOrder storable_sampleJson ?_ ?_
  · rw [StrictlyOrdered, List.pairwise_pair]
    intro docId _ _
    change (1784000000000 : Int) < 1784000001000
    decide
  · intro b
    simp only [List.mem_cons, List.not_mem_nil, or_false, or_self]
    exact or_comm

end LTSearch
