/-
# LTSearch.Write.Api -- accepting a write: validation, encoding and the hand-over to the queue

`ingest` and `delete` are the two request handlers.  Both validate, draw a batch id, build one WAL
record per item under one timestamp, encode the records as one segment and hand segment and job to
the queue back end in one call.  The back end is a parameter (`BuildQueue`), a function on whatever
state it writes to; an error leaves the state it had reached.
-/
import LTSearch.Write.Wal

namespace LTSearch

open LTSearch.Foundation

/-- The job of one batch, as the queue carries it. -/
structure QueueBatch where
  batchId : String
  walKey : String
  acceptedCount : Nat
  walEventIds : List String
  deriving DecidableEq, Repr

/-- `serde_json::to_string(batch)`. -/
def QueueBatch.toJson (batch : QueueBatch) : String :=
  (Json.obj [("batch_id", .str batch.batchId), ("wal_key", .str batch.walKey),
    ("accepted_count", .num (toString batch.acceptedCount)),
    ("wal_event_ids", .arr (batch.walEventIds.map .str))]).render

/-- `BuildQueue::append_and_enqueue` of a back end over states `σ`, with the WAL it writes to. -/
abbrev AppendAndEnqueue (σ : Type) :=
  (walKey : String) → (walBytes : ByteArray) → (batch : QueueBatch) → EStateM IngestError σ Unit

/-- The write API: its back end, the record serialiser, the clock reading of this request and the
uuid it draws. -/
structure WriteApi (σ : Type) where
  queue : AppendAndEnqueue σ
  json : Serde WalRecord
  clock : Int
  uuid : String

/-- `next_batch_id`. -/
def nextBatchId (uuid : String) : String := "batch-" ++ uuid

/-- `event_id`. -/
def eventId (batchId : String) (index : Nat) : String :=
  batchId ++ "-" ++ zeroPad 6 (index + 1)

/-- `validate_timestamp`. -/
def validateTimestamp (timestamp : Int) : Except ValidationError Unit :=
  rejectIf (timestamp < 1000000000000) (.invalidValue "timestamp")

/-- `validate_doc_id`. -/
def validateDocId (docId : String) : Except ValidationError Unit := do
  rejectIf (docId = "") (.required "doc_id")
  rejectIf (docId.utf8ByteSize > 256) (.lengthOutOfRange "doc_id" 1 256)

/-- `serialize_records`: every record is checked, printed and ended with a newline. -/
def serializeRecords (json : Serde WalRecord) (records : List WalRecord) :
    Except ValidationError ByteArray := do
  records.forM (·.validate)
  return (joinLines (records.map json.toString)).toUTF8

/-- The upsert record of one ingested document. -/
def upsertRecord (batchId : String) (timestamp : Int) (index : Nat) (document : Document) :
    WalRecord where
  eventId := eventId batchId index
  docId := document.docId
  op := .upsert
  document := some document
  timestamp := timestamp

/-- The delete record of one document id. -/
def deleteRecord (batchId : String) (timestamp : Int) (index : Nat) (docId : String) :
    WalRecord where
  eventId := eventId batchId index
  docId := docId
  op := .delete
  document := none
  timestamp := timestamp

/-- A write request. -/
inductive WriteRequest where
  | ingest (documents : List Document)
  | delete (docIds : List String)

/-- A request that passed its checks, before anything is stored. -/
structure PreparedWrite where
  batchId : String
  walKey : String
  records : List WalRecord

/-- `WriteApi::ingest` up to its `append_and_enqueue`. -/
def prepareIngest (clock : Int) (uuid : String) (documents : List Document) :
    Except ValidationError PreparedWrite := do
  rejectIf (documents = []) (.required "documents")
  documents.forM (·.validate)
  validateTimestamp clock
  let batchId := nextBatchId uuid
  let walKey ← segmentKey clock batchId
  return { batchId, walKey, records := documents.mapIdx (upsertRecord batchId clock) }

/-- `WriteApi::delete` up to its `append_and_enqueue`. -/
def prepareDelete (clock : Int) (uuid : String) (docIds : List String) :
    Except ValidationError PreparedWrite := do
  rejectIf (docIds = []) (.required "doc_ids")
  docIds.forM validateDocId
  validateTimestamp clock
  let batchId := nextBatchId uuid
  let walKey ← segmentKey clock batchId
  return { batchId, walKey, records := docIds.mapIdx (deleteRecord batchId clock) }

def prepareWrite (clock : Int) (uuid : String) : WriteRequest → Except ValidationError PreparedWrite
  | .ingest documents => prepareIngest clock uuid documents
  | .delete docIds => prepareDelete clock uuid docIds

/-- The job enqueued for a prepared write. -/
def PreparedWrite.batch (w : PreparedWrite) : QueueBatch where
  batchId := w.batchId
  walKey := w.walKey
  acceptedCount := w.records.length
  walEventIds := w.records.map (·.eventId)

/-- The answer to a write that went through. -/
def PreparedWrite.response (w : PreparedWrite) : IngestResponse where
  acceptedCount := w.records.length
  walEventIds := w.records.map (·.eventId)
  batchId := w.batchId
  walKey := w.walKey

/-- A validation result inside a state-changing function. -/
def liftValidation {σ α : Type} (x : Except ValidationError α) : EStateM IngestError σ α :=
  fun s => match x with
    | .ok a => .ok a s
    | .error e => .error (.validation e) s

/-- `WriteApi::append_and_enqueue`. -/
def WriteApi.appendAndEnqueue {σ : Type} (api : WriteApi σ) (w : PreparedWrite) :
    EStateM IngestError σ Unit := do
  let bytes ← liftValidation (serializeRecords api.json w.records)
  api.queue w.walKey bytes w.batch

/-- `WriteApi::ingest` and `WriteApi::delete`. -/
def WriteApi.write {σ : Type} (api : WriteApi σ) (request : WriteRequest) :
    EStateM IngestError σ IngestResponse := do
  let w ← liftValidation (prepareWrite api.clock api.uuid request)
  api.appendAndEnqueue w
  return w.response

/-! ## What an accepted request looks like -/

/-- The bytes a prepared write hands to the WAL. -/
def PreparedWrite.bytes (json : Serde WalRecord) (w : PreparedWrite) : ByteArray :=
  (joinLines (w.records.map json.toString)).toUTF8

theorem serializeRecords_eq_ok_iff {json : Serde WalRecord} {records : List WalRecord}
    {bytes : ByteArray} :
    serializeRecords json records = .ok bytes ↔
      (∀ r ∈ records, r.WellFormed) ∧ (joinLines (records.map json.toString)).toUTF8 = bytes := by
  unfold serializeRecords
  rw [check_bind_eq_ok, forM_eq_ok]
  simp only [WalRecord.validate_eq_ok_iff, pure, Except.pure, Except.ok.injEq]

theorem eventId_ne_empty (batchId : String) (index : Nat) : eventId batchId index ≠ "" := by
  intro h
  have hl := congrArg String.length h
  simp [eventId] at hl

/-- The records of a request. -/
def WriteRequest.records (batchId : String) (clock : Int) : WriteRequest → List WalRecord
  | .ingest documents => documents.mapIdx (upsertRecord batchId clock)
  | .delete docIds => docIds.mapIdx (deleteRecord batchId clock)

/-- What a request must hold to pass its checks. -/
def WriteRequest.PayloadValid : WriteRequest → Prop
  | .ingest documents => documents ≠ [] ∧ ∀ d ∈ documents, d.WellFormed
  | .delete docIds => docIds ≠ [] ∧ ∀ docId ∈ docIds, docId ≠ "" ∧ docId.utf8ByteSize ≤ 256

/-- A request is accepted exactly when its payload is valid, the clock is plausible and the batch id
can name a segment; and then there is one thing it is prepared as. -/
theorem prepareWrite_eq_ok_iff {clock : Int} {uuid : String} {request : WriteRequest}
    {w : PreparedWrite} :
    prepareWrite clock uuid request = .ok w ↔
      request.PayloadValid ∧ 1000000000000 ≤ clock ∧
        validateSegmentId (nextBatchId uuid) = .ok () ∧
        w = { batchId := nextBatchId uuid
              walKey := segmentPath clock (nextBatchId uuid)
              records := request.records (nextBatchId uuid) clock } := by
  have hkey : ∀ walKey, segmentKey clock (nextBatchId uuid) = .ok walKey ↔
      validateSegmentId (nextBatchId uuid) = .ok () ∧
        walKey = segmentPath clock (nextBatchId uuid) := by
    intro walKey
    unfold segmentKey
    rw [check_bind_eq_ok]
    simp only [pure, Except.pure, Except.ok.injEq]
    exact and_congr_right fun _ => eq_comm
  have hpure : ∀ x : PreparedWrite,
      (pure x : Except ValidationError PreparedWrite) = .ok w ↔ w = x := by
    intro x
    simp only [pure, Except.pure, Except.ok.injEq]
    exact eq_comm
  cases request with
  | ingest documents =>
      simp only [prepareWrite, prepareIngest, validateTimestamp, check_bind_eq_ok, forM_eq_ok,
        rejectIf_eq_ok, Document.validate_eq_ok_iff, Int.not_lt]
      simp only [bind_eq_ok, hkey, hpure]
      constructor
      · rintro ⟨hne, hdocs, hclock, walKey, ⟨hvalid, rfl⟩, rfl⟩
        exact ⟨⟨hne, hdocs⟩, hclock, hvalid, rfl⟩
      · rintro ⟨⟨hne, hdocs⟩, hclock, hvalid, rfl⟩
        exact ⟨hne, hdocs, hclock, _, ⟨hvalid, rfl⟩, rfl⟩
  | delete docIds =>
      simp only [prepareWrite, prepareDelete, validateTimestamp, validateDocId, check_bind_eq_ok,
        forM_eq_ok, rejectIf_eq_ok, Int.not_lt]
      simp only [bind_eq_ok, hkey, hpure]
      constructor
      · rintro ⟨hne, hids, hclock, walKey, ⟨hvalid, rfl⟩, rfl⟩
        exact ⟨⟨hne, fun d hd => ⟨(hids d hd).1, by have := (hids d hd).2; omega⟩⟩, hclock, hvalid, rfl⟩
      · rintro ⟨⟨hne, hids⟩, hclock, hvalid, rfl⟩
        exact ⟨hne, fun d hd => ⟨(hids d hd).1, by have := (hids d hd).2; omega⟩, hclock, _,
          ⟨hvalid, rfl⟩, rfl⟩

/-- Every record of a request carries the clock reading it was prepared at. -/
theorem timestamp_of_mem_records {batchId : String} {clock : Int} {request : WriteRequest}
    {r : WalRecord} (h : r ∈ request.records batchId clock) : r.timestamp = clock := by
  cases request with
  | ingest documents =>
      obtain ⟨i, hi, rfl⟩ := List.mem_mapIdx.mp h
      rfl
  | delete docIds =>
      obtain ⟨i, hi, rfl⟩ := List.mem_mapIdx.mp h
      rfl

/-- Every record of a prepared write passes the check it will meet again on every read. -/
theorem prepareWrite_wellFormed {clock : Int} {uuid : String} {request : WriteRequest}
    {w : PreparedWrite} (h : prepareWrite clock uuid request = .ok w) :
    ∀ r ∈ w.records, r.WellFormed := by
  obtain ⟨hpayload, hclock, -, rfl⟩ := prepareWrite_eq_ok_iff.mp h
  intro r hr
  cases request with
  | ingest documents =>
      obtain ⟨i, hi, rfl⟩ := List.mem_mapIdx.mp hr
      have hdoc := hpayload.2 _ (List.getElem_mem hi)
      exact {
        eventIdNonempty := eventId_ne_empty _ _
        docIdNonempty := hdoc.docIdNonempty
        timestampPlausible := hclock
        payload := ⟨rfl, hdoc⟩ }
  | delete docIds =>
      obtain ⟨i, hi, rfl⟩ := List.mem_mapIdx.mp hr
      exact {
        eventIdNonempty := eventId_ne_empty _ _
        docIdNonempty := (hpayload.2 _ (List.getElem_mem hi)).1
        timestampPlausible := hclock
        payload := trivial }

/-- A prepared write is never empty. -/
theorem prepareWrite_records_ne_nil {clock : Int} {uuid : String} {request : WriteRequest}
    {w : PreparedWrite} (h : prepareWrite clock uuid request = .ok w) : w.records ≠ [] := by
  obtain ⟨hpayload, -, -, rfl⟩ := prepareWrite_eq_ok_iff.mp h
  cases request with
  | ingest documents => simpa [WriteRequest.records, List.mapIdx_eq_nil_iff] using hpayload.1
  | delete docIds => simpa [WriteRequest.records, List.mapIdx_eq_nil_iff] using hpayload.1

/-- So encoding a prepared write never fails. -/
theorem serializeRecords_prepared {clock : Int} {uuid : String} {request : WriteRequest}
    {w : PreparedWrite} (h : prepareWrite clock uuid request = .ok w) (json : Serde WalRecord) :
    serializeRecords json w.records = .ok (w.bytes json) :=
  serializeRecords_eq_ok_iff.mpr ⟨prepareWrite_wellFormed h, rfl⟩

end LTSearch
