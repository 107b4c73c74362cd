/-
# LTSearch.Models.Write -- WAL records and the check every one of them passes twice

`WalRecord::validate` runs when a batch is encoded and again on every line read back, so what it
accepts is stated once, as `WalRecord.WellFormed`, and used on both sides.
-/
import LTSearch.Models.Index

namespace LTSearch

open LTSearch.Foundation

inductive WalOperation where
  | upsert
  | delete
  deriving DecidableEq, Repr

structure WalRecord where
  eventId : String
  docId : String
  op : WalOperation
  document : Option Document
  timestamp : Int

namespace WalRecord

/-- `WalRecord::validate`. -/
def validate (r : WalRecord) : Except ValidationError Unit := do
  rejectIf (r.eventId = "") (.required "event_id")
  rejectIf (r.docId = "") (.required "doc_id")
  rejectIf (isPlausibleEpochMillis r.timestamp = false) (.invalidValue "timestamp")
  match r.op, r.document with
  | .upsert, none => throw (.required "document")
  | .delete, some _ => throw (.invalidValue "document")
  | _, some document =>
      if document.docId ≠ r.docId then throw (.mismatch "doc_id" "document.doc_id")
      else document.validate
  | _, none => pure ()

/-- The payload a record of each kind must carry. -/
def PayloadOk (r : WalRecord) : Prop :=
  match r.op, r.document with
  | .upsert, some document => document.docId = r.docId ∧ document.WellFormed
  | .delete, none => True
  | _, _ => False

/-- What `validate` accepts. -/
structure WellFormed (r : WalRecord) : Prop where
  eventIdNonempty : r.eventId ≠ ""
  docIdNonempty : r.docId ≠ ""
  timestampPlausible : minPlausibleEpochMillis ≤ r.timestamp
  payload : r.PayloadOk

theorem validate_eq_ok_iff {r : WalRecord} : r.validate = .ok () ↔ r.WellFormed := by
  have hpayload : (match r.op, r.document with
      | .upsert, none => throw (ValidationError.required "document")
      | .delete, some _ => throw (.invalidValue "document")
      | _, some document =>
          if document.docId ≠ r.docId then throw (.mismatch "doc_id" "document.doc_id")
          else document.validate
      | _, none => pure ()) = Except.ok () ↔ r.PayloadOk := by
    unfold PayloadOk
    cases hop : r.op <;> cases hdoc : r.document with
    | none => simp [throw, throwThe, MonadExceptOf.throw, pure, Except.pure]
    | some document =>
        by_cases hid : document.docId = r.docId <;>
          simp [throw, throwThe, MonadExceptOf.throw, hid, Document.validate_eq_ok_iff]
  simp only [validate, check_bind_eq_ok, rejectIf_eq_ok, isPlausibleEpochMillis, hpayload]
  constructor
  · rintro ⟨h1, h2, h3, h4⟩
    exact ⟨h1, h2, by simpa using h3, h4⟩
  · rintro ⟨h1, h2, h3, h4⟩
    exact ⟨h1, h2, by simpa using h3, h4⟩

/-- An upsert that was accepted carries the document of its own id. -/
theorem WellFormed.document_of_upsert {r : WalRecord} (h : r.WellFormed) (hop : r.op = .upsert) :
    ∃ document, r.document = some document ∧ document.docId = r.docId ∧ document.WellFormed := by
  have hp := h.payload
  unfold PayloadOk at hp
  rw [hop] at hp
  cases hdoc : r.document with
  | none => simp [hdoc] at hp
  | some document =>
      rw [hdoc] at hp
      exact ⟨document, rfl, hp.1, hp.2⟩

end WalRecord

/-- What a write request answers with. -/
structure IngestResponse where
  acceptedCount : Nat
  walEventIds : List String
  batchId : String
  walKey : String
  deriving DecidableEq, Repr

end LTSearch
