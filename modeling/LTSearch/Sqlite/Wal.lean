/-
# LTSearch.Sqlite.Wal -- WAL segments in the local database

`appendWalSegment` reads the stored bytes, concatenates and writes the whole segment back, inside the
transaction of its caller; `listWalKeys` answers the keys in ascending order.
-/
import LTSearch.Sqlite.Schema

namespace LTSearch

open LTSearch.Foundation

/-- `op_err`. -/
def opErr (context : String) (error : String) : IngestError :=
  .operation (context ++ ": " ++ error)

/-- The bytes stored under `key`, none when there is no segment. -/
def LocalDb.segment (db : LocalDb) (key : String) : Option ByteArray :=
  (db.walSegments.get key).map (·.data)

/-- `INSERT INTO wal_segments .. ON CONFLICT(segment_key) DO UPDATE SET data = excluded.data`. -/
def LocalDb.putSegment (key : String) (data : ByteArray) (db : LocalDb) : LocalDb :=
  { db with
    walSegments := db.walSegments.upsert { segmentKey := key, data } (fun r => { r with data })
      (fun _ => rfl) }

/-- `append_wal_segment`: the caller decides the transaction. -/
def appendWalSegment {ε : Type} (faults : Faults) (context : String → ε) (key : String)
    (bytes : ByteArray) : EStateM ε LocalDb Unit := do
  let existing ← exec faults .selectSegment context fun db => (db.segment key, db)
  let buf := existing.getD ByteArray.empty ++ bytes
  exec faults .upsertSegment context fun db => ((), db.putSegment key buf)

/-- `SqliteWalStorage::read`. -/
def walRead (faults : Faults) (key : String) : EStateM IngestError LocalDb ByteArray := do
  let found ← exec faults .selectSegment (opErr s!"failed to read WAL {key}")
    fun db => (db.segment key, db)
  match found with
  | some data => return data
  | none => throw (.operation s!"failed to read WAL {key}: segment not found")

/-- `SELECT segment_key FROM wal_segments ORDER BY segment_key`. -/
def LocalDb.walKeys (db : LocalDb) : List String :=
  (db.walSegments.rows.map (·.segmentKey)).insertionSort (· ≤ ·)

/-- `SqliteWalStorage::list_wal_keys`. -/
def listWalKeys (faults : Faults) : EStateM String LocalDb (List String) := do
  exec faults .prepareList (s!"failed to prepare list_wal_keys: {·}") fun db => ((), db)
  exec faults .queryList (s!"failed to query wal_segments: {·}") fun db => ((), db)
  exec faults .readListed (s!"failed to read wal_segments row: {·}") fun db => (db.walKeys, db)

/-! ## What the operations do to the segments -/

theorem segment_putSegment (db : LocalDb) (key : String) (data : ByteArray) (k : String) :
    (db.putSegment key data).segment k = if key = k then some data else db.segment k := by
  unfold LocalDb.segment LocalDb.putSegment
  rw [Table.get_upsert]
  by_cases hk : key = k
  · rw [if_pos hk, if_pos hk]
    cases db.walSegments.get k <;> rfl
  · rw [if_neg hk, if_neg hk]

theorem mem_walKeys {db : LocalDb} {key : String} :
    key ∈ db.walKeys ↔ (db.segment key).isSome := by
  unfold LocalDb.walKeys LocalDb.segment
  rw [(List.perm_insertionSort _ _).mem_iff, Option.isSome_map, List.mem_map]
  constructor
  · rintro ⟨r, hr, rfl⟩
    rw [Table.mem_iff_get.mp hr]
    rfl
  · intro h
    obtain ⟨r, hr⟩ := Option.isSome_iff_exists.mp h
    exact ⟨r, (Table.get_eq_some_iff.mp hr).1, Table.key_of_get hr⟩

theorem appendWalSegment_eq_ok {ε : Type} {faults : Faults} {context : String → ε} {key : String}
    {bytes : ByteArray} {db db' : LocalDb} {u : Unit} :
    appendWalSegment faults context key bytes db = .ok u db' ↔
      faults .selectSegment = none ∧ faults .upsertSegment = none ∧
        db' = db.putSegment key ((db.segment key).getD ByteArray.empty ++ bytes) := by
  simp only [appendWalSegment, estate_bind_eq_ok, exec_eq_ok, Prod.mk.injEq, true_and]
  constructor
  · rintro ⟨existing, db₁, ⟨hselect, rfl, rfl⟩, hupsert, rfl⟩
    exact ⟨hselect, hupsert, rfl⟩
  · rintro ⟨hselect, hupsert, rfl⟩
    exact ⟨_, db, ⟨hselect, rfl, rfl⟩, hupsert, rfl⟩

theorem listWalKeys_eq_ok {faults : Faults} {db db' : LocalDb} {keys : List String}
    (h : listWalKeys faults db = .ok keys db') : keys = db.walKeys ∧ db' = db := by
  simp only [listWalKeys, estate_bind_eq_ok, exec_eq_ok, Prod.mk.injEq] at h
  obtain ⟨_, _, ⟨-, -, rfl⟩, _, _, ⟨-, -, rfl⟩, -, rfl, rfl⟩ := h
  exact ⟨rfl, rfl⟩

end LTSearch
