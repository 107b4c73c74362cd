/-
# LTSearch.Sqlite.Head -- the two heads as rows of the database

The read and the conditional write of the one-row tables `active_head` and `static_release_head`, one
for each of the two pointer keys.  The write is one immediate transaction: it reads the row, compares
its tag with the expected one and answers `false` when they differ, before anything is committed.
-/
import LTSearch.Sqlite.Schema

namespace LTSearch

open LTSearch.Foundation

/-- `etag_of`: FNV-1a over the bytes, printed as 16 hexadecimal digits. -/
def etagOf (bytes : ByteArray) : String :=
  let hash := bytes.data.toList.foldl (fun (hash : UInt64) byte =>
    (hash ^^^ byte.toUInt64) * 0x100000001b3) 0xcbf29ce484222325
  let hex := Nat.toDigits 16 hash.toNat
  String.ofList (List.replicate (16 - hex.length) '0' ++ hex)

/-- `cas_err`. -/
def casErr (context : String) (error : String) : PublishError :=
  .operation s!"{context}: {error}"

/-- The tables of one row. -/
inductive HeadTable where
  | activeHead
  | staticReleaseHead
  deriving DecidableEq, Repr

/-- The row of a table. -/
def LocalDb.head (db : LocalDb) : HeadTable → Option ByteArray
  | .activeHead => db.activeHead
  | .staticReleaseHead => db.staticReleaseHead

@[simp]
theorem LocalDb.head_activeHead (db : LocalDb) : db.head .activeHead = db.activeHead := rfl

/-- The row of a table, written. -/
def LocalDb.setHead (db : LocalDb) (newValue : ByteArray) : HeadTable → LocalDb
  | .activeHead => { db with activeHead := some newValue }
  | .staticReleaseHead => { db with staticReleaseHead := some newValue }

theorem LocalDb.head_setHead (db : LocalDb) (newValue : ByteArray) (table : HeadTable) :
    (db.setHead newValue table).head table = some newValue := by
  cases table <;> rfl

theorem LocalDb.head_setHead_of_ne (db : LocalDb) (newValue : ByteArray) {table other : HeadTable}
    (hne : other ≠ table) : (db.setHead newValue table).head other = db.head other := by
  cases table <;> cases other <;> first | rfl | exact absurd rfl hne

/-- `head_row_read`. -/
def headRowRead (faults : Faults) (table : HeadTable) : EStateM PublishError LocalDb (Option ByteArray) :=
  exec faults .selectHead (casErr "failed to read head") fun db => (db.head table, db)

/-- `head_row_cas`.  A refused write leaves the transaction without a commit. -/
def headRowCas (faults : Faults) (table : HeadTable) (expected : Option String) (newValue : ByteArray) :
    EStateM PublishError LocalDb Bool :=
  transaction ((faults .begin).map (casErr "failed to open head CAS tx"))
    (fun swapped => if swapped then (faults .commit).map (casErr "failed to commit head CAS")
      else none) do
      let current ← headRowRead faults table
      if current.map etagOf ≠ expected then
        return false
      else
        exec faults .upsertHead (casErr "failed to write head CAS")
          fun db => (true, db.setHead newValue table)

variable {faults : Faults} {table : HeadTable} {db db' : LocalDb}

theorem headRowRead_eq_ok {found : Option ByteArray} :
    headRowRead faults table db = .ok found db' ↔
      faults .selectHead = none ∧ found = db.head table ∧ db' = db := by
  rw [headRowRead, exec_eq_ok, Prod.mk.injEq]
  exact and_congr_right fun _ => and_congr eq_comm eq_comm

theorem headRowCas_true {expected : Option String} {newValue : ByteArray}
    (h : headRowCas faults table expected newValue db = .ok true db') :
    (db.head table).map etagOf = expected ∧ db' = db.setHead newValue table := by
  rw [headRowCas, transaction_eq_ok] at h
  obtain ⟨-, -, h⟩ := h
  obtain ⟨current, db₁, hread, h⟩ := estate_bind_eq_ok.mp h
  obtain ⟨-, rfl, rfl⟩ := headRowRead_eq_ok.mp hread
  split at h
  · cases h
  · obtain ⟨-, heq⟩ := exec_eq_ok.mp h
    exact ⟨not_not.mp ‹_›, (Prod.mk.inj heq).2.symm⟩

theorem headRowCas_false {expected : Option String} {newValue : ByteArray}
    (h : headRowCas faults table expected newValue db = .ok false db') :
    (db.head table).map etagOf ≠ expected ∧ db' = db := by
  rw [headRowCas, transaction_eq_ok] at h
  obtain ⟨-, -, h⟩ := h
  obtain ⟨current, db₁, hread, h⟩ := estate_bind_eq_ok.mp h
  obtain ⟨-, rfl, rfl⟩ := headRowRead_eq_ok.mp hread
  split at h
  · cases h
    exact ⟨‹_›, rfl⟩
  · cases (Prod.mk.inj (exec_eq_ok.mp h).2).1

theorem atomic_headRowCas (expected : Option String) (newValue : ByteArray) :
    Atomic (headRowCas faults table expected newValue) :=
  atomic_transaction _ _ _

end LTSearch
