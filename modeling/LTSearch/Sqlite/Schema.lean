/-
# LTSearch.Sqlite.Schema -- the tables of the local database and the statements that may fail

One database file holds the WAL segments, the build queue, the dead-letter table and the two
heads, of the index and of the static releases.  A call locks its connection and runs its statements in one block, so the interleavings of
the callers are interleavings of whole calls; what can go wrong inside a call is that the engine
fails one of its statements, which `Faults` decides statement by statement.
-/
import LTSearch.Foundation.Table
import LTSearch.Foundation.Transaction
import LTSearch.Write.Api

namespace LTSearch

open LTSearch.Foundation

/-- A row of `wal_segments`. -/
structure WalSegment where
  segmentKey : String
  data : ByteArray

/-- The two values the `state` column takes. -/
inductive JobState where
  | ready
  | claimed
  deriving DecidableEq, Repr

/-- A row of `build_jobs`. -/
structure BuildJobRow where
  batchId : String
  body : String
  state : JobState
  attempts : Int
  availableAt : Int
  claimedAt : Option Int
  claimToken : Option String
  deriving DecidableEq, Repr

/-- A row of `dead_jobs`. -/
structure DeadJobRow where
  batchId : String
  body : String
  attempts : Int
  lastError : String
  diedAt : Int
  deriving DecidableEq, Repr

/-- One database file. -/
structure LocalDb where
  walSegments : Table WalSegment.segmentKey
  buildJobs : Table BuildJobRow.batchId
  deadJobs : Table DeadJobRow.batchId
  activeHead : Option ByteArray
  staticReleaseHead : Option ByteArray

/-- The database right after `schema::init`. -/
def LocalDb.init : LocalDb where
  walSegments := ∅
  buildJobs := ∅
  deadJobs := ∅
  activeHead := none
  staticReleaseHead := none

/-- The statements the calls below are made of. -/
inductive Statement where
  | begin
  | selectSegment
  | upsertSegment
  | upsertJob
  | reclaim
  | prepareClaim
  | claim
  | readClaimed
  | deleteAcked
  | selectClaim
  | insertDead
  | deleteDead
  | requeue
  | prepareList
  | queryList
  | readListed
  | selectHead
  | upsertHead
  | commit
  deriving DecidableEq, Repr

/-- What the engine does to the statements of one call: the text of its error, or nothing. -/
abbrev Faults := Statement → Option String

/-- The engine fails nothing. -/
def Faults.none : Faults := fun _ => Option.none

/-- Run one statement; a failure is reported under the text the caller wraps it in. -/
def exec {ε α : Type} (faults : Faults) (statement : Statement) (context : String → ε)
    (effect : LocalDb → α × LocalDb) : EStateM ε LocalDb α :=
  orFault ((faults statement).map context) (modifyGet effect)

/-- `transaction_with_behavior(Immediate)` around a body. -/
def immediate {ε α : Type} (faults : Faults) (openContext : String → ε)
    (commitContext : α → String → ε) (body : EStateM ε LocalDb α) : EStateM ε LocalDb α :=
  transaction ((faults .begin).map openContext)
    (fun a => (faults .commit).map (commitContext a)) body

section Spec

variable {ε α : Type} {faults : Faults}

theorem exec_eq_ok {statement : Statement} {context : String → ε}
    {effect : LocalDb → α × LocalDb} {db db' : LocalDb} {a : α} :
    exec faults statement context effect db = .ok a db' ↔
      faults statement = none ∧ effect db = (a, db') := by
  rw [exec, orFault_eq_ok, Option.map_eq_none_iff]
  apply and_congr_right
  intro _
  change (match effect db with | (a, s) => EStateM.Result.ok a s) = _ ↔ _
  rcases effect db with ⟨b, db₁⟩
  simp

theorem atomic_exec (statement : Statement) (context : String → ε)
    (effect : LocalDb → α × LocalDb) : Atomic (exec faults statement context effect) :=
  atomic_orFault (atomic_modifyGet effect)

theorem immediate_eq_ok {openContext : String → ε} {commitContext : α → String → ε}
    {body : EStateM ε LocalDb α} {db db' : LocalDb} {a : α} :
    immediate faults openContext commitContext body db = .ok a db' ↔
      faults .begin = none ∧ faults .commit = none ∧ body db = .ok a db' := by
  rw [immediate, transaction_eq_ok, Option.map_eq_none_iff, Option.map_eq_none_iff]

theorem atomic_immediate (openContext : String → ε) (commitContext : α → String → ε)
    (body : EStateM ε LocalDb α) : Atomic (immediate faults openContext commitContext body) :=
  atomic_transaction _ _ body

end Spec

end LTSearch
