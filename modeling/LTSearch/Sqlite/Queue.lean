/-
# LTSearch.Sqlite.Queue -- the build queue: enqueue, receive, ack and nack

Consumers hold a claim token per delivery and nothing else; `ack` and `nack` find their row by it.
Each operation is one locked call.  `receive` reclaims expired leases and then claims every ready
row that is due, drawing a token for each; the clock reading and the draws are its arguments.

Each operation has one spec lemma: either it failed and the database is what it was, or it
returned and the database changed by one named function (`reclaimExpired`, `claimDue`, `settle`,
`failDelivery`).  Nothing else is ever unfolded by the results about whole runs.
-/
import LTSearch.Sqlite.Wal

namespace LTSearch

open LTSearch.Foundation

def defaultMaxAttempts : Nat := 3
def defaultLeaseMs : Int := 300000
def defaultBackoffMs : Int := 1000

/-- A reading of `system_clock`: milliseconds since the epoch, zero when the clock stands before
it, as an `i64`. -/
structure Millis where
  val : Int
  nonneg : 0 ≤ val
  lt : val < 2 ^ 63

/-- `i64` arithmetic wraps in a release build. -/
def wrapI64 (x : Int) : Int := x.bmod (2 ^ 64)

/-- A `BuildJob` as a consumer sees it. -/
structure BuildJob where
  receipt : String
  body : String
  deriving DecidableEq, Repr

/-- The settings of a `SqliteBuildJobSource`.  `max_attempts` is a `u32`, and the environment
variable it comes from is ignored unless it is at least 1. -/
structure SqliteBuildJobSource where
  leaseMs : Int
  maxAttempts : Nat
  baseBackoffMs : Int
  leaseMs_nonneg : 0 ≤ leaseMs
  leaseMs_lt : leaseMs < 2 ^ 63
  maxAttempts_pos : 1 ≤ maxAttempts
  maxAttempts_lt : maxAttempts < 2 ^ 32

/-- `SqliteBuildJobSource::new` when the environment does not say otherwise. -/
def SqliteBuildJobSource.default : SqliteBuildJobSource where
  leaseMs := defaultLeaseMs
  maxAttempts := defaultMaxAttempts
  baseBackoffMs := defaultBackoffMs
  leaseMs_nonneg := by decide
  leaseMs_lt := by decide
  maxAttempts_pos := by decide
  maxAttempts_lt := by decide

/-! ## Producing -/

/-- The row a freshly enqueued batch has. -/
def freshRow (batch : QueueBatch) : BuildJobRow where
  batchId := batch.batchId
  body := batch.toJson
  state := .ready
  attempts := 0
  availableAt := 0
  claimedAt := none
  claimToken := none

/-- The update of `insert_build_job` on conflict.  The column `claim_token` is not among those it
resets: a token of the previous delivery stays in the ready row. -/
def reenqueue (batch : QueueBatch) (r : BuildJobRow) : BuildJobRow :=
  { r with body := batch.toJson, state := .ready, attempts := 0, availableAt := 0, claimedAt := none }

/-- The database with `batch` enqueued. -/
def LocalDb.putJob (batch : QueueBatch) (db : LocalDb) : LocalDb :=
  { db with buildJobs := db.buildJobs.upsert (freshRow batch) (reenqueue batch) (fun _ => rfl) }

/-- `insert_build_job`. -/
def insertBuildJob {ε : Type} (faults : Faults) (context : String → ε) (batch : QueueBatch) :
    EStateM ε LocalDb Unit :=
  exec faults .upsertJob context fun db => ((), db.putJob batch)

/-- `SqliteBuildQueue::enqueue`. -/
def enqueue (faults : Faults) (batch : QueueBatch) : EStateM IngestError LocalDb Unit :=
  insertBuildJob faults
    (fun error => .operation s!"failed to enqueue build job {batch.batchId}: {error}") batch

/-- The body of `SqliteBuildQueue::append_and_enqueue` on the queue's own connection. -/
def appendAndEnqueueTx (faults : Faults) (walKey : String) (walBytes : ByteArray)
    (batch : QueueBatch) : EStateM IngestError LocalDb Unit :=
  immediate faults (opErr "failed to open atomic write tx")
    (fun _ => opErr s!"failed to commit atomic write {batch.batchId}") do
      appendWalSegment faults (opErr s!"failed to append WAL {walKey} (atomic)") walKey walBytes
      insertBuildJob faults (fun error => .operation
        s!"failed to enqueue build job {batch.batchId} (atomic, wal_persisted=false): {error}") batch

/-! ## Consuming -/

/-- The leases that ran out by `cutoff`. -/
def leaseExpired (cutoff : Int) (r : BuildJobRow) : Bool :=
  r.state = .claimed && r.claimedAt.any (· ≤ cutoff)

/-- A row whose delivery is over: ready again, its token gone. -/
def released (r : BuildJobRow) : BuildJobRow :=
  { r with state := .ready, claimedAt := none, claimToken := none }

/-- Give every expired lease back. -/
def LocalDb.reclaimExpired (cutoff : Int) (db : LocalDb) : LocalDb :=
  { db with
    buildJobs := db.buildJobs.updateWhere (leaseExpired cutoff) released (fun _ => rfl) }

/-- A row `receive` claims at time `now`. -/
def due (now : Int) (r : BuildJobRow) : Bool :=
  r.state = .ready && decide (r.availableAt ≤ now)

/-- A row claimed at `now` under the token drawn for it. -/
def claimedAs (now : Int) (draw : String → String) (r : BuildJobRow) : BuildJobRow :=
  { r with state := .claimed, claimedAt := some now, claimToken := some (draw r.batchId) }

/-- Claim every due row. -/
def LocalDb.claimDue (now : Int) (draw : String → String) (db : LocalDb) : LocalDb :=
  { db with
    buildJobs := db.buildJobs.updateWhere (due now) (claimedAs now draw) (fun _ => rfl) }

/-- The rows claimed, as `RETURNING claim_token, body` answers them. -/
def LocalDb.claimedJobs (now : Int) (draw : String → String) (db : LocalDb) : List BuildJob :=
  (db.buildJobs.rows.filter (due now)).map fun r => { receipt := draw r.batchId, body := r.body }

/-- `receive` at clock reading `now`, with `randomblob` drawing `draw b` for the row of batch `b`. -/
def receive (source : SqliteBuildJobSource) (now : Millis) (draw : String → String)
    (faults : Faults) : EStateM String LocalDb (List BuildJob) :=
  immediate faults (s!"failed to open receive tx: {·}")
    (fun _ error => s!"failed to commit receive tx: {error}") do
      exec faults .reclaim (s!"failed to reclaim expired leases: {·}")
        fun db => ((), db.reclaimExpired (wrapI64 (now.val - source.leaseMs)))
      exec faults .prepareClaim (s!"failed to prepare claim: {·}") fun db => ((), db)
      let jobs ← exec faults .claim (s!"failed to claim build jobs: {·}")
        fun db => (db.claimedJobs now.val draw, db.claimDue now.val draw)
      exec faults .readClaimed (s!"failed to read claimed job: {·}") fun db => (jobs, db)

/-- The row a live delivery holds. -/
def holds (token : String) (r : BuildJobRow) : Bool :=
  r.claimToken = some token && r.state = .claimed

/-- `DELETE FROM build_jobs WHERE claim_token = ?1 AND state = 'claimed'`. -/
def LocalDb.settle (token : String) (db : LocalDb) : LocalDb :=
  { db with buildJobs := db.buildJobs.deleteWhere (holds token) }

/-- `ack`. -/
def ack (receipt : String) (faults : Faults) : EStateM String LocalDb Unit :=
  exec faults .deleteAcked (s!"failed to ack claim {receipt}: {·}") fun db => ((), db.settle receipt)

/-- `INSERT INTO dead_jobs .. ON CONFLICT(batch_id) DO UPDATE`. -/
def LocalDb.putDead (dead : DeadJobRow) (db : LocalDb) : LocalDb :=
  { db with
    deadJobs := db.deadJobs.upsert dead
      (fun e => { e with
        body := dead.body, attempts := dead.attempts, lastError := dead.lastError,
        diedAt := dead.diedAt })
      (fun _ => rfl) }

/-- `DELETE FROM build_jobs WHERE claim_token = ?1`. -/
def LocalDb.dropToken (token : String) (db : LocalDb) : LocalDb :=
  { db with buildJobs := db.buildJobs.deleteWhere (fun r => r.claimToken = some token) }

/-- A row handed back for a later retry. -/
def postponed (attempts availableAt : Int) (r : BuildJobRow) : BuildJobRow :=
  { r with state := .ready, attempts, availableAt, claimedAt := none, claimToken := none }

/-- `UPDATE build_jobs SET state = 'ready', .. WHERE claim_token = ?1`. -/
def LocalDb.postpone (token : String) (attempts availableAt : Int) (db : LocalDb) : LocalDb :=
  { db with
    buildJobs := db.buildJobs.updateWhere (fun r => r.claimToken = some token)
      (postponed attempts availableAt) (fun _ => rfl) }

/-- What a failed delivery of row `r` counts up to. -/
def newAttempts (r : BuildJobRow) : Int := wrapI64 (r.attempts + 1)

/-- When a failed delivery may be tried again. -/
def SqliteBuildJobSource.retryAt (source : SqliteBuildJobSource) (now : Millis) (r : BuildJobRow) :
    Int :=
  wrapI64 (now.val + wrapI64 (source.baseBackoffMs * newAttempts r))

/-- `new_attempts as u32 >= max_attempts`. -/
def SqliteBuildJobSource.exhausted (source : SqliteBuildJobSource) (r : BuildJobRow) : Bool :=
  decide ((source.maxAttempts : Int) ≤ newAttempts r % 2 ^ 32)

/-- The dead-letter row of a job whose attempts are used up. -/
def deadRow (now : Millis) (error : String) (r : BuildJobRow) : DeadJobRow where
  batchId := r.batchId
  body := r.body
  attempts := newAttempts r
  lastError := error
  diedAt := now.val

/-- The transaction of `nack`; it answers whether it found the delivery. -/
def nackTx (source : SqliteBuildJobSource) (now : Millis) (receipt error : String)
    (faults : Faults) : EStateM String LocalDb Bool := do
  let current ← exec faults .selectClaim (s!"failed to read claim {receipt} for nack: {·}")
    fun db => (db.buildJobs.rows.find? (holds receipt), db)
  match current with
  | none => return false
  | some r =>
      if source.exhausted r then
        exec faults .insertDead (s!"failed to dead-letter job {r.batchId}: {·}")
          fun db => ((), db.putDead (deadRow now error r))
        exec faults .deleteDead (s!"failed to remove dead job {r.batchId}: {·}")
          fun db => (true, db.dropToken receipt)
      else
        exec faults .requeue (s!"failed to requeue job {r.batchId}: {·}")
          fun db => (true, db.postpone receipt (newAttempts r) (source.retryAt now r))

/-- `nack`. -/
def nack (source : SqliteBuildJobSource) (now : Millis) (receipt error : String)
    (faults : Faults) : EStateM String LocalDb Unit :=
  (fun _ => ()) <$> immediate faults (s!"failed to open nack tx: {·}")
    (fun found e =>
      if found then s!"failed to commit nack tx: {e}" else s!"failed to commit no-op nack: {e}")
    (nackTx source now receipt error faults)

/-! ## One spec for each operation -/

/-- What a `nack` that returned did. -/
def LocalDb.failDelivery (source : SqliteBuildJobSource) (now : Millis) (receipt error : String)
    (db : LocalDb) : LocalDb :=
  match db.buildJobs.rows.find? (holds receipt) with
  | none => db
  | some r =>
      if source.exhausted r then (db.putDead (deadRow now error r)).dropToken receipt
      else db.postpone receipt (newAttempts r) (source.retryAt now r)

/-- The database a `receive` at `now` claims from. -/
def LocalDb.afterReclaim (source : SqliteBuildJobSource) (now : Millis) (db : LocalDb) : LocalDb :=
  db.reclaimExpired (wrapI64 (now.val - source.leaseMs))

/-- The row of a batch in `build_jobs`. -/
def LocalDb.job (db : LocalDb) (batchId : String) : Option BuildJobRow := db.buildJobs.get batchId

/-- The row of a batch in `dead_jobs`. -/
def LocalDb.dead (db : LocalDb) (batchId : String) : Option DeadJobRow := db.deadJobs.get batchId

/-- The database a call leaves behind, whether it returned or failed. -/
def finalDb {ε α : Type} : EStateM.Result ε LocalDb α → LocalDb
  | .ok _ db => db
  | .error _ db => db

variable {source : SqliteBuildJobSource} {now : Millis} {faults : Faults} {db db' : LocalDb}

theorem job_putJob (batch : QueueBatch) (b : String) :
    (db.putJob batch).job b =
      if batch.batchId = b then some (((db.job b).map (reenqueue batch)).getD (freshRow batch))
      else db.job b :=
  Table.get_upsert _ _ _ _ _

theorem insertBuildJob_eq_ok {ε : Type} {context : String → ε} {batch : QueueBatch} {u : Unit} :
    insertBuildJob faults context batch db = .ok u db' ↔
      faults .upsertJob = none ∧ db' = db.putJob batch := by
  rw [insertBuildJob, exec_eq_ok, Prod.mk.injEq]
  constructor
  · rintro ⟨hf, -, rfl⟩
    exact ⟨hf, rfl⟩
  · rintro ⟨hf, rfl⟩
    exact ⟨hf, rfl, rfl⟩

theorem atomic_enqueue (batch : QueueBatch) : Atomic (enqueue faults batch) :=
  atomic_exec _ _ _

theorem appendAndEnqueueTx_eq_ok {walKey : String} {walBytes : ByteArray} {batch : QueueBatch}
    {u : Unit} :
    appendAndEnqueueTx faults walKey walBytes batch db = .ok u db' ↔
      (∀ statement ∈ [Statement.begin, .selectSegment, .upsertSegment, .upsertJob, .commit],
        faults statement = none) ∧
      db' = (db.putSegment walKey
        ((db.segment walKey).getD ByteArray.empty ++ walBytes)).putJob batch := by
  simp only [appendAndEnqueueTx, immediate_eq_ok, estate_bind_eq_ok, appendWalSegment_eq_ok,
    insertBuildJob_eq_ok, List.forall_mem_cons, List.not_mem_nil, false_implies, implies_true,
    and_true]
  constructor
  · rintro ⟨hbegin, hcommit, _, _, ⟨hselect, hupsert, rfl⟩, hjob, rfl⟩
    exact ⟨⟨hbegin, hselect, hupsert, hjob, hcommit⟩, rfl⟩
  · rintro ⟨⟨hbegin, hselect, hupsert, hjob, hcommit⟩, rfl⟩
    exact ⟨hbegin, hcommit, (), _, ⟨hselect, hupsert, rfl⟩, hjob, rfl⟩

theorem receive_eq_ok {draw : String → String} {jobs : List BuildJob}
    (h : receive source now draw faults db = .ok jobs db') :
    jobs = (db.afterReclaim source now).claimedJobs now.val draw ∧
      db' = (db.afterReclaim source now).claimDue now.val draw := by
  simp only [receive, immediate_eq_ok, estate_bind_eq_ok, exec_eq_ok, Prod.mk.injEq] at h
  obtain ⟨-, -, _, _, ⟨-, -, rfl⟩, _, _, ⟨-, -, rfl⟩, _, _, ⟨-, rfl, rfl⟩, -, rfl, rfl⟩ := h
  exact ⟨rfl, rfl⟩

theorem atomic_receive (draw : String → String) : Atomic (receive source now draw faults) :=
  atomic_immediate _ _ _

theorem ack_eq_ok {receipt : String} (h : ack receipt faults db = .ok () db') :
    db' = db.settle receipt := by
  simp only [ack, exec_eq_ok, Prod.mk.injEq] at h
  exact h.2.2.symm

theorem atomic_ack (receipt : String) : Atomic (ack receipt faults) :=
  atomic_exec _ _ _

theorem walSegments_failDelivery (receipt error : String) :
    (db.failDelivery source now receipt error).walSegments = db.walSegments := by
  unfold LocalDb.failDelivery
  cases db.buildJobs.rows.find? (holds receipt) with
  | none => rfl
  | some r => by_cases hex : source.exhausted r = true <;> simp only [hex] <;> rfl

theorem nackTx_eq_ok {receipt error : String} {found : Bool}
    (h : nackTx source now receipt error faults db = .ok found db') :
    db' = db.failDelivery source now receipt error := by
  unfold nackTx at h
  simp only [estate_bind_eq_ok, exec_eq_ok, Prod.mk.injEq] at h
  obtain ⟨current, _, ⟨-, rfl, rfl⟩, h⟩ := h
  unfold LocalDb.failDelivery
  cases hfind : db.buildJobs.rows.find? (holds receipt) with
  | none =>
      rw [hfind] at h
      cases h
      rfl
  | some r =>
      rw [hfind] at h
      by_cases hex : source.exhausted r = true
      · simp only [if_pos hex, estate_bind_eq_ok, exec_eq_ok, Prod.mk.injEq] at h
        obtain ⟨_, _, ⟨-, -, rfl⟩, -, -, rfl⟩ := h
        simp only [if_pos hex]
      · simp only [if_neg hex, exec_eq_ok, Prod.mk.injEq] at h
        obtain ⟨-, -, rfl⟩ := h
        simp only [if_neg hex]

theorem nack_eq_ok {receipt error : String}
    (h : nack source now receipt error faults db = .ok () db') :
    db' = db.failDelivery source now receipt error := by
  obtain ⟨found, htx⟩ := estate_map_eq_ok.mp h
  exact nackTx_eq_ok (immediate_eq_ok.mp htx).2.2

theorem atomic_nack (receipt error : String) : Atomic (nack source now receipt error faults) :=
  (atomic_immediate _ _ _).map _

end LTSearch
