/-
# LTSearch.Sqlite.Ledger -- who holds which delivery, kept by an observer of the calls

The tables do not say which tokens consumers still hold, how often a delivery was handed back or
whether a job that is gone was settled.  The ledger does: it is kept beside the database by someone
who sees every call that returned, and the database never reads it.

A delivery is live from the `receive` that opened it until its lease runs out at the clock reading
of a later `receive`, or it is acked or nacked with its token, or its batch is enqueued again.
-/
import LTSearch.Sqlite.Queue
import LTSearch.Foundation.Run

namespace LTSearch

open LTSearch.Foundation

/-- One delivery: the token handed out, the batch whose row it was for, and when. -/
structure Delivery where
  token : String
  batchId : String
  claimedAt : Int
  deriving DecidableEq, Repr

structure Ledger where
  /-- every batch enqueued, the latest first -/
  enqueued : List QueueBatch
  /-- the deliveries that have not ended -/
  live : List Delivery
  /-- every delivery ever opened -/
  opened : List Delivery
  /-- per batch, the nacks made with a live receipt since it was last enqueued -/
  nacks : String → Nat
  /-- the deliveries ended by an ack with their own token while they were live -/
  settled : List Delivery

namespace Ledger

def empty : Ledger where
  enqueued := []
  live := []
  opened := []
  nacks := fun _ => 0
  settled := []

/-- A batch was enqueued: deliveries of it end, and its count starts over. -/
def enqueue (batch : QueueBatch) (l : Ledger) : Ledger :=
  { l with
    enqueued := batch :: l.enqueued
    live := l.live.filter fun d => d.batchId ≠ batch.batchId
    nacks := fun b => if b = batch.batchId then 0 else l.nacks b }

/-- A `receive` at `now` ended the deliveries whose lease ran out by then. -/
def reclaim (source : SqliteBuildJobSource) (now : Millis) (l : Ledger) : Ledger :=
  { l with live := l.live.filter fun d => now.val < d.claimedAt + source.leaseMs }

/-- A `receive` opened these deliveries. -/
def deliver (deliveries : List Delivery) (l : Ledger) : Ledger :=
  { l with
    live := l.live ++ deliveries
    opened := l.opened ++ deliveries }

/-- An ack with this token returned. -/
def ack (token : String) (l : Ledger) : Ledger :=
  { l with
    live := l.live.filter fun d => d.token ≠ token
    settled := l.settled ++ l.live.filter fun d => d.token = token }

/-- A nack with this token returned. -/
def nack (token : String) (l : Ledger) : Ledger :=
  { l with
    live := l.live.filter fun d => d.token ≠ token
    nacks := fun b =>
      if ∃ d ∈ l.live, d.token = token ∧ d.batchId = b then l.nacks b + 1 else l.nacks b }

/-- Every token handed out. -/
def issued (l : Ledger) : List String := l.opened.map (·.token)

theorem issued_deliver (l : Ledger) (deliveries : List Delivery) :
    (l.deliver deliveries).issued = l.issued ++ deliveries.map (·.token) :=
  List.map_append

/-- The deliveries of one batch. -/
def openedFor (l : Ledger) (batchId : String) : List Delivery :=
  l.opened.filter fun d => d.batchId = batchId

/-- The batch last enqueued under an id. -/
def latest (l : Ledger) (batchId : String) : Option QueueBatch :=
  l.enqueued.find? fun batch => batch.batchId = batchId

end Ledger

/-- The deliveries a `receive` opens on a database whose expired leases are back. -/
def LocalDb.deliveries (now : Int) (draw : String → String) (db : LocalDb) : List Delivery :=
  (db.buildJobs.rows.filter (due now)).map fun r =>
    { token := draw r.batchId, batchId := r.batchId, claimedAt := now }

/-- What the observer sees of them: the jobs that were answered, one for each row that was claimed,
in the order of the rows. -/
def LocalDb.answered (now : Int) (jobs : List BuildJob) (db : LocalDb) : List Delivery :=
  List.zipWith (fun job r => { token := job.receipt, batchId := r.batchId, claimedAt := now })
    jobs (db.buildJobs.rows.filter (due now))

/-- The jobs answered are the deliveries opened, each with its own token. -/
theorem LocalDb.answered_claimedJobs (now : Int) (draw : String → String) (db : LocalDb) :
    db.answered now (db.claimedJobs now draw) = db.deliveries now draw := by
  rw [answered, claimedJobs, deliveries, List.zipWith_map_left, List.zipWith_self]

/-- The database and the ledger of its observer. -/
structure Watched where
  db : LocalDb
  ledger : Ledger

def Watched.init : Watched := ⟨.init, .empty⟩

/-- The calls producers and consumers make. -/
inductive QueueCall where
  | enqueue (batch : QueueBatch)
  | appendAndEnqueue (walKey : String) (walBytes : ByteArray) (batch : QueueBatch)
  | receive (now : Millis) (draw : String → String)
  | ack (receipt : String)
  | nack (now : Millis) (receipt error : String)

namespace Watched

variable (source : SqliteBuildJobSource)

/-- Keep the ledger by what a call answered, and leave it alone when the call failed. -/
def keep {ε α : Type} (w : Watched) (result : EStateM.Result ε LocalDb α)
    (record : α → Ledger → Ledger) : Watched :=
  match result with
  | .ok answer db => ⟨db, record answer w.ledger⟩
  | .error _ db => ⟨db, w.ledger⟩

/-- One call, with the engine's faults.  A `receive` opens the deliveries that it answers, and no
others: a row that is claimed and not answered would be held by nobody. -/
def step (w : Watched) (event : QueueCall × Faults) : Watched :=
  match event.1 with
  | .enqueue batch => w.keep (LTSearch.enqueue event.2 batch w.db) fun _ l => l.enqueue batch
  | .appendAndEnqueue walKey walBytes batch =>
      w.keep (appendAndEnqueueTx event.2 walKey walBytes batch w.db) fun _ l => l.enqueue batch
  | .receive now draw =>
      w.keep (LTSearch.receive source now draw event.2 w.db) fun jobs l =>
        (l.reclaim source now).deliver ((w.db.afterReclaim source now).answered now.val jobs)
  | .ack receipt => w.keep (LTSearch.ack receipt event.2 w.db) fun _ l => l.ack receipt
  | .nack now receipt error =>
      w.keep (LTSearch.nack source now receipt error event.2 w.db) fun _ l => l.nack receipt

/-! The effect of a call that returned, as a composition of changes to database and ledger. -/

def enqueue (batch : QueueBatch) (w : Watched) : Watched :=
  ⟨w.db.putJob batch, w.ledger.enqueue batch⟩

def putSegment (key : String) (data : ByteArray) (w : Watched) : Watched :=
  ⟨w.db.putSegment key data, w.ledger⟩

def reclaim (now : Millis) (w : Watched) : Watched :=
  ⟨w.db.afterReclaim source now, w.ledger.reclaim source now⟩

def claim (now : Millis) (draw : String → String) (w : Watched) : Watched :=
  ⟨w.db.claimDue now.val draw, w.ledger.deliver (w.db.deliveries now.val draw)⟩

def ack (receipt : String) (w : Watched) : Watched :=
  ⟨w.db.settle receipt, w.ledger.ack receipt⟩

def nack (now : Millis) (receipt error : String) (w : Watched) : Watched :=
  ⟨w.db.failDelivery source now receipt error, w.ledger.nack receipt⟩

/-- What each call does when it returns. -/
def effect (call : QueueCall) (w : Watched) : Watched :=
  match call with
  | .enqueue batch => w.enqueue batch
  | .appendAndEnqueue walKey walBytes batch =>
      (w.putSegment walKey ((w.db.segment walKey).getD ByteArray.empty ++ walBytes)).enqueue batch
  | .receive now draw => (w.reclaim source now).claim now draw
  | .ack receipt => w.ack receipt
  | .nack now receipt error => w.nack source now receipt error

theorem keep_cases (w : Watched) {ε α : Type} {x : EStateM ε LocalDb α} (hx : Atomic x)
    (record : α → Ledger → Ledger) :
    w.keep (x w.db) record = w ∨
      ∃ a db, x w.db = .ok a db ∧ w.keep (x w.db) record = ⟨db, record a w.ledger⟩ := by
  cases hr : x w.db with
  | ok a db => exact .inr ⟨a, db, rfl, rfl⟩
  | error e db =>
      left
      have hdb := hx _ _ _ hr
      subst hdb
      rfl

/-- A call either changed nothing or had its one effect. -/
theorem step_cases (w : Watched) (event : QueueCall × Faults) :
    w.step source event = w ∨ w.step source event = w.effect source event.1 := by
  obtain ⟨call, faults⟩ := event
  cases call with
  | enqueue batch =>
      have hatomic : Atomic (LTSearch.enqueue faults batch) := atomic_enqueue batch
      rcases keep_cases w hatomic (fun _ l => l.enqueue batch) with h | ⟨a, db, hok, h⟩
      · exact .inl h
      · obtain ⟨-, rfl⟩ := insertBuildJob_eq_ok.mp hok
        exact .inr h
  | appendAndEnqueue walKey walBytes batch =>
      have hatomic : Atomic (appendAndEnqueueTx faults walKey walBytes batch) :=
        atomic_immediate _ _ _
      rcases keep_cases w hatomic (fun _ l => l.enqueue batch) with h | ⟨a, db, hok, h⟩
      · exact .inl h
      · obtain ⟨-, rfl⟩ := appendAndEnqueueTx_eq_ok.mp hok
        exact .inr h
  | receive now draw =>
      have hatomic : Atomic (LTSearch.receive source now draw faults) := atomic_receive draw
      rcases keep_cases w hatomic (fun jobs l => (l.reclaim source now).deliver
          ((w.db.afterReclaim source now).answered now.val jobs)) with h | ⟨jobs, db, hok, h⟩
      · exact .inl h
      · obtain ⟨rfl, rfl⟩ := receive_eq_ok hok
        rw [LocalDb.answered_claimedJobs] at h
        exact .inr h
  | ack receipt =>
      have hatomic : Atomic (LTSearch.ack receipt faults) := atomic_ack receipt
      rcases keep_cases w hatomic (fun _ l => l.ack receipt) with h | ⟨a, db, hok, h⟩
      · exact .inl h
      · have hdb := ack_eq_ok hok
        subst hdb
        exact .inr h
  | nack now receipt error =>
      have hatomic : Atomic (LTSearch.nack source now receipt error faults) :=
        atomic_nack receipt error
      rcases keep_cases w hatomic (fun _ l => l.nack receipt) with h | ⟨a, db, hok, h⟩
      · exact .inl h
      · have hdb := nack_eq_ok hok
        subst hdb
        exact .inr h

end Watched

end LTSearch
