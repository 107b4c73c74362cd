/-
# LTSearch.Sqlite.AtomicWrite -- a local write lands in the WAL and in the queue, or in neither

`SqliteBuildQueue::append_and_enqueue` writes on the queue's own connection, so it first checks that
the WAL it was given is a SQLite WAL on that very connection.  The world below has any number of
database files, and WAL storages of other kinds next to them; whatever the writer was wired to, a
write that does not return `Ok` leaves all of them as they were.
-/
import LTSearch.Sqlite.Queue
import LTSearch.Foundation.Run

namespace LTSearch

open LTSearch.Foundation

/-- A `SqliteDb` handle: which shared connection it is (the `Arc`), and the file that is open on. -/
structure SqliteDb where
  conn : Nat
  file : Nat
  deriving DecidableEq, Repr

/-- `ptr_eq`. -/
def SqliteDb.ptrEq (a b : SqliteDb) : Bool := a = b

/-- The WAL a `WriteApi` is built over: a `WriteAheadLog<SqliteWalStorage>`, or another `WalAppend`. -/
inductive WalAppend where
  | sqlite (db : SqliteDb)
  | other (id : Nat)
  deriving DecidableEq, Repr

/-- The database files and what WAL storages of other kinds hold. -/
structure LocalWorld where
  files : Nat → LocalDb
  others : Nat → List (String × ByteArray)

namespace LocalWorld

def init : LocalWorld where
  files := fun _ => .init
  others := fun _ => []

def setFile (file : Nat) (db : LocalDb) (w : LocalWorld) : LocalWorld :=
  { w with files := Function.update w.files file db }

@[simp]
theorem files_setFile (file : Nat) (db : LocalDb) (w : LocalWorld) :
    (w.setFile file db).files = Function.update w.files file db := rfl

theorem setFile_self (w : LocalWorld) (file : Nat) : w.setFile file (w.files file) = w := by
  unfold setFile
  rw [Function.update_eq_self]

end LocalWorld

/-- `SqliteDb::call`: run a block under the lock of the connection. -/
def SqliteDb.call {ε α : Type} (db : SqliteDb) (f : EStateM ε LocalDb α) :
    EStateM ε LocalWorld α := fun w =>
  match f (w.files db.file) with
  | .ok a d => .ok a (w.setFile db.file d)
  | .error e d => .error e (w.setFile db.file d)

/-- `shares_db`: the WAL is a `SqliteWalStorage` on the queue's own connection. -/
def sharesDb (queueDb : SqliteDb) : WalAppend → Bool
  | .sqlite db => db.ptrEq queueDb
  | .other _ => false

/-- `SqliteBuildQueue::append_and_enqueue`. -/
def sqliteAppendAndEnqueue (queueDb : SqliteDb) (wal : WalAppend) (faults : Faults) :
    AppendAndEnqueue LocalWorld := fun walKey walBytes batch =>
  if sharesDb queueDb wal = true then queueDb.call (appendAndEnqueueTx faults walKey walBytes batch)
  else throw (.operation
    ("misconfigured local write path: SqliteBuildQueue::append_and_enqueue requires the WriteApi "
      ++ "WAL to be a SqliteWalStorage sharing this queue's SqliteDb handle; construct both from "
      ++ s!"one SqliteDb (batch_id={batch.batchId})"))

/-- A write request as one process serves it: its wiring, the engine's faults, its clock reading
and the uuid it draws. -/
structure LocalWriter where
  queueDb : SqliteDb
  wal : WalAppend
  faults : Faults
  json : Serde WalRecord
  clock : Int
  uuid : String

/-- The write API of a local process. -/
def LocalWriter.api (writer : LocalWriter) : WriteApi LocalWorld where
  queue := sqliteAppendAndEnqueue writer.queueDb writer.wal writer.faults
  json := writer.json
  clock := writer.clock
  uuid := writer.uuid

/-- The world a request leaves behind, whether it returned or failed. -/
def finalWorld {ε α : Type} : EStateM.Result ε LocalWorld α → LocalWorld
  | .ok _ w => w
  | .error _ w => w

/-- The answer was `Ok`. -/
def returned {ε σ α : Type} : EStateM.Result ε σ α → Bool
  | .ok _ _ => true
  | .error _ _ => false

namespace LocalWriter

/-- The request as the writer would store it, when it passes its checks. -/
def prepared (writer : LocalWriter) (request : WriteRequest) : Except ValidationError PreparedWrite :=
  prepareWrite writer.clock writer.uuid request

/-- The queue's database after write `w` went through on `db`. -/
def stored (writer : LocalWriter) (w : PreparedWrite) (db : LocalDb) : LocalDb :=
  (db.putSegment w.walKey
    ((db.segment w.walKey).getD ByteArray.empty ++ w.bytes writer.json)).putJob w.batch

end LocalWriter

/-! ## How the layers of a write return and fail -/

theorem liftValidation_eq_ok {σ α : Type} {x : Except ValidationError α} {s s' : σ} {a : α} :
    liftValidation x s = .ok a s' ↔ x = .ok a ∧ s' = s := by
  cases x with
  | ok b => simp [liftValidation, eq_comm]
  | error e => simp [liftValidation]

theorem atomic_liftValidation {σ α : Type} (x : Except ValidationError α) :
    Atomic (liftValidation (σ := σ) x) := by
  intro s e s' h
  cases x with
  | ok a => cases h
  | error b => cases h; rfl

theorem call_eq_ok {ε α : Type} {db : SqliteDb} {x : EStateM ε LocalDb α} {a : α}
    {w w' : LocalWorld} :
    db.call x w = .ok a w' ↔ ∃ d, x (w.files db.file) = .ok a d ∧ w' = w.setFile db.file d := by
  unfold SqliteDb.call
  cases hx : x (w.files db.file) with
  | ok b d => simp [eq_comm]
  | error e d => simp

theorem atomic_call {ε α : Type} (db : SqliteDb) {x : EStateM ε LocalDb α} (hx : Atomic x) :
    Atomic (db.call x) := by
  intro w e w' h
  unfold SqliteDb.call at h
  cases hr : x (w.files db.file) with
  | ok a d => simp [hr] at h
  | error e₁ d =>
      simp only [hr] at h
      cases h
      rw [hx _ _ _ hr, LocalWorld.setFile_self]

theorem sqliteAppendAndEnqueue_eq_ok {queueDb : SqliteDb} {wal : WalAppend} {faults : Faults}
    {key : String} {bytes : ByteArray} {batch : QueueBatch} {u : Unit} {w w' : LocalWorld} :
    sqliteAppendAndEnqueue queueDb wal faults key bytes batch w = .ok u w' ↔
      sharesDb queueDb wal = true ∧
        queueDb.call (appendAndEnqueueTx faults key bytes batch) w = .ok u w' := by
  unfold sqliteAppendAndEnqueue
  by_cases hshares : sharesDb queueDb wal = true
  · simp [hshares]
  · simp only [hshares, Bool.false_eq_true, false_and, iff_false]
    exact fun h => nomatch h

theorem atomic_sqliteAppendAndEnqueue (queueDb : SqliteDb) (wal : WalAppend) (faults : Faults)
    (key : String) (bytes : ByteArray) (batch : QueueBatch) :
    Atomic (sqliteAppendAndEnqueue queueDb wal faults key bytes batch) := by
  unfold sqliteAppendAndEnqueue
  by_cases hshares : sharesDb queueDb wal = true
  · rw [if_pos hshares]
    exact atomic_call queueDb (atomic_immediate _ _ _)
  · rw [if_neg hshares]
    intro s e s' h
    cases h
    rfl

namespace LocalWriter

variable {writer : LocalWriter} {request : WriteRequest} {world : LocalWorld}

/-- A write returns in one way only: checked, on one connection, without a fault, and everything
stored. -/
theorem write_eq_ok_iff {response : IngestResponse} {world' : LocalWorld} :
    writer.api.write request world = .ok response world' ↔
      ∃ w, writer.prepared request = .ok w ∧ sharesDb writer.queueDb writer.wal = true ∧
        (∀ statement ∈ [Statement.begin, .selectSegment, .upsertSegment, .upsertJob, .commit],
          writer.faults statement = none) ∧
        response = w.response ∧
        world' = world.setFile writer.queueDb.file
          (writer.stored w (world.files writer.queueDb.file)) := by
  have hpure : ∀ (a b : IngestResponse) (s s' : LocalWorld),
      (pure a : EStateM IngestError LocalWorld IngestResponse) s = .ok b s' ↔ b = a ∧ s' = s := by
    intro a b s s'
    change EStateM.Result.ok a s = .ok b s' ↔ _
    simp [eq_comm]
  unfold WriteApi.write WriteApi.appendAndEnqueue
  simp only [estate_bind_eq_ok, liftValidation_eq_ok, hpure, api, sqliteAppendAndEnqueue_eq_ok,
    call_eq_ok, appendAndEnqueueTx_eq_ok]
  -- a write returns after the commit, so each of its statements has worked
  constructor
  · rintro ⟨w, _, ⟨hprep, rfl⟩, _, _, ⟨bytes, _, ⟨hbytes, rfl⟩, hshares, _, ⟨hfaults, rfl⟩, rfl⟩,
      rfl, rfl⟩
    rw [serializeRecords_prepared hprep] at hbytes
    cases hbytes
    exact ⟨w, hprep, hshares, hfaults, rfl, rfl⟩
  · rintro ⟨w, hprep, hshares, hfaults, rfl, rfl⟩
    exact ⟨w, _, ⟨hprep, rfl⟩, (), _, ⟨_, _, ⟨serializeRecords_prepared hprep _, rfl⟩, hshares, _,
      ⟨hfaults, rfl⟩, rfl⟩, rfl, rfl⟩

/-- A write that does not return leaves every file and every other WAL as it was. -/
theorem atomic_write (writer : LocalWriter) (request : WriteRequest) :
    Atomic (writer.api.write request) := by
  have hsame : ∀ {α : Type} (x : Except ValidationError α) (s : LocalWorld) a s',
      liftValidation x s = .ok a s' → s' = s := fun x s a s' h => (liftValidation_eq_ok.mp h).2
  unfold WriteApi.write
  refine Atomic.bind_left (hsame _) (atomic_liftValidation _) fun w => ?_
  have happend : Atomic (writer.api.appendAndEnqueue w) :=
    Atomic.bind_left (hsame _) (atomic_liftValidation _)
      fun bytes => atomic_sqliteAppendAndEnqueue _ _ _ _ _ _
  exact happend.map fun _ => w.response

end LocalWriter

/-! ## One write -/

/-- Both halves of write `w` went from `world` into `world'`: its bytes are at the end of its
segment in the WAL the writer was given, and its job is ready in the writer's queue. -/
structure BothStored (writer : LocalWriter) (w : PreparedWrite) (world world' : LocalWorld) :
    Prop where
  segment : ∃ db, writer.wal = .sqlite db ∧ (world'.files db.file).segment w.walKey =
    some (((world.files db.file).segment w.walKey).getD ByteArray.empty ++ w.bytes writer.json)
  job : ∃ r, (world'.files writer.queueDb.file).job w.batchId = some r ∧
    r.state = .ready ∧ r.attempts = 0 ∧ r.availableAt = 0 ∧ r.body = w.batch.toJson

/-- The bytes of a write are never empty: every record ends its line. -/
theorem bytes_size_pos {w : PreparedWrite} (h : w.records ≠ []) (json : Serde WalRecord) :
    0 < (w.bytes json).size := by
  obtain ⟨r, rest, hr⟩ := List.exists_cons_of_ne_nil h
  unfold PreparedWrite.bytes
  rw [hr, List.map_cons, joinLines, List.foldr_cons]
  change 0 < String.utf8ByteSize _
  rw [String.utf8ByteSize_append, String.utf8ByteSize_append]
  have hnewline : "\n".utf8ByteSize = 1 := by decide
  omega

theorem segment_putJob (db : LocalDb) (batch : QueueBatch) (key : String) :
    (db.putJob batch).segment key = db.segment key := rfl

theorem segment_stored (writer : LocalWriter) (w : PreparedWrite) (db : LocalDb) (key : String) :
    (writer.stored w db).segment key =
      if w.walKey = key then
        some ((db.segment w.walKey).getD ByteArray.empty ++ w.bytes writer.json)
      else db.segment key := by
  unfold LocalWriter.stored
  rw [segment_putJob, segment_putSegment]

theorem job_stored (writer : LocalWriter) (w : PreparedWrite) (db : LocalDb) :
    ∃ r, (writer.stored w db).job w.batchId = some r ∧
      r.state = .ready ∧ r.attempts = 0 ∧ r.availableAt = 0 ∧ r.body = w.batch.toJson := by
  unfold LocalWriter.stored
  rw [job_putJob, if_pos (show w.batch.batchId = w.batchId from rfl)]
  cases (db.putSegment w.walKey _).job w.batchId with
  | none => exact ⟨freshRow w.batch, rfl, rfl, rfl, rfl, rfl⟩
  | some r => exact ⟨reenqueue w.batch r, rfl, rfl, rfl, rfl, rfl⟩

theorem sharesDb_iff {queueDb : SqliteDb} {wal : WalAppend} :
    sharesDb queueDb wal = true ↔ wal = .sqlite queueDb := by
  cases wal with
  | sqlite db => simp [sharesDb, SqliteDb.ptrEq]
  | other id => simp [sharesDb]

/-- What a write that returned did. -/
theorem bothStored_of_ok {writer : LocalWriter} {request : WriteRequest} {world world' : LocalWorld}
    {response : IngestResponse} (h : writer.api.write request world = .ok response world') :
    ∃ w, writer.prepared request = .ok w ∧ BothStored writer w world world' := by
  obtain ⟨w, hprep, hshares, -, -, rfl⟩ := LocalWriter.write_eq_ok_iff.mp h
  refine ⟨w, hprep, ⟨writer.queueDb, sharesDb_iff.mp hshares, ?_⟩, ?_⟩
  · rw [LocalWorld.files_setFile, Function.update_self, segment_stored, if_pos rfl]
  · rw [LocalWorld.files_setFile, Function.update_self]
    exact job_stored writer w _

/-- A world that did not change did not store anything. -/
theorem not_bothStored_self {writer : LocalWriter} {request : WriteRequest} {w : PreparedWrite}
    (hprep : writer.prepared request = .ok w) (world : LocalWorld) :
    ¬BothStored writer w world world := by
  rintro ⟨⟨db, -, hsegment⟩, -⟩
  have hpos := bytes_size_pos (prepareWrite_records_ne_nil hprep) writer.json
  cases hold : (world.files db.file).segment w.walKey with
  | none =>
      rw [hold] at hsegment
      cases hsegment
  | some data =>
      rw [hold, Option.getD_some] at hsegment
      have hsize := congrArg ByteArray.size (Option.some.inj hsegment)
      rw [ByteArray.size_append] at hsize
      omega

/-- A request answers `Ok` exactly when both halves were stored, and otherwise nothing changed. -/
theorem write_atomic (writer : LocalWriter) (request : WriteRequest) (world : LocalWorld) :
    (returned (writer.api.write request world) = true ↔
      ∃ w, writer.prepared request = .ok w ∧
        BothStored writer w world (finalWorld (writer.api.write request world))) ∧
    (returned (writer.api.write request world) = false →
      finalWorld (writer.api.write request world) = world) := by
  cases hr : writer.api.write request world with
  | ok response world' => exact ⟨⟨fun _ => bothStored_of_ok hr, fun _ => rfl⟩, fun h => (nomatch h)⟩
  | error e world' =>
      have hsame : world' = world := writer.atomic_write request _ _ _ hr
      subst hsame
      refine ⟨⟨fun h => (nomatch h), ?_⟩, fun _ => rfl⟩
      rintro ⟨w, hprep, hboth⟩
      exact absurd hboth (not_bothStored_self hprep _)

/-! ## Runs of writes and consumers -/

/-- The calls of a queue consumer. -/
inductive ConsumerCall where
  | receive (now : Millis) (draw : String → String)
  | ack (receipt : String)
  | nack (now : Millis) (receipt error : String)

/-- A consumer's call on one database file. -/
def ConsumerCall.apply (source : SqliteBuildJobSource) (faults : Faults) (db : LocalDb) :
    ConsumerCall → LocalDb
  | .receive now draw => finalDb (LTSearch.receive source now draw faults db)
  | .ack receipt => finalDb (LTSearch.ack receipt faults db)
  | .nack now receipt error => finalDb (LTSearch.nack source now receipt error faults db)

/-- What can happen to the local databases: a write request served by some process, or a consumer's
call on some file. -/
inductive LocalEvent where
  | write (writer : LocalWriter) (request : WriteRequest)
  | consume (source : SqliteBuildJobSource) (faults : Faults) (file : Nat) (call : ConsumerCall)

/-- The world, and the writes that returned `Ok` so far. -/
structure WriteLog where
  world : LocalWorld
  accepted : List (LocalWriter × PreparedWrite)

namespace WriteLog

def init : WriteLog := ⟨.init, []⟩

def step (s : WriteLog) : LocalEvent → WriteLog
  | .write writer request =>
      match writer.api.write request s.world, writer.prepared request with
      | .ok _ world, .ok w => ⟨world, s.accepted ++ [(writer, w)]⟩
      | result, _ => ⟨finalWorld result, s.accepted⟩
  | .consume source faults file call =>
      ⟨s.world.setFile file (call.apply source faults (s.world.files file)), s.accepted⟩

end WriteLog

/-- What the accepted writes put under `key` in a file: their bytes, one after another. -/
def acceptedBytes (file : Nat) (key : String) (accepted : List (LocalWriter × PreparedWrite)) :
    Option ByteArray :=
  accepted.foldl
    (fun found a =>
      if a.1.queueDb.file = file ∧ a.2.walKey = key then
        some (found.getD ByteArray.empty ++ a.2.bytes a.1.json)
      else found)
    none

theorem acceptedBytes_append (file : Nat) (key : String)
    (accepted : List (LocalWriter × PreparedWrite)) (a : LocalWriter × PreparedWrite) :
    acceptedBytes file key (accepted ++ [a]) =
      if a.1.queueDb.file = file ∧ a.2.walKey = key then
        some ((acceptedBytes file key accepted).getD ByteArray.empty ++ a.2.bytes a.1.json)
      else acceptedBytes file key accepted := by
  unfold acceptedBytes
  rw [List.foldl_append]
  rfl

theorem acceptedBytes_isSome_iff {file : Nat} {key : String}
    {accepted : List (LocalWriter × PreparedWrite)} :
    (acceptedBytes file key accepted).isSome ↔
      ∃ a ∈ accepted, a.1.queueDb.file = file ∧ a.2.walKey = key := by
  induction accepted using List.reverseRecOn with
  | nil => simp [acceptedBytes]
  | append_singleton accepted a ih =>
      rw [acceptedBytes_append]
      by_cases ha : a.1.queueDb.file = file ∧ a.2.walKey = key
      · rw [if_pos ha]
        exact ⟨fun _ => ⟨a, by simp, ha⟩, fun _ => rfl⟩
      · rw [if_neg ha, ih]
        constructor
        · rintro ⟨e, he, hkey⟩
          exact ⟨e, List.mem_append_left _ he, hkey⟩
        · rintro ⟨e, he, hkey⟩
          rcases List.mem_append.mp he with he | he
          · exact ⟨e, he, hkey⟩
          · rw [List.mem_singleton.mp he] at hkey
            exact absurd hkey ha

/-- A step either accepts one write, or accepts nothing and leaves every segment alone. -/
theorem WriteLog.step_cases (s : WriteLog) (event : LocalEvent) :
    (∃ writer request w, event = .write writer request ∧ writer.prepared request = .ok w ∧
      BothStored writer w s.world (s.step event).world ∧
      s.step event = ⟨s.world.setFile writer.queueDb.file
        (writer.stored w (s.world.files writer.queueDb.file)), s.accepted ++ [(writer, w)]⟩) ∨
    ((s.step event).accepted = s.accepted ∧
      ∀ file key, ((s.step event).world.files file).segment key =
        (s.world.files file).segment key) := by
  cases event with
  | write writer request =>
      cases hr : writer.api.write request s.world with
      | ok response world' =>
          left
          -- the write was accepted, and both rows are there
          obtain ⟨w, hprep, -, -, -, hworld⟩ := LocalWriter.write_eq_ok_iff.mp hr
          obtain ⟨w', hprep', hboth⟩ := bothStored_of_ok hr
          rw [hprep] at hprep'
          cases hprep'
          have hstep : s.step (.write writer request) = ⟨world', s.accepted ++ [(writer, w)]⟩ := by
            simp only [WriteLog.step, hr, hprep]
          refine ⟨writer, request, w, rfl, hprep, ?_, ?_⟩
          · rw [hstep]
            exact hboth
          · rw [hstep, hworld]
      | error e world' =>
          right
          -- a write that fails is rolled back
          have hstep : s.step (.write writer request) = s := by
            have hsame := writer.atomic_write request _ _ _ hr
            simp only [WriteLog.step, hr, finalWorld, hsame]
          rw [hstep]
          exact ⟨rfl, fun _ _ => rfl⟩
  | consume source faults file call =>
      right
      refine ⟨rfl, ?_⟩
      -- a consumer works on the two job tables only
      have hcall : (call.apply source faults (s.world.files file)).walSegments =
          (s.world.files file).walSegments := by
        cases call with
        | receive now draw =>
            cases hr : LTSearch.receive source now draw faults (s.world.files file) with
            | ok jobs db => rw [ConsumerCall.apply, hr, finalDb, (receive_eq_ok hr).2]; rfl
            | error e db => rw [ConsumerCall.apply, hr, finalDb, atomic_receive draw _ _ _ hr]
        | ack receipt =>
            cases hr : LTSearch.ack receipt faults (s.world.files file) with
            | ok u db => rw [ConsumerCall.apply, hr, finalDb, ack_eq_ok hr]; rfl
            | error e db => rw [ConsumerCall.apply, hr, finalDb, atomic_ack receipt _ _ _ hr]
        | nack now receipt error =>
            cases hr : LTSearch.nack source now receipt error faults (s.world.files file) with
            | ok u db => rw [ConsumerCall.apply, hr, finalDb, nack_eq_ok hr, walSegments_failDelivery]
            | error e db => rw [ConsumerCall.apply, hr, finalDb, atomic_nack receipt error _ _ _ hr]
      intro f key
      change ((s.world.setFile file _).files f).segment key = _
      rw [LocalWorld.files_setFile]
      by_cases hf : f = file
      · subst hf
        rw [Function.update_self]
        unfold LocalDb.segment
        rw [hcall]
      · rw [Function.update_of_ne hf]

/-- The segments hold the bytes of the accepted writes and nothing else. -/
theorem segment_run (events : List LocalEvent) (file : Nat) (key : String) :
    ((run WriteLog.step .init events).world.files file).segment key =
      acceptedBytes file key (run WriteLog.step .init events).accepted := by
  refine run_invariant (fun s : WriteLog => ∀ file key, (s.world.files file).segment key =
    acceptedBytes file key s.accepted) ?_ (fun _ _ => rfl) events file key
  intro s event ih file key
  rcases s.step_cases event with ⟨writer, request, w, -, -, -, hstep⟩ | ⟨haccepted, hsegment⟩
  · rw [hstep]
    change ((s.world.setFile _ _).files file).segment key = acceptedBytes file key _
    rw [LocalWorld.files_setFile, acceptedBytes_append]
    by_cases hf : writer.queueDb.file = file
    · subst hf
      rw [Function.update_self, segment_stored]
      by_cases hk : w.walKey = key
      · subst hk
        rw [if_pos rfl, if_pos ⟨rfl, rfl⟩, ih]
      · rw [if_neg hk, if_neg (fun e => hk e.2), ih]
    · -- another database file
      rw [Function.update_of_ne (Ne.symm hf), if_neg (fun e => hf e.1), ih]
  · rw [haccepted, hsegment, ih]

/-- Every accepted write had its job ready in its queue at some point of the run. -/
theorem enqueued_run (events : List LocalEvent) (a : LocalWriter × PreparedWrite)
    (ha : a ∈ (run WriteLog.step .init events).accepted) :
    ∃ before, before <+: events ∧ ∃ r,
      ((run WriteLog.step .init before).world.files a.1.queueDb.file).job a.2.batchId = some r ∧
        r.state = .ready ∧ r.body = a.2.batch.toJson := by
  -- on the last event: either it accepted this write, or the write was accepted before
  induction events using List.reverseRecOn with
  | nil => exact absurd ha List.not_mem_nil
  | append_singleton events event ih =>
      have hrun : run WriteLog.step .init (events ++ [event]) =
          (run WriteLog.step .init events).step event := run_append _ _ _
      have hold : a ∈ (run WriteLog.step .init events).accepted →
          ∃ before, before <+: events ++ [event] ∧ ∃ r,
            ((run WriteLog.step .init before).world.files a.1.queueDb.file).job a.2.batchId = some r ∧
              r.state = .ready ∧ r.body = a.2.batch.toJson := by
        intro ha
        obtain ⟨before, hbefore, hrow⟩ := ih ha
        exact ⟨before, hbefore.trans (List.prefix_append _ _), hrow⟩
      rcases (run WriteLog.step .init events).step_cases event with
        ⟨writer, request, w, -, -, hboth, hstep⟩ | ⟨haccepted, -⟩
      · rw [hrun, hstep] at ha
        rcases List.mem_append.mp ha with ha | ha
        · exact hold ha
        · rw [List.mem_singleton.mp ha]
          obtain ⟨r, hr, hready, -, -, hbody⟩ := hboth.job
          exact ⟨events ++ [event], List.prefix_refl _, r, hrun ▸ hr, hready, hbody⟩
      · rw [hrun, haccepted] at ha
        exact hold ha

/-- Local writes are atomic across WAL and queue.  For every wiring, fault and earlier state, a
request answers `Ok` exactly when its bytes are appended and its job is ready, and changes nothing
otherwise.  Over every run, what `list_wal_keys` answers are the keys of the writes that returned
`Ok`, each segment holds their bytes and no others, and each of them had its job enqueued. -/
theorem local_writes_atomic :
    (∀ (writer : LocalWriter) (request : WriteRequest) (world : LocalWorld),
      (returned (writer.api.write request world) = true ↔
        ∃ w, writer.prepared request = .ok w ∧
          BothStored writer w world (finalWorld (writer.api.write request world))) ∧
      (returned (writer.api.write request world) = false →
        finalWorld (writer.api.write request world) = world)) ∧
    ∀ events : List LocalEvent,
      (∀ file faults keys db', listWalKeys faults
          ((run WriteLog.step .init events).world.files file) = .ok keys db' →
        ∀ key, key ∈ keys ↔ ∃ a ∈ (run WriteLog.step .init events).accepted,
          a.1.queueDb.file = file ∧ a.2.walKey = key) ∧
      (∀ file key, ((run WriteLog.step .init events).world.files file).segment key =
        acceptedBytes file key (run WriteLog.step .init events).accepted) ∧
      ∀ a ∈ (run WriteLog.step .init events).accepted,
        ∃ before, before <+: events ∧ ∃ r,
          ((run WriteLog.step .init before).world.files a.1.queueDb.file).job a.2.batchId = some r ∧
            r.state = .ready ∧ r.body = a.2.batch.toJson := by
  refine ⟨write_atomic, fun events => ⟨?_, segment_run events, enqueued_run events⟩⟩
  intro file faults keys db' hlist key
  rw [(listWalKeys_eq_ok hlist).1, mem_walKeys, segment_run, acceptedBytes_isSome_iff]

end LTSearch
