/-
# LTSearch.Indexing.BatchHistory -- how a batch leaves the queue, and how a snapshot loses a segment

Two questions about the runs of `localSystem`, answered at the step where it happens.  A job leaves the
queue for good when a worker acks a live delivery of it, and right before that step the row still stood
while the segment of the batch was in an activated snapshot.  The active snapshot changes in a swap of
the head only, and what is there after the swap is what the worker had listed before it allocated the
version.

A worker lists first and reads the head afterwards, and the retry of a lost race reads the head again but
keeps the list.  So a head that moves in between to a snapshot with a later segment is replaced without
that segment, whose job may be acked already: the last section has such a run.
-/
import LTSearch.Indexing.BuildLoop

namespace LTSearch

open LTSearch.Foundation

variable {setup : Setup} {env : WorkerEnv} {t : Nat} {w : Annals}

/-! ## One step -/

/-- The log of the active snapshot grows by a swap, and the swap says what was active before and after. -/
theorem snapshots_apply (t : Nat) (op : Op) (c : Choice) (w : Annals) :
    let w' := ((annalist setup).apply t op c w).2
    w'.snapshots = w.snapshots ∨ ∃ s, w'.snapshots = w.snapshots ++ [s] ∧
      s.replaced = w.world.active setup ∧ s.written = w'.world.activeSnapshot setup := by
  intro w'
  cases op with
  | swapHead seen newValue =>
      have hlog : w'.snapshots = noteActivated setup t w.world w'.world (w.allocation t)
          (.swapHead seen newValue) ((node setup).apply t (.swapHead seen newValue) c w.world).1
          w.snapshots := rfl
      rw [hlog]
      -- only an answer `true` is a swap
      cases ((node setup).apply t (.swapHead seen newValue) c w.world).1 with
      | error e => exact .inl rfl
      | ok swapped =>
          cases swapped with
          | false => exact .inl rfl
          | true => exact .inr ⟨_, rfl, rfl, rfl⟩
  | _ => exact .inl rfl

/-- A turn is an operation, or nothing happens. -/
theorem world_step (c : Config nodeSignature Annals Nat ProcessResult) (turn : Nat × Choice) :
    ((annalist setup).step c turn).world = c.world ∨
      ∃ op, ((annalist setup).step c turn).world = ((annalist setup).apply turn.1 op turn.2 c.world).2 := by
  unfold Machine.step
  split
  · exact .inl rfl
  · exact .inr ⟨_, rfl⟩

/-- Where a run of the deployment ends. -/
def localRun (setup : Setup) (env : WorkerEnv) (processes : Nat → LocalProcess)
    (turns : List (Nat × Choice)) : Config nodeSignature Annals Nat ProcessResult :=
  run (annalist setup).step (localSystem setup env processes) turns

theorem localRun_snoc (setup : Setup) (env : WorkerEnv) (processes : Nat → LocalProcess)
    (turns : List (Nat × Choice)) (turn : Nat × Choice) :
    localRun setup env processes (turns ++ [turn]) =
      (annalist setup).step (localRun setup env processes turns) turn :=
  run_append _ turns [turn]

/-! ## How a batch leaves the queue -/

section Runs

variable (hdeployed : LocalDeployment setup) (processes : Nat → LocalProcess) (turns : List (Nat × Choice))

include hdeployed

theorem localRun_inv : BuildInv setup env (localRun setup env processes turns).world := by
  obtain ⟨hinv, -, -, -⟩ := @localSystem_run setup env hdeployed processes turns []
  exact hinv

theorem localRun_grows (more : List (Nat × Choice)) :
    Grows (localRun setup env processes turns).world (localRun setup env processes (turns ++ more)).world := by
  obtain ⟨-, -, hgrows, -⟩ := @localSystem_run setup env hdeployed processes turns more
  exact hgrows

omit hdeployed in
/-- The worker was in time: what was active when it read the head to allocate its version is in the list it
builds from.  Where the swap went through only because two heads have one tag, what was active at the swap
counts. -/
def Timely (s : Swap Attempt (List String)) : Prop :=
  ∀ a ∈ s.caller.allocation,
    ∀ key ∈ if s.caller.collided then s.replaced.getD [] else a.based, key ∈ a.listed

omit hdeployed in
instance : DecidablePred Timely := fun s =>
  inferInstanceAs (Decidable (∀ a ∈ s.caller.allocation,
    ∀ key ∈ if s.caller.collided then s.replaced.getD [] else a.based, key ∈ a.listed))

omit hdeployed in
theorem SnapshotMade.keeps_iff_timely {s : Swap Attempt (List String)} (h : SnapshotMade s) :
    (∀ key ∈ s.replaced.getD [], key ∈ s.written) ↔ Timely s := by
  cases hcollided : s.caller.collided with
  | false =>
      rw [h.keeps_iff hcollided, Timely, InTime]
      simp only [hcollided, Bool.false_eq_true, if_false, Option.mem_def]
  | true =>
      obtain ⟨a, hallocation, hwritten, -⟩ := h.allocated
      rw [hwritten, Timely]
      simp only [hcollided, if_true, hallocation, Option.mem_def, Option.some.injEq, forall_eq']

/-- The active snapshot never shrinks along a run exactly if all workers whose swaps went through were in
time; and then every batch whose job a worker has acked is in the active snapshot. -/
theorem snapshot_never_shrinks_iff :
    ((∀ before middle rest, turns = before ++ middle ++ rest →
        ∀ key ∈ (localRun setup env processes before).world.world.activeSnapshot setup,
          key ∈ (localRun setup env processes (before ++ middle)).world.world.activeSnapshot setup) ↔
      ∀ s ∈ (localRun setup env processes turns).world.snapshots, Timely s) ∧
    (Fresh env (localRun setup env processes turns).world →
      (∀ s ∈ (localRun setup env processes turns).world.snapshots, Timely s) →
        ∀ d ∈ (localRun setup env processes turns).world.world.queue.ledger.settled,
          ∃ batch ∈ (localRun setup env processes turns).world.enqueued, batch.batchId = d.batchId ∧
            batch.walKey ∈ (localRun setup env processes turns).world.world.activeSnapshot setup) := by
  have hinv := @localRun_inv setup env hdeployed processes turns
  refine ⟨⟨fun hshrinks s hs => ?_, fun htimely before middle rest hturns => ?_⟩,
    fun hfresh htimely d hd => ?_⟩
  · -- the step that logs the swap is one in which the snapshot keeps what it had
    have hstart : s ∉ (localSystem setup env processes).world.snapshots := List.not_mem_nil
    obtain ⟨before, turn, rest, hturns, hnot, hlogged⟩ := exists_step_of_run
      (P := fun c : Config nodeSignature Annals Nat ProcessResult => s ∈ c.world.snapshots) hstart hs
    change s ∉ (localRun setup env processes before).world.snapshots at hnot
    change s ∈ ((annalist setup).step (localRun setup env processes before) turn).world.snapshots at hlogged
    have hkept := hshrinks before [turn] rest (by rw [hturns, List.append_assoc]; rfl)
    rw [localRun_snoc] at hkept
    rcases world_step (localRun setup env processes before) turn with hworld | ⟨op, hworld⟩
    · rw [hworld] at hlogged
      exact absurd hlogged hnot
    · rw [hworld] at hlogged hkept
      rcases @snapshots_apply setup turn.1 op turn.2 (localRun setup env processes before).world with
        hsame | ⟨s', hlog, hbefore, hwritten⟩
      · rw [hsame] at hlogged
        exact absurd hlogged hnot
      · rw [hlog] at hlogged
        obtain rfl : s = s' := by
          rcases List.mem_append.mp hlogged with hlogged | hlogged
          · exact absurd hlogged hnot
          · exact List.mem_singleton.mp hlogged
        refine (hinv.made s hs).keeps_iff_timely.mp ?_
        rw [hbefore, hwritten, ← activeSnapshot_eq]
        exact hkept
  · have hinv₁ := @localRun_inv setup env hdeployed processes before
    have hinv₂ := @localRun_inv setup env hdeployed processes (before ++ middle)
    have hgrows := @localRun_grows setup env hdeployed processes before middle
    have hgrows' := @localRun_grows setup env hdeployed processes (before ++ middle) rest
    rw [← hturns] at hgrows'
    obtain ⟨swaps, hswaps⟩ := hgrows.snapshots
    have hchained := hinv₂.chained
    rw [← hswaps] at hchained
    obtain ⟨now, hfirst, hlater⟩ := chained_append.mp hchained
    obtain rfl := chained_now hfirst hinv₁.chained
    rw [activeSnapshot_eq, activeSnapshot_eq]
    refine snapshot_gains hlater fun s hs => ?_
    have hmem : s ∈ (localRun setup env processes (before ++ middle)).world.snapshots :=
      hswaps ▸ List.mem_append_right _ hs
    exact (hinv₂.made s hmem).keeps_iff_timely.mpr (htimely s (hgrows'.snapshots.subset hmem))
  · obtain ⟨batch, hbatch, hid, hsnapshotted⟩ := (hinv.queue hfresh).settled d hd
    refine ⟨batch, hbatch, hid, hinv.active_of_snapshotted hsnapshotted fun s hs => ?_⟩
    exact (hinv.made s hs).keeps_iff_timely.mpr (htimely s hs)

end Runs

/-! ## Two writers and two workers -/

/-- The second writer draws another id. -/
def laterChoice : Choice := { Choice.calm with uuid := "660e8400e29b41d4a716446655440001" }

/-- The record of the deletion of `doc-2`, and the job that is enqueued for it. -/
def laterRecord : WalRecord := deleteRecord (nextBatchId laterChoice.uuid) 1784000000000 0 "doc-2"

def laterBatch : QueueBatch where
  batchId := nextBatchId laterChoice.uuid
  walKey := segmentPath 1784000000000 (nextBatchId laterChoice.uuid)
  acceptedCount := 1
  walEventIds := [laterRecord.eventId]

/-- The manifest of the second version, of no documents. -/
def secondManifest : IndexManifest :=
  manifestOf { versionId := 2, createdAt := 1784000000000, embeddingDim := 512, records := [] } 0

noncomputable def raceSetup : Setup :=
  { workerSetup with
    manifest := IndexManifest.codec [firstManifest, secondManifest]
    wal := .listed deletionLine [deletionRecord, laterRecord] }

/-- The same, with the heads looked up that are written. -/
theorem raceSetup_lookingUp : raceSetup = { raceSetup with
    head := ManifestHead.serdeCodec.lookingUp
      ([(1, 1784000000000), (2, 1784000000000)].map fun head => .new head.1 head.2) } := by
  rw [ManifestHead.serdeCodec_lookingUp]
  rfl

theorem raceSetup_deployed : LocalDeployment raceSetup :=
  ⟨rfl, fun _ => rfl, ManifestHead.serdeCodec_roundTrips⟩

def raceEnv : WorkerEnv where
  parse text := ((Serde.listed QueueBatch.toJson [deletionBatch, laterBatch]).fromStr text).map fun batch =>
    { batchId := batch.batchId, walKey := batch.walKey }
  embeddingDim := .ok 512

/-- Two writers, and workers that look once. -/
def writersAndWorkers : Nat → LocalProcess
  | 0 => .writer (.delete ["doc-1"])
  | 1 => .writer (.delete ["doc-2"])
  | _ => .worker 1

/-- A worker has the first job and has listed its segment; then comes the second write, and another
worker publishes version 1 with both segments and acks. -/
def overtaken : List (Nat × Choice) :=
  List.replicate 3 (0, .calm) ++ List.replicate 2 (2, .calm) ++ List.replicate 3 (1, laterChoice) ++
    List.replicate 36 (3, .calm)

/-- The first worker goes on: it reads the head of version 1, and builds version 2 from its list. -/
def goesOn : List (Nat × Choice) := List.replicate 33 (2, .calm)

set_option maxRecDepth 8000 in
/-- The active snapshot loses a segment whose job is acked. -/
theorem snapshot_shrinks_listedEarly :
    let after turns := (localRun raceSetup raceEnv writersAndWorkers turns).world
    (∃ d ∈ (after overtaken).world.queue.ledger.settled, d.batchId = laterBatch.batchId) ∧
      laterBatch.walKey ∈ (after overtaken).world.activeSnapshot raceSetup ∧
      laterBatch.walKey ∉ (after (overtaken ++ goesOn)).world.activeSnapshot raceSetup := by
  rw [raceSetup_lookingUp]
  decide +kernel

/-- A later `receive`, after the lease of the first one has run out, draws other tokens. -/
def lateChoice : Choice :=
  { Choice.calm with
    clock := ⟨1784000300000, by decide, by decide⟩
    draw := fun batchId => batchId ++ "-again" }

/-- A worker stops right after it has published the first write.  The second write comes, the job of the
first is delivered again, and another worker publishes both and acks. -/
def redelivered : List (Nat × Choice) :=
  List.replicate 3 (0, .calm) ++ List.replicate 34 (2, .calm) ++ List.replicate 3 (1, laterChoice) ++
    (3, lateChoice) :: List.replicate 35 (3, .calm)

set_option maxRecDepth 8000 in
theorem redelivered_run {c : Config nodeSignature Annals Nat ProcessResult}
    (hc : c = localRun raceSetup raceEnv writersAndWorkers redelivered) :
    (c.world.snapshots.map (·.written) =
        [[deletionBatch.walKey], [deletionBatch.walKey, laterBatch.walKey]] ∧
      c.world.world.queue.db.job deletionBatch.batchId = none ∧
        c.world.world.queue.db.dead deletionBatch.batchId = none) ∧
      (∀ s ∈ c.world.snapshots, Timely s) ∧ c.world.enqueued = [laterBatch, deletionBatch] ∧
        c.world.world.queue.ledger.issued.Nodup ∧ c.world.world.queue.enqueuedIds.Nodup := by
  rw [hc, raceSetup_lookingUp]
  decide +kernel

theorem parse_raceBatch {batch : QueueBatch} (hbatch : batch ∈ [laterBatch, deletionBatch]) :
    raceEnv.parse batch.toJson = .ok { batchId := batch.batchId, walKey := batch.walKey } := by
  have hdiffer : ¬ deletionBatch.toJson.toUTF8.data.toList = laterBatch.toJson.toUTF8.data.toList := by
    decide +kernel
  rcases List.mem_pair.mp hbatch with rfl | rfl
  · simp only [raceEnv, Serde.listed, List.find?_cons, decide_eq_false hdiffer, decide_true, Except.map]
  · simp only [raceEnv, Serde.listed, List.find?_cons, decide_true, Except.map]

/-- The tokens and the ids of the run are distinct, and both messages decode. -/
theorem redelivered_fresh {c : Config nodeSignature Annals Nat ProcessResult}
    (hc : c = localRun raceSetup raceEnv writersAndWorkers redelivered) :
    Fresh raceEnv c.world := by
  obtain ⟨-, -, henqueued, htokens, hbatches⟩ := redelivered_run hc
  exact ⟨htokens, hbatches, fun batch hbatch => parse_raceBatch (henqueued ▸ hbatch)⟩

/-- Two snapshots are activated, nothing is lost on the way, and what is acked is active. -/
theorem snapshot_never_shrinks_redelivered :
    (localRun raceSetup raceEnv writersAndWorkers redelivered).world.snapshots.map (·.written) =
        [[deletionBatch.walKey], [deletionBatch.walKey, laterBatch.walKey]] ∧
      (∀ before middle rest, redelivered = before ++ middle ++ rest →
        ∀ key ∈ (localRun raceSetup raceEnv writersAndWorkers before).world.world.activeSnapshot raceSetup,
          key ∈ (localRun raceSetup raceEnv writersAndWorkers
            (before ++ middle)).world.world.activeSnapshot raceSetup) ∧
      ∀ d ∈ (localRun raceSetup raceEnv writersAndWorkers redelivered).world.world.queue.ledger.settled,
        ∃ batch ∈ (localRun raceSetup raceEnv writersAndWorkers redelivered).world.enqueued,
          batch.batchId = d.batchId ∧ batch.walKey ∈
            (localRun raceSetup raceEnv writersAndWorkers redelivered).world.world.activeSnapshot raceSetup := by
  have hshrinks := @snapshot_never_shrinks_iff raceSetup raceEnv raceSetup_deployed writersAndWorkers redelivered
  generalize hc : localRun raceSetup raceEnv writersAndWorkers redelivered = c at hshrinks ⊢
  obtain ⟨⟨hsnapshots, -⟩, htimely, -⟩ := redelivered_run hc.symm
  exact ⟨hsnapshots, hshrinks.1.mpr htimely, hshrinks.2 (redelivered_fresh hc.symm) htimely⟩

end LTSearch
