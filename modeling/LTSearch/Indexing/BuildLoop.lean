/-
# LTSearch.Indexing.BuildLoop -- every run of the local build system

Any number of workers in their loops and any number of writers, one operation of one of them after the
other, in any order, every operation failing anywhere and every process stopping for good anywhere.
A worker acks a job only after a swap of the head that activated a snapshot with the segment of that
job; so what was accepted is queued, dead, or was active.  What the active snapshot loses it loses in a
swap whose worker had listed the segments before they were there.
-/
import LTSearch.Indexing.BuildActivate

namespace LTSearch

open LTSearch.Foundation Contract.Safe

variable {setup : Setup} {env : WorkerEnv} {t : Nat} {w w' : Annals} {v : UInt64} {listed : List String}
  {expected : Option UInt64}

/-! ## The queue under one call -/

section Queue

variable (source : SqliteBuildJobSource) (q : Watched) (event : QueueCall × Faults)

theorem enqueued_step : q.ledger.enqueued <:+ (q.step source event).ledger.enqueued := by
  rcases Watched.step_cases source q event with heq | heq
  · rw [heq]
  rw [heq]
  obtain ⟨call, faults⟩ := event
  cases call with
  | enqueue batch => exact List.suffix_cons _ _
  | appendAndEnqueue walKey walBytes batch => exact List.suffix_cons _ _
  | _ => exact List.suffix_refl _

/-- Deliveries that have not ended were opened. -/
theorem live_opened_step (h : ∀ d ∈ q.ledger.live, d ∈ q.ledger.opened) :
    ∀ d ∈ (q.step source event).ledger.live, d ∈ (q.step source event).ledger.opened := by
  rcases Watched.step_cases source q event with heq | heq
  · rw [heq]
    exact h
  rw [heq]
  obtain ⟨call, faults⟩ := event
  cases call with
  | enqueue batch => exact fun d hd => h d (List.mem_of_mem_filter hd)
  | appendAndEnqueue walKey walBytes batch => exact fun d hd => h d (List.mem_of_mem_filter hd)
  | receive now draw =>
      intro d hd
      rcases List.mem_append.mp hd with hd | hd
      · exact List.mem_append_left _ (h d (List.mem_of_mem_filter hd))
      · exact List.mem_append_right _ hd
  | ack receipt => exact fun d hd => h d (List.mem_of_mem_filter hd)
  | nack now receipt error => exact fun d hd => h d (List.mem_of_mem_filter hd)

/-- Only an ack settles a delivery: a live one, with its token. -/
theorem settled_step {d : Delivery} (hd : d ∈ (q.step source event).ledger.settled) :
    d ∈ q.ledger.settled ∨ ∃ receipt, event.1 = .ack receipt ∧ d ∈ q.ledger.live ∧ d.token = receipt := by
  rcases Watched.step_cases source q event with heq | heq
  · rw [heq] at hd
    exact .inl hd
  rw [heq] at hd
  obtain ⟨call, faults⟩ := event
  cases call with
  | ack receipt =>
      rcases List.mem_append.mp hd with hd | hd
      · exact .inl hd
      · obtain ⟨hlive, htoken⟩ := List.mem_filter.mp hd
        exact .inr ⟨receipt, rfl, hlive, of_decide_eq_true htoken⟩
  | _ => exact .inl hd

end Queue

/-! ## Steps of the queue -/

/-- A call on the queue. -/
structure QueueStep (setup : Setup) (event : QueueCall × Faults) (w w' : Annals) : Prop where
  objects : w'.world.objects = w.world.objects
  roots : w'.world.roots = w.world.roots
  queue : w'.world.queue = w.world.queue.step setup.source event
  allocation : w'.allocation = w.allocation
  snapshots : w'.snapshots = w.snapshots

namespace QueueStep

variable {event : QueueCall × Faults}

theorem grows (h : QueueStep setup event w w') : Grows w w' where
  snapshots := h.snapshots ▸ List.prefix_refl _
  opened := by
    show w.world.queue.ledger.opened <+: w'.world.queue.ledger.opened
    rw [h.queue]
    exact opened_step _ _ _
  enqueued := by
    show w.world.queue.ledger.enqueued <:+ w'.world.queue.ledger.enqueued
    rw [h.queue]
    exact enqueued_step _ _ _
  stored v cell hcell := ⟨cell, h.objects ▸ hcell, rfl⟩

/-- A call keeps the contract, if what it settles was in an active snapshot. -/
theorem keeps (hdeployed : LocalDeployment setup) (hinv : BuildInv setup env w)
    (h : QueueStep setup event w w')
    (hack : ∀ receipt, event.1 = .ack receipt → Fresh env w' → ∀ d ∈ w.world.queue.ledger.live,
      d.token = receipt → ∃ batch ∈ w.enqueued, batch.batchId = d.batchId ∧ w.Snapshotted batch.walKey) :
    (buildContract setup env).Keeps t w w' := by
  have hhead : w'.world.headBytes setup = w.world.headBytes setup := by
    rw [headBytes_eq hdeployed, headBytes_eq hdeployed, h.queue]
    exact Watched.head_step setup.source _ event .activeHead
  have hentry : ∀ key, w'.entry setup key = w.entry setup key := fun key => by
    unfold Annals.entry
    rw [h.roots]
  refine ⟨⟨fun u item hitem => ?_, fun u cell hcell => ?_, fun bytes hbytes => ?_, ?_, ?_, fun hfresh => ?_⟩,
    h.grows, fun t' _ => ⟨fun key _ _ => by rw [hentry], by rw [h.allocation]⟩⟩
  · rw [hentry] at hitem
    obtain ⟨l, hl, hmover⟩ := hinv.locked u item hitem
    exact ⟨l, (hentry _).trans hl, hmover⟩
  · rw [h.objects] at hcell
    obtain ⟨item, hitem, hsegments⟩ := hinv.stored u cell hcell
    exact ⟨item, (hentry _).trans hitem, hsegments⟩
  · obtain ⟨u, updatedAt, hu, htime, heq, hstored⟩ := hinv.head bytes (hhead ▸ hbytes)
    exact ⟨u, updatedAt, hu, htime, heq, (h.grows.snapshot_eq hstored).2⟩
  · rw [h.snapshots, active_eq hdeployed hinv h.grows hhead]
    exact hinv.chained
  · rw [h.snapshots]
    exact hinv.made
  · obtain ⟨hq, hplaced, hopened, hsettled⟩ := hinv.queue (hfresh.of_grows h.grows)
    have htokens := hfresh.tokens
    have hbatches := hfresh.batches
    rw [h.queue] at htokens hbatches
    refine ⟨?_, ?_, fun d hd => ?_, fun d hd => ?_⟩
    · rw [h.queue]
      exact hq.step event htokens
    · rw [h.queue]
      exact hplaced.step hq event hbatches
    · show d ∈ w'.world.queue.ledger.opened
      rw [h.queue] at hd ⊢
      exact live_opened_step _ _ _ hopened d hd
    · rw [h.queue] at hd
      obtain ⟨batch, hbatch, hid, hkey⟩ : ∃ batch ∈ w.enqueued,
          batch.batchId = d.batchId ∧ w.Snapshotted batch.walKey := by
        rcases settled_step _ _ _ hd with hd | ⟨receipt, hcall, hlive, htoken⟩
        · exact hsettled d hd
        · exact hack receipt hcall hfresh d hlive htoken
      exact ⟨batch, h.grows.enqueued.subset hbatch, hid, hkey.grows h.grows⟩

end QueueStep

/-- A job as a worker holds it: it is the body of an accepted batch, under the token of a delivery of
that batch. -/
def JobClaimed (env : WorkerEnv) (job : BuildJob) (w : Annals) : Prop :=
  Fresh env w → ∃ d ∈ w.opened, d.token = job.receipt ∧ ∃ batch ∈ w.enqueued,
    batch.batchId = d.batchId ∧ job.body = batch.toJson

theorem JobClaimed.grows {job : BuildJob} (h : JobClaimed env job w) (hgrows : Grows w w') :
    JobClaimed env job w' := by
  intro hfresh
  obtain ⟨d, hd, htoken, batch, hbatch, hid, hbody⟩ := h (hfresh.of_grows hgrows)
  exact ⟨d, hgrows.opened.subset hd, htoken, batch, hgrows.enqueued.subset hbatch, hid, hbody⟩

/-- The segment of the message was in a snapshot that was activated. -/
def MessageSnapshotted (env : WorkerEnv) (body : String) (w : Annals) : Prop :=
  ∀ message, env.parse body = .ok message → w.Snapshotted message.walKey

theorem MessageSnapshotted.grows {body : String} (h : MessageSnapshotted env body w) (hgrows : Grows w w') :
    MessageSnapshotted env body w' :=
  fun message hmessage => (h message hmessage).grows hgrows

/-- The token of a job is that of its batch, so an ack of it settles that batch and no other. -/
theorem batch_of_token {job : BuildJob} (hfresh : Fresh env w) (hbooks : QueueBooks setup w)
    (hclaimed : JobClaimed env job w) (hdone : MessageSnapshotted env job.body w) {d : Delivery}
    (hlive : d ∈ w.world.queue.ledger.live) (htoken : d.token = job.receipt) :
    ∃ batch ∈ w.enqueued, batch.batchId = d.batchId ∧ w.Snapshotted batch.walKey := by
  obtain ⟨d', hd', htoken', batch, hbatch, hid, hbody⟩ := hclaimed hfresh
  obtain rfl : d = d' :=
    List.inj_on_of_nodup_map hfresh.tokens (hbooks.opened d hlive) hd' (htoken.trans htoken'.symm)
  refine ⟨batch, hbatch, hid, hdone { batchId := batch.batchId, walKey := batch.walKey } ?_⟩
  rw [hbody]
  exact hfresh.decodes batch hbatch

/-- What a `receive` hands out are jobs of accepted batches. -/
theorem claimed_of_receive {source : SqliteBuildJobSource} {q : Watched} (hq : QueueInv source q)
    {now : Millis} {draw : String → String} {faults : Faults} {jobs : List BuildJob} {db : LocalDb}
    (h : receive source now draw faults q.db = .ok jobs db) {job : BuildJob} (hjob : job ∈ jobs) :
    ∃ d ∈ (q.step source (.receive now draw, faults)).ledger.opened, d.token = job.receipt ∧
      ∃ batch ∈ q.ledger.enqueued, batch.batchId = d.batchId ∧ job.body = batch.toJson := by
  have hstep : (q.step source (.receive now draw, faults)).ledger.opened =
      q.ledger.opened ++ (q.db.afterReclaim source now).deliveries now.val draw := by
    show (q.keep (receive source now draw faults q.db) _).ledger.opened = _
    rw [h, (receive_eq_ok h).1, ← LocalDb.answered_claimedJobs]
    rfl
  obtain ⟨rfl, -⟩ := receive_eq_ok h
  obtain ⟨r, hr, rfl⟩ := List.mem_map.mp hjob
  have hrow : (q.reclaim source now).db.job r.batchId = some r := mem_rows_iff.mp (List.mem_of_mem_filter hr)
  obtain ⟨batch, hlatest, hbody⟩ := (hq.reclaim now).body r.batchId r hrow
  have hfind : q.ledger.enqueued.find? (fun batch => batch.batchId = r.batchId) = some batch := hlatest
  have hid : batch.batchId = r.batchId := by simpa using List.find?_some hfind
  refine ⟨{ token := draw r.batchId, batchId := r.batchId, claimedAt := now.val }, ?_, rfl, batch,
    List.mem_of_find?_eq_some hfind, hid, hbody⟩
  rw [hstep]
  exact List.mem_append_right _ (List.mem_map.mpr ⟨r, hr, rfl⟩)

section Loop

variable (hdeployed : LocalDeployment setup)

include hdeployed

omit hdeployed in
theorem queueStep_apply {ε α : Type} (queueCall : QueueCall) (c : Choice)
    (result : EStateM.Result ε LocalDb α) :
    QueueStep setup (queueCall, c.sql) w { w with
      world := World.noteActivation setup t (w.world.queueCall setup queueCall c result).2 w.world } := by
  refine ⟨?_, ?_, ?_, rfl, rfl⟩
  · exact World.objects_noteActivation
  · exact World.roots_noteActivation
  · exact World.queue_noteActivation

/-- The jobs that a worker receives are jobs of accepted batches. -/
theorem safe_receive :
    (buildContract setup env).Safe t (call .receive)
      (Outcome (fun jobs w' => ∀ job ∈ jobs, JobClaimed env job w') fun _ _ => True) w := by
  have htrue : (buildContract setup env).Stable t fun _ => True := fun _ _ _ _ _ => trivial
  apply Contract.Safe.ask htrue trivial
  intro w₁ c hinv _ _
  have hstep : QueueStep setup (.receive c.clock c.draw, c.sql) w₁
      ((annalist setup).apply t .receive c w₁).2 := queueStep_apply _ c _
  refine ⟨hstep.keeps hdeployed hinv (fun _ h => by cases h), fun w₂ hrely _ => ?_⟩
  show Outcome _ _ (resultOf (receive setup.source c.clock c.draw c.sql w₁.world.queue.db)) w₂
  cases hreceive : receive setup.source c.clock c.draw c.sql w₁.world.queue.db with
  | error e db => trivial
  | ok jobs db =>
      intro job hjob
      have hclaimed : JobClaimed env job ((annalist setup).apply t .receive c w₁).2 := by
        intro hfresh
        have hbooks := hinv.queue (hfresh.of_grows hstep.grows)
        obtain ⟨d, hd, htoken, batch, hbatch, hid, hbody⟩ := claimed_of_receive hbooks.inv hreceive hjob
        refine ⟨d, ?_, htoken, batch, hstep.grows.enqueued.subset hbatch, hid, hbody⟩
        show d ∈ ((annalist setup).apply t .receive c w₁).2.world.queue.ledger.opened
        rw [hstep.queue]
        exact hd
      exact hclaimed.grows hrely.1

/-- A worker acks a job only when the segment of the job was in an active snapshot. -/
theorem safe_signal {job : BuildJob} {outcome : Except String UInt64} (hclaimed : JobClaimed env job w)
    (hdone : ∀ version, outcome = .ok version → MessageSnapshotted env job.body w) :
    (buildContract setup env).Safe t (signal job outcome) (fun _ _ => True) w := by
  have hstable : (buildContract setup env).Stable t fun w => JobClaimed env job w ∧
      ∀ version, outcome = .ok version → MessageSnapshotted env job.body w := fun w w' hrely _ h =>
    ⟨h.1.grows hrely.1, fun version hversion => (h.2 version hversion).grows hrely.1⟩
  cases outcome with
  | error e =>
      apply Contract.Safe.ask hstable ⟨hclaimed, hdone⟩
      intro w₁ c hinv _ _
      have hstep : QueueStep setup (.nack c.clock job.receipt e, c.sql) w₁
          ((annalist setup).apply t (.nack job.receipt e) c w₁).2 := queueStep_apply _ c _
      exact ⟨hstep.keeps hdeployed hinv (fun _ h => by cases h), fun _ _ _ => trivial⟩
  | ok version =>
      apply Contract.Safe.ask hstable ⟨hclaimed, hdone⟩
      intro w₁ c hinv hw₁ _
      have hstep : QueueStep setup (.ack job.receipt, c.sql) w₁
          ((annalist setup).apply t (.ack job.receipt) c w₁).2 := queueStep_apply _ c _
      refine ⟨hstep.keeps hdeployed hinv (fun receipt hreceipt hfresh d hlive htoken => ?_),
        fun _ _ _ => trivial⟩
      have hbefore := hfresh.of_grows hstep.grows
      have hreceipt' : job.receipt = receipt := by
        cases hreceipt
        rfl
      exact batch_of_token hbefore (hinv.queue hbefore) hw₁.1 (hw₁.2 version rfl) hlive
        (htoken.trans hreceipt'.symm)

/-! ## One message -/

omit hdeployed in
/-- An allocation, as it is written down. -/
structure AllocationNoted (setup : Setup) (t : Nat) (listed : List String) (w w' : Annals) : Prop where
  objects : w'.world.objects = w.world.objects
  roots : w'.world.roots = w.world.roots
  queue : w'.world.queue = w.world.queue
  allocation : w'.allocation =
    Function.update w.allocation t (some { listed, based := w.world.activeSnapshot setup })
  snapshots : w'.snapshots = w.snapshots

omit hdeployed in
theorem AllocationNoted.grows (h : AllocationNoted setup t listed w w') : Grows w w' where
  snapshots := h.snapshots ▸ List.prefix_refl _
  opened := by
    show w.world.queue.ledger.opened <+: w'.world.queue.ledger.opened
    rw [h.queue]
  enqueued := by
    show w.world.queue.ledger.enqueued <:+ w'.world.queue.ledger.enqueued
    rw [h.queue]
  stored v cell hcell := ⟨cell, h.objects ▸ hcell, rfl⟩

theorem AllocationNoted.keeps (hinv : BuildInv setup env w) (h : AllocationNoted setup t listed w w') :
    (buildContract setup env).Keeps t w w' := by
  have hentry : ∀ key, w'.entry setup key = w.entry setup key := fun key => by
    unfold Annals.entry
    rw [h.roots]
  refine ⟨?_, h.grows, fun t' hne => ⟨fun key _ _ => by rw [hentry], ?_⟩⟩
  · apply inv_of_files hdeployed hinv h.grows h.queue h.snapshots
    · intro u item hitem
      rw [hentry] at hitem
      obtain ⟨l, hl, hmover⟩ := hinv.locked u item hitem
      exact ⟨l, (hentry _).trans hl, hmover⟩
    · intro u cell hcell
      rw [h.objects] at hcell
      obtain ⟨item, hitem, hsegments⟩ := hinv.stored u cell hcell
      exact ⟨item, (hentry _).trans hitem, hsegments⟩
  · rw [h.allocation, Function.update_of_ne hne]

/-- What the note says, for the head that was read. -/
theorem AllocationNoted.allocated (hinv : BuildInv setup env w) (h : AllocationNoted setup t listed w w') :
    (w.world.headBytes setup = none → Allocated t listed none w') ∧
      ∀ bytes head, w.world.headBytes setup = some bytes → ManifestHead.fromJson setup.head bytes = .ok head →
        Allocated t listed (some head.versionId) w' := by
  have hnoted : w'.allocation t = some { listed, based := w.world.activeSnapshot setup } := by
    rw [h.allocation, Function.update_self]
  constructor
  · intro hnone
    exact ⟨_, hnoted, fun _ => activeSnapshot_none hnone, fun e he => by cases he⟩
  · intro bytes head hbytes hparse
    obtain ⟨u, updatedAt, hu, htime, rfl, hstored⟩ := hinv.head bytes hbytes
    rw [ManifestHead.fromJson_new hdeployed.head hu htime] at hparse
    obtain rfl := Except.ok.inj hparse
    obtain ⟨hsnapshot, hstored'⟩ := h.grows.snapshot_eq hstored
    refine ⟨_, hnoted, (by cases ·), fun e he => ?_⟩
    obtain rfl : u = e := Option.some.inj he
    exact ⟨by rw [hsnapshot, activeSnapshot_new hdeployed hu htime hbytes], hstored'⟩

/-- An allocation writes down what the worker had listed and what was active. -/
theorem safe_nextVersionId :
    (buildContract setup env).Safe t (nextVersionId setup listed).run
      (Outcome (fun allocated w' => Allocated t listed allocated.2 w' ∧
        (allocated.2 = none → allocated.1 = 1)) fun _ _ => True) w := by
  have htrue : (buildContract setup env).Stable t fun _ => True := fun _ _ _ _ _ => trivial
  have hread : (buildContract setup env).Safe t (call (.readHead (.allocator listed)))
      (Outcome (fun object w' => (object = none → Allocated t listed none w') ∧
        ∀ o head, object = some o → ManifestHead.fromJson setup.head o.bytes = .ok head →
          Allocated t listed (some head.versionId) w') fun _ _ => True) w := by
    apply Contract.Safe.ask htrue trivial
    intro w₁ c hinv _ _
    have happly : (annalist setup).apply t (.readHead (.allocator listed)) c w₁ =
        let result := w₁.world.readHeadAt setup t (.allocator listed) c
        (result.1, { w₁ with
          world := World.noteActivation setup t result.2 w₁.world
          allocation := noteAllocated t (w₁.world.activeSnapshot setup) (.readHead (.allocator listed))
            result.1 w₁.allocation }) := rfl
    rw [happly]
    unfold World.readHeadAt
    simp only [hdeployed.backend]
    cases hrow : headRowRead c.sql .activeHead w₁.world.queue.db with
    | error e db =>
        have hsame : SameBooks w₁ { w₁ with world := World.noteActivation setup t w₁.world w₁.world } := by
          rw [World.noteActivation_self]
          exact ⟨fun _ => rfl, rfl, rfl, rfl, rfl⟩
        exact ⟨hsame.keeps hdeployed hinv, fun _ _ _ => trivial⟩
    | ok found db =>
        obtain ⟨-, rfl, -⟩ := headRowRead_eq_ok.mp hrow
        have hnoted : AllocationNoted setup t listed w₁ { w₁ with
            world := World.noteActivation setup t (w₁.world.noteAllocation setup t listed) w₁.world
            allocation := Function.update w₁.allocation t
              (some { listed, based := w₁.world.activeSnapshot setup }) } :=
          ⟨World.objects_noteActivation, World.roots_noteActivation, World.queue_noteActivation, rfl, rfl⟩
        refine ⟨hnoted.keeps hdeployed hinv, fun w₂ hrely hinv₂ => ?_⟩
        obtain ⟨hnone, hsome⟩ := hnoted.allocated hdeployed hinv
        rw [headBytes_eq hdeployed] at hnone hsome
        refine ⟨fun hobject => ?_, fun o head hobject hparse => ?_⟩
        · exact Allocated.stable _ _ hrely hinv₂ (hnone (Option.map_eq_none_iff.mp hobject))
        · obtain ⟨bytes, hbytes, rfl⟩ := Option.map_eq_some_iff.mp hobject
          exact Allocated.stable _ _ hrely hinv₂ (hsome bytes head hbytes hparse)
  unfold nextVersionId
  refine bindExcept ((mapErrorExcept (E := fun _ _ => True) hread).mono fun r w₁ hinv₁ hr => ?_)
  cases r with
  | error e => trivial
  | ok object =>
      cases object with
      | none =>
          refine pureExcept fun w₂ hrely₂ hinv₂ => ⟨?_, fun _ => rfl⟩
          exact Allocated.stable _ _ hrely₂ hinv₂ (hr.1 rfl)
      | some o =>
          refine bindCheck (fun head hparse w₂ hrely₂ hinv₂ => ?_) fun _ _ _ _ _ => trivial
          refine pureExcept fun w₃ hrely₃ hinv₃ => ⟨?_, (by cases ·)⟩
          exact Allocated.stable _ _ (hrely₂.trans hrely₃) hinv₃ (hr.2 o head rfl (mapError_eq_ok.mp hparse))

omit hdeployed in
/-- The operations that are no allocation. -/
def Unallocating : Op → Prop
  | .readHead (.allocator _) => False
  | _ => True

omit hdeployed in
theorem Quiet.unallocating {op : Op} (h : Quiet op) : Unallocating op := by
  cases op with
  | readHead reader =>
      cases reader with
      | publisher => trivial
      | allocator listed => exact h
  | _ => trivial

omit hdeployed in
theorem removeMoved_unallocating (moved : List String) : (removeMoved moved).Within Unallocating := by
  induction moved with
  | nil => trivial
  | cons key rest ih =>
      unfold removeMoved
      apply Prog.Within.bind (Prog.within_ask trivial)
      intro _
      exact Prog.Within.bind ih fun _ => trivial

omit hdeployed in
theorem commitBuild_unallocating (segments moved : List String) (moves : List (String × Artifact)) :
    (commitBuild segments moved moves).Within Unallocating := by
  induction moves generalizing moved with
  | nil => exact Prog.within_ask trivial
  | cons move rest ih =>
      refine ⟨trivial, fun answer => ?_⟩
      cases answer with
      | ok _ => exact ih _
      | error e =>
          apply Prog.Within.bind (removeMoved_unallocating moved)
          exact fun _ => ⟨trivial, fun _ => trivial⟩

omit hdeployed in
theorem localBuild_unallocating (request : SnapshotBuildRequest) :
    (localBuild setup t request).run.Within Unallocating := by
  unfold localBuild
  apply Prog.Within.bindExcept ((readWalRecords_quiet _).mono fun _ h => h.unallocating)
  intro records
  apply Prog.Within.bindExcept (within_mapError (Prog.within_ask trivial))
  intro generator
  refine ⟨trivial, fun createdAt => ?_⟩
  show (buildIndex setup t generator _ request.walKeys).run.Within Unallocating
  unfold buildIndex
  apply Prog.Within.bindExcept (within_check _)
  intro prepared
  apply Prog.Within.bindExcept ((stageBuild_quiet _ _ _).mono fun _ h => h.unallocating)
  intro trees
  apply Prog.Within.bindExcept (commitBuild_unallocating _ _ _)
  exact fun _ => trivial

/-- A build and its publication, after an allocation. -/
theorem safe_runBuild {request : SnapshotBuildRequest} (hfirst : expected = none → request.versionId = 1)
    (hw : Allocated t request.walKeys expected w) :
    (buildContract setup env).Safe t (runBuild setup t request expected).run
      (Outcome (fun _ w' => ActivatedWith request.walKeys w') fun _ _ => True) w := by
  have hbuild : (buildContract setup env).Safe t (localBuild setup t request).run
      (Outcome (fun result w' => Publishing setup t request.versionId request.walKeys expected w' ∧
        ManifestFor request.versionId result.manifest) fun _ _ => True) w := by
    have hkept : ∀ op c w', Unallocating op →
        (buildContract setup env).Keeps t w' ((annalist setup).apply t op c w').2 →
          Allocated t request.walKeys expected w' →
            Allocated t request.walKeys expected ((annalist setup).apply t op c w').2 := by
      intro op c w' hop hkeeps h
      refine h.of_grows hkeeps.change ?_
      cases op with
      | readHead reader =>
          cases reader with
          | publisher => rfl
          | allocator listed => exact hop.elim
      | _ => rfl
    refine ((safe_localBuild hdeployed request).along (localBuild_unallocating request) Allocated.stable hw
      hkept).mono fun r w' _ hr => ?_
    cases r with
    | error e => trivial
    | ok result => exact ⟨⟨hr.1, hr.2.1⟩, hr.2.2⟩
  unfold runBuild
  refine bindExcept ((mapErrorExcept (E := fun _ _ => True) hbuild).mono fun r w₁ _ hr => ?_)
  cases r with
  | error e => trivial
  | ok result =>
      obtain ⟨hw₁, hmanifest⟩ := hr
      have hstable : (buildContract setup env).Stable t
          (Publishing setup t request.versionId request.walKeys expected) := Publishing.stable
      have hpublish : (buildContract setup env).Safe t (localPublish setup t result.manifest expected).run
          (Outcome (fun _ w' => ActivatedWith request.walKeys w') fun _ _ => True) w₁ := by
        have hclock : (call .currentTimeMillis).Within Quiet := Prog.within_ask trivial
        unfold localPublish
        refine bindExcept (liftExcept ((safe_quiet hdeployed hclock hstable hw₁).mono
          fun updatedAt w₂ _ hw₂ => ?_))
        refine safe_publishBuilt hdeployed hmanifest (fun hnone => ?_) hw₂
        exact hmanifest.version.trans (hfirst hnone)
      refine bindExcept ((mapErrorExcept (E := fun _ _ => True) hpublish).mono fun r w₂ _ hr => ?_)
      cases r with
      | error e => trivial
      | ok published => exact pureExcept fun w₃ hrely₃ _ => ActivatedWith.grows hr hrely₃.1

theorem safe_attempt (message : QueueBuildMessage) (embeddingDim : Nat) :
    (buildContract setup env).Safe t (attempt setup t message listed embeddingDim).run
      (Outcome (fun result w' => ∀ response, result = .ok response → ActivatedWith listed w')
        fun _ _ => True) w := by
  unfold attempt
  refine bindExcept ((safe_nextVersionId hdeployed).mono fun r w₁ _ hr => ?_)
  cases r with
  | error e => trivial
  | ok allocated =>
      have hrun : (buildContract setup env).Safe t
          (runBuild setup t (buildRequest message listed allocated.1 embeddingDim) allocated.2).run
          (Outcome (fun _ w' => ActivatedWith listed w') fun _ _ => True) w₁ :=
        safe_runBuild hdeployed hr.2 hr.1
      refine liftExcept (hrun.mono fun result w₂ _ hresult response hok => ?_)
      subst hok
      exact hresult

/-- A message that was processed with success: its segment was in a snapshot that was activated. -/
theorem safe_processQueueMessage (body : String) :
    (buildContract setup env).Safe t (processQueueMessage setup t env body).run
      (Outcome (fun _ w' => MessageSnapshotted env body w') fun _ _ => True) w := by
  have htrue : (buildContract setup env).Stable t fun _ => True := fun _ _ _ _ _ => trivial
  unfold processQueueMessage
  refine bindCheck (fun message hmessage w₁ _ _ => ?_) fun _ _ _ _ _ => trivial
  refine bindCheck (fun embeddingDim _ w₂ _ _ => ?_) fun _ _ _ _ _ => trivial
  have hlist : (call .listWalKeys).Within Quiet := Prog.within_ask trivial
  refine bindAny (safe_quiet hdeployed (within_mapError hlist) htrue trivial) (fun found w₃ _ _ => ?_)
    fun _ _ _ _ => trivial
  -- the key of the message is among the keys of both attempts
  have hdone : ∀ {w w' : Annals}, ActivatedWith (snapshotWalKeys found message.walKey) w → Grows w w' →
      MessageSnapshotted env body w' := by
    rintro w w' ⟨s, hs, hwritten⟩ hgrows message' hmessage'
    obtain rfl : message = message' :=
      Except.ok.inj ((mapError_eq_ok.mp hmessage).symm.trans hmessage')
    refine ⟨s, hgrows.snapshots.subset hs, ?_⟩
    rw [hwritten]
    exact mem_snapshotWalKeys.mpr (.inr rfl)
  refine bindExcept ((safe_attempt hdeployed message embeddingDim).mono fun r w₄ _ hr => ?_)
  cases r with
  | error e => trivial
  | ok first =>
      cases first with
      | ok response => exact pureExcept fun w₅ hrely₅ _ => hdone (hr response rfl) hrely₅.1
      | error e =>
          show (buildContract setup env).Safe t (ExceptT.run (if _ then _ else _)) _ w₄
          by_cases hconflict : isPublishCasConflict e = true
          · rw [if_pos hconflict]
            refine bindExcept ((safe_attempt hdeployed message embeddingDim).mono fun r w₅ _ hr => ?_)
            cases r with
            | error e => trivial
            | ok second =>
                cases second with
                | ok response => exact pureExcept fun w₆ hrely₆ _ => hdone (hr response rfl) hrely₆.1
                | error e => exact throwExcept fun _ _ _ => trivial
          · rw [if_neg hconflict]
            exact throwExcept fun _ _ _ => trivial

/-! ## The loop -/

theorem safe_settleJobs {jobs : List BuildJob} (hw : ∀ job ∈ jobs, JobClaimed env job w) :
    (buildContract setup env).Safe t (settleJobs setup t env jobs) (fun _ _ => True) w := by
  induction jobs generalizing w with
  | nil => exact fun _ _ _ => trivial
  | cons job rest ih =>
      have hkept : ∀ {w w' : Annals}, Grows w w' → (∀ j ∈ job :: rest, JobClaimed env j w) →
          ∀ j ∈ job :: rest, JobClaimed env j w' := fun hgrows h j hj => (h j hj).grows hgrows
      have hprocess : (buildContract setup env).Safe t (processQueueMessage setup t env job.body).run
          (Outcome (fun _ w' => MessageSnapshotted env job.body w') fun _ _ => True) w :=
        safe_processQueueMessage hdeployed job.body
      unfold settleJobs
      apply Contract.Safe.bind
      refine (hprocess.carry hkept hw).mono fun outcome w₁ _ hr => ?_
      obtain ⟨hw₁, hdone⟩ := hr
      have hsignal : (buildContract setup env).Safe t (signal job outcome) (fun _ _ => True) w₁ := by
        apply safe_signal hdeployed (hw₁ job List.mem_cons_self)
        rintro version rfl
        exact hdone
      apply Contract.Safe.bind
      refine (hsignal.carry hkept hw₁).mono fun signalled w₂ _ hr => ?_
      apply Contract.Safe.bind
      refine (ih fun j hj => hr.1 j (List.mem_cons_of_mem _ hj)).mono fun settled w₃ _ _ => ?_
      exact fun _ _ _ => trivial

theorem safe_runBuildJobLoop (rounds : Nat) :
    (buildContract setup env).Safe t (runBuildJobLoop setup t env rounds) (fun _ _ => True) w := by
  induction rounds generalizing w with
  | zero => exact fun _ _ _ => trivial
  | succ rounds ih =>
      have hround : (buildContract setup env).Safe t (runBuildJobLoopOnce setup t env) (fun _ _ => True) w := by
        unfold runBuildJobLoopOnce
        apply Contract.Safe.bind
        refine (safe_receive hdeployed).mono fun received w₁ _ hr => ?_
        cases received with
        | error e => exact fun _ _ _ => trivial
        | ok jobs => exact safe_settleJobs hdeployed hr
      unfold runBuildJobLoop
      apply Contract.Safe.bind
      exact hround.mono fun _ _ _ _ => ih

/-! ## The writer -/

omit hdeployed in
/-- The batch of a response was enqueued. -/
def Accepted (response : IngestResponse) (w : Annals) : Prop :=
  ∃ batch ∈ w.enqueued, batch.batchId = response.batchId ∧ batch.walKey = response.walKey

omit hdeployed in
theorem Accepted.grows {response : IngestResponse} (h : Accepted response w) (hgrows : Grows w w') :
    Accepted response w' := by
  obtain ⟨batch, hbatch, hsame⟩ := h
  exact ⟨batch, hgrows.enqueued.subset hbatch, hsame⟩

theorem safe_acceptWrite (request : WriteRequest) :
    (buildContract setup env).Safe t (acceptWrite setup request).run
      (Outcome (fun response w' => Accepted response w') fun _ _ => True) w := by
  have htrue : (buildContract setup env).Stable t fun _ => True := fun _ _ _ _ _ => trivial
  have hclock : (call .currentTimeMillis).Within Quiet := Prog.within_ask trivial
  have huuid : (call .newUuid).Within Quiet := Prog.within_ask trivial
  unfold acceptWrite
  refine bindExcept (liftExcept ((safe_quiet hdeployed hclock htrue trivial).mono fun clock w₁ _ _ => ?_))
  refine bindExcept (liftExcept ((safe_quiet hdeployed huuid htrue trivial).mono fun uuid w₂ _ _ => ?_))
  refine bindCheck (fun prepared _ w₃ _ _ => ?_) fun _ _ _ _ _ => trivial
  refine bindCheck (fun bytes _ w₄ _ _ => ?_) fun _ _ _ _ _ => trivial
  have happend : (buildContract setup env).Safe t
      (call (.appendAndEnqueue prepared.walKey bytes prepared.batch))
      (Outcome (fun _ w' => Accepted prepared.response w') fun _ _ => True) w₄ := by
    apply Contract.Safe.ask htrue trivial
    intro w₅ c hinv _ _
    have hstep : QueueStep setup (.appendAndEnqueue prepared.walKey bytes prepared.batch, c.sql) w₅
        ((annalist setup).apply t (.appendAndEnqueue prepared.walKey bytes prepared.batch) c w₅).2 :=
      queueStep_apply _ c _
    refine ⟨hstep.keeps hdeployed hinv (fun _ h => by cases h), fun w₆ hrely _ => ?_⟩
    show Outcome _ _
      (resultOf (appendAndEnqueueTx c.sql prepared.walKey bytes prepared.batch w₅.world.queue.db)) w₆
    cases hresult : appendAndEnqueueTx c.sql prepared.walKey bytes prepared.batch w₅.world.queue.db with
    | error e db => trivial
    | ok _ db =>
        have haccepted : Accepted prepared.response ((annalist setup).apply t
            (.appendAndEnqueue prepared.walKey bytes prepared.batch) c w₅).2 := by
          refine ⟨prepared.batch, ?_, rfl, rfl⟩
          show _ ∈ (Annals.world _).queue.ledger.enqueued
          rw [hstep.queue]
          show _ ∈ (Watched.keep _ (appendAndEnqueueTx c.sql prepared.walKey bytes prepared.batch
            w₅.world.queue.db) _).ledger.enqueued
          rw [hresult]
          exact List.mem_cons_self
        exact haccepted.grows hrely.1
  refine bindExcept (happend.mono fun r w₅ _ hr => ?_)
  cases r with
  | error e => trivial
  | ok _ => exact pureExcept fun w₆ hrely₆ _ => Accepted.grows hr hrely₆.1

end Loop

/-! ## Every run -/

/-- A process of the local system. -/
inductive LocalProcess where
  | worker (rounds : Nat)
  | writer (request : WriteRequest)

/-- How a process ends. -/
inductive ProcessResult where
  | stopped
  | written (result : Except IngestError IngestResponse)

def LocalProcess.program (setup : Setup) (env : WorkerEnv) (t : Nat) : LocalProcess → NodeM ProcessResult
  | .worker rounds => do
      runBuildJobLoop setup t env rounds
      return .stopped
  | .writer request => do
      let result ← (acceptWrite setup request).run
      return .written result

/-- Processes that have not started, over an empty database, store and artifact root. -/
def localSystem (setup : Setup) (env : WorkerEnv) (processes : Nat → LocalProcess) :
    Config nodeSignature Annals Nat ProcessResult where
  world := { world := .init fun _ _ => none, allocation := fun _ => none, snapshots := [] }
  threads t := (processes t).program setup env t

/-- The observer changes nothing: without the notes it is a run of the node. -/
theorem localSystem_forget (setup : Setup) (env : WorkerEnv) (processes : Nat → LocalProcess)
    (turns : List (Nat × Choice)) :
    run (node setup).step
        { world := .init fun _ _ => none, threads := fun t => (processes t).program setup env t } turns =
      { world := (run (annalist setup).step (localSystem setup env processes) turns).world.world
        threads := (run (annalist setup).step (localSystem setup env processes) turns).threads } :=
  Machine.run_forget Annals.world (fun _ _ _ _ => rfl) (localSystem setup env processes) turns

theorem buildInv_init (hdeployed : LocalDeployment setup) (processes : Nat → LocalProcess) :
    BuildInv setup env (localSystem setup env processes).world where
  locked v item hitem := by cases hitem
  stored v cell hcell := by cases hcell
  head bytes hbytes := by
    rw [headBytes_eq hdeployed] at hbytes
    cases hbytes
  chained := by
    show World.active setup (.init fun _ _ => none) = none
    unfold World.active
    rw [headBytes_eq hdeployed]
    rfl
  made s hs := absurd hs List.not_mem_nil
  queue _ := ⟨QueueInv.init, Placed.init, fun d hd => absurd hd List.not_mem_nil,
    fun d hd => absurd hd List.not_mem_nil⟩

/-- What a process that has ended leaves behind. -/
def ProcessDone : ProcessResult → Annals → Prop
  | .written (.ok response), w => Accepted response w
  | _, _ => True

theorem safe_localSystem (hdeployed : LocalDeployment setup) (processes : Nat → LocalProcess) (t : Nat) :
    (buildContract setup env).Safe t ((localSystem setup env processes).threads t) ProcessDone
      (localSystem setup env processes).world := by
  show (buildContract setup env).Safe t ((processes t).program setup env t) _ _
  cases processes t with
  | worker rounds =>
      apply Contract.Safe.bind
      exact (safe_runBuildJobLoop hdeployed rounds).mono fun _ _ _ _ => fun _ _ _ => trivial
  | writer request =>
      apply Contract.Safe.bind
      refine (safe_acceptWrite hdeployed request).mono fun result w₁ _ hr => ?_
      intro w₂ hrely _
      cases result with
      | error e => trivial
      | ok response => exact Accepted.grows hr hrely.1

theorem localSystem_run (hdeployed : LocalDeployment setup) (processes : Nat → LocalProcess)
    (turns more : List (Nat × Choice)) :
    let c := run (annalist setup).step (localSystem setup env processes) turns
    let c' := run (annalist setup).step (localSystem setup env processes) (turns ++ more)
    BuildInv setup env c.world ∧ BuildInv setup env c'.world ∧ Grows c.world c'.world ∧
      ∀ t result, c.threads t = .done result → ProcessDone result c.world := by
  intro c c'
  have hallowed : ∀ c turns, (buildContract setup env).Allowed (α := ProcessResult) c turns :=
    fun c turns => Contract.allowed_of_forall (fun _ _ _ _ => trivial) c turns
  obtain ⟨hinv, -, hsafe⟩ := Contract.run_safe (buildInv_init hdeployed processes)
    (safe_localSystem hdeployed processes) turns (hallowed _ turns)
  obtain ⟨hinv', hgrows, -⟩ := Contract.run_safe hinv hsafe more (hallowed _ more)
  have happend : c' = run (annalist setup).step c more := run_append _ _ _
  rw [happend]
  exact ⟨hinv, hinv', hgrows, fun t result hdone => Contract.post_of_done (hsafe t) hdone hinv⟩

/-! ## A writer and a worker -/

/-- The record of the deletion of `doc-1`. -/
def deletionRecord : WalRecord :=
  deleteRecord (nextBatchId Choice.calm.uuid) 1784000000000 0 "doc-1"

/-- The line of a deletion. -/
def deletionLine (record : WalRecord) : String :=
  (Json.obj [("event_id", .str record.eventId), ("doc_id", .str record.docId), ("op", .str "delete"),
    ("document", .null), ("timestamp", .num (toString record.timestamp))]).render

/-- The job that is enqueued for it. -/
def deletionBatch : QueueBatch where
  batchId := nextBatchId Choice.calm.uuid
  walKey := segmentPath 1784000000000 (nextBatchId Choice.calm.uuid)
  acceptedCount := 1
  walEventIds := [deletionRecord.eventId]

/-- The manifest of the first version, of no documents. -/
def firstManifest : IndexManifest :=
  manifestOf { versionId := 1, createdAt := 1784000000000, embeddingDim := 512, records := [] } 0

/-- A local deployment that comes across this record and this manifest. -/
noncomputable def workerSetup : Setup where
  backend := .sqliteFs
  rootOf := fun _ => 0
  rootPath := fun _ => "/var/lib/ltsearch/staging"
  s3Etag := etagOf
  head := ManifestHead.serdeCodec
  manifest := IndexManifest.codec [firstManifest]
  wal := .listed deletionLine [deletionRecord]
  hash := { order := id, perm := perm_inOrder }
  source := .default

def workerEnv : WorkerEnv where
  parse text := ((Serde.listed QueueBatch.toJson [deletionBatch]).fromStr text).map fun batch =>
    { batchId := batch.batchId, walKey := batch.walKey }
  embeddingDim := .ok 512

theorem workerSetup_deployed : LocalDeployment workerSetup :=
  ⟨rfl, fun _ => rfl, ManifestHead.serdeCodec_roundTrips⟩

/-- A writer that deletes a document, and workers that look once. -/
def writerAndWorker : Nat → LocalProcess
  | 0 => .writer (.delete ["doc-1"])
  | _ => .worker 1

/-- The writer is answered before the worker starts. -/
def oneAfterTheOther (n : Nat) : List (Nat × Choice) :=
  List.replicate 3 (0, .calm) ++ List.replicate n (1, .calm)

set_option maxRecDepth 4000 in
/-- The run, evaluated: one snapshot is activated, and nothing is left in the queue. -/
theorem writerAndWorker_run {c : Config nodeSignature Annals Nat ProcessResult}
    (hc : c = run (annalist workerSetup).step (localSystem workerSetup workerEnv writerAndWorker)
      (oneAfterTheOther 40)) :
    (c.world.snapshots.length = 1 ∧ c.world.enqueued = [deletionBatch] ∧
        c.world.world.queue.db.buildJobs.rows.length = 0 ∧
          c.world.world.queue.db.deadJobs.rows.length = 0) ∧
      c.world.world.queue.ledger.issued.Nodup ∧ c.world.world.queue.enqueuedIds.Nodup := by
  rw [hc]
  decide +kernel

theorem parse_deletionBatch : workerEnv.parse deletionBatch.toJson =
    .ok { batchId := deletionBatch.batchId, walKey := deletionBatch.walKey } := by
  simp only [workerEnv, Serde.listed, List.find?_cons, decide_true, Except.map]

/-! ## The snapshots -/

/-- Everything that was active when the worker allocated its version was in the list it builds from. -/
def InTime (s : Swap Attempt (List String)) : Prop :=
  ∀ a, s.caller.allocation = some a → ∀ key ∈ a.based, key ∈ a.listed

theorem activeSnapshot_eq (w : World) : w.activeSnapshot setup = (w.active setup).getD [] := by
  unfold World.active
  cases hhead : w.headBytes setup with
  | none => rw [activeSnapshot_none hhead]; rfl
  | some bytes => rfl

/-- A swap keeps every segment of the snapshot that it replaces exactly if its worker was in time. -/
theorem SnapshotMade.keeps_iff {s : Swap Attempt (List String)} (h : SnapshotMade s)
    (hcollided : s.caller.collided = false) :
    (∀ key ∈ s.replaced.getD [], key ∈ s.written) ↔ InTime s := by
  obtain ⟨a, hallocation, hwritten, hbased⟩ := h.allocated
  rw [hwritten, hbased hcollided]
  constructor
  · intro hkept a' ha'
    obtain rfl : a = a' := Option.some.inj (hallocation.symm.trans ha')
    exact hkept
  · exact fun hintime => hintime a hallocation

/-- While all swaps keep what they replace, the snapshot only gains segments. -/
theorem snapshot_gains {start now : Option (List String)} {swaps : List (Swap Attempt (List String))}
    (hchained : Chained start swaps now) (hkept : ∀ s ∈ swaps, ∀ key ∈ s.replaced.getD [], key ∈ s.written) :
    ∀ key ∈ start.getD [], key ∈ now.getD [] := by
  apply hchained.relates (R := fun a b => ∀ key ∈ a.getD [], key ∈ b.getD [])
  · exact fun _ _ h => h
  · exact fun _ _ _ h h' key hkey => h' key (h key hkey)
  · exact hkept

/-- What was activated is active as long as all swaps keep what they replace. -/
theorem BuildInv.active_of_snapshotted (hinv : BuildInv setup env w) {key : String}
    (hkey : w.Snapshotted key) (hkept : ∀ s ∈ w.snapshots, ∀ key ∈ s.replaced.getD [], key ∈ s.written) :
    key ∈ w.world.activeSnapshot setup := by
  obtain ⟨s, hs, hwritten⟩ := hkey
  obtain ⟨before, after, hsplit⟩ := List.append_of_mem hs
  have hchained := hinv.chained
  rw [hsplit] at hchained
  obtain ⟨_, -, -, hafter⟩ := chained_append.mp hchained
  rw [activeSnapshot_eq]
  refine snapshot_gains hafter (fun s' hs' => hkept s' ?_) key hwritten
  rw [hsplit]
  exact List.mem_append_right _ (List.mem_cons_of_mem _ hs')

/-- The history of the active snapshot. -/
structure SnapshotHistory (setup : Setup) (w : Annals) : Prop where
  /-- each swap replaces what the one before it wrote, and the last one wrote what is active -/
  chained : Chained none w.snapshots (w.world.active setup)
  /-- each activated snapshot is what its worker had listed, each replaced one what it had allocated on -/
  made : ∀ s ∈ w.snapshots, SnapshotMade s
  /-- segments are lost exactly in the swaps whose worker had listed too early -/
  kept : ∀ s ∈ w.snapshots, s.caller.collided = false →
    ((∀ key ∈ s.replaced.getD [], key ∈ s.written) ↔ InTime s)

/-- In every run of workers and writers the swaps of the head are a history of the active snapshot, and
while all swaps are in time the active snapshot loses no segment. -/
theorem snapshot_history (hdeployed : LocalDeployment setup) (processes : Nat → LocalProcess)
    (turns more : List (Nat × Choice)) :
    let w := (run (annalist setup).step (localSystem setup env processes) turns).world
    let w' := (run (annalist setup).step (localSystem setup env processes) (turns ++ more)).world
    SnapshotHistory setup w ∧ ∃ swaps, w'.snapshots = w.snapshots ++ swaps ∧
      ((∀ s ∈ swaps, s.caller.collided = false ∧ InTime s) →
        ∀ key ∈ w.world.activeSnapshot setup, key ∈ w'.world.activeSnapshot setup) := by
  intro w w'
  obtain ⟨hinv, hinv', hgrows, -⟩ := @localSystem_run setup env hdeployed processes turns more
  refine ⟨⟨hinv.chained, hinv.made, fun s hs => (hinv.made s hs).keeps_iff⟩, ?_⟩
  obtain ⟨swaps, hswaps⟩ := hgrows.snapshots
  refine ⟨swaps, hswaps.symm, fun hintime => ?_⟩
  have hchained := hinv'.chained
  have hmade := hinv'.made
  rw [← hswaps] at hchained hmade
  obtain ⟨middle, hbefore, hafter⟩ := chained_append.mp hchained
  have hmiddle : middle = w.world.active setup := chained_now hbefore hinv.chained
  subst hmiddle
  rw [activeSnapshot_eq, activeSnapshot_eq]
  refine snapshot_gains hafter fun s hs => ?_
  exact ((hmade s (List.mem_append_right _ hs)).keeps_iff (hintime s hs).1).mpr (hintime s hs).2

/-- The worker activates the segment of the deletion. -/
theorem snapshot_history_writerAndWorker :
    let turns := oneAfterTheOther 40
    let w := (run (annalist workerSetup).step (localSystem workerSetup workerEnv writerAndWorker) turns).world
    let w' := (run (annalist workerSetup).step (localSystem workerSetup workerEnv writerAndWorker)
      (turns ++ [(2, .calm)])).world
    w.snapshots.length = 1 ∧ SnapshotHistory workerSetup w ∧ ∃ swaps, w'.snapshots = w.snapshots ++ swaps ∧
      ((∀ s ∈ swaps, s.caller.collided = false ∧ InTime s) →
        ∀ key ∈ w.world.activeSnapshot workerSetup, key ∈ w'.world.activeSnapshot workerSetup) :=
  ⟨(writerAndWorker_run rfl).1.1,
    snapshot_history workerSetup_deployed writerAndWorker (oneAfterTheOther 40) [(2, .calm)]⟩

/-- The job of the batch has its row, with its message. -/
def Queued (batch : QueueBatch) (w : Annals) : Prop :=
  ∃ row, w.world.queue.db.job batch.batchId = some row ∧ row.body = batch.toJson

/-- The job of the batch is a dead letter, with its message. -/
def DeadLettered (batch : QueueBatch) (w : Annals) : Prop :=
  ∃ row, w.world.queue.db.dead batch.batchId = some row ∧ row.body = batch.toJson

/-- A batch that was enqueued is queued, dead or settled. -/
theorem QueueBooks.places (hbooks : QueueBooks setup w) (hfresh : Fresh env w) {batch : QueueBatch}
    (hbatch : batch ∈ w.enqueued) :
    Queued batch w ∨ DeadLettered batch w ∨
      ∃ d ∈ w.world.queue.ledger.settled, d.batchId = batch.batchId := by
  have hlatest : w.world.queue.ledger.latest batch.batchId = some batch :=
    latest_of_mem hfresh.batches hbatch
  have hid : batch.batchId ∈ w.world.queue.enqueuedIds := List.mem_map_of_mem hbatch
  rcases hbooks.placed.somewhere _ hid with ⟨row, hrow⟩ | ⟨row, hrow⟩ | hsettled
  · obtain ⟨batch', hlatest', hbody⟩ := hbooks.inv.body _ row hrow
    obtain rfl := Option.some.inj (hlatest.symm.trans hlatest')
    exact .inl ⟨row, hrow, hbody⟩
  · obtain ⟨-, batch', hlatest', hbody⟩ := hbooks.placed.deadRow _ row hrow
    obtain rfl := Option.some.inj (hlatest.symm.trans hlatest')
    exact .inr (.inl ⟨row, hrow, hbody⟩)
  · exact .inr (.inr hsettled)

/-- The segment of a settled batch was activated. -/
theorem QueueBooks.snapshotted_of_settled (hbooks : QueueBooks setup w) (hfresh : Fresh env w)
    {batch : QueueBatch} (hbatch : batch ∈ w.enqueued) {d : Delivery}
    (hd : d ∈ w.world.queue.ledger.settled) (hsame : d.batchId = batch.batchId) :
    w.Snapshotted batch.walKey := by
  obtain ⟨batch', hbatch', hid, hsnapshotted⟩ := hbooks.settled d hd
  obtain rfl : batch = batch' :=
    List.inj_on_of_nodup_map hfresh.batches hbatch hbatch' (hsame.symm.trans hid.symm)
  exact hsnapshotted

/-- Where an accepted batch is: its job waits, with its message, or it is dead, with its message, or its
segment was in a snapshot that was activated; in the active one, if no worker listed too early. -/
inductive BatchKept (setup : Setup) (batch : QueueBatch) (w : Annals) : Prop where
  | queued (row : BuildJobRow) (found : w.world.queue.db.job batch.batchId = some row)
      (body : row.body = batch.toJson)
  | dead (row : DeadJobRow) (found : w.world.queue.db.dead batch.batchId = some row)
      (body : row.body = batch.toJson)
  | indexed (activated : w.Snapshotted batch.walKey)
      (active : (∀ s ∈ w.snapshots, s.caller.collided = false ∧ InTime s) →
        batch.walKey ∈ w.world.activeSnapshot setup)

/-- In every run an accepted batch is kept: what a writer was answered with success is enqueued, and
what is enqueued is queued, dead or indexed. -/
theorem accepted_kept (hdeployed : LocalDeployment setup) (processes : Nat → LocalProcess)
    (turns : List (Nat × Choice)) :
    let c := run (annalist setup).step (localSystem setup env processes) turns
    Fresh env c.world →
      (∀ t response, c.threads t = .done (.written (.ok response)) → Accepted response c.world) ∧
        ∀ batch ∈ c.world.enqueued, BatchKept setup batch c.world := by
  intro c hfresh
  obtain ⟨hinv, -, -, hdone⟩ := @localSystem_run setup env hdeployed processes turns []
  refine ⟨fun t response h => hdone t _ h, fun batch hbatch => ?_⟩
  have hbooks : QueueBooks setup c.world := hinv.queue hfresh
  rcases hbooks.places hfresh hbatch with ⟨row, hrow, hbody⟩ | ⟨row, hrow, hbody⟩ | ⟨d, hd, hsame⟩
  · exact .queued row hrow hbody
  · exact .dead row hrow hbody
  · -- it was settled, so its segment was activated
    have hsnapshotted := hbooks.snapshotted_of_settled hfresh hbatch hd hsame
    refine .indexed hsnapshotted fun hintime => hinv.active_of_snapshotted hsnapshotted fun s hs => ?_
    exact ((hinv.made s hs).keeps_iff (hintime s hs).1).mpr (hintime s hs).2

/-- The job of the deletion is neither queued nor dead at the end. -/
theorem accepted_kept_writerAndWorker :
    let c := run (annalist workerSetup).step (localSystem workerSetup workerEnv writerAndWorker)
      (oneAfterTheOther 40)
    (c.world.enqueued = [deletionBatch] ∧ c.world.world.queue.db.buildJobs.rows.length = 0 ∧
      c.world.world.queue.db.deadJobs.rows.length = 0) ∧
      (∀ t response, c.threads t = .done (.written (.ok response)) → Accepted response c.world) ∧
        ∀ batch ∈ c.world.enqueued, BatchKept workerSetup batch c.world := by
  have hkept := @accepted_kept workerSetup workerEnv workerSetup_deployed writerAndWorker
    (oneAfterTheOther 40)
  dsimp only at hkept ⊢
  generalize hc : run (annalist workerSetup).step (localSystem workerSetup workerEnv writerAndWorker)
    (oneAfterTheOther 40) = c at hkept ⊢
  obtain ⟨⟨-, hempty⟩, htokens, hbatches⟩ := writerAndWorker_run hc.symm
  have hfresh : Fresh workerEnv c.world := by
    refine ⟨htokens, hbatches, fun batch hbatch => ?_⟩
    rw [hempty.1] at hbatch
    obtain rfl := List.mem_singleton.mp hbatch
    exact parse_deletionBatch
  exact ⟨hempty, hkept hfresh⟩

end LTSearch
