/-
# LTSearch.Sqlite.Delivery -- how often a job is delivered

A delivery ends in one of three ways: an ack, a nack, or a `receive` that finds its lease run out.
Only the second counts.  `nack` raises `attempts` and dead-letters the job at `max_attempts`; the
reclaiming `UPDATE` of `receive` makes the row ready again and leaves `attempts` where it was.  So a
job is delivered at most `max_attempts` times plus once for every lease of it that was reclaimed,
and a job whose consumers all die is delivered for ever.
-/
import LTSearch.Sqlite.Conservation

namespace LTSearch

open LTSearch.Foundation

/-! ## Leases reclaimed -/

/-- `true` when the call is a `receive` that returned and whose first `UPDATE` gave the row of batch
`b` back. -/
def reclaimsLease (source : SqliteBuildJobSource) (b : String) (w : Watched)
    (event : QueueCall × Faults) : Bool :=
  match event.1 with
  | .receive now draw =>
      (match LTSearch.receive source now draw event.2 w.db with
        | .ok _ _ => true
        | .error _ _ => false) &&
      (w.db.job b).any (leaseExpired (wrapI64 (now.val - source.leaseMs)))
  | _ => false

/-- How many leases of batch `b` are reclaimed in a run that starts at `w`. -/
def reclaims (source : SqliteBuildJobSource) (b : String) :
    Watched → List (QueueCall × Faults) → Nat
  | _, [] => 0
  | w, event :: rest =>
      (reclaimsLease source b w event).toNat + reclaims source b (w.step source event) rest

theorem reclaims_append (source : SqliteBuildJobSource) (b : String) (w : Watched)
    (calls more : List (QueueCall × Faults)) :
    reclaims source b w (calls ++ more) =
      reclaims source b w calls + reclaims source b (run (Watched.step source) w calls) more := by
  induction calls generalizing w with
  | nil => exact (Nat.zero_add _).symm
  | cons event rest ih =>
      rw [List.cons_append, reclaims, ih, reclaims, run_cons]
      omega

/-! ## The count -/

/-- With `n` leases of batch `b` reclaimed so far, this is what the number of its deliveries tells:
none before it is enqueued, one per failure while its row is ready, one more while it is claimed. -/
structure Counted (source : SqliteBuildJobSource) (b : String) (n : Nat) (w : Watched) : Prop where
  unknown : b ∉ w.enqueuedIds → (w.ledger.openedFor b).length = 0 ∧ n = 0
  ready : ∀ r, w.db.job b = some r → r.state = .ready →
    (w.ledger.openedFor b).length = w.ledger.nacks b + n
  claimed : ∀ r, w.db.job b = some r → r.state = .claimed →
    (w.ledger.openedFor b).length = w.ledger.nacks b + n + 1
  gone : w.db.job b = none → (w.ledger.openedFor b).length ≤ source.maxAttempts + n

namespace Counted

variable {source : SqliteBuildJobSource} {b : String} {n : Nat} {w : Watched}

theorem init : Counted source b 0 .init where
  unknown := fun _ => ⟨rfl, rfl⟩
  ready := fun r hr => by cases hr
  claimed := fun r hr => by cases hr
  gone := fun _ => Nat.zero_le _

/-- Attempts are left while there is a row, so the bound holds at every place. -/
theorem le (h : Counted source b n w) (hq : QueueInv source w) :
    (w.ledger.openedFor b).length ≤ source.maxAttempts + n := by
  cases hr : w.db.job b with
  | none => exact h.gone hr
  | some r =>
      obtain ⟨-, hlt⟩ := hq.attempts b r hr
      cases hstate : r.state with
      | ready =>
          have hcount := h.ready r hr hstate
          omega
      | claimed =>
          have hcount := h.claimed r hr hstate
          omega

theorem putSegment (h : Counted source b n w) (key : String) (data : ByteArray) :
    Counted source b n (w.putSegment key data) :=
  ⟨h.unknown, h.ready, h.claimed, h.gone⟩

/-- A batch that is enqueued for the first time starts at zero. -/
theorem enqueue (h : Counted source b n w) (hp : Placed w)
    {batch : QueueBatch} (hnew : batch.batchId ∉ w.enqueuedIds) :
    Counted source b n (w.enqueue batch) := by
  have hopened : (w.enqueue batch).ledger.openedFor b = w.ledger.openedFor b := rfl
  have hjob : (w.enqueue batch).db.job b =
      if batch.batchId = b then some (((w.db.job b).map (reenqueue batch)).getD (freshRow batch))
      else w.db.job b := job_putJob batch b
  by_cases hb : batch.batchId = b
  · subst hb
    have hnone : w.db.job batch.batchId = none := by
      by_contra hsome
      obtain ⟨r, hr⟩ := Option.ne_none_iff_exists'.mp hsome
      exact hnew (hp.jobKnown _ r hr)
    rw [if_pos rfl, hnone] at hjob
    obtain ⟨hzero, hn⟩ := h.unknown hnew
    have hnacks : (w.enqueue batch).ledger.nacks batch.batchId = 0 := if_pos rfl
    refine ⟨fun hout => absurd List.mem_cons_self hout, ?_, ?_, ?_⟩
    · intro r hr hready
      rw [hopened, hnacks]
      omega
    · intro r hr hclaimed
      rw [hjob] at hr
      cases hr
      cases hclaimed
    · intro hgone
      rw [hjob] at hgone
      cases hgone
  · rw [if_neg hb] at hjob
    have hnacks : (w.enqueue batch).ledger.nacks b = w.ledger.nacks b := if_neg (Ne.symm hb)
    refine ⟨fun hout => h.unknown fun hin => hout (List.mem_cons_of_mem _ hin), ?_, ?_, ?_⟩
    · intro r hr hready
      rw [hopened, hnacks]
      exact h.ready r (hjob ▸ hr) hready
    · intro r hr hclaimed
      rw [hopened, hnacks]
      exact h.claimed r (hjob ▸ hr) hclaimed
    · intro hgone
      rw [hopened]
      exact h.gone (hjob ▸ hgone)

/-- Reclaiming ends the delivery of a row whose lease ran out, and counts nothing. -/
theorem reclaim (h : Counted source b n w) (hp : Placed w) (now : Millis) :
    Counted source b
      (n + ((w.db.job b).any (leaseExpired (wrapI64 (now.val - source.leaseMs)))).toNat)
      (w.reclaim source now) := by
  have hjob : (w.reclaim source now).db.job b = (w.db.job b).map fun r =>
      if leaseExpired (wrapI64 (now.val - source.leaseMs)) r then released r else r :=
    job_reclaimExpired _
  cases hr₀ : w.db.job b with
  | none =>
      rw [hr₀] at hjob
      refine ⟨h.unknown, ?_, ?_, ?_⟩
      · intro r hr
        rw [hjob] at hr
        cases hr
      · intro r hr
        rw [hjob] at hr
        cases hr
      · intro _
        exact (h.gone hr₀).trans (Nat.add_le_add_left (Nat.le_add_right _ _) _)
  | some r₀ =>
      have hknown := hp.jobKnown b r₀ hr₀
      rw [hr₀, Option.map_some] at hjob
      by_cases hexpired : leaseExpired (wrapI64 (now.val - source.leaseMs)) r₀ = true
      · -- the one place where a delivery ends and `attempts` does not move
        have hclaimed := (leaseExpired_iff.mp hexpired).1
        have hcount := h.claimed r₀ hr₀ hclaimed
        rw [if_pos hexpired] at hjob
        rw [Option.any_some, hexpired]
        refine ⟨fun hout => absurd hknown hout, ?_, ?_, ?_⟩
        · intro r _ _
          show (w.ledger.openedFor b).length = w.ledger.nacks b + (n + 1)
          omega
        · intro r hr hstate
          rw [hjob] at hr
          cases hr
          cases hstate
        · intro hgone
          rw [hjob] at hgone
          cases hgone
      · rw [if_neg hexpired, ← hr₀] at hjob
        have hfalse := eq_false_of_ne_true hexpired
        rw [Option.any_some, hfalse]
        refine ⟨h.unknown, ?_, ?_, ?_⟩
        · intro r hr hready
          exact h.ready r (hjob ▸ hr) hready
        · intro r hr hclaimed
          exact h.claimed r (hjob ▸ hr) hclaimed
        · intro hgone
          exact h.gone (hjob ▸ hgone)

/-- A claim opens one delivery of a batch whose row is due. -/
theorem openedFor_claim (now : Millis) (draw : String → String) :
    ((w.claim now draw).ledger.openedFor b).length =
      (w.ledger.openedFor b).length + ((w.db.job b).any (due now.val)).toNat := by
  have hrows : (w.db.buildJobs.rows.filter (due now.val)).filter (fun r => r.batchId = b) =
      ((w.db.job b).filter (due now.val)).toList := by
    rw [List.filter_comm, Table.filter_key]
    show ((w.db.job b).toList).filter (due now.val) = _
    cases w.db.job b with
    | none => rfl
    | some r => by_cases hdue : due now.val r = true <;> simp [Option.filter, hdue]
  have hnew : ((w.db.deliveries now.val draw).filter fun d => d.batchId = b).length =
      ((w.db.job b).any (due now.val)).toNat := by
    unfold LocalDb.deliveries
    rw [List.filter_map, List.length_map]
    show ((w.db.buildJobs.rows.filter (due now.val)).filter (fun r => r.batchId = b)).length = _
    rw [hrows]
    cases w.db.job b with
    | none => rfl
    | some r => by_cases hdue : due now.val r = true <;> simp [Option.filter, hdue]
  show ((w.ledger.opened ++ w.db.deliveries now.val draw).filter fun d => d.batchId = b).length = _
  rw [List.filter_append, List.length_append, hnew]
  rfl

/-- A claim opens one delivery of a ready row and makes it a claimed one. -/
theorem claim (h : Counted source b n w) (hp : Placed w) (now : Millis) (draw : String → String) :
    Counted source b n (w.claim now draw) := by
  have hopened := openedFor_claim (w := w) (b := b) now draw
  have hjob : (w.claim now draw).db.job b = (w.db.job b).map fun r =>
      if due now.val r then claimedAs now.val draw r else r := job_claimDue _ _
  cases hr₀ : w.db.job b with
  | none =>
      rw [hr₀] at hjob hopened
      refine ⟨fun hout => ⟨hopened.trans (h.unknown hout).1, (h.unknown hout).2⟩, ?_, ?_, ?_⟩
      · intro r hr
        rw [hjob] at hr
        cases hr
      · intro r hr
        rw [hjob] at hr
        cases hr
      · intro _
        exact hopened.trans_le (h.gone hr₀)
  | some r₀ =>
      have hknown := hp.jobKnown b r₀ hr₀
      rw [hr₀, Option.map_some] at hjob
      rw [hr₀, Option.any_some] at hopened
      refine ⟨fun hout => absurd hknown hout, ?_, ?_, ?_⟩
      · intro r hr hready
        rw [hjob] at hr
        cases hr
        by_cases hdue : due now.val r₀ = true
        · rw [if_pos hdue] at hready
          cases hready
        · rw [if_neg hdue] at hready
          rw [hopened, eq_false_of_ne_true hdue]
          exact h.ready r₀ hr₀ hready
      · intro r hr hclaimed
        rw [hjob] at hr
        cases hr
        by_cases hdue : due now.val r₀ = true
        · rw [hopened, hdue, h.ready r₀ hr₀ (due_iff.mp hdue).1]
          rfl
        · rw [if_neg hdue] at hclaimed
          rw [hopened, eq_false_of_ne_true hdue]
          exact h.claimed r₀ hr₀ hclaimed
      · intro hgone
        rw [hjob] at hgone
        cases hgone

/-- An ack leaves no row of its batch. -/
theorem ack (h : Counted source b n w) (hq : QueueInv source w) (receipt : String) :
    Counted source b n (w.ack receipt) := by
  rcases QueueInv.live_or_stale w receipt with ⟨d, hd, rfl⟩ | hstale
  swap
  · rw [hq.ack_of_stale hstale]
    exact h
  have hjob := hq.job_ack_of_live hd b
  by_cases hb : d.batchId = b
  · rw [if_pos hb] at hjob
    refine ⟨h.unknown, ?_, ?_, fun _ => h.le hq⟩
    · intro r hr
      rw [hjob] at hr
      cases hr
    · intro r hr
      rw [hjob] at hr
      cases hr
  · rw [if_neg hb] at hjob
    exact ⟨h.unknown, fun r hr => h.ready r (hjob ▸ hr), fun r hr => h.claimed r (hjob ▸ hr),
      fun hgone => h.gone (hjob ▸ hgone)⟩

/-- A nack counts the delivery it ends. -/
theorem nack (h : Counted source b n w) (hq : QueueInv source w) (now : Millis)
    (receipt error : String) : Counted source b n (w.nack source now receipt error) := by
  rcases QueueInv.live_or_stale w receipt with ⟨d, hd, rfl⟩ | hstale
  swap
  · rw [hq.nack_of_stale hstale]
    exact h
  have hjob := hq.job_nack_of_live hd now error b
  have hnacks : (w.nack source now d.token error).ledger.nacks b =
      if d.batchId = b then w.ledger.nacks b + 1 else w.ledger.nacks b := hq.nacks_nack_of_live hd b
  by_cases hb : d.batchId = b
  · subst hb
    obtain ⟨r₀, hr₀, hclaimed, -⟩ := hq.held d hd
    have hcount := h.claimed r₀ hr₀ hclaimed
    rw [if_pos rfl] at hnacks
    refine ⟨h.unknown, ?_, ?_, fun _ => h.le hq⟩
    · intro r _ _
      show (w.ledger.openedFor d.batchId).length = _
      omega
    · intro r hr hstate
      rcases hq.row_nack hd hr with ⟨-, r₁, -, -, rfl⟩ | ⟨hne, -⟩
      · cases hstate
      · exact absurd rfl hne
  · rw [if_neg hb] at hjob hnacks
    refine ⟨h.unknown, ?_, ?_, fun hgone => h.gone (hjob ▸ hgone)⟩
    · intro r hr hready
      rw [hnacks]
      exact h.ready r (hjob ▸ hr) hready
    · intro r hr hclaimed
      rw [hnacks]
      exact h.claimed r (hjob ▸ hr) hclaimed

/-- One call, with the leases it reclaims added to the count. -/
theorem step (h : Counted source b n w) (hq : QueueInv source w) (hp : Placed w)
    (event : QueueCall × Faults) (hids : (w.step source event).enqueuedIds.Nodup) :
    Counted source b (n + (reclaimsLease source b w event).toNat) (w.step source event) := by
  obtain ⟨call, faults⟩ := event
  cases call with
  | receive now draw =>
      cases hr : LTSearch.receive source now draw faults w.db with
      | error e db =>
          have hsame : w.step source (.receive now draw, faults) = w := by
            simp only [Watched.step, Watched.keep, hr, atomic_receive draw _ _ _ hr]
          have hnone : reclaimsLease source b w (.receive now draw, faults) = false := by
            simp [reclaimsLease, hr]
          rw [hsame, hnone]
          exact h
      | ok jobs db =>
          have heffect : w.step source (.receive now draw, faults) =
              (w.reclaim source now).claim now draw := by
            simp only [Watched.step, Watched.keep, hr]
            rw [(receive_eq_ok hr).1, (receive_eq_ok hr).2, LocalDb.answered_claimedJobs]
            rfl
          have hcount : reclaimsLease source b w (.receive now draw, faults) =
              (w.db.job b).any (leaseExpired (wrapI64 (now.val - source.leaseMs))) := by
            simp [reclaimsLease, hr]
          rw [heffect, hcount]
          exact (h.reclaim hp now).claim (hp.reclaim now) now draw
  | enqueue batch =>
      show Counted source b n _
      rcases Watched.step_cases source w (.enqueue batch, faults) with heq | heq
      · rw [heq]
        exact h
      · rw [heq] at hids ⊢
        exact h.enqueue hp (List.nodup_cons.mp hids).1
  | appendAndEnqueue walKey walBytes batch =>
      show Counted source b n _
      rcases Watched.step_cases source w (.appendAndEnqueue walKey walBytes batch, faults)
        with heq | heq
      · rw [heq]
        exact h
      · rw [heq] at hids ⊢
        exact (h.putSegment _ _).enqueue (hp.putSegment _ _) (List.nodup_cons.mp hids).1
  | ack receipt =>
      show Counted source b n _
      rcases Watched.step_cases source w (.ack receipt, faults) with heq | heq
      · rw [heq]
        exact h
      · rw [heq]
        exact h.ack hq receipt
  | nack now receipt error =>
      show Counted source b n _
      rcases Watched.step_cases source w (.nack now receipt error, faults) with heq | heq
      · rw [heq]
        exact h
      · rw [heq]
        exact h.nack hq now receipt error

end Counted

/-! ## Whole runs -/

section Runs

variable {source : SqliteBuildJobSource}

/-- After every run the deliveries of a batch are counted, its reclaimed leases included. -/
theorem counted_run (b : String) (calls : List (QueueCall × Faults))
    (hfresh : (queueAfter source calls).ledger.issued.Nodup)
    (hids : (queueAfter source calls).enqueuedIds.Nodup) :
    Counted source b (reclaims source b .init calls) (queueAfter source calls) := by
  induction calls using List.reverseRecOn with
  | nil => exact Counted.init
  | append_singleton calls event ih =>
      have hlast : queueAfter source (calls ++ [event]) =
          (queueAfter source calls).step source event := run_append _ _ _
      rw [hlast] at hfresh hids ⊢
      have hfresh' := nodup_issued_of_step source _ event hfresh
      have hids' := nodup_enqueuedIds_of_step _ event hids
      obtain ⟨hq, hp⟩ := placed_run calls hfresh' hids'
      rw [reclaims_append]
      exact (ih hfresh' hids').step hq hp event hids

/-- A job is delivered at most `max_attempts` times plus once per lease of it that was reclaimed. -/
theorem openedFor_le_reclaims (b : String) (calls : List (QueueCall × Faults))
    (hfresh : (queueAfter source calls).ledger.issued.Nodup)
    (hids : (queueAfter source calls).enqueuedIds.Nodup) :
    ((queueAfter source calls).ledger.openedFor b).length ≤
      source.maxAttempts + reclaims source b .init calls :=
  (counted_run b calls hfresh hids).le (placed_run calls hfresh hids).1

/-- Job `b` is delivered within its attempts: never more often, and once they are used up it does
not wait for another delivery. -/
structure WithinAttempts (source : SqliteBuildJobSource) (b : String) (w : Watched) : Prop where
  count : (w.ledger.openedFor b).length ≤ source.maxAttempts
  last : (w.ledger.openedFor b).length = source.maxAttempts → ¬w.Stands b .ready

theorem counted_withinAttempts {b : String} {w : Watched} (h : Counted source b 0 w)
    (hq : QueueInv source w) : WithinAttempts source b w where
  count := h.le hq
  last := by
    rintro hlast ⟨r, hr, hready⟩
    have hcount := h.ready r hr hready
    obtain ⟨-, hlt⟩ := hq.attempts b r hr
    omega

/-- Whatever producers and consumers do: a job is delivered at most `max_attempts` times plus once per
lease of it that was reclaimed, and where none is reclaimed it is, after any part of the run, delivered
within its attempts. -/
theorem delivery_bounded (b : String) (calls : List (QueueCall × Faults))
    (hfresh : (queueAfter source calls).ledger.issued.Nodup)
    (hids : (queueAfter source calls).enqueuedIds.Nodup) :
    ((queueAfter source calls).ledger.openedFor b).length ≤
        source.maxAttempts + reclaims source b .init calls ∧
      (reclaims source b .init calls = 0 →
        ∀ before, before <+: calls → WithinAttempts source b (queueAfter source before)) := by
  refine ⟨openedFor_le_reclaims b calls hfresh hids, ?_⟩
  rintro hnone before ⟨rest, rfl⟩
  have happend : queueAfter source (before ++ rest) =
      run (Watched.step source) (queueAfter source before) rest := run_append _ _ _
  rw [happend] at hfresh hids
  have hfresh' := nodup_issued_of_run rest hfresh
  have hids' : (queueAfter source before).enqueuedIds.Nodup :=
    good_of_run (fun w : Watched => w.enqueuedIds.Nodup) nodup_enqueuedIds_of_step rest hids
  have hzero : reclaims source b .init before = 0 := by
    rw [reclaims_append] at hnone
    exact (Nat.add_eq_zero_iff.mp hnone).1
  have hcounted := counted_run b before hfresh' hids'
  rw [hzero] at hcounted
  exact counted_withinAttempts hcounted (placed_run before hfresh' hids').1

end Runs

theorem delivery_bounded_retriedJob :
    WithinAttempts .default "batch-1" (queueAfter .default retriedJob) :=
  (delivery_bounded "batch-1" retriedJob (by decide) (by decide)).2 (by decide) _ (List.prefix_refl _)

/-- A job whose consumer dies every time: nobody acks, nobody nacks, the lease runs out. -/
def fatalJob : List (QueueCall × Faults) :=
  [(.enqueue retriedBatch, .none),
    (.receive ⟨0, by decide, by decide⟩ (fun _ => "9f86d081884c7d659a2feaa0c55ad015"), .none),
    (.receive ⟨300000, by decide, by decide⟩ (fun _ => "a3bf4f1b2b0b822cd15d6c15b0f00a08"), .none),
    (.receive ⟨600000, by decide, by decide⟩ (fun _ => "6b86b273ff34fce19d6b804eff5a3f57"), .none),
    (.receive ⟨900000, by decide, by decide⟩ (fun _ => "d4735e3a265e16eee03f59718b9b5d03"), .none)]

/-- With three attempts allowed it is delivered a fourth time and is not among the dead jobs. -/
theorem fatal_job_delivered_again :
    (queueAfter .default fatalJob).ledger.issued.Nodup ∧
    (queueAfter .default fatalJob).enqueuedIds.Nodup ∧
    ¬WithinAttempts .default "batch-1" (queueAfter .default fatalJob) ∧
    ((queueAfter .default fatalJob).ledger.openedFor "batch-1").length = 4 ∧
    (queueAfter .default fatalJob).db.dead "batch-1" = none := by
  have hfour : ((queueAfter .default fatalJob).ledger.openedFor "batch-1").length = 4 := by decide
  refine ⟨by decide, by decide, ?_, hfour, by decide⟩
  intro h
  have hle := h.count
  rw [hfour] at hle
  exact absurd hle (by decide)

end LTSearch
